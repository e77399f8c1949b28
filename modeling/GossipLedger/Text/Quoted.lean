import GossipLedger.Text.Extending
import GossipLedger.Text.Ignorable
import GossipLedger.Text.Unprintable

/-!
# Quoted texts

`Text.quoted` writes a text between quotes in such a way that each of its characters can be seen:
quotes and backslashes are escaped, and so is a character that has no form of its own, that may be
passed over in display, or that would be drawn on the character before it.
-/

namespace GossipLedger

namespace Text

/-- The sound marks of halfwidth katakana.  They extend the character before them, but take a place
of their own. -/
def isSoundMark (ch : Char) : Bool :=
  ch = '\uff9e' ∨ ch = '\uff9f'

/-- Whether a character would not be seen as what it is. -/
def isHidden (ch : Char) : Bool :=
  unprintable.contains ch || ignorable.contains ch || (extending.contains ch && !isSoundMark ch)

/-- A character inside a quoted text.  A hidden one is written by its code point, unless it has a
letter of its own. -/
def quotedChar (ch : Char) : String :=
  match ch with
  | '"' => "\\\""
  | '\\' => "\\\\"
  | '\n' => "\\n"
  | '\r' => "\\r"
  | '\t' => "\\t"
  | '\x00' => "\\0"
  | ch =>
    if isHidden ch then "\\u\x7b" ++ String.ofList (Nat.toDigits 16 ch.toNat) ++ "\x7d"
    else ch.toString

/-- A text in quotes. -/
def quoted (s : String) : String :=
  "\"" ++ String.join (s.toList.map quotedChar) ++ "\""

end Text

end GossipLedger
