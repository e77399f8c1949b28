import GossipLedger.Json

/-!
# Reading JSON

`Json.parse?` reads a text that holds one JSON value and, before and after it, nothing but blanks.
It is strict: control characters in strings have to be escaped, a number has neither a leading zero
nor a bare point, and no comma stands before a closing bracket.  An escape that is half of a
surrogate pair without its other half is well formed, but leaves nothing that can be used.  Of a
long number the last digits may be lost.

Every step of a value consumes a character, so the length of the text bounds the number of steps.
-/

namespace GossipLedger

namespace Json

/-- Drops the blanks at the beginning. -/
def skipBlanks : List Char → List Char :=
  List.dropWhile fun ch => ch = ' ' ∨ ch = '\n' ∨ ch = '\t' ∨ ch = '\r'

/-! ### Strings -/

/-- The value of a hexadecimal digit. -/
def hexDigit? (ch : Char) : Option Nat :=
  if ch.isDigit then some (ch.toNat - '0'.toNat)
  else if 'a' ≤ ch ∧ ch ≤ 'f' then some (ch.toNat - 'a'.toNat + 10)
  else if 'A' ≤ ch ∧ ch ≤ 'F' then some (ch.toNat - 'A'.toNat + 10)
  else none

/-- The number that four hexadecimal digits write. -/
def hexQuad? (a b c d : Char) : Option Nat := do
  return (((← hexDigit? a) * 16 + (← hexDigit? b)) * 16 + (← hexDigit? c)) * 16 + (← hexDigit? d)

/-- The character that stands behind a backslash, except for `u`. -/
def escaped? (ch : Char) : Option Char :=
  match ch with
  | '"' => some '"'
  | '\\' => some '\\'
  | '/' => some '/'
  | 'b' => some '\x08'
  | 'f' => some '\x0c'
  | 'n' => some '\n'
  | 'r' => some '\r'
  | 't' => some '\t'
  | _ => none

/-- Whether a number is a surrogate. -/
def isSurrogate (n : Nat) : Bool :=
  0xD800 ≤ n && n < 0xE000

/-- The character of two surrogates. -/
def surrogatePair? (high low : Nat) : Option Char :=
  if 0xD800 ≤ high ∧ high < 0xDC00 ∧ 0xDC00 ≤ low ∧ low < 0xE000 then
    some (Char.ofNat (0x10000 + (high - 0xD800) * 0x400 + (low - 0xDC00)))
  else none

/-- The text of code points, in which each surrogate has to be one of a pair; `read` holds the
characters before, the last one first. -/
def joinSurrogates? (read : List Char) : List Nat → Option String
  | [] => some (String.ofList read.reverse)
  | [n] => if isSurrogate n then none else some (String.ofList (Char.ofNat n :: read).reverse)
  | n :: m :: rest =>
    match surrogatePair? n m with
    | some ch => joinSurrogates? (ch :: read) rest
    | none =>
      if isSurrogate n then none else joinSurrogates? (Char.ofNat n :: read) (m :: rest)

/-- Reads the code points of a string from behind its opening quote; `read` holds those before, the
last one first. -/
def parseString (read : List Nat) : List Char → Option (List Nat × List Char)
  | '"' :: rest => some (read.reverse, rest)
  | '\\' :: 'u' :: a :: b :: c :: d :: rest =>
    match hexQuad? a b c d with
    | none => none
    | some n => parseString (n :: read) rest
  | '\\' :: ch :: rest =>
    match escaped? ch with
    | none => none
    | some ch => parseString (ch.toNat :: read) rest
  | ch :: rest =>
    if ch.toNat < 0x20 ∨ ch = '\\' then none else parseString (ch.toNat :: read) rest
  | [] => none

/-! ### Numbers -/

/-- The digits at the beginning, and the text behind them. -/
def spanDigits (text : List Char) : List Char × List Char :=
  text.span Char.isDigit

/-- The number that decimal digits write. -/
def ofDigits (digits : List Char) : Nat :=
  digits.foldl (fun n ch => 10 * n + (ch.toNat - '0'.toNat)) 0

/-- Reads the digits of a fraction, if there is one. -/
def parseFraction : List Char → Option (Option (List Char) × List Char)
  | '.' :: rest =>
    let (digits, rest) := spanDigits rest
    if digits.isEmpty then none else some (some digits, rest)
  | text => some (none, text)

/-- Reads the digits of an exponent. -/
def parseExponentDigits (negative : Bool) (text : List Char) :
    Option (Option Int × List Char) :=
  let (digits, rest) := spanDigits text
  if digits.isEmpty then none
  else
    let n : Int := ofDigits digits
    some (some (if negative then -n else n), rest)

/-- Reads an exponent, if there is one. -/
def parseExponent : List Char → Option (Option Int × List Char)
  | ch :: rest =>
    if ch = 'e' ∨ ch = 'E' then
      match rest with
      | '+' :: rest => parseExponentDigits false rest
      | '-' :: rest => parseExponentDigits true rest
      | rest => parseExponentDigits false rest
    else some (none, ch :: rest)
  | [] => some (none, [])

/-- Reads a number from behind its sign. -/
def parseUnsigned (negative : Bool) (text : List Char) : Option (Json × List Char) := do
  let (whole, rest) := spanDigits text
  if whole.isEmpty ∨ (whole.head? = some '0' ∧ whole.length > 1) then failure
  let (fraction, rest) ← parseFraction rest
  let (exponent, rest) ← parseExponent rest
  let (coefficient, dropped) := Number.append 0 whole
  if fraction.isNone ∧ exponent.isNone ∧ dropped = 0 ∧ ¬ (negative ∧ coefficient = 0) then
    return (.integer (if negative then -coefficient else coefficient), rest)
  let digits := fraction.getD []
  -- after a large whole part there may still be room for a small digit
  let (coefficient, unused) := Number.append coefficient digits
  let scale : Int := dropped + unused - digits.length
  return (.decimal negative coefficient (scale + exponent.getD 0), rest)

/-- Reads a number. -/
def parseNumber : List Char → Option (Json × List Char)
  | '-' :: rest => parseUnsigned true rest
  | text => parseUnsigned false text

/-! ### Values -/

/-- The value of a string with these code points. -/
def ofCodePoints (read : List Nat) : Json :=
  match joinSurrogates? [] read with
  | some s => .string s
  | none => .unpaired

/-- The value of members, each with the code points of its name. -/
def ofMembers (members : List (List Nat × Json)) : Json :=
  match members.mapM fun m => (joinSurrogates? [] m.1).map (·, m.2) with
  | some members => .object members
  | none => .unpaired

mutual

/-- Reads a value, in at most `steps` steps. -/
def parseValue : (steps : Nat) → List Char → Option (Json × List Char)
  | 0, _ => none
  | steps + 1, text =>
    match skipBlanks text with
    | 'n' :: 'u' :: 'l' :: 'l' :: rest => some (.null, rest)
    | 't' :: 'r' :: 'u' :: 'e' :: rest => some (.bool true, rest)
    | 'f' :: 'a' :: 'l' :: 's' :: 'e' :: rest => some (.bool false, rest)
    | '"' :: rest => (parseString [] rest).map fun (s, rest) => (ofCodePoints s, rest)
    | '[' :: rest =>
      match skipBlanks rest with
      | ']' :: rest => some (.array [], rest)
      | _ => parseItems steps [] rest
    | '\x7b' :: rest =>
      match skipBlanks rest with
      | '\x7d' :: rest => some (.object [], rest)
      | _ => parseMembers steps [] rest
    | text => parseNumber text

/-- Reads the items of an array and its closing bracket; `read` holds the items before, the last
one first. -/
def parseItems : (steps : Nat) → (read : List Json) → List Char → Option (Json × List Char)
  | 0, _, _ => none
  | steps + 1, read, text =>
    match parseValue steps text with
    | none => none
    | some (item, rest) =>
      match skipBlanks rest with
      | ',' :: rest => parseItems steps (item :: read) rest
      | ']' :: rest => some (.array (item :: read).reverse, rest)
      | _ => none

/-- Reads the members of an object and its closing brace; `read` holds the members before, the
last one first. -/
def parseMembers : (steps : Nat) → (read : List (List Nat × Json)) → List Char →
    Option (Json × List Char)
  | 0, _, _ => none
  | steps + 1, read, text =>
    match skipBlanks text with
    | '"' :: rest =>
      match parseString [] rest with
      | none => none
      | some (name, rest) =>
        match skipBlanks rest with
        | ':' :: rest =>
          match parseValue steps rest with
          | none => none
          | some (value, rest) =>
            match skipBlanks rest with
            | ',' :: rest => parseMembers steps ((name, value) :: read) rest
            | '\x7d' :: rest => some (ofMembers ((name, value) :: read).reverse, rest)
            | _ => none
        | _ => none
    | _ => none

end

/-- Reads a text that holds one value. -/
def parse? (text : String) : Option Json :=
  match parseValue (text.length + 1) text.toList with
  | some (value, rest) => if (skipBlanks rest).isEmpty then some value else none
  | none => none

end Json

end GossipLedger
