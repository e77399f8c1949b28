import GossipLedger.Json.Number

/-!
# JSON values and their texts

`Json` is a JSON value.  Members keep their order, and a name may occur twice.  Integers of 64 bits
are told from other numbers, since the ledger exchanges only those.  A value may be well formed
although no text can hold it (`Json.unpaired`): such a value can be passed over, but not used.

`Json.compact` writes a value without blanks, `Json.pretty` with one member or item a line.
-/

namespace GossipLedger

/-- A JSON value. -/
inductive Json where
  | null
  | bool (b : Bool)
  /-- A number of up to 64 bits written without point and exponent, other than minus zero. -/
  | integer (n : Int)
  /-- Any other number: a sign, and a coefficient of 64 bits that is scaled by a power of ten. -/
  | decimal (negative : Bool) (coefficient : Nat) (exponent : Int)
  | string (s : String)
  /-- A string with half of a surrogate pair in it, or an object with such a name. -/
  | unpaired
  | array (items : List Json)
  | object (members : List (String × Json))
  deriving Inhabited

namespace Json

/-! ### Strings -/

/-- The two hexadecimal digits of a number below 256. -/
def hexPair (n : Nat) : String :=
  String.ofList [Nat.digitChar (n / 16), Nat.digitChar (n % 16)]

/-- A character inside a JSON string. -/
def escapeChar (ch : Char) : String :=
  match ch with
  | '"' => "\\\""
  | '\\' => "\\\\"
  | '\x08' => "\\b"
  | '\x0c' => "\\f"
  | '\n' => "\\n"
  | '\r' => "\\r"
  | '\t' => "\\t"
  | ch => if ch.toNat < 0x20 then "\\u00" ++ hexPair ch.toNat else ch.toString

/-- A JSON string with its quotes. -/
def quote (s : String) : String :=
  s.foldl (fun text ch => text ++ escapeChar ch) "\"" ++ "\""

/-- A number that is no integer: coefficient and exponent. -/
def decimalText (negative : Bool) (coefficient : Nat) (exponent : Int) : String :=
  (if negative then "-" else "") ++ s!"{coefficient}e{exponent}"

/-! ### Values without blanks -/

mutual

/-- The text of a value without blanks. -/
def compact : Json → String
  | null => "null"
  | bool b => if b then "true" else "false"
  | integer n => toString n
  | decimal negative coefficient exponent => decimalText negative coefficient exponent
  | string s => quote s
  | unpaired => "\"\\ud800\""
  | array items => "[" ++ ",".intercalate (compactItems items) ++ "]"
  | object members => "\x7b" ++ ",".intercalate (compactMembers members) ++ "\x7d"

/-- The texts of items. -/
def compactItems : List Json → List String
  | [] => []
  | item :: rest => item.compact :: compactItems rest

/-- The texts of members. -/
def compactMembers : List (String × Json) → List String
  | [] => []
  | (name, value) :: rest => (quote name ++ ":" ++ value.compact) :: compactMembers rest

end

/-! ### Values on several lines -/

/-- Two spaces for each level of nesting. -/
def indent (level : Nat) : String :=
  String.ofList (List.replicate (2 * level) ' ')

/-- Texts between brackets, each on a line of its own. -/
def block (opening closing : String) (level : Nat) (texts : List String) : String :=
  if texts.isEmpty then opening ++ closing
  else
    let margin := "\n" ++ indent (level + 1)
    opening ++ margin ++ ("," ++ margin).intercalate texts ++ "\n" ++ indent level ++ closing

mutual

/-- The text of a value at a level of nesting. -/
def prettyAt (level : Nat) : Json → String
  | null => "null"
  | bool b => if b then "true" else "false"
  | integer n => toString n
  | decimal negative coefficient exponent => decimalText negative coefficient exponent
  | string s => quote s
  | unpaired => "\"\\ud800\""
  | array items => block "[" "]" level (prettyItems (level + 1) items)
  | object members => block "\x7b" "\x7d" level (prettyMembers (level + 1) members)

/-- The texts of items at a level of nesting. -/
def prettyItems (level : Nat) : List Json → List String
  | [] => []
  | item :: rest => item.prettyAt level :: prettyItems level rest

/-- The texts of members at a level of nesting. -/
def prettyMembers (level : Nat) : List (String × Json) → List String
  | [] => []
  | (name, value) :: rest =>
    (quote name ++ ": " ++ value.prettyAt level) :: prettyMembers level rest

end

/-- The text of a value with one member or item a line. -/
def pretty (j : Json) : String :=
  j.prettyAt 0

/-! ### Size of a value -/

mutual

/-- How many arrays and objects stand in each other, at most. -/
def height : Json → Nat
  | array items => heightItems items + 1
  | object members => heightMembers members + 1
  | _ => 0

/-- The greatest height of the items. -/
def heightItems : List Json → Nat
  | [] => 0
  | item :: rest => max item.height (heightItems rest)

/-- The greatest height of the members. -/
def heightMembers : List (String × Json) → Nat
  | [] => 0
  | (_, value) :: rest => max value.height (heightMembers rest)

end

mutual

/-- Whether every number in a value is within range, and every string is a text. -/
def isPlain : Json → Bool
  | decimal _ coefficient exponent => Number.isInRange coefficient exponent
  | unpaired => false
  | array items => isPlainItems items
  | object members => isPlainMembers members
  | _ => true

/-- Whether all numbers and strings in the items are. -/
def isPlainItems : List Json → Bool
  | [] => true
  | item :: rest => item.isPlain && isPlainItems rest

/-- Whether all numbers and strings in the members are. -/
def isPlainMembers : List (String × Json) → Bool
  | [] => true
  | (_, value) :: rest => value.isPlain && isPlainMembers rest

end

end Json

end GossipLedger
