import GossipLedger.Dump
import GossipLedger.Json.Reader

/-!
# The ledger in JSON

The JSON forms of clocks, kinds, operations and dumps.  A clock and the balances of a dump are
objects from names to counts, a kind is an object that begins with its name, and the other forms
are objects with one member for each field.

Reading takes the members of a form in any order and passes over members that it does not know.
It also takes an array that holds the fields in their order.  Of two counts under one name the last
is taken; no other member may occur twice.
-/

namespace GossipLedger

namespace Json

/-! ### Parts of all forms -/

/-- A string value. -/
def string? : Json → Option String
  | string s => some s
  | _ => none

/-- A truth value. -/
def bool? : Json → Option Bool
  | bool b => some b
  | _ => none

/-- A count: an integer from zero to the largest value of 64 bits. -/
def count? : Json → Option UInt64
  | integer n => if 0 ≤ n ∧ n.toNat < UInt64.size then some (.ofNat n.toNat) else none
  | _ => none

/-- An amount: an integer of 64 bits with a sign. -/
def amount? : Json → Option Int64
  | integer n =>
    if Int64.minValue.toInt ≤ n ∧ n ≤ Int64.maxValue.toInt then some (.ofInt n) else none
  | _ => none

/-- The JSON form of counts under names. -/
def ofCounts (m : NameMap UInt64) : Json :=
  object (m.entries.map fun e => (e.1, integer e.2.toNat))

/-- Counts under names. -/
def counts? : Json → Option (NameMap UInt64)
  | object members =>
    (members.mapM fun (m : String × Json) => m.2.count?.map (Prod.mk m.1)).map .ofList
  | _ => none

/-- The values of the fields of a form, in the order of `names`. -/
def fields? (names : List String) : Json → Option (List Json)
  | object members => names.mapM fun name =>
    match members.filter (·.1 = name) with
    | [(_, value)] => some value
    | _ => none
  | array items => if items.length = names.length then some items else none
  | _ => none

end Json

namespace Clock

/-- The JSON form of a clock. -/
def toJson (c : Clock) : Json :=
  .ofCounts c.counters

/-- Reads the JSON form of a clock. -/
def ofJson? (j : Json) : Option Clock :=
  j.counts?.map Clock.mk

end Clock

namespace Kind

/-- The JSON form of a kind. -/
def toJson : Kind → Json
  | create account => .object [("kind", .string "create_account"), ("account", .string account)]
  | delete account => .object [("kind", .string "delete_account"), ("account", .string account)]
  | transfer source target amount =>
    .object [("kind", .string "transfer"), ("from", .string source), ("to", .string target),
      ("amount", .integer amount.toInt)]

/-- Reads the fields of a kind with a given name. -/
def ofFields? (name : String) (rest : Json) : Option Kind :=
  if name = "create_account" then do
    let [account] ← rest.fields? ["account"] | failure
    return create (← account.string?)
  else if name = "delete_account" then do
    let [account] ← rest.fields? ["account"] | failure
    return delete (← account.string?)
  else if name = "transfer" then do
    let [source, target, amount] ← rest.fields? ["from", "to", "amount"] | failure
    return transfer (← source.string?) (← target.string?) (← amount.amount?)
  else failure

/-- How many arrays and objects may stand in each other where a kind is read. -/
def nestingLimit : Nat :=
  127

/-- Whether the members of a kind can be kept until its name is known: they are not nested too
deeply, at `level` levels inside the text, their numbers are within range, and their strings are
texts. -/
def isKept (level : Nat) (value : Json) : Bool :=
  level + value.height ≤ nestingLimit && value.isPlain

/-- Reads the JSON form of a kind that stands at `level` levels inside the text. -/
def ofJson? (level : Nat) : Json → Option Kind
  | .object members =>
    match members.partition (·.1 = "kind") with
    | ([(_, .string name)], rest) =>
      if rest.all (isKept level ·.2) then ofFields? name (.object rest) else none
    | _ => none
  | .array (.string name :: rest) =>
    if rest.all (isKept level) then ofFields? name (.array rest) else none
  | _ => none

end Kind

namespace Operation

/-- The names of the fields of an operation. -/
def fieldNames : List String :=
  ["kind", "origin", "causal_context", "origin_timestamp", "stable"]

/-- The JSON form of an operation. -/
def toJson (op : Operation) : Json :=
  .object (fieldNames.zip [op.kind.toJson, .string op.origin, op.context.toJson,
    op.timestamp.toJson, .bool op.stable])

/-- Reads the JSON form of an operation that stands at `level` levels inside the text. -/
def ofJson? (level : Nat) (j : Json) : Option Operation := do
  let [kind, origin, context, timestamp, stable] ← j.fields? fieldNames | failure
  return {
    kind := ← Kind.ofJson? (level + 1) kind
    origin := ← origin.string?
    context := ← Clock.ofJson? context
    timestamp := ← Clock.ofJson? timestamp
    stable := ← stable.bool? }

end Operation

namespace Dump

/-- The names of the fields of a dump. -/
def fieldNames : List String :=
  ["replica", "active", "clock", "balances", "operations"]

/-- The JSON form of a dump. -/
def toJson (d : Dump) : Json :=
  .object (fieldNames.zip [.string d.replica, .bool d.active, d.clock.toJson, .ofCounts d.balances,
    .array (d.operations.map Operation.toJson)])

/-- Reads the JSON form of a dump. -/
def ofJson? (j : Json) : Option Dump := do
  let [replica, active, clock, balances, .array operations] ← j.fields? fieldNames | failure
  return {
    replica := ← replica.string?
    active := ← active.bool?
    clock := ← Clock.ofJson? clock
    balances := ← balances.counts?
    operations := ← operations.mapM (Operation.ofJson? 3) }

end Dump

end GossipLedger
