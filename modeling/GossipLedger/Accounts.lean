import GossipLedger.Error

/-!
# Accounts

`Accounts` holds the balance of every open account.  A kind of operation meets it twice.
`Accounts.admission` decides whether a replica accepts the operation from a client and names what
stands against it.  `Accounts.execute` carries out an operation that has become stable: it cannot
refuse, and where a precondition no longer holds it leaves the accounts as they are and says why.

Balances have 64 bits.  Money only moves between accounts or leaves with a deleted one, so the
sum of a payment is at most the money that the broker started with, and no addition wraps.
-/

namespace GossipLedger

/-- The balances of the open accounts. -/
structure Accounts where
  /-- The balance of each account. -/
  balances : NameMap UInt64
  deriving DecidableEq, Inhabited

/-- Why a stable operation had no effect. -/
inductive SkipReason where
  /-- The account to open exists. -/
  | alreadyExists
  /-- An account does not exist. -/
  | notFound
  /-- The account to close is the broker's. -/
  | guarded
  /-- The two accounts of a transfer are the same. -/
  | sameAccount
  /-- The amount of a transfer is zero or less. -/
  | nonPositiveAmount
  /-- The paying account holds less than the amount. -/
  | insufficientFunds
  deriving DecidableEq

/-- The name of a reason. -/
def SkipReason.name : SkipReason → String
  | alreadyExists => "AlreadyExists"
  | notFound => "NotFound"
  | guarded => "Protected"
  | sameAccount => "SameAccount"
  | nonPositiveAmount => "NonPositiveAmount"
  | insufficientFunds => "InsufficientFunds"

/-- What became of a stable operation. -/
inductive Outcome where
  /-- It changed the accounts. -/
  | applied
  /-- It had no effect. -/
  | skipped (reason : SkipReason)
  deriving DecidableEq

namespace Accounts

/-- The accounts of a fresh ledger: all money is the broker's. -/
def seeded (money : UInt64) : Accounts :=
  ⟨(∅ : NameMap UInt64).insert AccountId.broker money⟩

/-- The balance of an account, if it is open. -/
def balance? (a : Accounts) (account : AccountId) : Option UInt64 :=
  a.balances.get? account

/-- Whether an account is open. -/
def contains (a : Accounts) (account : AccountId) : Bool :=
  a.balances.contains account

/-- The number of open accounts. -/
def size (a : Accounts) : Nat :=
  a.balances.size

/-- The open accounts with their balances, by name. -/
def toList (a : Accounts) : List (AccountId × UInt64) :=
  a.balances.entries

/-- The sum of all balances. -/
def total (a : Accounts) : UInt64 :=
  a.balances.values.foldl (· + ·) 0

/-- The sum of all balances as a number without bound. -/
def exactTotal (a : Accounts) : Nat :=
  a.balances.values.foldr (fun balance sum => balance.toNat + sum) 0

/-! ### Admission -/

/-- The balance of an account that has to be open. -/
def require (a : Accounts) (account : AccountId) : Result UInt64 :=
  match a.balance? account with
  | some balance => .ok balance
  | none => .error (.accountNotFound account)

/-- Whether an operation may be accepted with the balances as they are. -/
def admission (a : Accounts) : Kind → Result Unit
  | .create account =>
    if a.contains account then .error (.accountAlreadyExists account) else .ok ()
  | .delete account => do
    let balance ← a.require account
    if account.isBroker then .error (.protectedAccount account)
    else if balance ≠ 0 then .error (.accountNotEmpty account balance)
    else .ok ()
  | .transfer source target amount => do
    let balance ← a.require source
    let _ ← a.require target
    if amount ≤ 0 then .error (.nonPositiveAmount amount)
    else if source = target then .error (.sameAccount source)
    else if balance < amount.toUInt64 then .error (.insufficientFunds source balance amount)
    else .ok ()

/-! ### Execution -/

/-- The accounts after an amount has moved from one to another. -/
def pay (a : Accounts) (source target : AccountId) (held owned amount : UInt64) : Accounts :=
  ⟨(a.balances.insert source (held - amount)).insert target (owned + amount)⟩

/-- Carries out an operation, or leaves the accounts as they are and tells why. -/
def execute (a : Accounts) : Kind → Outcome × Accounts
  | .create account =>
    if a.contains account then (.skipped .alreadyExists, a)
    else (.applied, ⟨a.balances.insert account 0⟩)
  | .delete account =>
    if account.isBroker then (.skipped .guarded, a)
    else if a.contains account then (.applied, ⟨a.balances.erase account⟩)
    else (.skipped .notFound, a)
  | .transfer source target amount =>
    if source = target then (.skipped .sameAccount, a)
    else
      match a.balance? source, a.balance? target with
      | some held, some owned =>
        if amount ≤ 0 then (.skipped .nonPositiveAmount, a)
        else if held < amount.toUInt64 then (.skipped .insufficientFunds, a)
        else (.applied, a.pay source target held owned amount.toUInt64)
      | _, _ => (.skipped .notFound, a)

/-- The accounts after a list of operations. -/
def replay (a : Accounts) (kinds : List Kind) : Accounts :=
  kinds.foldl (fun a kind => (a.execute kind).2) a

end Accounts

end GossipLedger
