import GossipLedger.Accounts

/-!
# What an operation does to the accounts

`Accounts.execute` opens an account, closes one, moves money or leaves everything as it is
(`Accounts.execute_cases`).  Its effect on a single account is told by look-ups:
`Accounts.balance?_opened`, `Accounts.balance?_closed`, `Accounts.balance?_pay`.

`Accounts.holding` is the money of an account as a number without bound, zero where there is no such
account.
-/

namespace GossipLedger

/-! ### Amounts -/

/-- A positive amount is the same number with and without a sign. -/
theorem toNat_toUInt64_of_pos {amount : Int64} (h : 0 < amount) :
    (amount.toUInt64.toNat : Int) = amount.toInt := by
  have hpos : 0 < amount.toInt := Int64.lt_iff_toInt_lt.1 h
  change (amount.toBitVec.toNat : Int) = amount.toBitVec.toInt
  change 0 < amount.toBitVec.toInt at hpos
  rw [BitVec.toInt_eq_toNat_cond] at hpos ⊢
  split
  · rfl
  · rename_i hlarge
    rw [if_neg hlarge] at hpos
    have hlt := amount.toBitVec.isLt
    omega

/-- The accounts that an operation names. -/
def Kind.accounts : Kind → List AccountId
  | create account => [account]
  | delete account => [account]
  | transfer source target _ => [source, target]

namespace Accounts

variable {a : Accounts} {account other source target : AccountId} {amount held owned : UInt64}
  {kind : Kind}

/-! ### Look-ups -/

/-- The money of an account as a number without bound. -/
def holding (a : Accounts) (account : AccountId) : Nat :=
  (a.balance? account).elim 0 UInt64.toNat

theorem holding_of_some {balance : UInt64} (h : a.balance? account = some balance) :
    a.holding account = balance.toNat := by
  rw [holding, h]
  rfl

theorem holding_of_none (h : a.balance? account = none) : a.holding account = 0 := by
  rw [holding, h]
  rfl

theorem contains_iff : a.contains account = true ↔ ∃ balance, a.balance? account = some balance :=
  Option.isSome_iff_exists

theorem contains_eq_false_iff : a.contains account = false ↔ a.balance? account = none := by
  rw [contains, NameMap.contains, Option.isSome_eq_false_iff, Option.isNone_iff_eq_none]
  rfl

theorem require_eq_ok {balance : UInt64} (h : a.require account = .ok balance) :
    a.balance? account = some balance := by
  rw [require] at h
  split at h
  · cases h
    assumption
  · cases h

theorem require_of_some {balance : UInt64} (h : a.balance? account = some balance) :
    a.require account = .ok balance := by
  rw [require, h]

theorem require_of_none (h : a.balance? account = none) :
    a.require account = .error (.accountNotFound account) := by
  rw [require, h]

/-- The accounts with one more, which has no money. -/
def opened (a : Accounts) (account : AccountId) : Accounts :=
  ⟨a.balances.insert account 0⟩

/-- The accounts without one of them. -/
def closed (a : Accounts) (account : AccountId) : Accounts :=
  ⟨a.balances.erase account⟩

theorem balance?_seeded {money : UInt64} :
    (seeded money).balance? account = if .broker = account then some money else none := by
  rw [balance?, seeded, NameMap.get?_insert, NameMap.get?_empty]

theorem balance?_opened :
    (a.opened account).balance? other = if account = other then some 0 else a.balance? other :=
  NameMap.get?_insert

theorem balance?_closed :
    (a.closed account).balance? other = if account = other then none else a.balance? other :=
  NameMap.get?_erase

theorem balance?_pay : (a.pay source target held owned amount).balance? other =
    if target = other then some (owned + amount)
    else if source = other then some (held - amount) else a.balance? other := by
  rw [balance?, pay, NameMap.get?_insert, NameMap.get?_insert]
  rfl

/-! ### Cases of an execution -/

/-- The ways in which an execution ends. -/
inductive ExecuteCase (a : Accounts) : Kind → Outcome → Accounts → Prop where
  /-- An account is opened. -/
  | opened {account : AccountId} (hnew : a.balance? account = none) :
    ExecuteCase a (.create account) .applied (a.opened account)
  /-- An account is closed. -/
  | closed {account : AccountId} {balance : UInt64} (hbroker : account ≠ .broker)
    (hopen : a.balance? account = some balance) :
    ExecuteCase a (.delete account) .applied (a.closed account)
  /-- Money moves between two accounts. -/
  | paid {source target : AccountId} {amount : Int64} {held owned : UInt64}
    (hne : source ≠ target) (hsource : a.balance? source = some held)
    (htarget : a.balance? target = some owned) (hpos : 0 < amount)
    (hfunds : amount.toUInt64 ≤ held) :
    ExecuteCase a (.transfer source target amount) .applied
      (a.pay source target held owned amount.toUInt64)
  /-- The accounts stay as they are. -/
  | skipped {kind : Kind} (reason : SkipReason) : ExecuteCase a kind (.skipped reason) a

theorem isBroker_iff : account.isBroker = true ↔ account = .broker :=
  decide_eq_true_iff

/-- **An execution opens an account, closes one, moves money or changes nothing.** -/
theorem execute_cases (a : Accounts) (kind : Kind) :
    ExecuteCase a kind (a.execute kind).1 (a.execute kind).2 := by
  cases kind with
  | create account =>
    rw [execute]
    split
    · exact .skipped _
    · rename_i hnew
      exact .opened (contains_eq_false_iff.1 (Bool.not_eq_true _ ▸ hnew))
  | delete account =>
    rw [execute]
    split
    · exact .skipped _
    · rename_i hbroker
      split
      · rename_i hopen
        obtain ⟨balance, hbalance⟩ := contains_iff.1 hopen
        exact .closed (fun he => hbroker (isBroker_iff.2 he)) hbalance
      · exact .skipped _
  | transfer source target amount =>
    rw [execute]
    split
    · exact .skipped _
    · rename_i hne
      split
      · rename_i held owned hsource htarget
        split
        · exact .skipped _
        · rename_i hpos
          split
          · exact .skipped _
          · rename_i hfunds
            exact .paid hne hsource htarget (Int64.not_le.1 hpos) (UInt64.not_lt.1 hfunds)
      · exact .skipped _

/-- An operation without effect leaves the accounts as they are. -/
theorem execute_eq_self {reason : SkipReason} (h : (a.execute kind).1 = .skipped reason) :
    (a.execute kind).2 = a := by
  have hcase := execute_cases a kind
  generalize (a.execute kind).1 = outcome, (a.execute kind).2 = b at h hcase ⊢
  cases hcase with
  | skipped _ => rfl
  | _ => cases h

/-! ### Replays -/

theorem replay_cons {kinds : List Kind} :
    a.replay (kind :: kinds) = (a.execute kind).2.replay kinds :=
  rfl

/-- What holds at the start and is kept by every execution holds after a replay. -/
theorem replay_invariant {I : Accounts → Prop} {kinds : List Kind} (h₀ : I a)
    (hstep : ∀ a kind, I a → I (a.execute kind).2) : I (a.replay kinds) := by
  induction kinds generalizing a with
  | nil => exact h₀
  | cons kind kinds ih => exact ih (hstep a kind h₀)

/-- The broker's account stays open. -/
theorem contains_broker_execute (h : a.contains .broker = true) :
    (a.execute kind).2.contains .broker = true := by
  have hcase := execute_cases a kind
  generalize (a.execute kind).1 = outcome, (a.execute kind).2 = b at hcase ⊢
  obtain ⟨balance, hbalance⟩ := contains_iff.1 h
  rw [contains_iff]
  cases hcase with
  | opened hnew =>
    rw [balance?_opened]
    split
    · exact ⟨_, rfl⟩
    · exact ⟨balance, hbalance⟩
  | closed hbroker hopen => exact ⟨balance, by rw [balance?_closed, if_neg hbroker, hbalance]⟩
  | paid _ _ _ _ _ =>
    rw [balance?_pay]
    split
    · exact ⟨_, rfl⟩
    · split
      · exact ⟨_, rfl⟩
      · exact ⟨balance, hbalance⟩
  | skipped _ => exact ⟨balance, hbalance⟩

theorem contains_broker_replay {money : UInt64} {kinds : List Kind} :
    ((seeded money).replay kinds).contains .broker = true := by
  refine replay_invariant (I := fun a => a.contains .broker = true) ?_
    fun a kind h => contains_broker_execute h
  rw [contains_iff]
  exact ⟨money, by rw [balance?_seeded, if_pos rfl]⟩

end Accounts

end GossipLedger
