import GossipLedger.Proofs.Accounts.Execution
import Mathlib.Tactic.SplitIfs

/-!
# What an operation asks of the accounts

An operation has preconditions (`Precondition`), which are stated here of the accounts and of
numbers without bound.  Admission and execution look at them one after the other, each in an order
of its own (`Kind.demands`, `Kind.needs`), and stop at the first one that is broken
(`Accounts.firstBroken`):

* `Accounts.admission_eq` : admission refuses with the error that belongs to the first broken
  demand;
* `Accounts.execute_fst_eq` : execution skips for the reason that belongs to the first broken need.

Both orders list the same preconditions, but for one that only admission asks for: an account that
is to be closed holds no money.  So the two agree on everything else (`Accounts.admission_concurs`).
-/

namespace GossipLedger

/-- Something that an operation asks of the accounts. -/
inductive Precondition where
  /-- There is no such account. -/
  | absent (account : AccountId)
  /-- The account is open. -/
  | present (account : AccountId)
  /-- The account is not the broker's. -/
  | closable (account : AccountId)
  /-- The account holds no money. -/
  | empty (account : AccountId)
  /-- The amount is more than zero. -/
  | positive (amount : Int64)
  /-- The two accounts are not the same. -/
  | distinct (source target : AccountId)
  /-- The account holds the amount. -/
  | funded (account : AccountId) (amount : Int64)

namespace Precondition

/-- Whether the accounts meet a precondition. -/
def Holds (a : Accounts) : Precondition → Prop
  | absent account => a.contains account = false
  | present account => a.contains account = true
  | closable account => account ≠ .broker
  | empty account => a.holding account = 0
  | positive amount => 0 < amount.toInt
  | distinct source target => source ≠ target
  | funded account amount => amount.toInt ≤ a.holding account

instance (a : Accounts) : (p : Precondition) → Decidable (p.Holds a)
  | absent account => inferInstanceAs (Decidable (a.contains account = false))
  | present account => inferInstanceAs (Decidable (a.contains account = true))
  | closable account => inferInstanceAs (Decidable (account ≠ .broker))
  | empty account => inferInstanceAs (Decidable (a.holding account = 0))
  | positive amount => inferInstanceAs (Decidable (0 < amount.toInt))
  | distinct source target => inferInstanceAs (Decidable (source ≠ target))
  | funded account amount => inferInstanceAs (Decidable (amount.toInt ≤ a.holding account))

/-- The error that names a broken precondition. -/
def error (a : Accounts) : Precondition → LedgerError
  | absent account => .accountAlreadyExists account
  | present account => .accountNotFound account
  | closable account => .protectedAccount account
  | empty account => .accountNotEmpty account ((a.balance? account).getD 0)
  | positive amount => .nonPositiveAmount amount
  | distinct source _ => .sameAccount source
  | funded account amount => .insufficientFunds account ((a.balance? account).getD 0) amount

/-- The reason that names a broken precondition.  An account may be closed with what it holds. -/
def reason? : Precondition → Option SkipReason
  | absent _ => some .alreadyExists
  | present _ => some .notFound
  | closable _ => some .guarded
  | empty _ => none
  | positive _ => some .nonPositiveAmount
  | distinct _ _ => some .sameAccount
  | funded _ _ => some .insufficientFunds

end Precondition

namespace Kind

/-- What admission asks for, in the order in which it does. -/
def demands : Kind → List Precondition
  | create account => [.absent account]
  | delete account => [.present account, .closable account, .empty account]
  | transfer source target amount =>
    [.present source, .present target, .positive amount, .distinct source target,
      .funded source amount]

/-- What execution asks for, in the order in which it does. -/
def needs : Kind → List Precondition
  | create account => [.absent account]
  | delete account => [.closable account, .present account]
  | transfer source target amount =>
    [.distinct source target, .present source, .present target, .positive amount,
      .funded source amount]

variable {kind : Kind} {p : Precondition}

/-- Admission asks for what execution asks for, and for accounts without money. -/
theorem mem_demands_iff :
    p ∈ kind.demands ↔ p ∈ kind.needs ∨ ∃ account, kind = .delete account ∧ p = .empty account := by
  cases kind with
  | create account => simp [demands, needs]
  | delete account =>
    simp only [demands, needs, List.mem_cons, List.not_mem_nil, or_false, delete.injEq,
      exists_eq_left']
    constructor
    · rintro (h | h | h) <;> simp [h]
    · rintro ((h | h) | h) <;> simp [h]
  | transfer source target amount =>
    simp only [demands, needs, List.mem_cons, List.not_mem_nil, or_false, reduceCtorEq, false_and,
      exists_false]
    constructor
    · rintro (h | h | h | h | h) <;> simp [h]
    · rintro (h | h | h | h | h) <;> simp [h]

end Kind

namespace Accounts

variable {a : Accounts} {kind : Kind} {p : Precondition} {ps : List Precondition}
  {account : AccountId} {balance : UInt64} {amount : Int64}

/-! ### The first broken precondition -/

/-- The first of some preconditions that the accounts do not meet. -/
def firstBroken (a : Accounts) (ps : List Precondition) : Option Precondition :=
  ps.find? fun p => ¬ p.Holds a

theorem firstBroken_nil : a.firstBroken [] = none :=
  rfl

/-- A precondition is looked at by a test for its contrary. -/
theorem firstBroken_cons {test : Prop} [Decidable test] (h : p.Holds a ↔ ¬ test) :
    a.firstBroken (p :: ps) = if test then some p else a.firstBroken ps := by
  by_cases htest : test <;> simp [firstBroken, h, htest]

theorem firstBroken_eq_none : a.firstBroken ps = none ↔ ∀ p ∈ ps, p.Holds a := by
  simp [firstBroken]

theorem broken_of_firstBroken (h : a.firstBroken ps = some p) : p ∈ ps ∧ ¬ p.Holds a :=
  ⟨List.mem_of_find?_eq_some h, by simpa using List.find?_some h⟩

/-! ### The tests -/

theorem absent_iff : (Precondition.absent account).Holds a ↔ ¬ a.contains account = true :=
  (Bool.not_eq_true _).symm ▸ Iff.rfl

theorem present_iff : (Precondition.present account).Holds a ↔ ¬ ¬ a.contains account = true :=
  Decidable.not_not.symm

theorem firstBroken_of_none (h : a.balance? account = none) :
    a.firstBroken (.present account :: ps) = some (.present account) := by
  rw [firstBroken_cons present_iff, contains_eq_false_iff.2 h]
  exact if_pos Bool.false_ne_true

theorem firstBroken_of_some (h : a.balance? account = some balance) :
    a.firstBroken (.present account :: ps) = a.firstBroken ps := by
  rw [firstBroken_cons present_iff]
  exact if_neg fun hclosed => hclosed (contains_iff.2 ⟨balance, h⟩)

theorem closable_iff : (Precondition.closable account).Holds a ↔ ¬ account.isBroker = true :=
  not_congr isBroker_iff.symm

theorem empty_iff (h : a.balance? account = some balance) :
    (Precondition.empty account).Holds a ↔ ¬ balance ≠ 0 := by
  show a.holding account = 0 ↔ _
  rw [holding_of_some h, Decidable.not_not]
  exact UInt64.toNat_inj (b := 0)

theorem positive_iff : (Precondition.positive amount).Holds a ↔ ¬ amount ≤ 0 := by
  rw [Int64.not_le, Int64.lt_iff_toInt_lt]
  exact Iff.rfl

theorem distinct_iff {source target : AccountId} :
    (Precondition.distinct source target).Holds a ↔ ¬ source = target :=
  Iff.rfl

/-- A positive amount is compared to a balance as the same number without a sign. -/
theorem funded_iff (h : a.balance? account = some balance) (hpos : 0 < amount) :
    (Precondition.funded account amount).Holds a ↔ ¬ balance < amount.toUInt64 := by
  have hamount := toNat_toUInt64_of_pos hpos
  show amount.toInt ≤ a.holding account ↔ _
  rw [holding_of_some h, UInt64.not_lt, UInt64.le_iff_toNat_le]
  omega

/-! ### Admission and execution, one precondition after the other -/

/-- Admission refuses with the error of the first broken demand. -/
theorem admission_eq : a.admission kind =
    (a.firstBroken kind.demands).elim (.ok ()) fun p => .error (p.error a) := by
  cases kind with
  | create account =>
    rw [admission, Kind.demands, firstBroken_cons absent_iff]
    split_ifs <;> rfl
  | delete account =>
    rw [admission, Kind.demands]
    cases hopen : a.balance? account with
    | none =>
      rw [require_of_none hopen, firstBroken_of_none hopen]
      rfl
    | some balance =>
      have herror : (Precondition.empty account).error a = .accountNotEmpty account balance := by
        rw [Precondition.error, hopen, Option.getD_some]
      rw [require_of_some hopen, firstBroken_of_some hopen, firstBroken_cons closable_iff,
        firstBroken_cons (empty_iff hopen), firstBroken_nil]
      dsimp only [bind, Except.bind]
      rw [← herror]
      split_ifs <;> rfl
  | transfer source target amount =>
    rw [admission, Kind.demands]
    cases hsource : a.balance? source with
    | none =>
      rw [require_of_none hsource, firstBroken_of_none hsource]
      rfl
    | some held =>
      rw [require_of_some hsource, firstBroken_of_some hsource]
      cases htarget : a.balance? target with
      | none =>
        rw [require_of_none htarget, firstBroken_of_none htarget]
        rfl
      | some owned =>
        have herror : (Precondition.funded source amount).error a =
            .insufficientFunds source held amount := by
          rw [Precondition.error, hsource, Option.getD_some]
        rw [require_of_some htarget, firstBroken_of_some htarget, firstBroken_cons positive_iff,
          firstBroken_cons distinct_iff]
        dsimp only [bind, Except.bind]
        rw [← herror]
        by_cases hpos : amount ≤ 0
        · rw [if_pos hpos, if_pos hpos]
          rfl
        · rw [firstBroken_cons (funded_iff hsource (Int64.not_le.1 hpos)), firstBroken_nil]
          split_ifs <;> rfl

/-- Execution skips for the reason of the first broken need. -/
theorem execute_fst_eq : (a.execute kind).1 =
    ((a.firstBroken kind.needs).bind Precondition.reason?).elim .applied .skipped := by
  cases kind with
  | create account =>
    rw [execute, Kind.needs, firstBroken_cons absent_iff]
    split_ifs <;> rfl
  | delete account =>
    rw [execute, Kind.needs, firstBroken_cons closable_iff, firstBroken_cons present_iff]
    split_ifs <;> rfl
  | transfer source target amount =>
    rw [execute, Kind.needs, firstBroken_cons distinct_iff]
    by_cases hsame : source = target
    · rw [if_pos hsame, if_pos hsame]
      rfl
    · rw [if_neg hsame, if_neg hsame]
      cases hsource : a.balance? source with
      | none =>
        rw [firstBroken_of_none hsource]
        rfl
      | some held =>
        rw [firstBroken_of_some hsource]
        cases htarget : a.balance? target with
        | none =>
          rw [firstBroken_of_none htarget]
          rfl
        | some owned =>
          rw [firstBroken_of_some htarget, firstBroken_cons positive_iff]
          dsimp only
          by_cases hpos : amount ≤ 0
          · rw [if_pos hpos, if_pos hpos]
            rfl
          · rw [firstBroken_cons (funded_iff hsource (Int64.not_le.1 hpos)), firstBroken_nil]
            split_ifs <;> rfl

/-! ### Where the two agree -/

theorem admission_eq_ok_iff : a.admission kind = .ok () ↔ ∀ p ∈ kind.demands, p.Holds a := by
  rw [admission_eq, ← firstBroken_eq_none]
  cases a.firstBroken kind.demands <;> simp

theorem exists_reason_of_mem_needs (h : p ∈ kind.needs) : ∃ reason, p.reason? = some reason := by
  cases p with
  | empty account => cases kind <;> simp [Kind.needs] at h
  | _ => exact ⟨_, rfl⟩

theorem execute_eq_applied_iff :
    (a.execute kind).1 = .applied ↔ ∀ p ∈ kind.needs, p.Holds a := by
  rw [execute_fst_eq, ← firstBroken_eq_none]
  cases hbroken : a.firstBroken kind.needs with
  | none => simp
  | some p =>
    obtain ⟨reason, hreason⟩ := exists_reason_of_mem_needs (broken_of_firstBroken hbroken).1
    simp [hreason]

/-- An error names the first demand that is broken. -/
theorem exists_broken_of_admission {e : LedgerError} (h : a.admission kind = .error e) :
    ∃ p, a.firstBroken kind.demands = some p ∧ ¬ p.Holds a ∧ p.error a = e := by
  rw [admission_eq] at h
  cases hbroken : a.firstBroken kind.demands with
  | none =>
    rw [hbroken] at h
    cases h
  | some p =>
    rw [hbroken] at h
    exact ⟨p, rfl, (broken_of_firstBroken hbroken).2, Except.error.inj h⟩

/-- A reason names the first need that is broken. -/
theorem exists_broken_of_execute {reason : SkipReason}
    (h : (a.execute kind).1 = .skipped reason) :
    ∃ p, a.firstBroken kind.needs = some p ∧ ¬ p.Holds a ∧ p.reason? = some reason := by
  rw [execute_fst_eq] at h
  cases hbroken : a.firstBroken kind.needs with
  | none =>
    rw [hbroken] at h
    cases h
  | some p =>
    obtain ⟨hp, hnot⟩ := broken_of_firstBroken hbroken
    obtain ⟨named, hnamed⟩ := exists_reason_of_mem_needs hp
    rw [hbroken, Option.bind_some, hnamed] at h
    exact ⟨p, rfl, hnot, hnamed.trans (congrArg some (Outcome.skipped.inj h))⟩

/-- An account that is closed with its money is the only case in which execution takes what
admission refuses. -/
theorem admission_of_applied (h : (a.execute kind).1 = .applied) :
    a.admission kind = .ok () ∨ ∃ account balance, kind = .delete account ∧ account ≠ .broker ∧
      a.balance? account = some balance ∧ balance ≠ 0 ∧
      a.admission kind = .error (.accountNotEmpty account balance) := by
  have hneeds := execute_eq_applied_iff.1 h
  cases hadmission : a.admission kind with
  | ok => exact .inl rfl
  | error e =>
    right
    obtain ⟨p, hfirst, hbroken, rfl⟩ := exists_broken_of_admission hadmission
    -- all that is broken is what execution does not ask for
    have hdemand := Kind.mem_demands_iff.1 (broken_of_firstBroken hfirst).1
    obtain ⟨account, rfl, rfl⟩ := hdemand.resolve_left fun hp => hbroken (hneeds p hp)
    have hbroker : account ≠ .broker := hneeds (.closable account) (by simp [Kind.needs])
    have hopen : a.contains account = true := hneeds (.present account) (by simp [Kind.needs])
    obtain ⟨balance, hbalance⟩ := contains_iff.1 hopen
    have hmoney : balance ≠ 0 := Decidable.not_not.1 (mt (empty_iff hbalance).2 hbroken)
    refine ⟨account, balance, rfl, hbroker, hbalance, hmoney, ?_⟩
    rw [Precondition.error, hbalance, Option.getD_some]

/-- Admission and execution look at an operation in the same way. -/
structure Concurs (a : Accounts) (kind : Kind) : Prop where
  /-- Admission admits what meets all demands. -/
  admits : a.admission kind = .ok () ↔ ∀ p ∈ kind.demands, p.Holds a
  /-- Execution applies what meets all needs. -/
  applies : (a.execute kind).1 = .applied ↔ ∀ p ∈ kind.needs, p.Holds a
  /-- What is admitted is applied. -/
  applied : a.admission kind = .ok () → (a.execute kind).1 = .applied
  /-- What is applied would be admitted, unless it closes an account that holds money. -/
  admitted : (a.execute kind).1 = .applied → a.admission kind = .ok () ∨
    ∃ account balance, kind = .delete account ∧ account ≠ .broker ∧
      a.balance? account = some balance ∧ balance ≠ 0 ∧
      a.admission kind = .error (.accountNotEmpty account balance)
  /-- Of what both refuse, each names the first precondition that it has found broken. -/
  named : ∀ e reason, a.admission kind = .error e → (a.execute kind).1 = .skipped reason →
    (∃ p, a.firstBroken kind.demands = some p ∧ ¬ p.Holds a ∧ p.error a = e) ∧
    ∃ p, a.firstBroken kind.needs = some p ∧ ¬ p.Holds a ∧ p.reason? = some reason

/-- **Admission and execution agree**, on any accounts and any operation: they differ only on an
account that is closed with its money, and what either refuses it refuses for a precondition that is
broken. -/
theorem admission_concurs (a : Accounts) (kind : Kind) : a.Concurs kind where
  admits := admission_eq_ok_iff
  applies := execute_eq_applied_iff
  applied h := execute_eq_applied_iff.2 fun p hp =>
    admission_eq_ok_iff.1 h p (Kind.mem_demands_iff.2 (.inl hp))
  admitted := admission_of_applied
  named _ _ hrefused hskipped :=
    ⟨exists_broken_of_admission hrefused, exists_broken_of_execute hskipped⟩

end Accounts

end GossipLedger
