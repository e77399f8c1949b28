import GossipLedger.Proofs.Accounts.Conservation
import GossipLedger.Proofs.Fleet.History
import Mathlib.Data.List.Perm.Basic

/-!
# What admitted operations add up to

An operation that is admitted has its effect (`Accounts.Admits.execute`), and it closes an account
only without money.  So after operations each of which is admitted in its turn (`Accounts.Clean`)
every account is told by sums in which the order of the operations does not matter
(`Accounts.Clean.tallied`): how often it was opened and closed, and what was paid into it and out of
it.

Two lists of this kind that name an account in the same operations, in any order, leave it with the
same balance (`Accounts.Clean.balance?_eq`).
-/

namespace GossipLedger

/-! ### What an operation does to an account -/

namespace Kind

variable {kind : Kind} {account : AccountId}

/-- One if the operation opens the account. -/
def opens (account : AccountId) : Kind → Nat
  | create other => if other = account then 1 else 0
  | delete _ => 0
  | transfer .. => 0

/-- One if the operation closes the account. -/
def closes (account : AccountId) : Kind → Nat
  | create _ => 0
  | delete other => if other = account then 1 else 0
  | transfer .. => 0

/-- What the operation pays into the account. -/
def credit (account : AccountId) : Kind → Nat
  | create _ => 0
  | delete _ => 0
  | transfer _ target amount => if target = account then amount.toInt.toNat else 0

/-- What the operation pays out of the account. -/
def debit (account : AccountId) : Kind → Nat
  | create _ => 0
  | delete _ => 0
  | transfer source _ amount => if source = account then amount.toInt.toNat else 0

/-- An operation does nothing to an account that it does not name. -/
theorem eq_zero_of_not_mem_accounts (h : account ∉ kind.accounts) :
    kind.opens account = 0 ∧ kind.closes account = 0 ∧ kind.credit account = 0 ∧
      kind.debit account = 0 := by
  cases kind with
  | create other => exact ⟨if_neg fun he => h (by simp [accounts, he]), rfl, rfl, rfl⟩
  | delete other => exact ⟨rfl, if_neg fun he => h (by simp [accounts, he]), rfl, rfl⟩
  | transfer source target amount =>
    exact ⟨rfl, rfl, if_neg fun he => h (by simp [accounts, he]),
      if_neg fun he => h (by simp [accounts, he])⟩

end Kind

/-! ### Sums over operations -/

variable {weight : Kind → Nat} {l m : List Operation} {op : Operation}

/-- The sum of what operations weigh. -/
def tally (weight : Kind → Nat) (l : List Operation) : Nat :=
  l.foldr (fun op sum => weight op.kind + sum) 0

theorem tally_cons : tally weight (op :: l) = weight op.kind + tally weight l :=
  rfl

theorem tally_concat : tally weight (l ++ [op]) = tally weight l + weight op.kind := by
  induction l with
  | nil => exact Nat.add_comm _ _
  | cons first rest ih => rw [List.cons_append, tally_cons, ih, tally_cons, Nat.add_assoc]

/-- The order of the operations does not matter. -/
theorem tally_perm (h : l.Perm m) : tally weight l = tally weight m := by
  induction h with
  | nil => rfl
  | cons op _ ih => rw [tally_cons, tally_cons, ih]
  | swap x y rest =>
    rw [tally_cons, tally_cons, tally_cons, tally_cons, Nat.add_left_comm]
  | trans _ _ ih₁ ih₂ => exact ih₁.trans ih₂

/-- Operations without weight do not matter. -/
theorem tally_filter {p : Operation → Bool} (h : ∀ op, p op = false → weight op.kind = 0) :
    tally weight (l.filter p) = tally weight l := by
  induction l with
  | nil => rfl
  | cons op rest ih =>
    cases hp : p op with
    | true => rw [List.filter_cons_of_pos hp, tally_cons, tally_cons, ih]
    | false =>
      rw [List.filter_cons_of_neg (Bool.eq_false_iff.1 hp), tally_cons, h op hp, ih, Nat.zero_add]

theorem tally_le_of_sublist (h : l.Sublist m) : tally weight l ≤ tally weight m := by
  induction h with
  | slnil => exact Nat.le_refl _
  | cons op _ ih => exact Nat.le_trans ih (Nat.le_add_left _ _)
  | cons_cons op _ ih => exact Nat.add_le_add_left ih _

/-- A part of the operations weighs no more than all of them. -/
theorem tally_le_of_subset (hl : l.Nodup) (h : ∀ x ∈ l, x ∈ m) :
    tally weight l ≤ tally weight m := by
  obtain ⟨part, hperm, hsub⟩ := List.subperm_of_subset hl h
  rw [← tally_perm hperm]
  exact tally_le_of_sublist hsub

namespace Accounts

variable {a b start : Accounts} {account : AccountId} {kind : Kind}

theorem balance?_congr (hcontains : a.contains account = b.contains account)
    (hholding : a.holding account = b.holding account) :
    a.balance? account = b.balance? account := by
  cases ha : a.balance? account with
  | none =>
    rw [contains_eq_false_iff.2 ha] at hcontains
    exact (contains_eq_false_iff.1 hcontains.symm).symm
  | some balance =>
    rw [contains_iff.2 ⟨balance, ha⟩] at hcontains
    obtain ⟨balance', hb⟩ := contains_iff.1 hcontains.symm
    rw [holding_of_some ha, holding_of_some hb] at hholding
    rw [hb, UInt64.toNat_inj.1 hholding]

/-! ### Admitted operations -/

/-- The operation is admitted and leads to other accounts. -/
inductive Admits (a : Accounts) : Kind → Accounts → Prop where
  /-- A new account is opened. -/
  | opened {account : AccountId} (hnew : a.balance? account = none) :
    Admits a (.create account) (a.opened account)
  /-- An account without money is closed. -/
  | closed {account : AccountId} (hbroker : account ≠ .broker)
    (hempty : a.balance? account = some 0) : Admits a (.delete account) (a.closed account)
  /-- Money moves between two accounts. -/
  | paid {source target : AccountId} {amount : Int64} {held owned : UInt64}
    (hne : source ≠ target) (hsource : a.balance? source = some held)
    (htarget : a.balance? target = some owned) (hpos : 0 < amount)
    (hfunds : amount.toUInt64 ≤ held) :
    Admits a (.transfer source target amount) (a.pay source target held owned amount.toUInt64)

theorem exists_admits (h : a.admission kind = .ok ()) : ∃ b, a.Admits kind b := by
  cases kind with
  | create account =>
    rw [admission] at h
    split at h
    · cases h
    · rename_i hnew
      exact ⟨_, .opened (contains_eq_false_iff.1 (Bool.not_eq_true _ ▸ hnew))⟩
  | delete account =>
    rw [admission] at h
    cases hopen : a.require account with
    | error e =>
      rw [hopen] at h
      cases h
    | ok balance =>
      rw [hopen] at h
      dsimp only [bind, Except.bind] at h
      split at h
      · cases h
      · rename_i hbroker
        split at h
        · cases h
        · rename_i hempty
          obtain rfl := Decidable.not_not.1 hempty
          exact ⟨_, .closed (fun he => hbroker (isBroker_iff.2 he)) (require_eq_ok hopen)⟩
  | transfer source target amount =>
    rw [admission] at h
    cases hsource : a.require source with
    | error e =>
      rw [hsource] at h
      cases h
    | ok held =>
      cases htarget : a.require target with
      | error e =>
        rw [hsource, htarget] at h
        cases h
      | ok owned =>
        rw [hsource, htarget] at h
        dsimp only [bind, Except.bind] at h
        split at h
        · cases h
        · rename_i hpos
          split at h
          · cases h
          · rename_i hne
            split at h
            · cases h
            · rename_i hfunds
              exact ⟨_, .paid hne (require_eq_ok hsource) (require_eq_ok htarget)
                (Int64.not_le.1 hpos) (UInt64.not_lt.1 hfunds)⟩

theorem Admits.admission (h : a.Admits kind b) : a.admission kind = .ok () := by
  cases h with
  | opened hnew =>
    rw [Accounts.admission, contains_eq_false_iff.2 hnew]
    rfl
  | closed hbroker hempty =>
    have hnot := mt isBroker_iff.1 hbroker
    rw [Accounts.admission, require_of_some hempty]
    simp [bind, Except.bind, hnot]
  | paid hne hsource htarget hpos hfunds =>
    have hle := Int64.not_le.2 hpos
    have hlt := UInt64.not_lt.2 hfunds
    rw [Accounts.admission, require_of_some hsource, require_of_some htarget]
    simp [bind, Except.bind, hne, hle, hlt]

/-- **What is admitted has its effect.** -/
theorem Admits.execute (h : a.Admits kind b) : a.execute kind = (.applied, b) := by
  cases h with
  | opened hnew =>
    rw [Accounts.execute, contains_eq_false_iff.2 hnew]
    rfl
  | closed hbroker hempty =>
    have hnot := mt isBroker_iff.1 hbroker
    rw [Accounts.execute, if_neg hnot, if_pos (contains_iff.2 ⟨0, hempty⟩)]
    rfl
  | paid hne hsource htarget hpos hfunds =>
    have hle := Int64.not_le.2 hpos
    have hlt := UInt64.not_lt.2 hfunds
    rw [Accounts.execute, if_neg hne, hsource, htarget]
    simp [hle, hlt]

/-- An account is open if it was opened and not closed. -/
theorem Admits.contains (h : a.Admits kind b) :
    kind.opens account + (a.contains account).toNat =
      kind.closes account + (b.contains account).toNat := by
  have hopen : ∀ c : Accounts, (c.contains account).toNat =
      (c.balance? account).elim 0 fun _ => 1 := by
    intro c
    rw [Accounts.contains, NameMap.contains, balance?]
    cases c.balances.get? account <;> rfl
  rw [hopen, hopen]
  cases h with
  | @opened other hnew =>
    rw [Kind.opens, Kind.closes, balance?_opened]
    by_cases he : other = account
    · rw [if_pos he, if_pos he, ← he, hnew]
      rfl
    · rw [if_neg he, if_neg he]
  | @closed other hbroker hempty =>
    rw [Kind.opens, Kind.closes, balance?_closed]
    by_cases he : other = account
    · rw [if_pos he, if_pos he, ← he, hempty]
      rfl
    · rw [if_neg he, if_neg he]
  | @paid source target amount held owned hne hsource htarget hpos hfunds =>
    rw [Kind.opens, Kind.closes, balance?_pay]
    by_cases ht : target = account
    · rw [if_pos ht, ← ht, htarget]
      rfl
    · rw [if_neg ht]
      by_cases hs : source = account
      · rw [if_pos hs, ← hs, hsource]
        rfl
      · rw [if_neg hs]

theorem Admits.exactTotal (h : a.Admits kind b) (hfit : a.exactTotal < UInt64.size) :
    b.exactTotal = a.exactTotal := by
  cases h with
  | @opened other hnew =>
    have hinsert : (a.opened other).exactTotal + a.holding other = a.exactTotal + 0 :=
      exactTotal_insert
    rwa [holding_of_none hnew] at hinsert
  | @closed other _ hempty =>
    have hclosed : (a.closed other).exactTotal + a.holding other = a.exactTotal := exactTotal_closed
    rwa [holding_of_some hempty] at hclosed
  | paid hne hsource htarget _ hfunds => exact exactTotal_pay hne hsource htarget hfunds hfit

/-- An account holds what was paid into it, less what was paid out of it. -/
theorem Admits.holding (h : a.Admits kind b) (hfit : a.exactTotal < UInt64.size) :
    b.holding account + kind.debit account = kind.credit account + a.holding account := by
  cases h with
  | @opened other hnew =>
    rw [Kind.debit, Kind.credit, Nat.add_zero, Nat.zero_add, Accounts.holding, balance?_opened]
    split
    · rename_i he
      rw [← he, holding_of_none hnew]
      rfl
    · rfl
  | @closed other hbroker hempty =>
    rw [Kind.debit, Kind.credit, Nat.add_zero, Nat.zero_add, Accounts.holding, balance?_closed]
    split
    · rename_i he
      rw [← he, holding_of_some hempty]
      rfl
    · rfl
  | @paid source target amount held owned hne hsource htarget hpos hfunds =>
    have hamount := toNat_toUInt64_of_pos hpos
    have hle := UInt64.le_iff_toNat_le.1 hfunds
    have htotal := toNat_add_le_exactTotal hne hsource htarget hfunds
    rw [Kind.debit, Kind.credit, Accounts.holding, balance?_pay]
    by_cases ht : target = account
    · have hs : source ≠ account := fun he => hne (he.trans ht.symm)
      rw [if_pos ht, if_pos ht, if_neg hs, ← ht, holding_of_some htarget, Option.elim_some,
        toNat_add_of_lt (by omega)]
      omega
    · rw [if_neg ht, if_neg ht]
      by_cases hs : source = account
      · rw [if_pos hs, if_pos hs, ← hs, holding_of_some hsource, Option.elim_some,
          UInt64.toNat_sub_of_le _ _ hfunds]
        omega
      · rw [if_neg hs, if_neg hs, Nat.add_zero, Nat.zero_add]
        rfl

/-- Only the accounts that the operation names matter, and of the broker's only that it can pay. -/
theorem admission_of_balance? (h : a.admission kind = .ok ())
    (hsame : ∀ account ∈ kind.accounts, account ≠ .broker → a.balance? account = b.balance? account)
    (ha : a.contains .broker = true) (hb : b.contains .broker = true)
    (hfunds : kind.debit .broker ≤ b.holding .broker) : b.admission kind = .ok () := by
  obtain ⟨left, hleft⟩ := contains_iff.1 ha
  obtain ⟨owned', hright⟩ := contains_iff.1 hb
  obtain ⟨c, hc⟩ := exists_admits h
  cases hc with
  | @opened account hnew =>
    have hne : account ≠ .broker := by
      rintro rfl
      rw [hleft] at hnew
      cases hnew
    exact (Admits.opened ((hsame account (by simp [Kind.accounts]) hne).symm.trans hnew)).admission
  | @closed account hne hempty =>
    have hempty' := (hsame account (by simp [Kind.accounts]) hne).symm.trans hempty
    exact (Admits.closed hne hempty').admission
  | @paid source target amount held owned hne hsource htarget hpos hpays =>
    have hopen : ∃ owned, b.balance? target = some owned := by
      by_cases ht : target = .broker
      · exact ⟨owned', ht ▸ hright⟩
      · exact ⟨owned, (hsame target (by simp [Kind.accounts]) ht).symm.trans htarget⟩
    obtain ⟨owned, htarget'⟩ := hopen
    by_cases hs : source = .broker
    · subst hs
      have hamount := toNat_toUInt64_of_pos hpos
      rw [Kind.debit, if_pos rfl, holding_of_some hright] at hfunds
      have hpays' : amount.toUInt64 ≤ owned' := UInt64.le_iff_toNat_le.2 (by omega)
      exact (Admits.paid hne hright htarget' hpos hpays').admission
    · have hsource' := (hsame source (by simp [Kind.accounts]) hs).symm.trans hsource
      exact (Admits.paid hne hsource' htarget' hpos hpays).admission

/-! ### Lists of admitted operations -/

/-- Each operation is admitted where those before it have been executed. -/
def Clean (start : Accounts) (l : List Operation) : Prop :=
  History (fun before op => (start.replay (before.map (·.kind))).admission op.kind = .ok ()) l

/-- What is left of some accounts after operations, whatever their order was. -/
structure Tallied (start : Accounts) (l : List Operation) (a : Accounts) : Prop where
  /-- An account is open if it was opened more often than closed. -/
  contains : ∀ account, tally (Kind.opens account) l + (start.contains account).toNat =
    tally (Kind.closes account) l + (a.contains account).toNat
  /-- An account holds what was paid into it, less what was paid out of it. -/
  holding : ∀ account, a.holding account + tally (Kind.debit account) l =
    tally (Kind.credit account) l + start.holding account
  /-- No money is lost. -/
  exactTotal : a.exactTotal = start.exactTotal

variable {l m : List Operation}

theorem clean_concat {op : Operation} : Clean start (l ++ [op]) ↔
    Clean start l ∧ (start.replay (l.map (·.kind))).admission op.kind = .ok () :=
  history_concat

theorem replay_map_concat {op : Operation} : start.replay ((l ++ [op]).map (·.kind)) =
    ((start.replay (l.map (·.kind))).execute op.kind).2 := by
  rw [replay, List.map_append, List.foldl_append]
  rfl

/-- **Admitted operations take effect.** -/
theorem Clean.execute_eq_applied {before after : List Operation} {op : Operation}
    (h : Clean start (before ++ op :: after)) :
    ((start.replay (before.map (·.kind))).execute op.kind).1 = .applied := by
  obtain ⟨b, hb⟩ := exists_admits (History.holds h)
  rw [hb.execute]

section Clean

variable (hfit : start.exactTotal < UInt64.size)

include hfit

/-- **After admitted operations the accounts are told by sums.** -/
theorem Clean.tallied (h : Clean start l) :
    Tallied start l (start.replay (l.map (·.kind))) := by
  induction h with
  | nil => exact ⟨fun _ => rfl, fun _ => Nat.add_comm _ _, rfl⟩
  | @concat l op _ hop ih =>
    obtain ⟨b, hb⟩ := exists_admits hop
    have hfit' : (start.replay (l.map (·.kind))).exactTotal < UInt64.size := by
      rw [ih.exactTotal]
      exact hfit
    rw [replay_map_concat, hb.execute]
    dsimp only
    refine ⟨fun account => ?_, fun account => ?_, (hb.exactTotal hfit').trans ih.exactTotal⟩
    · have hbefore := ih.contains account
      have hstep : op.kind.opens account + _ = op.kind.closes account + _ := hb.contains
      rw [tally_concat, tally_concat]
      omega
    · have hbefore := ih.holding account
      have hstep : _ + op.kind.debit account = op.kind.credit account + _ := hb.holding hfit'
      rw [tally_concat, tally_concat]
      omega

variable (hl : Clean start l) (hm : Clean start m)

include hl hm

/-- **Where the same operations name an account, in any order, it has the same balance.** -/
theorem Clean.balance?_eq
    (hperm : (l.filter (account ∈ ·.kind.accounts)).Perm (m.filter (account ∈ ·.kind.accounts))) :
    (start.replay (l.map (·.kind))).balance? account =
      (start.replay (m.map (·.kind))).balance? account := by
  have htally : ∀ weight : Kind → Nat, (∀ kind, account ∉ kind.accounts → weight kind = 0) →
      tally weight l = tally weight m := by
    intro weight hweight
    have hother : ∀ op : Operation, decide (account ∈ op.kind.accounts) = false →
        weight op.kind = 0 := fun op hop => hweight op.kind (of_decide_eq_false hop)
    rw [← tally_filter hother, tally_perm hperm, tally_filter hother]
  have hopens := htally (Kind.opens account) fun _ h => (Kind.eq_zero_of_not_mem_accounts h).1
  have hcloses := htally (Kind.closes account) fun _ h => (Kind.eq_zero_of_not_mem_accounts h).2.1
  have hcredit := htally (Kind.credit account) fun _ h => (Kind.eq_zero_of_not_mem_accounts h).2.2.1
  have hdebit := htally (Kind.debit account) fun _ h => (Kind.eq_zero_of_not_mem_accounts h).2.2.2
  have htl := hl.tallied hfit
  have htm := hm.tallied hfit
  refine balance?_congr ?_ ?_
  · have hcl := htl.contains account
    have hcm := htm.contains account
    have hinj : ∀ p q : Bool, p.toNat = q.toNat → p = q := by decide
    exact hinj _ _ (by omega)
  · have hhl := htl.holding account
    have hhm := htm.holding account
    omega

omit hfit hl hm in
/-- What is admitted after some operations is admitted after others if both name the accounts in
question in the same operations and the broker can pay. -/
theorem Clean.admission_of_mem_iff {money : UInt64} {op : Operation}
    (hl : Clean (seeded money) l) (hm : Clean (seeded money) m) (hlnodup : l.Nodup)
    (hmnodup : m.Nodup)
    (hsame : ∀ account ∈ op.kind.accounts, account ≠ .broker →
      ∀ x, account ∈ x.kind.accounts → (x ∈ l ↔ x ∈ m))
    (hfunds : tally (Kind.debit .broker) (m ++ [op]) ≤ money.toNat)
    (h : ((seeded money).replay (l.map (·.kind))).admission op.kind = .ok ()) :
    ((seeded money).replay (m.map (·.kind))).admission op.kind = .ok () := by
  have hfit : (seeded money).exactTotal < UInt64.size := money.toNat_lt
  refine admission_of_balance? h ?_ contains_broker_replay contains_broker_replay ?_
  · intro account haccount hbroker
    refine hl.balance?_eq hfit hm ?_
    refine (List.perm_ext_iff_of_nodup (hlnodup.filter _) (hmnodup.filter _)).2 fun x => ?_
    simp only [List.mem_filter, decide_eq_true_eq]
    exact and_congr_left (hsame account haccount hbroker x)
  · have hheld := (hm.tallied hfit).holding .broker
    have hseeded : (seeded money).holding .broker = money.toNat :=
      holding_of_some (by rw [balance?_seeded, if_pos rfl])
    rw [tally_concat] at hfunds
    omega

/-- The order of admitted operations does not matter. -/
theorem Clean.replay_eq (hperm : l.Perm m) :
    start.replay (l.map (·.kind)) = start.replay (m.map (·.kind)) := by
  have hbalances : (start.replay (l.map (·.kind))).balances =
      (start.replay (m.map (·.kind))).balances :=
    NameMap.ext_get? fun account => hl.balance?_eq hfit hm (hperm.filter _)
  cases hx : start.replay (l.map (·.kind))
  cases hy : start.replay (m.map (·.kind))
  rw [hx, hy] at hbalances
  exact congrArg Accounts.mk hbalances

end Clean

end Accounts

end GossipLedger
