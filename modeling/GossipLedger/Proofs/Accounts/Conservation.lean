import GossipLedger.Proofs.Accounts.Execution

/-!
# Money is never created

The exact sum of all balances (`Accounts.exactTotal`) changes only where an account is closed, and
then by what the account held (`Accounts.exactTotal_execute`).  So after any operations the sum and
what was lost with closed accounts are together the money at the start
(`Accounts.exactTotal_replay`), and neither a payment nor the summing up of all balances leaves 64
bits (`Accounts.replay_conserves`).
-/

namespace GossipLedger

/-! ### Sums of balances -/

/-- The sum of balances as a number without bound. -/
def sumOf (entries : List (AccountId × UInt64)) : Nat :=
  entries.foldr (fun e sum => e.2.toNat + sum) 0

variable {entries : List (AccountId × UInt64)} {e : AccountId × UInt64} {name : AccountId}

theorem sumOf_cons : sumOf (e :: entries) = e.2.toNat + sumOf entries :=
  rfl

/-- A balance that is put in place of another one changes the sum by their difference. -/
theorem sumOf_place (hl : entries.Pairwise fun a b => a.1 < b.1) :
    sumOf (NameMap.place e entries) + (NameMap.find e.1 entries).elim 0 UInt64.toNat =
      sumOf entries + e.2.toNat := by
  induction entries with
  | nil => exact Nat.add_comm _ _
  | cons g rest ih =>
    obtain ⟨hlt, hrest⟩ := List.pairwise_cons.1 hl
    have ih := ih hrest
    rw [NameMap.place, NameMap.find]
    split
    · rename_i hge
      have hne : g.1 ≠ e.1 := fun he => String.lt_irrefl _ (he ▸ hge)
      rw [if_neg hne, sumOf_cons, sumOf_cons]
      omega
    · split
      · rw [sumOf_cons, sumOf_cons, Option.elim_some]
        omega
      · rename_i hge hne
        have hlt' : e.1 < g.1 := by grind
        have hnone : NameMap.find e.1 rest = none :=
          NameMap.find_of_lt fun f hf => String.lt_trans hlt' (hlt f hf)
        rw [hnone, Option.elim_none, sumOf_cons, sumOf_cons]
        omega

theorem sumOf_filter (hl : entries.Pairwise fun a b => a.1 < b.1) :
    sumOf (entries.filter fun e => e.1 ≠ name) + (NameMap.find name entries).elim 0 UInt64.toNat =
      sumOf entries := by
  induction entries with
  | nil => rfl
  | cons g rest ih =>
    obtain ⟨hlt, hrest⟩ := List.pairwise_cons.1 hl
    have ih := ih hrest
    rw [NameMap.find]
    by_cases h : g.1 = name
    · have hnone : NameMap.find name rest = none :=
        NameMap.find_of_lt fun f hf => h ▸ hlt f hf
      rw [hnone, Option.elim_none] at ih
      rw [List.filter_cons_of_neg (by simpa using h), if_pos h, Option.elim_some, sumOf_cons]
      omega
    · rw [List.filter_cons_of_pos (by simpa using h), if_neg h, sumOf_cons, sumOf_cons]
      omega

theorem toNat_add_of_lt {m n : UInt64} (h : m.toNat + n.toNat < UInt64.size) :
    (m + n).toNat = m.toNat + n.toNat := by
  rw [UInt64.toNat_add]
  exact Nat.mod_eq_of_lt h

/-- Summing up words gives their sum if it has 64 bits. -/
theorem toNat_foldl_add {balances : List UInt64} {start : UInt64}
    (h : start.toNat + balances.foldr (fun b sum => b.toNat + sum) 0 < UInt64.size) :
    (balances.foldl (· + ·) start).toNat =
      start.toNat + balances.foldr (fun b sum => b.toNat + sum) 0 := by
  induction balances generalizing start with
  | nil => rfl
  | cons b rest ih =>
    rw [List.foldr_cons] at h ⊢
    have hb : (start + b).toNat = start.toNat + b.toNat :=
      toNat_add_of_lt (by omega)
    rw [List.foldl_cons, ih (by omega), hb, Nat.add_assoc]

namespace Accounts

variable {a : Accounts} {account source target : AccountId} {kind : Kind} {kinds : List Kind}
  {money balance held owned amount : UInt64}

theorem exactTotal_eq_sumOf : a.exactTotal = sumOf a.balances.entries := by
  rw [exactTotal, NameMap.values, List.foldr_map]
  rfl

theorem exactTotal_insert :
    exactTotal ⟨a.balances.insert account balance⟩ + a.holding account =
      a.exactTotal + balance.toNat := by
  rw [exactTotal_eq_sumOf, exactTotal_eq_sumOf]
  exact sumOf_place a.balances.increasing

theorem exactTotal_closed : (a.closed account).exactTotal + a.holding account = a.exactTotal := by
  rw [exactTotal_eq_sumOf, exactTotal_eq_sumOf]
  exact sumOf_filter a.balances.increasing

theorem holding_le_exactTotal : a.holding account ≤ a.exactTotal := by
  have hclosed : (a.closed account).exactTotal + a.holding account = a.exactTotal :=
    exactTotal_closed
  omega

/-- Two accounts hold together at most what all hold. -/
theorem holding_add_holding_le (hne : source ≠ target) :
    a.holding source + a.holding target ≤ a.exactTotal := by
  have htarget : (a.closed source).holding target = a.holding target := by
    rw [holding, balance?_closed, if_neg hne]
    rfl
  have hle : (a.closed source).holding target ≤ (a.closed source).exactTotal :=
    holding_le_exactTotal
  have hclosed : (a.closed source).exactTotal + a.holding source = a.exactTotal :=
    exactTotal_closed
  omega

/-! ### Payments -/

section Payment

variable (hne : source ≠ target) (hsource : a.balance? source = some held)
  (htarget : a.balance? target = some owned) (hfunds : amount ≤ held)

include hne hsource htarget hfunds

/-- A payment is within what all accounts hold. -/
theorem toNat_add_le_exactTotal : owned.toNat + amount.toNat ≤ a.exactTotal := by
  have hle : a.holding source + a.holding target ≤ a.exactTotal := holding_add_holding_le hne
  rw [holding_of_some hsource, holding_of_some htarget] at hle
  have hamount := UInt64.le_iff_toNat_le.1 hfunds
  omega

/-- A payment keeps the sum. -/
theorem exactTotal_pay (hfit : a.exactTotal < UInt64.size) :
    (a.pay source target held owned amount).exactTotal = a.exactTotal := by
  let paying : Accounts := ⟨a.balances.insert source (held - amount)⟩
  have hpaying : paying.exactTotal + held.toNat = a.exactTotal + (held - amount).toNat := by
    rw [← holding_of_some hsource]
    exact exactTotal_insert
  have howned : paying.holding target = owned.toNat := by
    refine holding_of_some ?_
    change (a.balances.insert source (held - amount)).get? target = _
    rw [NameMap.get?_insert, if_neg hne]
    exact htarget
  have hpaid : (a.pay source target held owned amount).exactTotal + owned.toNat =
      paying.exactTotal + (owned + amount).toNat := by
    rw [← howned]
    exact exactTotal_insert
  have hle := toNat_add_le_exactTotal hne hsource htarget hfunds
  have hdebit : (held - amount).toNat = held.toNat - amount.toNat := UInt64.toNat_sub_of_le _ _ hfunds
  have hcredit : (owned + amount).toNat = owned.toNat + amount.toNat :=
    toNat_add_of_lt (by omega)
  have hamount := UInt64.le_iff_toNat_le.1 hfunds
  omega

end Payment

/-! ### Executions -/

/-- The money that leaves with the account that an operation closes. -/
def lost (a : Accounts) : Kind → Nat
  | .delete account =>
    if (a.execute (.delete account)).1 = .applied then a.holding account else 0
  | _ => 0

/-- The money that leaves with the accounts that a list of operations closes. -/
def lostBy (a : Accounts) : List Kind → Nat
  | [] => 0
  | kind :: rest => a.lost kind + (a.execute kind).2.lostBy rest

theorem exactTotal_seeded : (seeded money).exactTotal = money.toNat :=
  rfl

/-- An execution loses what the closed account held, and nothing else. -/
theorem exactTotal_execute (hfit : a.exactTotal < UInt64.size) :
    (a.execute kind).2.exactTotal + a.lost kind = a.exactTotal := by
  have hcase := execute_cases a kind
  generalize houtcome : (a.execute kind).1 = outcome, (a.execute kind).2 = b at hcase ⊢
  cases hcase with
  | @opened account hnew =>
    have hinsert : (a.opened account).exactTotal + a.holding account = a.exactTotal + 0 :=
      exactTotal_insert
    rwa [holding_of_none hnew] at hinsert
  | closed _ _ =>
    rw [lost, if_pos houtcome]
    exact exactTotal_closed
  | paid hne hsource htarget _ hfunds => exact exactTotal_pay hne hsource htarget hfunds hfit
  | skipped _ =>
    cases kind with
    | delete account => rw [lost, houtcome, if_neg nofun, Nat.add_zero]
    | _ => rfl

theorem exactTotal_replay (hfit : a.exactTotal < UInt64.size) :
    (a.replay kinds).exactTotal + a.lostBy kinds = a.exactTotal := by
  induction kinds generalizing a with
  | nil => rfl
  | cons kind kinds ih =>
    have hstep : (a.execute kind).2.exactTotal + a.lost kind = a.exactTotal :=
      exactTotal_execute hfit
    have hrest := ih (a := (a.execute kind).2) (by omega)
    rw [replay_cons, lostBy]
    omega

/-- The accounts after a list of operations, and what one more can do to them. -/
structure Conserves (money : UInt64) (kinds : List Kind) (a : Accounts) : Prop where
  /-- The broker's account is open. -/
  broker : a.contains .broker = true
  /-- There is as much money as at the start, less what was lost with closed accounts. -/
  conserved : a.exactTotal + (seeded money).lostBy kinds = money.toNat
  /-- Each partial sum of the balances is exact. -/
  summed : ∀ front rest, a.balances.values = front ++ rest →
    (front.foldl (· + ·) 0).toNat = front.foldr (fun b sum => b.toNat + sum) 0
  /-- So is the sum. -/
  total : a.total.toNat = a.exactTotal
  /-- No operation brings more money. -/
  decreasing : ∀ kind, (a.execute kind).2.exactTotal ≤ a.exactTotal
  /-- A payment takes its amount from one balance and adds it to another one, without a wrap. -/
  paid : ∀ source target (amount : Int64),
    (a.execute (.transfer source target amount)).1 = .applied →
      ∃ held owned held' owned' : UInt64,
        a.balance? source = some held ∧ a.balance? target = some owned ∧
        (a.execute (.transfer source target amount)).2.balance? source = some held' ∧
        (a.execute (.transfer source target amount)).2.balance? target = some owned' ∧
        (held'.toNat : Int) = held.toNat - amount.toInt ∧
        (owned'.toNat : Int) = owned.toNat + amount.toInt ∧ 0 < amount.toInt
  /-- An operation without effect changes nothing. -/
  skipped : ∀ kind reason, (a.execute kind).1 = .skipped reason → (a.execute kind).2 = a

/-- Balances that add up within 64 bits move exactly. -/
theorem exists_balances_of_paid (hfit : a.exactTotal < UInt64.size) {amount : Int64}
    (h : (a.execute (.transfer source target amount)).1 = .applied) :
    ∃ held owned held' owned' : UInt64,
      a.balance? source = some held ∧ a.balance? target = some owned ∧
      (a.execute (.transfer source target amount)).2.balance? source = some held' ∧
      (a.execute (.transfer source target amount)).2.balance? target = some owned' ∧
      (held'.toNat : Int) = held.toNat - amount.toInt ∧
      (owned'.toNat : Int) = owned.toNat + amount.toInt ∧ 0 < amount.toInt := by
  have hcase := execute_cases a (.transfer source target amount)
  generalize (a.execute (.transfer source target amount)).1 = outcome,
    (a.execute (.transfer source target amount)).2 = b at h hcase ⊢
  subst h
  cases hcase with
  | @paid _ _ _ held owned hne hsource htarget hpos hfunds =>
    have hle := toNat_add_le_exactTotal hne hsource htarget hfunds
    have hamount := toNat_toUInt64_of_pos hpos
    refine ⟨held, owned, held - amount.toUInt64, owned + amount.toUInt64, hsource, htarget,
      ?_, ?_, ?_, ?_, Int64.lt_iff_toInt_lt.1 hpos⟩
    · rw [balance?_pay, if_neg (Ne.symm hne), if_pos rfl]
    · rw [balance?_pay, if_pos rfl]
    · rw [UInt64.toNat_sub_of_le _ _ hfunds, ← hamount]
      exact Int.ofNat_sub (UInt64.le_iff_toNat_le.1 hfunds)
    · rw [toNat_add_of_lt (by omega), ← hamount]
      exact Int.natCast_add _ _

/-- Summing up the balances one by one is exact throughout. -/
theorem toNat_foldl_of_prefix (hfit : a.exactTotal < UInt64.size) {front rest : List UInt64}
    (hsplit : a.balances.values = front ++ rest) :
    (front.foldl (· + ·) 0).toNat = front.foldr (fun b sum => b.toNat + sum) 0 := by
  have htotal : a.exactTotal = front.foldr (fun b sum => b.toNat + sum) 0 +
      rest.foldr (fun b sum => b.toNat + sum) 0 := by
    rw [exactTotal, hsplit]
    clear hsplit
    induction front with
    | nil => exact (Nat.zero_add _).symm
    | cons b front ih => rw [List.cons_append, List.foldr_cons, List.foldr_cons, ih, Nat.add_assoc]
  have hzero : (0 : UInt64).toNat = 0 := rfl
  rw [toNat_foldl_add (by omega), hzero, Nat.zero_add]

theorem toNat_total (hfit : a.exactTotal < UInt64.size) : a.total.toNat = a.exactTotal :=
  toNat_foldl_of_prefix hfit (List.append_nil _).symm

/-- **Money is never created**, whatever operations are executed, and no balance, payment or sum
ever leaves 64 bits. -/
theorem replay_conserves (money : UInt64) (kinds : List Kind) :
    Conserves money kinds ((seeded money).replay kinds) := by
  have hmoney : (seeded money).exactTotal < UInt64.size := money.toNat_lt
  have hconserved : ((seeded money).replay kinds).exactTotal + (seeded money).lostBy kinds =
      money.toNat := exactTotal_replay hmoney
  have hfit : ((seeded money).replay kinds).exactTotal < UInt64.size := by
    have hlt : money.toNat < UInt64.size := money.toNat_lt
    omega
  exact {
    broker := contains_broker_replay
    conserved := hconserved
    summed := fun _ _ hsplit => toNat_foldl_of_prefix hfit hsplit
    total := toNat_total hfit
    decreasing := fun kind => Nat.le.intro (exactTotal_execute hfit)
    paid := fun _ _ _ h => exists_balances_of_paid hfit h
    skipped := fun _ _ h => execute_eq_self h }

end Accounts

end GossipLedger
