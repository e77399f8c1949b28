import GossipLedger.Proofs.Accounts.Preconditions
import GossipLedger.Proofs.Accounts.Tally

/-!
# Operations in another order

Operations may open an account, close it and open it again, and pay into it and out of it in
between.  If each of them has its effect and no account is closed with money (`Accounts.Effective`),
then the accounts at the end depend only on which operations there were, however often, and not on
their order (`Accounts.replay_reordered`); and all money is still there.

Such operations are all admitted (`Accounts.Effective.clean`), and so the accounts are told by sums
over them.
-/

namespace GossipLedger

/-- An operation of a kind, of which nothing else is said. -/
def Operation.bare (kind : Kind) : Operation :=
  { kind, origin := "", context := .zero, timestamp := .zero }

namespace Accounts

variable {a start : Accounts} {kind : Kind} {kinds : List Kind} {l : List Operation}
  {money : UInt64}

/-! ### Operations that have their effect -/

/-- If the operation closes an account, then it is one without money. -/
def ClosesEmpty (a : Accounts) : Kind → Prop
  | .delete account => a.balance? account = some 0
  | _ => True

/-- Each operation has its effect where those before it have been executed, and closes an account
only without money. -/
def Effective (a : Accounts) : List Kind → Prop
  | [] => True
  | kind :: rest =>
    (a.execute kind).1 = .applied ∧ a.ClosesEmpty kind ∧ (a.execute kind).2.Effective rest

instance (a : Accounts) : (kind : Kind) → Decidable (a.ClosesEmpty kind)
  | .create _ => isTrue trivial
  | .delete account => inferInstanceAs (Decidable (a.balance? account = some 0))
  | .transfer .. => isTrue trivial

instance decidableEffective : (a : Accounts) → (kinds : List Kind) → Decidable (a.Effective kinds)
  | _, [] => isTrue trivial
  | a, kind :: rest =>
    have := decidableEffective (a.execute kind).2 rest
    inferInstanceAs (Decidable ((a.execute kind).1 = .applied ∧ a.ClosesEmpty kind ∧ _))

theorem admission_of_closesEmpty (happlied : (a.execute kind).1 = .applied)
    (hempty : a.ClosesEmpty kind) : a.admission kind = .ok () := by
  refine (admission_of_applied happlied).resolve_right ?_
  rintro ⟨account, balance, rfl, -, hbalance, hmoney, -⟩
  have hzero : a.balance? account = some 0 := hempty
  rw [hbalance, Option.some_inj] at hzero
  exact hmoney hzero

/-- Operations that have their effect after admitted ones are admitted. -/
theorem Clean.append_effective (hl : Clean start l)
    (h : (start.replay (l.map (·.kind))).Effective kinds) :
    Clean start (l ++ kinds.map .bare) := by
  induction kinds generalizing l with
  | nil => rwa [List.map_nil, List.append_nil]
  | cons kind rest ih =>
    obtain ⟨happlied, hempty, hrest⟩ := h
    rw [List.map_cons, List.append_cons]
    refine ih (clean_concat.2 ⟨hl, admission_of_closesEmpty happlied hempty⟩) ?_
    rwa [replay_map_concat]

theorem Effective.clean (h : start.Effective kinds) : Clean start (kinds.map .bare) :=
  Clean.append_effective .nil h

theorem map_kind_bare (kinds : List Kind) : (kinds.map Operation.bare).map (·.kind) = kinds := by
  rw [List.map_map]
  exact List.map_id kinds

/-! ### Another order -/

theorem Effective.total (h : (seeded money).Effective kinds) :
    ((seeded money).replay kinds).total = money := by
  have hfit : (seeded money).exactTotal < UInt64.size := money.toNat_lt
  have htotal : ((seeded money).replay kinds).exactTotal = money.toNat := by
    rw [← map_kind_bare kinds, (h.clean.tallied hfit).exactTotal]
    exact exactTotal_seeded
  refine UInt64.toNat_inj.1 ?_
  rw [toNat_total (by rw [htotal]; exact money.toNat_lt), htotal]

/-- **The order of operations does not matter to the accounts**, as long as in either order each has
its effect and no account is closed with money: the same accounts are open in the end, with the same
balances, and together they hold the money of the start. -/
theorem replay_reordered {kinds' : List Kind} (hperm : kinds.Perm kinds')
    (h : (seeded money).Effective kinds) (h' : (seeded money).Effective kinds') :
    (seeded money).replay kinds = (seeded money).replay kinds' ∧
      ((seeded money).replay kinds).total = money ∧
      ((seeded money).replay kinds').total = money := by
  have hfit : (seeded money).exactTotal < UInt64.size := money.toNat_lt
  have hsame := h.clean.replay_eq hfit h'.clean (hperm.map _)
  rw [map_kind_bare, map_kind_bare] at hsame
  exact ⟨hsame, h.total, h'.total⟩

/-- An account that is opened, filled, emptied, closed, opened again and filled once more. -/
def reopening : List Kind :=
  [.create "x", .transfer "broker" "x" 5, .transfer "x" "broker" 5, .delete "x", .create "x",
    .transfer "broker" "x" 7]

/-- The same with the closing first. -/
def reopened : List Kind :=
  [.create "x", .delete "x", .create "x", .transfer "broker" "x" 7, .transfer "x" "broker" 5,
    .transfer "broker" "x" 5]

theorem reopening_reordered : reopening.Perm reopened ∧ (seeded 9).Effective reopening ∧
    (seeded 9).Effective reopened ∧
    (seeded 9).replay reopening = (seeded 9).replay reopened ∧
      ((seeded 9).replay reopening).total = 9 ∧ ((seeded 9).replay reopened).total = 9 := by
  have hperm : reopening.Perm reopened := by decide
  have h : (seeded 9).Effective reopening := by decide
  have h' : (seeded 9).Effective reopened := by decide
  exact ⟨hperm, h, h', replay_reordered hperm h h'⟩

end Accounts

end GossipLedger
