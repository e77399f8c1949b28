import GossipLedger.Convergence
import GossipLedger.Proofs.Clock.Comparison
import GossipLedger.Proofs.Replica.Bookkeeping
import Mathlib.Data.Set.Card

/-!
# What the check of convergence tells

The check compares each replica with the first one only, and stops at the first divergence.  It
finds none exactly if nothing is pending and any two of the replicas match (`Converged`), also two
that it has not compared, for to match is an equivalence.  A divergence that it does find
(`Diverged`) is about the first replica where something is pending, or else about the first one that
does not match, and says in which respect (`Replica.Differs`).

A timestamp is known by its counts, so sets of timestamps are sets of counts (`Clock.countsOf`).
The check keeps the stamps of the timestamps, of which there are as many
(`Clock.encard_countsOf_diff`).
-/

namespace GossipLedger

/-! ### Checks one after another -/

namespace Divergence

variable {α : Type} {check : α → Except Divergence Unit} {l : List α} {a : α} {d : Divergence}

theorem forM_cons_of_ok (h : check a = .ok ()) : (a :: l).forM check = l.forM check := by
  rw [List.forM, h]
  rfl

theorem forM_cons_of_error (h : check a = .error d) : (a :: l).forM check = .error d := by
  rw [List.forM, h]
  rfl

/-- All checks succeed if each does. -/
theorem forM_eq_ok_iff : l.forM check = .ok () ↔ ∀ a ∈ l, check a = .ok () := by
  induction l with
  | nil => exact ⟨fun _ => nofun, fun _ => rfl⟩
  | cons a l ih =>
    rw [List.forall_mem_cons]
    cases h : check a with
    | ok => rw [forM_cons_of_ok h, ih, and_iff_right rfl]
    | error d => rw [forM_cons_of_error h]; simp

/-- The error is that of the first check that fails. -/
theorem forM_eq_error_iff : l.forM check = .error d ↔ ∃ before a after,
    l = before ++ a :: after ∧ (∀ b ∈ before, check b = .ok ()) ∧ check a = .error d := by
  induction l with
  | nil =>
    constructor
    · intro h
      cases h
    · rintro ⟨before, a, after, hl, -⟩
      simp at hl
  | cons a l ih =>
    cases h : check a with
    | ok =>
      rw [forM_cons_of_ok h, ih]
      constructor
      · rintro ⟨before, b, after, rfl, hbefore, hb⟩
        exact ⟨a :: before, b, after, rfl, List.forall_mem_cons.2 ⟨h, hbefore⟩, hb⟩
      · rintro ⟨before, b, after, hl, hbefore, hb⟩
        cases before with
        | nil =>
          cases hl
          rw [h] at hb
          cases hb
        | cons c before =>
          cases hl
          exact ⟨before, b, after, rfl, (List.forall_mem_cons.1 hbefore).2, hb⟩
    | error e =>
      rw [forM_cons_of_error h]
      constructor
      · rintro heq
        exact ⟨[], a, l, rfl, nofun, h.trans heq⟩
      · rintro ⟨before, b, after, hl, hbefore, hb⟩
        cases before with
        | nil =>
          cases hl
          exact h.symm.trans hb
        | cons c before =>
          cases hl
          rw [(List.forall_mem_cons.1 hbefore).1] at h
          cases h

/-- A check that succeeds in one case and fails in others, of which one is always given, does so in
no further cases. -/
theorem exact_of {x : Except Divergence Unit} {P : Prop} {Q : Divergence → Prop}
    (hok : P → x = .ok ()) (herror : ∀ d, Q d → x = .error d) (hall : P ∨ ∃ d, Q d) :
    (x = .ok () ↔ P) ∧ ∀ d, x = .error d ↔ Q d := by
  rcases hall with hp | ⟨e, hq⟩
  · have hx : x = .ok () := hok hp
    refine ⟨iff_of_true hx hp, fun d => iff_of_false ?_ fun hd => ?_⟩
    · rw [hx]
      exact nofun
    · have hd := herror d hd
      rw [hx] at hd
      cases hd
  · have hx : x = .error e := herror e hq
    refine ⟨iff_of_false ?_ fun hp => ?_, fun d => ⟨fun hd => ?_, herror d⟩⟩
    · rw [hx]
      exact nofun
    · have hp := hok hp
      rw [hx] at hp
      cases hp
    · rw [hx] at hd
      cases hd
      exact hq

end Divergence

/-! ### Sets of clocks -/

namespace Clock

variable {cs ds : List Clock} {c d : Clock} {s : List (ReplicaId × UInt64)}

/-- The counts of the clocks in a list. -/
def countsOf (cs : List Clock) : Set (ReplicaId → UInt64) :=
  {counts | ∃ c ∈ cs, c.get = counts}

/-- The counts of a clock with a given stamp. -/
def countsIn (s : List (ReplicaId × UInt64)) (r : ReplicaId) : UInt64 :=
  (NameMap.find r s).getD 0

theorem countsIn_stamp : countsIn c.stamp = c.get := by
  funext r
  rw [countsIn, find_stamp]
  split
  · rename_i hzero
    exact hzero.symm
  · rfl

theorem stamp_eq_iff_get : c.stamp = d.stamp ↔ c.get = d.get :=
  stamp_eq_iff_agrees.trans (agrees_iff_get.trans funext_iff.symm)

namespace Pool

theorem mem_stamps_ofList : s ∈ (ofList cs).stamps ↔ ∃ c ∈ cs, c.stamp = s := by
  induction cs using List.reverseRecOn with
  | nil => simp [ofList, empty]
  | append_singleton cs c ih =>
    rw [ofList_concat, insert]
    simp only [List.mem_append, List.mem_singleton, or_and_right, exists_or, exists_eq_left, ← ih]
    split
    · rename_i hc
      rw [contains_iff] at hc
      exact (or_iff_left_of_imp fun hs => hs ▸ hc).symm
    · rw [List.mem_cons, or_comm, eq_comm]

theorem nodup_stamps_ofList : (ofList cs).stamps.Nodup := by
  induction cs using List.reverseRecOn with
  | nil => exact .nil
  | append_singleton cs c ih =>
    rw [ofList_concat, insert]
    split
    · exact ih
    · rename_i hnew
      rw [contains_iff] at hnew
      exact List.nodup_cons.2 ⟨hnew, ih⟩

end Pool

theorem injOn_countsIn : Set.InjOn countsIn (Set.range stamp) := by
  rintro _ ⟨c, rfl⟩ _ ⟨d, rfl⟩ h
  rw [countsIn_stamp, countsIn_stamp] at h
  exact stamp_eq_iff_get.2 h

/-- As many counts are in one set of clocks and not in another as there are stamps. -/
theorem encard_countsOf_diff :
    (countsOf cs \ countsOf ds).encard = (Pool.ofList cs).excess (Pool.ofList ds) := by
  let stamps := (Pool.ofList cs).stamps.filter fun s => !(Pool.ofList ds).stamps.contains s
  have hmem : ∀ s, s ∈ stamps ↔ (∃ c ∈ cs, c.stamp = s) ∧ ¬ ∃ d ∈ ds, d.stamp = s := by
    intro s
    simp [stamps, Pool.mem_stamps_ofList]
  have himage : countsOf cs \ countsOf ds = countsIn '' (stamps.toFinset : Set _) := by
    ext counts
    simp only [Set.mem_sdiff, Set.mem_image, Finset.mem_coe, List.mem_toFinset, hmem]
    constructor
    · rintro ⟨⟨c, hc, rfl⟩, hnone⟩
      refine ⟨c.stamp, ⟨⟨c, hc, rfl⟩, ?_⟩, countsIn_stamp⟩
      rintro ⟨d, hd, hstamp⟩
      exact hnone ⟨d, hd, stamp_eq_iff_get.1 hstamp⟩
    · rintro ⟨_, ⟨⟨c, hc, rfl⟩, hnone⟩, rfl⟩
      rw [countsIn_stamp]
      refine ⟨⟨c, hc, rfl⟩, ?_⟩
      rintro ⟨d, hd, hcounts⟩
      exact hnone ⟨d, hd, stamp_eq_iff_get.2 hcounts⟩
  have hinj : Set.InjOn countsIn (stamps.toFinset : Set _) := by
    refine injOn_countsIn.mono fun s hs => ?_
    obtain ⟨⟨c, -, hstamp⟩, -⟩ := (hmem s).1 (List.mem_toFinset.1 hs)
    exact ⟨c, hstamp⟩
  have hnodup : stamps.Nodup := Pool.nodup_stamps_ofList.filter _
  rw [himage, hinj.encard_image, Set.encard_coe_eq_coe_finsetCard,
    List.toFinset_card_of_nodup hnodup, Pool.excess, List.countP_eq_length_filter]

end Clock

namespace Replica

variable {a b r first : Replica} {d : Divergence}

/-- The timestamps of the stable operations, each by its counts. -/
def stableCounts (r : Replica) : Set (ReplicaId → UInt64) :=
  Clock.countsOf (r.log.stable.map (·.timestamp))

/-- Two replicas have come to the same. -/
structure Matches (a b : Replica) : Prop where
  /-- Their clocks count the same. -/
  clock : ∀ name, a.clock.get name = b.clock.get name
  /-- The same operations are stable. -/
  stable : a.stableCounts = b.stableCounts
  /-- The same accounts are open, with the same balances. -/
  balances : ∀ account, a.accounts.balance? account = b.accounts.balance? account

theorem Matches.symm (h : a.Matches b) : b.Matches a where
  clock name := (h.clock name).symm
  stable := h.stable.symm
  balances account := (h.balances account).symm

theorem Matches.refl (a : Replica) : a.Matches a :=
  ⟨fun _ => rfl, rfl, fun _ => rfl⟩

theorem Matches.trans (hab : a.Matches b) (hbr : b.Matches r) : a.Matches r where
  clock name := (hab.clock name).trans (hbr.clock name)
  stable := hab.stable.trans hbr.stable
  balances account := (hab.balances account).trans (hbr.balances account)

/-- What a divergence says about a replica that is compared with the first one. -/
def Differs (first r : Replica) : Divergence → Prop
  | .clock id expected actual => id = r.id ∧ expected = first.clock ∧ actual = r.clock ∧
      ∃ name, first.clock.get name ≠ r.clock.get name
  | .stableLog id missing extra => id = r.id ∧
      (∀ name, first.clock.get name = r.clock.get name) ∧
      (first.stableCounts \ r.stableCounts).encard = missing ∧
      (r.stableCounts \ first.stableCounts).encard = extra ∧ ¬ (missing = 0 ∧ extra = 0)
  | .balances id => id = r.id ∧ (∀ name, first.clock.get name = r.clock.get name) ∧
      first.stableCounts = r.stableCounts ∧
      ∃ account, first.accounts.balance? account ≠ r.accounts.balance? account
  | .pending .. => False
  | .conservation .. => False

theorem agrees_clock_iff :
    r.clock.agrees first.clock = true ↔ ∀ name, first.clock.get name = r.clock.get name :=
  Clock.agrees_iff_get.trans (forall_congr' fun _ => eq_comm)

theorem encard_stableCounts_diff :
    (a.stableCounts \ b.stableCounts).encard = a.stableStamps.excess b.stableStamps :=
  Clock.encard_countsOf_diff

theorem excess_eq_zero_iff :
    (a.stableStamps.excess b.stableStamps = 0 ∧ b.stableStamps.excess a.stableStamps = 0) ↔
      a.stableCounts = b.stableCounts := by
  have hzero : ∀ a b : Replica,
      a.stableStamps.excess b.stableStamps = 0 ↔ a.stableCounts ⊆ b.stableCounts := by
    intro a b
    rw [← Set.sdiff_eq_empty, ← Set.encard_eq_zero, encard_stableCounts_diff, Nat.cast_eq_zero]
  rw [hzero, hzero, ← subset_antisymm_iff]

theorem toList_accounts_eq_iff : r.accounts.toList = first.accounts.toList ↔
    ∀ account, first.accounts.balance? account = r.accounts.balance? account := by
  constructor
  · intro h account
    exact congrArg (NameMap.find account) h.symm
  · intro h
    exact (congrArg NameMap.entries (NameMap.ext_get? h)).symm

theorem checkSettled_eq_ok_iff : r.checkSettled = .ok () ↔ r.log.pending = [] := by
  simp [checkSettled, hasPending]

theorem checkSettled_eq_error_iff : r.checkSettled = .error d ↔
    r.log.pending ≠ [] ∧ d = .pending r.id r.log.pending.length := by
  rw [checkSettled, hasPending]
  cases h : r.log.pending with
  | nil => simp
  | cons op rest => simpa using eq_comm

theorem Matches.checkAgainst_eq (h : first.Matches r) : first.checkAgainst r = .ok () := by
  have hstable := excess_eq_zero_iff.2 h.stable
  rw [checkAgainst, agrees_clock_iff.2 h.clock, hstable.1, hstable.2,
    toList_accounts_eq_iff.2 h.balances]
  simp

/-- The check finds what there is to be said about two replicas. -/
theorem Differs.checkAgainst_eq (h : first.Differs r d) : first.checkAgainst r = .error d := by
  cases d with
  | clock id expected actual =>
    obtain ⟨rfl, rfl, rfl, hclock⟩ := h
    rw [← not_forall, ← agrees_clock_iff, Bool.not_eq_true] at hclock
    rw [checkAgainst, hclock]
    rfl
  | stableLog id missing extra =>
    obtain ⟨rfl, hclock, hmissing, hextra, hdiffer⟩ := h
    rw [encard_stableCounts_diff, Nat.cast_inj] at hmissing hextra
    rw [checkAgainst, agrees_clock_iff.2 hclock, hmissing, hextra]
    exact if_pos (not_and_or.1 hdiffer)
  | balances id =>
    obtain ⟨rfl, hclock, hstable, hbalances⟩ := h
    have hzero := excess_eq_zero_iff.2 hstable
    rw [← not_forall, ← toList_accounts_eq_iff] at hbalances
    rw [checkAgainst, agrees_clock_iff.2 hclock, hzero.1, hzero.2]
    exact if_pos hbalances
  | pending => exact h.elim
  | conservation => exact h.elim

/-- If two replicas do not match, there is something to be said about it. -/
theorem matches_or_differs (first r : Replica) : first.Matches r ∨ ∃ d, first.Differs r d := by
  by_cases hclock : ∀ name, first.clock.get name = r.clock.get name
  · by_cases hstable : first.stableCounts = r.stableCounts
    · by_cases hbalances : ∀ account, first.accounts.balance? account = r.accounts.balance? account
      · exact .inl ⟨hclock, hstable, hbalances⟩
      · exact .inr ⟨.balances r.id, rfl, hclock, hstable, not_forall.1 hbalances⟩
    · refine .inr ⟨.stableLog r.id _ _, rfl, hclock, encard_stableCounts_diff,
        encard_stableCounts_diff, ?_⟩
      rwa [excess_eq_zero_iff]
  · exact .inr ⟨.clock r.id first.clock r.clock, rfl, rfl, rfl, not_forall.1 hclock⟩

theorem checkAgainst_exact (first r : Replica) :
    (first.checkAgainst r = .ok () ↔ first.Matches r) ∧
      ∀ d, first.checkAgainst r = .error d ↔ first.Differs r d :=
  Divergence.exact_of Matches.checkAgainst_eq (fun _ => Differs.checkAgainst_eq)
    (matches_or_differs first r)

end Replica

/-! ### The whole check -/

/-- Replicas have converged. -/
structure Converged (replicas : List Replica) : Prop where
  /-- No operation is pending. -/
  settled : ∀ r ∈ replicas, r.log.pending = []
  /-- Any two replicas have come to the same. -/
  alike : ∀ a ∈ replicas, ∀ b ∈ replicas, a.Matches b

/-- What a divergence says about some replicas. -/
inductive Diverged (replicas : List Replica) : Divergence → Prop where
  /-- There are pending operations at a replica, and none at those before it. -/
  | pending {before after : List Replica} {r : Replica} (h : replicas = before ++ r :: after)
    (settled : ∀ b ∈ before, b.log.pending = []) (waiting : r.log.pending ≠ []) :
    Diverged replicas (.pending r.id r.log.pending.length)
  /-- There are none at any replica, and one differs from the first replica, which those between the
  two match. -/
  | differs {between after : List Replica} {first r : Replica} {d : Divergence}
    (h : replicas = first :: (between ++ r :: after)) (settled : ∀ x ∈ replicas, x.log.pending = [])
    (alike : ∀ b ∈ between, first.Matches b) (differs : first.Differs r d) :
    Diverged replicas d

section Convergence

variable {replicas rest : List Replica} {first : Replica} {d : Divergence}

theorem convergence_cons (h : ∀ r ∈ first :: rest, r.log.pending = []) :
    convergence (first :: rest) = rest.forM first.checkAgainst := by
  have hsettled : (first :: rest).forM Replica.checkSettled = .ok () :=
    Divergence.forM_eq_ok_iff.2 fun r hr => Replica.checkSettled_eq_ok_iff.2 (h r hr)
  rw [convergence, hsettled]
  rfl

/-- To match the first replica is enough. -/
theorem converged_cons_iff : Converged (first :: rest) ↔
    (∀ r ∈ first :: rest, r.log.pending = []) ∧ ∀ r ∈ rest, first.Matches r := by
  constructor
  · intro h
    exact ⟨h.settled, fun r hr => h.alike first List.mem_cons_self r (List.mem_cons_of_mem _ hr)⟩
  · rintro ⟨hsettled, hrest⟩
    have hall : ∀ r ∈ first :: rest, first.Matches r :=
      List.forall_mem_cons.2 ⟨.refl first, hrest⟩
    exact ⟨hsettled, fun a ha b hb => (hall a ha).symm.trans (hall b hb)⟩

theorem Converged.convergence_eq (h : Converged replicas) : convergence replicas = .ok () := by
  cases replicas with
  | nil => rfl
  | cons first rest =>
    rw [converged_cons_iff] at h
    rw [convergence_cons h.1, Divergence.forM_eq_ok_iff]
    exact fun r hr => (Replica.checkAgainst_exact first r).1.2 (h.2 r hr)

theorem Diverged.convergence_eq (h : Diverged replicas d) : convergence replicas = .error d := by
  cases h with
  | pending hsplit hsettled hwaiting =>
    have hpending := Divergence.forM_eq_error_iff.2 ⟨_, _, _, hsplit,
      fun b hb => Replica.checkSettled_eq_ok_iff.2 (hsettled b hb),
      Replica.checkSettled_eq_error_iff.2 ⟨hwaiting, rfl⟩⟩
    unfold convergence
    rw [hpending]
    rfl
  | differs hsplit hsettled halike hdiffers =>
    subst hsplit
    rw [convergence_cons hsettled]
    exact Divergence.forM_eq_error_iff.2 ⟨_, _, _, rfl,
      fun b hb => (Replica.checkAgainst_exact _ b).1.2 (halike b hb),
      ((Replica.checkAgainst_exact _ _).2 _).2 hdiffers⟩

theorem converged_or_diverged (replicas : List Replica) :
    Converged replicas ∨ ∃ d, Diverged replicas d := by
  cases hsettled : replicas.forM Replica.checkSettled with
  | error d =>
    obtain ⟨before, r, after, hsplit, hbefore, hr⟩ := Divergence.forM_eq_error_iff.1 hsettled
    rw [Replica.checkSettled_eq_error_iff] at hr
    exact .inr ⟨_, .pending hsplit (fun b hb => Replica.checkSettled_eq_ok_iff.1 (hbefore b hb))
      hr.1⟩
  | ok =>
    rw [Divergence.forM_eq_ok_iff] at hsettled
    replace hsettled : ∀ r ∈ replicas, r.log.pending = [] :=
      fun r hr => Replica.checkSettled_eq_ok_iff.1 (hsettled r hr)
    cases replicas with
    | nil => exact .inl ⟨nofun, nofun⟩
    | cons first rest =>
      cases halike : rest.forM first.checkAgainst with
      | ok =>
        rw [Divergence.forM_eq_ok_iff] at halike
        exact .inl (converged_cons_iff.2
          ⟨hsettled, fun r hr => (Replica.checkAgainst_exact first r).1.1 (halike r hr)⟩)
      | error d =>
        obtain ⟨between, r, after, rfl, hbetween, hr⟩ := Divergence.forM_eq_error_iff.1 halike
        exact .inr ⟨d, .differs rfl hsettled
          (fun b hb => (Replica.checkAgainst_exact first b).1.1 (hbetween b hb))
          (((Replica.checkAgainst_exact first r).2 d).1 hr)⟩

end Convergence

/-- **The check of convergence is sound and complete.**  It succeeds exactly if nothing is pending
and any two of the replicas match.  It reports a divergence exactly if the replicas diverge in this
way; so the numbers of stable operations that it reports to be missing and extra are the sizes of
the two differences between the first replica and the named one, and not both zero. -/
theorem convergence_exact (replicas : List Replica) :
    (convergence replicas = .ok () ↔ Converged replicas) ∧
      ∀ d, convergence replicas = .error d ↔ Diverged replicas d :=
  Divergence.exact_of Converged.convergence_eq (fun _ => Diverged.convergence_eq)
    (converged_or_diverged replicas)

-- two operations were given one number by replicas of one name
example :
    let op (timestamp : Clock) : Operation :=
      { kind := .create "x", origin := "A", context := .zero, timestamp }
    let first := ((Replica.fresh "A").receive [op (.ofEntries [("A", 1)])]).2
    let second := ((Replica.fresh "B").receive [op (.ofEntries [("A", 1), ("C", 1)])]).2
    convergence [first, second] = .error (.stableLog "B" 1 1) := by
  decide +kernel

end GossipLedger
