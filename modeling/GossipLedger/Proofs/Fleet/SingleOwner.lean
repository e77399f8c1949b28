import GossipLedger.Proofs.Accounts.Tally
import GossipLedger.Proofs.Fleet.CaughtUp
import GossipLedger.Proofs.Replica.Invariant

/-!
# Accounts with one owner

A write is admitted with the balances of the replica that accepts it and executed with those of
every other replica, where other operations have come before it.  It has its effect there too if
each account except the broker's is named in the writes of one client only (`Fleet.KeepsToOwn`) and
the broker has money enough for all transfers.

The reason is that two operations which name a common account come from one client, so the later of
them covers the earlier one (`Fleet.Owned`) and stands behind it in every log.  Hence an account is
named in the same operations before a write, wherever this is executed
(`clean_of_follows`), and the accepted operations would all be admitted again in the order in which
they were accepted (`Fleet.Reaches.clean`).
-/

namespace GossipLedger

/-- The operations name a common account besides the broker's. -/
def Operation.Meets (x y : Operation) : Prop :=
  ∃ account ∈ x.kind.accounts, account ∈ y.kind.accounts ∧ account ≠ .broker

variable {l m : List Operation} {money : UInt64}

/-- **Operations that were admitted in one causal order are admitted in every other one**, if those
that meet are ordered by their contexts and the broker has money for all of them. -/
theorem clean_of_follows (hl : History Ranked l) (hclean : Accounts.Clean (.seeded money) l)
    (hmeet : l.Pairwise fun x y => x.Meets y → y.Covers x)
    (hfunds : tally (Kind.debit .broker) l ≤ money.toNat)
    (hm : History Follows m) (hsub : ∀ x ∈ m, x ∈ l) : Accounts.Clean (.seeded money) m := by
  induction hm with
  | nil => exact .nil
  | @concat m x hm hx ih =>
    have hmx : History Follows (m ++ [x]) := .concat hm hx
    have hnodup : (m ++ [x]).Nodup := nodup_of_ranked hmx.ranked
    have hnew : x ∉ m := fun hxm =>
      (List.nodup_append.1 hnodup).2.2 x hxm x (List.mem_singleton_self x) rfl
    have hsub' : ∀ y ∈ m, y ∈ l := fun y hy => hsub y (List.mem_append_left _ hy)
    have hxl : x ∈ l := hsub x (List.mem_append_right _ (List.mem_singleton_self x))
    refine Accounts.clean_concat.2 ⟨ih hsub', ?_⟩
    obtain ⟨before, after, rfl⟩ := List.append_of_mem hxl
    obtain ⟨-, hafter, hbefore⟩ := List.pairwise_append.1 hmeet
    have hbroker : tally (Kind.debit .broker) (m ++ [x]) ≤ money.toNat :=
      Nat.le_trans (tally_le_of_subset hnodup hsub) hfunds
    refine Accounts.Clean.admission_of_mem_iff (History.of_append hclean) (ih hsub')
      (nodup_of_ranked hl.of_append) (nodup_of_ranked hm.ranked) ?_ hbroker (History.holds hclean)
    intro account haccount hne y hy
    constructor
    · intro hyb
      have hcovers : x.Covers y := hbefore y hyb x List.mem_cons_self ⟨account, hy, haccount, hne⟩
      exact mem_of_covers hl hmx hsub' (List.mem_append_left _ hyb) hcovers
    · intro hym
      rcases List.mem_append.1 (hsub' y hym) with hyb | hya
      · exact hyb
      · -- an operation that is accepted later covers this one and cannot stand before it
        exfalso
        rcases List.mem_cons.1 hya with rfl | hya
        · exact hnew hym
        · have hcovers : y.Covers x :=
            (List.pairwise_cons.1 hafter).1 y hya ⟨account, haccount, hy, hne⟩
          obtain ⟨m₁, m₂, rfl⟩ := List.append_of_mem hym
          have hxm : x ∈ m₁ := mem_of_covers hl hm
            (fun z hz => hsub' z (List.mem_append_left _ hz)) hxl hcovers
          exact hnew (List.mem_append_left _ hxm)

/-- No transfer is skipped where each was admitted. -/
theorem Accounts.Clean.skippedTransfers_eq_zero {start : Accounts} (h : Accounts.Clean start l) :
    start.skippedTransfers (l.map (·.kind)) = 0 := by
  induction h with
  | nil => rfl
  | @concat l op _ hop ih =>
    obtain ⟨b, hb⟩ := Accounts.exists_admits hop
    rw [List.map_append, List.map_singleton, Accounts.skippedTransfers_concat, ih, Accounts.skips,
      hb.execute, if_neg fun hskipped => hskipped.1 rfl]

namespace Replica

variable {r : Replica} {id : ReplicaId} {active : Bool}

/-- A reached replica is the replay of its log. -/
theorem Reached.replays (h : Reached (.fresh id money active) r) :
    ∃ own, r.toLedger.Replays r.id money r.log own := by
  obtain ⟨calls, own, hrun⟩ := h
  have hsound := Session.sound_of_run hrun
  refine ⟨own, ?_⟩
  rw [show r.id = id from hsound.id_eq]
  exact hsound.replays

end Replica

namespace Fleet

variable {ι κ : Type} {ids : ι → ReplicaId} {f g : Fleet ι κ} {owner : AccountId → κ}

/-! ### Keeping to one's own accounts -/

/-- Of the writes that are accepted, each names only the broker's account and accounts of its
client. -/
def KeepsToOwn (owner : AccountId → κ) (f : Fleet ι κ) : Event ι κ → Prop
  | .write client place kind context => (f.replicas place).accepts kind context = true →
      ∀ account ∈ kind.accounts, account ≠ .broker → owner account = client
  | .read .. => True
  | .post _ => True
  | .deliver _ _ => True

/-- Clients carry their contexts, write only where a replica has caught up with them and only about
their own accounts, and whole snapshots are delivered. -/
def Exclusive (owner : AccountId → κ) (f : Fleet ι κ) (e : Event ι κ) : Prop :=
  f.Disciplined e ∧ f.KeepsToOwn owner e

instance [DecidableEq κ] (f : Fleet ι κ) (e : Event ι κ) : Decidable (f.KeepsToOwn owner e) :=
  match e with
  | .write client place kind context =>
    inferInstanceAs (Decidable ((f.replicas place).accepts kind context = true →
      ∀ account ∈ kind.accounts, account ≠ .broker → owner account = client))
  | .read .. => .isTrue trivial
  | .post _ => .isTrue trivial
  | .deliver _ _ => .isTrue trivial

instance [DecidableEq κ] (f : Fleet ι κ) (e : Event ι κ) : Decidable (f.Exclusive owner e) :=
  inferInstanceAs (Decidable (_ ∧ _))

/-- The owner of an account knows all operations that name it. -/
structure Owned (owner : AccountId → κ) (f : Fleet ι κ) : Prop where
  /-- The owner was told of these operations. -/
  told : ∀ x ∈ f.accepted, ∀ account ∈ x.kind.accounts, account ≠ .broker →
    x.rank ≤ (Clock.joined (f.told (owner account))).count x.origin
  /-- Each of them covers the earlier ones. -/
  covers : f.accepted.Pairwise fun x y => x.Meets y → y.Covers x

theorem owned_fresh {money : ι → UInt64} {active : ι → Bool} :
    (fresh ids money active : Fleet ι κ).Owned owner where
  told := nofun
  covers := .nil

/-- Clients only learn more. -/
theorem Owned.of_told_le (h : f.Owned owner) (haccepted : g.accepted = f.accepted)
    (htold : ∀ k s, (Clock.joined (f.told k)).count s ≤ (Clock.joined (g.told k)).count s) :
    g.Owned owner where
  told := by
    rw [haccepted]
    exact fun x hx account haccount hne =>
      Nat.le_trans (h.told x hx account haccount hne) (htold _ _)
  covers := haccepted ▸ h.covers

variable [DecidableEq κ]

theorem count_joined_tell {k k' : κ} {clock : Clock} {s : ReplicaId} :
    (Clock.joined ((f.tell k clock).told k')).count s =
      if k' = k then max ((Clock.joined (f.told k')).count s) (clock.count s)
      else (Clock.joined (f.told k')).count s := by
  by_cases hk : k' = k
  · have htold : (f.tell k clock).told k = f.told k ++ [clock] := Function.update_self ..
    rw [if_pos hk, hk, htold, Clock.joined_concat, Clock.count_merged]
  · have htold : (f.tell k clock).told k' = f.told k' := Function.update_of_ne hk ..
    rw [if_neg hk, htold]

theorem count_joined_le_tell {k k' : κ} {clock : Clock} {s : ReplicaId} :
    (Clock.joined (f.told k')).count s ≤ (Clock.joined ((f.tell k clock).told k')).count s := by
  rw [count_joined_tell]
  split <;> omega

variable [DecidableEq ι]

/-- The owner of an account covers what names it, and is told of what was accepted. -/
theorem Owned.write (hf : f.Coherent ids) (h : f.Owned owner) {k : κ} {i : ι} {kind : Kind}
    (hroom : (f.replicas i).clock.get (f.replicas i).id ≠ Clock.maxCount)
    (hown : ∀ account ∈ kind.accounts, account ≠ .broker → owner account = k) :
    (f.afterWrite k i kind (.joined (f.told k))).Owned owner where
  told x hx account haccount hne := by
    change _ ≤ (Clock.joined ((f.tell k ((Clock.joined (f.told k)).merged
      ((f.replicas i).afterWrite kind (.joined (f.told k))).clock)).told (owner account))).count _
    rcases List.mem_append.1 hx with hx | hx
    · exact Nat.le_trans (h.told x hx account haccount hne) count_joined_le_tell
    · obtain rfl := List.mem_singleton.1 hx
      have hcount : ((f.replicas i).afterWrite kind (.joined (f.told k))).clock.count
          (f.replicas i).id = ((f.replicas i).draft kind (.joined (f.told k))).rank := by
        rw [(hf.within i).count_afterWrite_self hroom hf.ranked, Replica.rank_draft hroom]
      rw [count_joined_tell, if_pos (hown account haccount hne), Clock.count_merged, ← hcount]
      change _ ≤ max _ (max _ (((f.replicas i).afterWrite kind (.joined (f.told k))).clock.count
        (f.replicas i).id))
      omega
  covers := by
    refine List.pairwise_append.2 ⟨h.covers, List.pairwise_singleton _ _, ?_⟩
    rintro x hx y hy ⟨account, hax, hay, hne⟩
    obtain rfl := List.mem_singleton.1 hy
    rw [Operation.covers_iff]
    have htold := h.told x hx account hax hne
    rwa [hown account hay hne] at htold

theorem Owned.step (hf : f.Coherent ids) (h : f.Owned owner) {e : Event ι κ}
    (hrule : f.Exclusive owner e) : (f.step e).Owned owner := by
  obtain ⟨⟨⟨hcarries, -⟩, -⟩, hkeeps⟩ := hrule
  have hcase := step_cases f e
  generalize f.step e = g at hcase ⊢
  cases hcase with
  | accepted hroom hactive hadmitted hnew =>
    obtain rfl := hcarries
    refine h.write hf hroom (hkeeps ?_)
    exact Replica.accepts_of_submit (Replica.submit_eq_ok hactive hadmitted hroom hnew)
  | quiet hfg => exact h.of_told_le hfg.accepted fun k s => Nat.le_of_eq (by rw [hfg.told])
  | answered => exact h.of_told_le rfl fun _ _ => count_joined_le_tell
  | posted => exact ⟨h.told, h.covers⟩
  | delivered => exact ⟨h.told, h.covers⟩

theorem Reaches.owned (hids : Function.Injective ids) {money : ι → UInt64} {active : ι → Bool}
    (hf : Reaches (Exclusive owner) (fresh ids money active) f) : f.Coherent ids ∧ f.Owned owner :=
  hf.invariant_of_coherent hids (fun _ _ he => he.1.1.2.copies) coherent_fresh owned_fresh
    fun _ _ hf h he => h.step hf he

/-! ### Everything takes effect -/

section Sequential

omit [DecidableEq ι] [DecidableEq κ]

/-- A replica executes what it knows. -/
theorem Sequential.map_kind (h : f.Sequential) (i : ι) :
    (f.replicas i).log.contents.map (·.kind) = (f.replicas i).log.stable.map (·.kind) := by
  rw [Log.contents_eq_map_stable (h.current i).applied, List.map_map]
  rfl

variable (hf : f.Coherent ids) (h : f.Sequential)

include hf h

/-- A replica knows the operations that its clock counts. -/
theorem Sequential.mem_contents_of_rank_le {i : ι} {x : Operation} (hx : x ∈ f.accepted)
    (hrank : x.rank ≤ (f.replicas i).clock.count x.origin) :
    x ∈ (f.replicas i).log.contents := by
  rw [(h.current i).count_eq (hf.within i).settled] at hrank
  exact mem_of_rank_le hf.ranked (h.current i).causal.ranked (hf.within i).known hx hrank

/-- What was admitted when it was accepted is admitted wherever it is executed. -/
theorem Sequential.clean (ho : f.Owned owner) {money : UInt64}
    (hclean : Accounts.Clean (.seeded money) f.accepted)
    (hfunds : tally (Kind.debit .broker) f.accepted ≤ money.toNat) (i : ι) :
    Accounts.Clean (.seeded money) (f.replicas i).log.contents :=
  clean_of_follows hf.ranked hclean ho.covers hfunds (h.current i).causal (hf.within i).known

/-- What one replica admits would be admitted behind all that was accepted, if the replica knows
what names the same accounts. -/
theorem Sequential.clean_concat (ho : f.Owned owner) {money : UInt64} {i : ι} {x : Operation}
    (hclean : Accounts.Clean (.seeded money) f.accepted)
    (hfunds : tally (Kind.debit .broker) (f.accepted ++ [x]) ≤ money.toNat)
    (hadmitted : ((Accounts.seeded money).replay
      ((f.replicas i).log.stable.map (·.kind))).admission x.kind = .ok ())
    (hcounted : ∀ account ∈ x.kind.accounts, account ≠ .broker → ∀ y ∈ f.accepted,
      account ∈ y.kind.accounts → y.rank ≤ (f.replicas i).clock.count y.origin) :
    Accounts.Clean (.seeded money) (f.accepted ++ [x]) := by
  have hbefore : tally (Kind.debit .broker) f.accepted ≤ money.toNat :=
    Nat.le_trans (tally_le_of_sublist (List.sublist_append_left _ _)) hfunds
  rw [← h.map_kind] at hadmitted
  refine Accounts.clean_concat.2 ⟨hclean, ?_⟩
  refine Accounts.Clean.admission_of_mem_iff (h.clean hf ho hclean hbefore i) hclean
    (nodup_of_ranked (h.current i).causal.ranked) (nodup_of_ranked hf.ranked) ?_ hfunds hadmitted
  intro account haccount hne y hy
  exact ⟨(hf.within i).known y,
    fun hya => h.mem_contents_of_rank_le hf hya (hcounted account haccount hne y hya hy)⟩

end Sequential

/-- **The accepted operations would all be admitted again**, in the order in which they were
accepted. -/
theorem Reaches.clean (hids : Function.Injective ids) {money : UInt64} {active : ι → Bool}
    (hf : Reaches (Exclusive owner) (fresh ids (fun _ => money) active) f)
    (hfunds : tally (Kind.debit .broker) f.accepted ≤ money.toNat) :
    Accounts.Clean (.seeded money) f.accepted := by
  suffices hall : Reaches (Exclusive owner) (fresh ids (fun _ => money) active) f ∧
      (tally (Kind.debit .broker) f.accepted ≤ money.toNat →
        Accounts.Clean (.seeded money) f.accepted) from hall.2 hfunds
  clear hfunds
  refine hf.invariant (I := fun f => Reaches (Exclusive owner) (fresh ids (fun _ => money) active) f ∧
    (tally (Kind.debit .broker) f.accepted ≤ money.toNat →
      Accounts.Clean (.seeded money) f.accepted)) ⟨.refl, fun _ => .nil⟩ ?_
  rintro f e ⟨hf, hclean⟩ he
  refine ⟨hf.step he, ?_⟩
  obtain ⟨hc, ho⟩ := hf.owned hids
  obtain ⟨-, hs⟩ := (hf.mono fun _ _ he => ⟨he.1.2, he.1.1.2⟩ : Reaches Gated _ _).sequential hids
  obtain ⟨⟨⟨hcarries, -⟩, hcaught⟩, hkeeps⟩ := he
  have hcase := step_cases f e
  generalize f.step e = g at hcase ⊢
  cases hcase with
  | @accepted k i kind context hroom hactive hadmitted hnew =>
    intro hfunds
    have hfunds' : tally (Kind.debit .broker) f.accepted ≤ money.toNat :=
      Nat.le_trans (tally_le_of_sublist (List.sublist_append_left _ _)) hfunds
    have hown : ∀ account ∈ kind.accounts, account ≠ .broker → owner account = k := by
      refine hkeeps ?_
      exact Replica.accepts_of_submit (Replica.submit_eq_ok hactive hadmitted hroom hnew)
    obtain ⟨own, hreplays⟩ := (hf.reached i).replays
    -- the replica admitted the write with what its own log has led to
    rw [hreplays.accounts] at hadmitted
    refine hs.clean_concat hc ho (hclean hfunds') hfunds hadmitted ?_
    -- the client knows what names its accounts, and the replica has caught up with the client
    intro account haccount hne x hxa hx
    have htold := ho.told x hxa account hx hne
    rw [hown account haccount hne] at htold
    rw [hcarries] at hcaught
    exact Nat.le_trans htold (Clock.dominates_iff_count.1 hcaught x.origin)
  | quiet hfg => rwa [hfg.accepted]
  | answered => exact hclean
  | posted => exact hclean
  | delivered => exact hclean

/-- All that is executed takes effect, and the balances tell nothing of its order. -/
structure Solvent (money : UInt64) (f : Fleet ι κ) : Prop where
  /-- The accounts of a replica are those of a fresh one after its stable operations. -/
  replayed : ∀ i, (f.replicas i).accounts =
    (Accounts.seeded money).replay ((f.replicas i).log.stable.map (·.kind))
  /-- Each of these operations took effect when it was executed. -/
  applied : ∀ i before op after, (f.replicas i).log.stable = before ++ op :: after →
    (((Accounts.seeded money).replay (before.map (·.kind))).execute op.kind).1 = .applied
  /-- No transfer was counted as skipped. -/
  skipped : ∀ i, (f.replicas i).stats.transfersSkipped = 0
  /-- Replicas with the same stable operations have the same balances. -/
  balances : ∀ i j, (∀ op, op ∈ (f.replicas i).log.stable ↔ op ∈ (f.replicas j).log.stable) →
    (f.replicas i).accounts = (f.replicas j).accounts
  /-- All balances together are the money at the start. -/
  total : ∀ i, (f.replicas i).accounts.total = money

/-- **Balances converge if each account has one owner.**  Clients carry their contexts and write
only where a replica has caught up with them, each account besides the broker's is named in the
accepted writes of one client only, and the broker has money for all accepted transfers.  Then in
whatever order snapshots are delivered, no accepted operation is ever skipped, replicas with the
same stable operations have the same balances, and no money is lost. -/
theorem Reaches.solvent (hids : Function.Injective ids) {money : UInt64} {active : ι → Bool}
    (hf : Reaches (Exclusive owner) (fresh ids (fun _ => money) active) f)
    (hfunds : tally (Kind.debit .broker) f.accepted ≤ money.toNat) : f.Solvent money := by
  have hfit : (Accounts.seeded money).exactTotal < UInt64.size := money.toNat_lt
  obtain ⟨hc, ho⟩ := hf.owned hids
  obtain ⟨-, hs⟩ := (hf.mono fun _ _ he => ⟨he.1.2, he.1.1.2⟩ : Reaches Gated _ _).sequential hids
  have hclean : ∀ i, Accounts.Clean (.seeded money) (f.replicas i).log.contents :=
    hs.clean hc ho (hf.clean hids hfunds) hfunds
  have hreplayed : ∀ i, (f.replicas i).accounts =
      (Accounts.seeded money).replay ((f.replicas i).log.contents.map (·.kind)) := by
    intro i
    obtain ⟨own, hreplays⟩ := (hf.reached i).replays
    rw [hs.map_kind]
    exact hreplays.accounts
  refine ⟨fun i => ?_, fun i before op after hstable => ?_, fun i => ?_, fun i j hsame => ?_,
    fun i => ?_⟩
  · rw [hreplayed, hs.map_kind]
  · have hi := hclean i
    rw [Log.contents_eq_map_stable (hs.current i).applied, hstable, List.map_append,
      List.map_cons] at hi
    have happlied := hi.execute_eq_applied
    rwa [List.map_map] at happlied
  · obtain ⟨own, hreplays⟩ := (hf.reached i).replays
    rw [hreplays.skipped, ← hs.map_kind]
    exact (hclean i).skippedTransfers_eq_zero
  · rw [hreplayed i, hreplayed j]
    refine (hclean i).replay_eq hfit (hclean j) ?_
    refine (List.perm_ext_iff_of_nodup (nodup_of_ranked (hs.current i).causal.ranked)
      (nodup_of_ranked (hs.current j).causal.ranked)).2 fun x => ?_
    rw [Log.contents_eq_map_stable (hs.current i).applied,
      Log.contents_eq_map_stable (hs.current j).applied, List.mem_map, List.mem_map]
    simp only [hsame]
  · have htotal := ((hclean i).tallied hfit).exactTotal
    rw [← hreplayed] at htotal
    refine UInt64.toNat_inj.1 ?_
    rw [Accounts.toNat_total (by rwa [htotal]), htotal, Accounts.exactTotal_seeded]

/-- Of two accounts, each client owns one. -/
def ownerOf (account : AccountId) : Side :=
  if account = "x" then .left else .right

/-- Two clients open an account each, at different replicas, and take money from the broker. -/
def funded : Fleet Side Side :=
  pair.run
    [.write .left .left (.create "x") .zero,
      .write .left .left (.transfer "broker" "x" 600) (Clock.zero.set "A" 1),
      .write .right .right (.create "y") .zero,
      .write .right .right (.transfer "broker" "y" 400) (Clock.zero.set "B" 1),
      .post .left,
      .post .right]

/-- The replicas hear of each other, and one of the clients pays back at the other replica, where
what it wrote before stands behind the writes of the other client. -/
def trading : List (Event Side Side) :=
  [.deliver .left (funded.replicas .right).snapshot,
    .deliver .right (funded.replicas .left).snapshot,
    .write .left .right (.transfer "x" "broker" 100) (Clock.zero.set "A" 2)]

theorem trading_solvent :
    Function.Injective pairIds ∧ Reaches (Exclusive ownerOf) pair (funded.run trading) ∧
      tally (Kind.debit .broker) (funded.run trading).accepted ≤ (1000 : UInt64).toNat ∧
      (funded.run trading).accepted.length = 5 ∧ (funded.run trading).Solvent 1000 := by
  have hfunded : Reaches (Exclusive ownerOf) pair funded := reaches_run (by decide)
  have hrun : Reaches (Exclusive ownerOf) pair (funded.run trading) :=
    hfunded.trans (reaches_run (by decide))
  have hfunds : tally (Kind.debit .broker) (funded.run trading).accepted ≤ (1000 : UInt64).toNat := by
    decide
  exact ⟨pairIds_injective, hrun, hfunds, by decide, hrun.solvent pairIds_injective hfunds⟩

end Fleet

end GossipLedger
