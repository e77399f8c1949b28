import GossipLedger.Proofs.Fleet.History
import GossipLedger.Proofs.Replica.Session

/-!
# A replica is the replay of its log

Whatever calls a replica has answered, its ledger is what its stable operations lead to, in their
order (`Ledger.Replays`): the accounts are their replay, the statistics count them, and the clock
holds the highest number of each origin among them (`highest`).  Only for the replica itself the
clock also counts the writes that still wait.  Since the clock is a function of the stable part,
each stable operation was ready under what stood before it.

`Ledger.Replays.promote` says that one promotion keeps this, `Ledger.Replays.settled` that settling
does, and `Session.replays_of_run` that every run does.
-/

namespace GossipLedger

/-! ### Replaying accounts -/

namespace Accounts

variable {a : Accounts} {kind : Kind} {kinds : List Kind}

/-- One if the operation is a transfer that has no effect, else zero. -/
def skips (a : Accounts) (kind : Kind) : Nat :=
  if (a.execute kind).1 ≠ .applied ∧ kind.isTransfer then 1 else 0

/-- The number of transfers without effect when a list of operations is replayed. -/
def skippedTransfers (a : Accounts) : List Kind → Nat
  | [] => 0
  | kind :: rest => a.skips kind + skippedTransfers (a.execute kind).2 rest

theorem replay_concat : a.replay (kinds ++ [kind]) = ((a.replay kinds).execute kind).2 := by
  rw [replay, List.foldl_append]
  rfl

theorem skippedTransfers_concat :
    a.skippedTransfers (kinds ++ [kind]) = a.skippedTransfers kinds + (a.replay kinds).skips kind := by
  induction kinds generalizing a with
  | nil =>
    rw [List.nil_append, skippedTransfers, skippedTransfers, skippedTransfers, Nat.zero_add]
    rfl
  | cons first rest ih =>
    rw [List.cons_append, skippedTransfers, skippedTransfers, ih, Nat.add_assoc]
    rfl

end Accounts

/-! ### Ledgers that replay a log -/

namespace Ledger

variable {l l' : Ledger} {id : ReplicaId} {money : UInt64} {log : Log}
  {accepted rest : List Operation} {op : Operation}

/-- The ledger of a replica is what its log leads to, given the operations that the replica has
accepted itself. -/
structure Replays (l : Ledger) (id : ReplicaId) (money : UInt64) (log : Log)
    (accepted : List Operation) : Prop where
  /-- The accounts are those of a fresh ledger after the stable operations. -/
  accounts : l.accounts = (Accounts.seeded money).replay (log.stable.map (·.kind))
  /-- The stable operations are counted. -/
  promoted : l.stats.promoted = log.stable.length
  /-- The stable transfers without effect are counted. -/
  skipped : l.stats.transfersSkipped =
    (Accounts.seeded money).skippedTransfers (log.stable.map (·.kind))
  /-- For another replica, the clock holds its highest stable number. -/
  count : ∀ r, r ≠ id → (l.clock.get r).toNat = highest r log.stable
  /-- For the replica itself, it holds the highest number that is stable or was accepted. -/
  count_own : (l.clock.get id).toNat = highest id (log.stable ++ accepted)
  /-- The context of a stable operation counts no more of other replicas than is stable before. -/
  covered : History (fun before op => ∀ r, r ≠ id → (op.context.get r).toNat ≤ highest r before)
    log.stable

theorem replays_fresh : Replays { clock := .zero, accounts := .seeded money } id money {} [] where
  accounts := rfl
  promoted := rfl
  skipped := rfl
  count _ _ := rfl
  count_own := rfl
  covered := .nil

/-- Only the clock, the accounts and two of the statistics matter. -/
theorem Replays.congr (h : l.Replays id money log accepted) (hclock : l'.clock = l.clock)
    (haccounts : l'.accounts = l.accounts) (hpromoted : l'.stats.promoted = l.stats.promoted)
    (hskipped : l'.stats.transfersSkipped = l.stats.transfersSkipped) :
    l'.Replays id money log accepted where
  accounts := haccounts.trans h.accounts
  promoted := hpromoted.trans h.promoted
  skipped := hskipped.trans h.skipped
  count := hclock ▸ h.count
  count_own := hclock ▸ h.count_own
  covered := h.covered

/-- One more stable operation. -/
theorem Replays.promote (h : l.Replays id money log accepted)
    (hready : op.isReady l.clock = true) :
    (Ledger.apply op.marked l).Replays id money ⟨log.stable ++ [op.marked], rest⟩ accepted where
  accounts := by
    rw [List.map_append, List.map_singleton, Accounts.replay_concat, ← h.accounts]
    rfl
  promoted := by
    rw [List.length_append, List.length_singleton, ← h.promoted]
    rfl
  skipped := by
    rw [List.map_append, List.map_singleton, Accounts.skippedTransfers_concat, ← h.accounts,
      ← h.skipped]
    rfl
  count r hr := by
    have hcount : l.clock.count r = highest r log.stable := h.count r hr
    change (Ledger.apply op.marked l).clock.count r = _
    rw [Ledger.count_apply, highest_concat, hcount]
  count_own := by
    have hcount : l.clock.count id = max (highest id log.stable) (highest id accepted) := by
      rw [← highest_append]
      exact h.count_own
    change (Ledger.apply op.marked l).clock.count id = _
    rw [Ledger.count_apply, highest_append, highest_concat, hcount]
    split <;> omega
  covered := by
    refine .concat h.covered fun r hr => ?_
    rw [← h.count r hr]
    exact Operation.isReady_iff.1 hready r

theorem Replays.settled (h : l.Replays id money log accepted) :
    (log.settled l).2.Replays id money (log.settled l).1 accepted := by
  refine Log.settle_induction
    (P := fun log (l : Ledger) => l.Replays id money log accepted) ?_ h
  intro log l before op after _ _ hready ih
  exact ih.promote hready

end Ledger

/-! ### Runs -/

namespace Replica

variable {r : Replica} {money : UInt64} {accepted ops : List Operation} {kind : Kind}
  {context : Clock}

/-- A write is counted by its replica at once. -/
theorem replays_afterWrite (h : r.toLedger.Replays r.id money r.log accepted)
    (hroom : r.clock.get r.id ≠ Clock.maxCount) :
    (r.afterWrite kind context).toLedger.Replays r.id money (r.afterWrite kind context).log
      (accepted ++ [r.draft kind context]) := by
  have hgrown : Ledger.Replays { r.toLedger with clock := r.nextStamp } r.id money
      (r.log.await [r.draft kind context]) (accepted ++ [r.draft kind context]) :=
    { accounts := h.accounts
      promoted := h.promoted
      skipped := h.skipped
      count := fun s hs => (count_nextStamp_of_ne hs).trans (h.count s hs)
      count_own := by
        have hown : r.clock.count r.id = highest r.id (r.log.stable ++ accepted) := h.count_own
        change r.nextStamp.count r.id = _
        have horigin : (r.draft kind context).origin = r.id := rfl
        rw [count_nextStamp_self hroom, Log.stable_await, ← List.append_assoc, highest_concat,
          if_pos horigin, rank_draft hroom, ← hown]
        omega
      covered := h.covered }
  exact hgrown.settled.congr rfl rfl rfl rfl

theorem replays_receive (h : r.toLedger.Replays r.id money r.log accepted) (hs : r.Settled) :
    (r.receive ops).2.toLedger.Replays r.id money (r.receive ops).2.log accepted := by
  have habsorb : (r.log.absorb Ledger.clock Ledger.apply ops r.toLedger).2 =
      (r.log.await (r.log.news ops)).settled r.toLedger :=
    Log.absorb_eq_settle hs.waiting
  have hgrown : r.toLedger.Replays r.id money (r.log.await (r.log.news ops)) accepted :=
    ⟨h.accounts, h.promoted, h.skipped, h.count, h.count_own, h.covered⟩
  have hsettled := hgrown.settled
  rw [← habsorb] at hsettled
  exact hsettled.congr rfl rfl rfl rfl

end Replica

namespace Session

variable {id : ReplicaId} {money : UInt64} {active : Bool} {calls : List Call} {s t : Session}

theorem CallCase.replays (hcase : CallCase s t) (hs : s.replica.Settled)
    (h : s.replica.toLedger.Replays s.replica.id money s.replica.log s.accepted) :
    t.replica.toLedger.Replays s.replica.id money t.replica.log t.accepted := by
  cases hcase with
  | accepted hroom => exact Replica.replays_afterWrite h hroom
  | received => exact Replica.replays_receive h hs
  | quiet hr =>
    rw [hr.log]
    exact h.congr hr.clock hr.accounts hr.promoted hr.skipped

/-- **The state of a replica is the replay of its log.**  After any calls that do not count beyond
64 bits, with arbitrary contexts and arbitrary received operations, accounts, statistics and clock
are what the stable operations lead to, and each of these was ready when it was applied. -/
theorem replays_of_run (h : (fresh id money active).run calls = .ok s) :
    s.replica.toLedger.Replays id money s.replica.log s.accepted := by
  suffices hall : s.replica.id = id ∧ s.replica.Settled ∧
      s.replica.toLedger.Replays id money s.replica.log s.accepted from hall.2.2
  refine run_invariant (I := fun s => s.replica.id = id ∧ s.replica.Settled ∧
    s.replica.toLedger.Replays id money s.replica.log s.accepted) h
      ⟨rfl, Replica.settled_fresh, Ledger.replays_fresh⟩ ?_
  rintro s t ⟨rfl, hsettled, hreplays⟩ hcase
  exact ⟨hcase.id_eq, hcase.settled hsettled, hcase.replays hsettled hreplays⟩

/-- A write that waits for another replica, two operations of that replica in the wrong order, the
later of which pays an account that does not exist, a write that is refused and one that is applied
at once. -/
def mixedCalls : List Call :=
  [.submit (.create "x") (Clock.zero.set "B" 1),
    .receive
      [{ kind := .transfer "broker" "y" 5, origin := "B", context := Clock.zero.set "B" 1,
          timestamp := Clock.zero.set "B" 3, stable := true },
        { kind := .delete "broker", origin := "B", context := .zero,
          timestamp := Clock.zero.set "B" 1 }],
    .read "x" .zero,
    .deactivate,
    .submit (.create "z") .zero,
    .activate,
    .submit (.create "z") .zero]

theorem mixedCalls_replays : ∃ s, (fresh "A" 1000 true).run mixedCalls = .ok s ∧
    s.accepted.length = 2 ∧ s.replica.log.stable.length = 4 ∧
    s.replica.stats.transfersSkipped = 1 ∧
    s.replica.toLedger.Replays "A" 1000 s.replica.log s.accepted := by
  have hview : ((fresh "A" 1000 true).run mixedCalls).map (fun s =>
      (s.accepted.length, s.replica.log.stable.length, s.replica.stats.transfersSkipped)) =
        .ok (2, 4, 1) := rfl
  cases hrun : (fresh "A" 1000 true).run mixedCalls with
  | error e =>
    rw [hrun] at hview
    cases hview
  | ok s =>
    simp only [hrun, Except.map, Except.ok.injEq, Prod.mk.injEq] at hview
    obtain ⟨haccepted, hstable, hskipped⟩ := hview
    exact ⟨s, rfl, haccepted, hstable, hskipped, replays_of_run hrun⟩

end Session

end GossipLedger
