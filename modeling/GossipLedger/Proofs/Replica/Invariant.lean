import GossipLedger.Proofs.Replica.Bookkeeping
import GossipLedger.Proofs.Replica.Replay

/-!
# What every call keeps

Whatever a replica is asked, it stays settled, its timestamps stay distinct and its ledger stays the
replay of its log.  `Session.Sound` puts the three together.  One call keeps it
(`Session.Sound.step`), so it holds of every replica that calls have made of a fresh one
(`Session.sound_of_run`), and from there on (`Session.Sound.run`).  What else calls keep may rely on
it (`Session.Sound.invariant`).
-/

namespace GossipLedger

namespace Session

variable {id : ReplicaId} {money : UInt64} {active : Bool} {calls : List Call} {s t : Session}

/-- The replica is in order, and its ledger is what its stable operations lead to. -/
structure Sound (s : Session) (id : ReplicaId) (money : UInt64) : Prop where
  /-- The name of the replica. -/
  id_eq : s.replica.id = id
  /-- Marks, clock and waiting operations are in order. -/
  settled : s.replica.Settled
  /-- No two operations share a timestamp. -/
  distinct : s.replica.log.Distinct
  /-- The ledger is the replay of the log. -/
  replays : s.replica.toLedger.Replays id money s.replica.log s.accepted

theorem sound_fresh : (fresh id money active).Sound id money where
  id_eq := rfl
  settled := Replica.settled_fresh
  distinct := Log.distinct_empty
  replays := Ledger.replays_fresh

/-- Whatever a call can do keeps a replica sound. -/
theorem Sound.step (h : s.Sound id money) (hcase : CallCase s t) : t.Sound id money := by
  obtain ⟨rfl, hsettled, hdistinct, hreplays⟩ := h
  exact ⟨hcase.id_eq, hcase.settled hsettled, hcase.distinct hsettled hdistinct,
    hcase.replays hsettled hreplays⟩

theorem Sound.run (h : s.Sound id money) (hrun : s.run calls = .ok t) : t.Sound id money := by
  refine run_invariant (I := fun s => s.Sound id money) hrun h ?_
  intro s t hs hcase
  exact hs.step hcase

/-- What holds at a sound replica and is kept by whatever a call can do to one holds after a run. -/
theorem Sound.invariant {I : Session → Prop} (h : s.Sound id money) (hrun : s.run calls = .ok t)
    (h₀ : I s) (hstep : ∀ s t, s.Sound id money → I s → CallCase s t → I t) : I t := by
  suffices hall : t.Sound id money ∧ I t from hall.2
  refine run_invariant (I := fun s => s.Sound id money ∧ I s) hrun ⟨h, h₀⟩ ?_
  rintro s t ⟨hsound, hs⟩ hcase
  exact ⟨hsound.step hcase, hstep s t hsound hs hcase⟩

/-- What any calls make of a fresh replica is sound. -/
theorem sound_of_run (h : (fresh id money active).run calls = .ok s) : s.Sound id money :=
  sound_fresh.run h

end Session

end GossipLedger
