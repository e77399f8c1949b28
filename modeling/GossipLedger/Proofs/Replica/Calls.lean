import GossipLedger.Proofs.Log.Batches
import GossipLedger.Replica

/-!
# What a call does to a replica

`Replica.submit` ends in one of three ways (`SubmitCase`): the write is refused, its timestamp is
known already, or it is accepted and the replica settles its log (`Replica.submit_cases`).
`Replica.receive` settles the log that awaits the news of the batch
(`Replica.log_receive`, `Replica.clock_receive`).

Both keep a replica *settled* (`Replica.Settled`): the marks of its operations are right, its clock
counts every applied operation, and no waiting operation is ready.
-/

namespace GossipLedger

/-! ### Settling with a ledger -/

theorem Ledger.count_apply {op : Operation} {l : Ledger} {r : ReplicaId} :
    (Ledger.apply op l).clock.count r =
      if op.origin = r then max (l.clock.count r) op.rank else l.clock.count r :=
  Clock.count_advance

theorem Ledger.le_count_apply {op : Operation} {l : Ledger} {r : ReplicaId} :
    l.clock.count r ≤ (Ledger.apply op l).clock.count r := by
  rw [Ledger.count_apply]
  split <;> omega

/-- An operation that has been counted before raises no count. -/
theorem Ledger.count_apply_of_counted {op : Operation} {l : Ledger} {r : ReplicaId}
    (h : op.rank ≤ l.clock.count op.origin) :
    (Ledger.apply op l).clock.count r = l.clock.count r := by
  rw [Ledger.count_apply]
  split
  · rename_i hr
    rw [← hr]
    exact Nat.max_eq_left h
  · rfl

theorem Ledger.rank_le_count_apply {op : Operation} {l : Ledger} :
    op.rank ≤ (Ledger.apply op l).clock.count op.origin := by
  rw [Ledger.count_apply, if_pos rfl]
  exact Nat.le_max_right _ _

/-- The counts are closed under a list of operations: they count each one whose context they
cover. -/
def Closes (bound : ReplicaId → Nat) (ops : List Operation) : Prop :=
  ∀ op ∈ ops, (∀ r, op.context.count r ≤ bound r) → op.rank ≤ bound op.origin

/-! ### Errors of the admission -/

namespace Accounts

variable {a : Accounts} {account : AccountId} {kind : Kind} {e : LedgerError}

theorem isDomain_of_require (h : a.require account = .error e) : e.isDomain = true := by
  unfold require at h
  split at h <;> cases h
  rfl

/-- Where the accounts stand against a write, the error is one of the ledger's rules. -/
theorem isDomain_of_admission (h : a.admission kind = .error e) : e.isDomain = true := by
  cases kind with
  | create account =>
    rw [admission] at h
    split at h <;> cases h
    rfl
  | delete account =>
    rw [admission] at h
    cases hb : a.require account with
    | error e' =>
      rw [hb] at h
      cases h
      exact isDomain_of_require hb
    | ok balance =>
      rw [hb] at h
      dsimp only [bind, Except.bind] at h
      split at h
      · cases h; rfl
      · split at h <;> cases h
        rfl
  | transfer source target amount =>
    rw [admission] at h
    cases hs : a.require source with
    | error e' =>
      rw [hs] at h
      cases h
      exact isDomain_of_require hs
    | ok balance =>
      cases ht : a.require target with
      | error e' =>
        rw [hs, ht] at h
        cases h
        exact isDomain_of_require ht
      | ok _ =>
        rw [hs, ht] at h
        dsimp only [bind, Except.bind] at h
        split at h
        · cases h; rfl
        · split at h
          · cases h; rfl
          · split at h <;> cases h
            rfl

end Accounts

namespace Log

variable {log : Log} {l : Ledger}

/-- The log and the ledger after all that is ready has been applied. -/
abbrev settled (log : Log) (l : Ledger) : Log × Ledger :=
  settle Ledger.clock Ledger.apply log l

theorem le_count_settled {r : ReplicaId} :
    l.clock.count r ≤ (log.settled l).2.clock.count r := by
  refine settle_induction (P := fun _ (now : Ledger) => l.clock.count r ≤ now.clock.count r) ?_
    (Nat.le_refl _)
  intro _ now _ op _ _ _ _ ih
  exact Nat.le_trans ih Ledger.le_count_apply

/-- Settling raises no count above a bound that is closed under the waiting operations. -/
theorem count_settled_le_of_closes {bound : ReplicaId → Nat}
    (hl : ∀ r, l.clock.count r ≤ bound r) (hlog : Closes bound log.pending) (r : ReplicaId) :
    (log.settled l).2.clock.count r ≤ bound r := by
  suffices h : Closes bound (log.settled l).1.pending ∧
      ∀ r, (log.settled l).2.clock.count r ≤ bound r from h.2 r
  refine settle_induction (P := fun log (l : Ledger) =>
    Closes bound log.pending ∧ ∀ r, l.clock.count r ≤ bound r) ?_ ⟨hlog, hl⟩
  rintro log l before op after hlog - hready ⟨hops, hl⟩
  refine ⟨fun q hq => hops q (mem_pending_of_promote hlog hq), fun r => ?_⟩
  rw [Ledger.count_apply]
  split
  · rename_i hr
    have hcontext : ∀ s, op.context.count s ≤ bound s := fun s =>
      Nat.le_trans (Operation.isReady_iff.1 hready s) (hl s)
    have hop : op.rank ≤ bound op.origin := hops op (by simp [hlog]) hcontext
    exact hr ▸ Nat.max_le.2 ⟨hl _, hop⟩
  · exact hl r

/-- Settling raises no count above what the waiting operations account for. -/
theorem count_settled_le {bound : ReplicaId → Nat} (hl : ∀ r, l.clock.count r ≤ bound r)
    (hlog : ∀ op ∈ log.pending, op.rank ≤ bound op.origin) (r : ReplicaId) :
    (log.settled l).2.clock.count r ≤ bound r :=
  count_settled_le_of_closes hl (fun op hop _ => hlog op hop) r

/-- Settling counts what it applies. -/
theorem counted_settled (h : ∀ op ∈ log.stable, op.rank ≤ l.clock.count op.origin) :
    ∀ op ∈ (log.settled l).1.stable, op.rank ≤ (log.settled l).2.clock.count op.origin := by
  refine settle_induction
    (P := fun log (l : Ledger) => ∀ op ∈ log.stable, op.rank ≤ l.clock.count op.origin) ?_ h
  intro log l before op after _ _ _ ih q hq
  rcases List.mem_append.1 hq with hq | hq
  · exact Nat.le_trans (ih q hq) Ledger.le_count_apply
  · rw [List.mem_singleton.1 hq]
    exact Ledger.rank_le_count_apply

end Log

namespace Replica

variable {r r' : Replica} {kind : Kind} {context : Clock} {answer : Result Clock}
  {ops : List Operation}

/-! ### Writes -/

/-- The timestamp of the next write. -/
def nextStamp (r : Replica) : Clock :=
  r.clock.set r.id (r.clock.get r.id + 1)

/-- The operation that a write becomes. -/
def draft (r : Replica) (kind : Kind) (context : Clock) : Operation :=
  { kind, origin := r.id, context, timestamp := r.nextStamp }

/-- The log and the ledger after a write: the replica counts it at once and then settles. -/
def written (r : Replica) (kind : Kind) (context : Clock) : Log × Ledger :=
  (r.log.await [r.draft kind context]).settled { r.toLedger with clock := r.nextStamp }

/-- The replica after an accepted write. -/
def afterWrite (r : Replica) (kind : Kind) (context : Clock) : Replica :=
  { r with
    toLedger := { (r.written kind context).2 with
      stats := { (r.written kind context).2.stats with
        submitted := (r.written kind context).2.stats.submitted + 1 } }
    log := (r.written kind context).1 }

/-- The ways in which a write ends. -/
inductive SubmitCase (r : Replica) (kind : Kind) (context : Clock) :
    Result Clock → Replica → Prop where
  /-- Writes are switched off, or the accounts stand against it. -/
  | refused (e : LedgerError) (h : e = .readOnly ∨ r.accounts.admission kind = .error e) :
    SubmitCase r kind context (.error e) r.refused
  /-- The log knows the timestamp. -/
  | collided (hroom : r.clock.get r.id ≠ Clock.maxCount)
    (hknown : r.log.contains r.nextStamp = true) :
    SubmitCase r kind context (.error (.duplicateOperation r.nextStamp)) r
  /-- The write is counted, and applied if it is ready. -/
  | accepted (hactive : r.active = true) (hadmitted : r.accounts.admission kind = .ok ())
    (hroom : r.clock.get r.id ≠ Clock.maxCount) (hnew : r.log.contains r.nextStamp = false) :
    SubmitCase r kind context (.ok (context.merged (r.afterWrite kind context).clock))
      (r.afterWrite kind context)

theorem accept_draft (h : r.log.contains r.nextStamp = false) :
    r.accept (r.draft kind context) context =
      (.ok (context.merged (r.afterWrite kind context).clock), r.afterWrite kind context) := by
  obtain ⟨report, hr⟩ : ∃ report, r.log.insert Ledger.clock Ledger.apply (r.draft kind context)
      { r.toLedger with clock := (r.draft kind context).timestamp } =
        .ok (report, r.written kind context) :=
    ⟨_, Log.insert_of_not_contains h⟩
  rw [accept, hr]
  rfl

theorem submit_of_inactive (h : r.active = false) :
    r.submit kind context = .ok (.error .readOnly, r.refused) := by
  rw [submit, h]
  rfl

section

variable (hactive : r.active = true)

include hactive

theorem submit_of_refused {e : LedgerError} (h : r.accounts.admission kind = .error e) :
    r.submit kind context = .ok (.error e, r.refused) := by
  rw [submit, if_pos hactive, h]

variable (hadmitted : r.accounts.admission kind = .ok ())

include hadmitted

theorem submit_of_full (h : r.clock.get r.id = Clock.maxCount) :
    r.submit kind context = .error {} := by
  have hinc : r.clock.increment r.id = .error {} := Clock.increment_of_eq h
  rw [submit, if_pos hactive, hadmitted, hinc]
  rfl

variable (hroom : r.clock.get r.id ≠ Clock.maxCount)

include hroom

theorem submit_of_room : r.submit kind context =
    if r.log.contains r.nextStamp then .ok (.error (.duplicateOperation r.nextStamp), r)
    else .ok (r.accept (r.draft kind context) context) := by
  have hinc : r.clock.increment r.id = .ok r.nextStamp := Clock.increment_of_ne hroom
  rw [submit, if_pos hactive, hadmitted, hinc]
  rfl

theorem submit_of_contains (h : r.log.contains r.nextStamp = true) :
    r.submit kind context = .ok (.error (.duplicateOperation r.nextStamp), r) := by
  rw [submit_of_room hactive hadmitted hroom, if_pos h]

theorem submit_eq_ok (hnew : r.log.contains r.nextStamp = false) : r.submit kind context =
    .ok (.ok (context.merged (r.afterWrite kind context).clock), r.afterWrite kind context) := by
  rw [submit_of_room hactive hadmitted hroom, hnew]
  exact congrArg Except.ok (accept_draft hnew)

end

/-- A write fails as a whole only where it is admitted and the replica cannot count it. -/
theorem submit_eq_error_iff : r.submit kind context = .error {} ↔
    r.active = true ∧ r.accounts.admission kind = .ok () ∧ r.clock.get r.id = Clock.maxCount := by
  constructor
  · intro h
    cases hactive : r.active with
    | false =>
      rw [submit_of_inactive hactive] at h
      cases h
    | true =>
      cases hadmitted : r.accounts.admission kind with
      | error e =>
        rw [submit_of_refused hactive hadmitted] at h
        cases h
      | ok =>
        refine ⟨rfl, rfl, Decidable.byContradiction fun hroom => ?_⟩
        rw [submit_of_room hactive hadmitted hroom] at h
        split at h <;> cases h
  · rintro ⟨hactive, hadmitted, hfull⟩
    exact submit_of_full hactive hadmitted hfull

/-- **A write is refused, collides or is accepted**, and leaves the replica accordingly. -/
theorem submit_cases (h : r.submit kind context = .ok (answer, r')) :
    SubmitCase r kind context answer r' := by
  cases hactive : r.active with
  | false =>
    rw [submit_of_inactive hactive] at h
    cases h
    exact .refused _ (.inl rfl)
  | true =>
    cases hadmitted : r.accounts.admission kind with
    | error e =>
      rw [submit_of_refused hactive hadmitted] at h
      cases h
      exact .refused e (.inr hadmitted)
    | ok =>
      by_cases hroom : r.clock.get r.id = Clock.maxCount
      · rw [submit_of_full hactive hadmitted hroom] at h
        cases h
      · cases hnew : r.log.contains r.nextStamp with
        | false =>
          rw [submit_eq_ok hactive hadmitted hroom hnew] at h
          cases h
          exact .accepted hactive hadmitted hroom hnew
        | true =>
          rw [submit_of_contains hactive hadmitted hroom hnew] at h
          cases h
          exact .collided hroom hnew

/-- Whether the replica accepts a write. -/
def accepts (r : Replica) (kind : Kind) (context : Clock) : Bool :=
  match r.submit kind context with
  | .ok (.ok _, _) => true
  | _ => false

theorem accepts_of_submit {clock : Clock} (h : r.submit kind context = .ok (.ok clock, r')) :
    r.accepts kind context = true := by
  rw [accepts, h]

theorem count_nextStamp_of_ne {s : ReplicaId} (h : s ≠ r.id) :
    r.nextStamp.count s = r.clock.count s := by
  rw [nextStamp, Clock.count_set, if_neg (Ne.symm h)]

section

variable (hroom : r.clock.get r.id ≠ Clock.maxCount)

include hroom

theorem count_nextStamp_self : r.nextStamp.count r.id = r.clock.count r.id + 1 := by
  rw [nextStamp, Clock.count_set, if_pos rfl, Clock.toNat_succ hroom]
  rfl

theorem rank_draft : (r.draft kind context).rank = r.clock.count r.id + 1 :=
  count_nextStamp_self hroom

theorem count_le_nextStamp {s : ReplicaId} : r.clock.count s ≤ r.nextStamp.count s := by
  by_cases hs : s = r.id
  · rw [hs, count_nextStamp_self hroom]
    exact Nat.le_succ _
  · exact Nat.le_of_eq (count_nextStamp_of_ne hs).symm

/-- A write of the replica itself makes nothing ready that did not wait for it. -/
theorem isReady_nextStamp {op : Operation} (h : op.context.count r.id ≤ r.clock.count r.id) :
    op.isReady r.nextStamp = op.isReady r.clock := by
  rw [Bool.eq_iff_iff, Operation.isReady_iff, Operation.isReady_iff]
  refine forall_congr' fun s => ?_
  by_cases hs : s = r.id
  · rw [hs, count_nextStamp_self hroom]
    omega
  · rw [count_nextStamp_of_ne hs]

end

/-! ### Settled replicas -/

/-- What holds of a replica between two calls. -/
structure Settled (r : Replica) : Prop where
  /-- The marks of the operations tell what is applied. -/
  tidy : r.log.Tidy
  /-- Nothing that waits is ready. -/
  waiting : ∀ op ∈ r.log.pending, op.isReady r.clock = false
  /-- The clock counts what is applied. -/
  counted : ∀ op ∈ r.log.stable, op.rank ≤ r.clock.count op.origin

theorem settled_fresh {id : ReplicaId} {money : UInt64} {active : Bool} :
    (fresh id money active).Settled where
  tidy := ⟨nofun, nofun⟩
  waiting := nofun
  counted := nofun

/-- Only log and clock matter. -/
theorem Settled.congr (h : r.Settled) (hlog : r'.log = r.log) (hclock : r'.clock = r.clock) :
    r'.Settled where
  tidy := hlog ▸ h.tidy
  waiting := by
    rw [hlog, hclock]
    exact h.waiting
  counted := by
    rw [hlog, hclock]
    exact h.counted

theorem Settled.afterWrite (h : r.Settled) (hroom : r.clock.get r.id ≠ Clock.maxCount) :
    (r.afterWrite kind context).Settled where
  tidy := (h.tidy.await (by simp [draft])).settle
  waiting := Log.not_ready_settle
  counted := Log.counted_settled fun op hop =>
    Nat.le_trans (h.counted op hop) (count_le_nextStamp hroom)

theorem mem_contents_afterWrite {x : Operation} :
    x ∈ (r.afterWrite kind context).log.contents ↔
      x ∈ r.log.contents ∨ x = r.draft kind context := by
  refine Log.mem_contents_settle.trans ?_
  rw [Log.contents_await, List.mem_append, List.map_singleton, List.mem_singleton]
  rfl

/-- The clock after a write counts all that the timestamp does. -/
theorem count_nextStamp_le_afterWrite {s : ReplicaId} :
    r.nextStamp.count s ≤ (r.afterWrite kind context).clock.count s :=
  @Log.le_count_settled _ { r.toLedger with clock := r.nextStamp } s

/-- A write lowers no count. -/
theorem le_count_afterWrite (hroom : r.clock.get r.id ≠ Clock.maxCount) {s : ReplicaId} :
    r.clock.count s ≤ (r.afterWrite kind context).clock.count s :=
  Nat.le_trans (count_le_nextStamp hroom) count_nextStamp_le_afterWrite

/-- If no operation waits for the replica itself, then a write is applied at once or is the last
one that waits. -/
theorem log_afterWrite (h : r.Settled) (hroom : r.clock.get r.id ≠ Clock.maxCount)
    (hpending : ∀ op ∈ r.log.pending, op.context.count r.id ≤ r.clock.count r.id)
    (hcontext : context.count r.id ≤ r.clock.count r.id) :
    (r.afterWrite kind context).log =
      if r.clock.dominates context then
        ⟨r.log.stable ++ [(r.draft kind context).marked], r.log.pending⟩
      else r.log.await [r.draft kind context] := by
  have hwaiting : ∀ op ∈ r.log.pending, op.isReady r.nextStamp = false := by
    intro op hop
    rw [isReady_nextStamp hroom (hpending op hop)]
    exact h.waiting op hop
  have hdraft : (r.draft kind context).isReady r.nextStamp = r.clock.dominates context :=
    isReady_nextStamp hroom hcontext
  let l : Ledger := { r.toLedger with clock := r.nextStamp }
  change ((r.log.await [r.draft kind context]).settled l).1 = _
  split
  · rename_i hd
    -- applying the write counts it, which the replica has done already
    have hcount : ∀ s, (Ledger.apply (r.draft kind context).marked l).clock.count s =
        r.nextStamp.count s := fun _ => Ledger.count_apply_of_counted (Nat.le_refl _)
    have hpromote : (r.log.await [r.draft kind context]).settled l =
        Log.settled ⟨r.log.stable ++ [(r.draft kind context).marked], r.log.pending ++ []⟩
          (Ledger.apply (r.draft kind context).marked l) :=
      Log.settle_of_some rfl hwaiting (hdraft.trans hd)
    rw [hpromote, List.append_nil]
    refine congrArg Prod.fst (Log.settle_of_none fun op hop => ?_)
    rw [Operation.isReady_congr hcount]
    exact hwaiting op hop
  · rename_i hd
    refine congrArg Prod.fst (Log.settle_of_none fun op hop => ?_)
    rcases List.mem_append.1 hop with hop | hop
    · exact hwaiting op hop
    · rw [List.mem_singleton.1 hop]
      exact hdraft.trans (Bool.not_eq_true _ ▸ hd)

/-! ### Batches of other replicas -/

@[simp] theorem id_receive : (r.receive ops).2.id = r.id := rfl

@[simp] theorem id_afterWrite : (r.afterWrite kind context).id = r.id := rfl

theorem receive_eq (h : r.Settled) :
    (r.receive ops).2.log = ((r.log.await (r.log.news ops)).settled r.toLedger).1 ∧
      (r.receive ops).2.clock = ((r.log.await (r.log.news ops)).settled r.toLedger).2.clock := by
  have ha : (r.log.absorb Ledger.clock Ledger.apply ops r.toLedger).2 =
      (r.log.await (r.log.news ops)).settled r.toLedger :=
    Log.absorb_eq_settle h.waiting
  exact ⟨congrArg Prod.fst ha, congrArg (·.2.clock) ha⟩

theorem log_receive (h : r.Settled) :
    (r.receive ops).2.log = ((r.log.await (r.log.news ops)).settled r.toLedger).1 :=
  (receive_eq h).1

theorem clock_receive (h : r.Settled) :
    (r.receive ops).2.clock = ((r.log.await (r.log.news ops)).settled r.toLedger).2.clock :=
  (receive_eq h).2

theorem Settled.receive (h : r.Settled) : (r.receive ops).2.Settled where
  tidy := by
    rw [log_receive h]
    exact (h.tidy.await fun _ => Log.stable_of_mem_news).settle
  waiting := by
    rw [log_receive h, clock_receive h]
    exact Log.not_ready_settle
  counted := by
    rw [log_receive h, clock_receive h]
    exact Log.counted_settled h.counted

theorem contents_receive (h : r.Settled) :
    (r.receive ops).2.log.contents.Perm (r.log.contents ++ r.log.news ops) := by
  rw [log_receive h, ← Log.contents_await_news]
  exact Log.contents_settle

theorem mem_contents_receive (h : r.Settled) {x : Operation} :
    x ∈ (r.receive ops).2.log.contents ↔ x ∈ r.log.contents ∨ x ∈ r.log.news ops :=
  (contents_receive h).mem_iff.trans List.mem_append

end Replica

end GossipLedger
