import GossipLedger.Proofs.Replica.Intake
import GossipLedger.Proofs.Service.Answered
import GossipLedger.Simulation.Cluster

/-!
# Writes that fail

A write to a cluster can fail in two ways.  The replica refuses it, and then replicas, links and
counts are as they were (`Cluster.Unchanged`).  Or the replica accepts it and has to pass its log
on, but the log with the new operation in it cannot be written down or is too large to be sent
(`Replica.Strands`); then no link and no count has changed, and no other replica, but the write
stands.  Only the error tells the one from the other (`Cluster.failed_write`): in the first case it
is about the rules of the ledger or of its log, in the second one about the format of messages.
-/

namespace GossipLedger

open Wire

/-! ### Why a log cannot be sent -/

namespace Wire.Encoding

variable {a b : Encoding}

/-- Nothing but a rule of the format stops the writing. -/
def StopsByFormat (a : Encoding) : Prop :=
  ∀ e, a.failure = some e → ∃ reason, e = .invalidWireFormat reason

theorem stopsByFormat_number {width n : Nat} : (number width n).StopsByFormat :=
  nofun

theorem StopsByFormat.append (ha : a.StopsByFormat) (hb : b.StopsByFormat) :
    (a ++ b).StopsByFormat := by
  change (Encoding.append a b).StopsByFormat
  unfold Encoding.append
  split
  · exact hb
  · exact ha

theorem stopsByFormat_concat {α : Type} {write : α → Encoding} (h : ∀ x, (write x).StopsByFormat)
    (l : List α) : (concat (l.map write)).StopsByFormat := by
  induction l with
  | nil => exact nofun
  | cons x l ih => exact (h x).append ih

theorem stopsByFormat_string {s : String} : (string s).StopsByFormat := by
  unfold string
  split
  · rintro e he
    cases he
    exact ⟨_, rfl⟩
  · exact stopsByFormat_number.append nofun

theorem stopsByFormat_clock {c : Clock} : (clock c).StopsByFormat := by
  unfold clock
  split
  · rintro e he
    cases he
    exact ⟨_, rfl⟩
  · exact stopsByFormat_number.append (stopsByFormat_concat
      (fun e => stopsByFormat_string.append stopsByFormat_number) c.entries)

theorem stopsByFormat_kindFields {kind : Kind} : (kindFields kind).StopsByFormat := by
  cases kind with
  | create account => exact stopsByFormat_string
  | delete account => exact stopsByFormat_string
  | transfer source target amount =>
    exact (stopsByFormat_string.append stopsByFormat_string).append stopsByFormat_number

theorem stopsByFormat_operation {op : Operation} : (operation op).StopsByFormat :=
  ((((stopsByFormat_number.append stopsByFormat_string).append stopsByFormat_kindFields).append
    stopsByFormat_clock).append stopsByFormat_clock).append stopsByFormat_number

theorem stopsByFormat_operations {ops : List Operation} : (operations ops).StopsByFormat := by
  unfold operations
  split
  · rintro e he
    cases he
    exact ⟨_, rfl⟩
  · exact stopsByFormat_number.append (stopsByFormat_concat (fun _ => stopsByFormat_operation) ops)

end Wire.Encoding

namespace Replica

variable {r r' : Replica} {kind : Kind} {context : Clock} {account : AccountId}

/-- The replica accepts a write and then cannot pass its log on. -/
structure Strands (r : Replica) (kind : Kind) (context : Clock) : Prop where
  /-- Writes are switched on. -/
  active : r.active = true
  /-- The accounts do not stand against it. -/
  admitted : r.accounts.admission kind = .ok ()
  /-- The replica can count it. -/
  room : r.clock.get r.id ≠ Clock.maxCount
  /-- Its timestamp is new. -/
  new : r.log.contains r.nextStamp = false
  /-- The log that it leads to cannot be written down, or it does not fit into a frame. -/
  unsendable : ¬ ((r.afterWrite kind context).push.Writable ∧
    (r.afterWrite kind context).push.wireSize ≤ maxBodySize)

theorem Strands.submit_eq (h : r.Strands kind context) :
    r.submit kind context = .ok (.ok (context.merged (r.afterWrite kind context).clock),
      r.afterWrite kind context) :=
  submit_eq_ok h.active h.admitted h.room h.new

theorem Strands.gains (h : r.Strands kind context) :
    r.Gains (r.draft kind context) (r.afterWrite kind context) :=
  gains_afterWrite h.room h.new

/-- The log cannot be sent for a reason that the format gives. -/
theorem exists_reason {e : LedgerError} (h : r.push.bytes = .error e) :
    ∃ reason, e = .invalidWireFormat reason := by
  have hstops : r.push.encoding.StopsByFormat :=
    Encoding.stopsByFormat_string.append Encoding.stopsByFormat_operations
  rw [Request.bytes_eq, Encoding.result] at h
  cases hfailure : r.push.encoding.failure with
  | some e' =>
    rw [hfailure] at h
    cases h
    exact hstops e hfailure
  | none =>
    rw [hfailure] at h
    dsimp only [bind, Except.bind] at h
    rw [Frame.serialize] at h
    split at h
    · cases h
      exact ⟨_, rfl⟩
    · cases h

theorem Strands.exists_error (h : r.Strands kind context) :
    ∃ reason, (r.afterWrite kind context).push.bytes = .error (.invalidWireFormat reason) := by
  cases hbytes : (r.afterWrite kind context).push.bytes with
  | ok sent => exact absurd (Request.exists_bytes_iff.1 ⟨sent, hbytes⟩) h.unsendable
  | error e =>
    obtain ⟨reason, rfl⟩ := exists_reason hbytes
    exact ⟨reason, rfl⟩

/-- No write is refused for such a reason. -/
theorem ne_invalidWireFormat_of_submit {e : LedgerError} {reason : String}
    (h : r.submit kind context = .ok (.error e, r')) : e ≠ .invalidWireFormat reason := by
  rintro rfl
  generalize hanswer : (Except.error (.invalidWireFormat reason) : Result Clock) = answer at h
  cases submit_cases h with
  | refused e hreason =>
    cases hanswer
    rcases hreason with hreason | hreason
    · cases hreason
    · have hdomain : (LedgerError.invalidWireFormat reason).isDomain = true :=
        Accounts.isDomain_of_admission hreason
      cases hdomain
  | collided _ _ => cases hanswer
  | accepted _ _ _ _ => cases hanswer

theorem Alike.unchanged (h : r.Alike r') (hactive : r'.active = r.active) : r.Unchanged r' :=
  ⟨h.id, h.clock, h.log, h.accounts, hactive⟩

/-- A write that a replica refuses leaves it unchanged. -/
theorem unchanged_of_submit_error {e : LedgerError}
    (h : r.submit kind context = .ok (.error e, r')) : r.Unchanged r' := by
  cases submit_cases h with
  | refused _ _ => exact (alike_refused r).unchanged rfl
  | collided _ _ => exact unchanged_refl r

/-- A longer log is another one. -/
theorem Gains.not_unchanged {op : Operation} (h : r.Gains op r') : ¬ r.Unchanged r' := by
  intro hsame
  have hsize := h.size
  rw [hsame.log] at hsize
  exact absurd hsize.symm (Nat.succ_ne_self _)

/-- No log with a name that is too long in it can be written down. -/
theorem strands_of_long (hactive : r.active = true)
    (hadmitted : r.accounts.admission kind = .ok ()) (hroom : r.clock.get r.id ≠ Clock.maxCount)
    (hnew : r.log.contains r.nextStamp = false) (haccount : account ∈ kind.accounts)
    (hlong : ¬ Short account) : r.Strands kind context := by
  refine ⟨hactive, hadmitted, hroom, hnew, ?_⟩
  rintro ⟨⟨-, -, hops⟩, -⟩
  have hdraft : r.draft kind context ∈ (r.afterWrite kind context).log.contents :=
    mem_contents_afterWrite.2 (.inr rfl)
  obtain ⟨op, hop, hunmarked⟩ := Log.mem_contents.1 hdraft
  have hkind : op.kind = kind := congrArg Operation.kind hunmarked
  exact hlong ((hops op hop).2.accounts account (hkind ▸ haccount))

end Replica

namespace Cluster

variable {c c' : Cluster} {i : Nat} {kind : Kind} {context : Clock} {e : LedgerError}
  {r r' : Replica}

/-- The cluster in which one replica is another. -/
def withReplica (c : Cluster) (i : Nat) (r : Replica) : Cluster :=
  { c with replicas := c.replicas.set i r }

/-- Replicas, links and counts are as they were. -/
structure Unchanged (c c' : Cluster) : Prop where
  /-- The replicas: their clocks, logs and accounts, and whether they accept writes. -/
  replicas : List.Forall₂ Replica.Unchanged c.replicas c'.replicas
  /-- The links, with all that is on its way. -/
  channels : c'.channels = c.channels
  /-- What was sent, taken in and rejected. -/
  stats : c'.stats = c.stats

theorem unchanged_set_iff (hr : c.replicas[i]? = some r) :
    c.Unchanged (c.withReplica i r') ↔ r.Unchanged r' := by
  have hlist : List.Forall₂ Replica.Unchanged c.replicas (c.replicas.set i r') ↔
      r.Unchanged r' := by
    generalize c.replicas = l at hr
    induction l generalizing i with
    | nil => simp at hr
    | cons first rest ih =>
      cases i with
      | zero =>
        cases hr
        rw [List.set_cons_zero, List.forall₂_cons]
        exact and_iff_left (List.forall₂_same.2 fun r _ => r.unchanged_refl)
      | succ i =>
        rw [List.getElem?_cons_succ] at hr
        rw [List.set_cons_succ, List.forall₂_cons, ih hr]
        exact and_iff_right first.unchanged_refl
  exact ⟨fun h => hlist.1 h.replicas, fun h => ⟨hlist.2 h, rfl, rfl⟩⟩

/-! ### Pushes and writes -/

theorem gossip_of_error (hr : c.replicas[i]? = some r) (h : r.push.bytes = .error e) :
    c.gossip i = (.error e, c) := by
  rw [gossip, hr]
  dsimp only
  rw [h]

theorem gossip_of_ok {bytes : Bytes} (hr : c.replicas[i]? = some r)
    (h : r.push.bytes = .ok bytes) : c.gossip i = (.ok (), c.broadcast i bytes) := by
  rw [gossip, hr]
  dsimp only
  rw [h]

theorem getElem?_withReplica (hr : c.replicas[i]? = some r) :
    (c.withReplica i r').replicas[i]? = some r' :=
  List.getElem?_set_self (List.getElem?_eq_some_iff.1 hr).1

section

variable (hr : c.replicas[i]? = some r)

include hr

/-- A write that the replica refuses. -/
theorem submit_of_refused (h : r.submit kind context = .ok (.error e, r')) :
    c.submit i kind context = .ok (.error e, c.withReplica i r') := by
  rw [submit, hr]
  dsimp only
  rw [h]
  rfl

/-- A write that it accepts. -/
theorem submit_of_accepted {observed : Clock}
    (h : r.submit kind context = .ok (.ok observed, r')) :
    c.submit i kind context =
      if c.config.gossipOnWrite then
        .ok (((c.withReplica i r').gossip i).1.map fun _ => observed,
          ((c.withReplica i r').gossip i).2)
      else .ok (.ok observed, c.withReplica i r') := by
  rw [submit, hr]
  dsimp only
  rw [h]
  dsimp only [bind, Except.bind]
  split <;> rfl

end

/-- How a write fails at a replica: with which error, and what the replica then is. -/
inductive FailCase (c : Cluster) (kind : Kind) (context : Clock) (r : Replica) :
    LedgerError → Replica → Prop where
  /-- The replica refuses the write. -/
  | refused {e : LedgerError} {r' : Replica} (h : r.submit kind context = .ok (.error e, r')) :
    FailCase c kind context r e r'
  /-- The replica accepts it and cannot pass its log on. -/
  | stranded {e : LedgerError} (hgossip : c.config.gossipOnWrite = true)
    (h : r.Strands kind context) (hbytes : (r.afterWrite kind context).push.bytes = .error e) :
    FailCase c kind context r e (r.afterWrite kind context)

theorem fail_cases (h : c.submit i kind context = .ok (.error e, c')) : ∃ r r',
    c.replicas[i]? = some r ∧ c' = c.withReplica i r' ∧ FailCase c kind context r e r' := by
  cases hr : c.replicas[i]? with
  | none =>
    rw [submit, hr] at h
    cases h
  | some r =>
    cases hsubmit : r.submit kind context with
    | error overflow =>
      rw [submit, hr] at h
      dsimp only at h
      rw [hsubmit] at h
      cases h
    | ok done =>
      obtain ⟨result, r'⟩ := done
      cases result with
      | error e' =>
        rw [submit_of_refused hr hsubmit] at h
        cases h
        exact ⟨r, r', rfl, rfl, .refused hsubmit⟩
      | ok observed =>
        rw [submit_of_accepted hr hsubmit] at h
        -- only the push can have failed
        split at h
        · rename_i hgossip
          cases hbytes : r'.push.bytes with
          | ok bytes =>
            rw [gossip_of_ok (getElem?_withReplica hr) hbytes] at h
            cases h
          | error e' =>
            rw [gossip_of_error (getElem?_withReplica hr) hbytes] at h
            cases h
            cases Replica.submit_cases hsubmit with
            | accepted hactive hadmitted hroom hnew =>
              refine ⟨r, _, rfl, rfl, .stranded hgossip
                ⟨hactive, hadmitted, hroom, hnew, fun hsendable => ?_⟩ hbytes⟩
              obtain ⟨sent, hsent⟩ := Request.exists_bytes_iff.2 hsendable
              rw [hbytes] at hsent
              cases hsent
        · cases h

/-- A write that strands fails. -/
theorem exists_submit_of_strands (hr : c.replicas[i]? = some r)
    (hgossip : c.config.gossipOnWrite = true) (h : r.Strands kind context) : ∃ reason,
    c.submit i kind context =
      .ok (.error (.invalidWireFormat reason), c.withReplica i (r.afterWrite kind context)) := by
  obtain ⟨reason, hbytes⟩ := h.exists_error
  refine ⟨reason, ?_⟩
  rw [submit_of_accepted hr h.submit_eq, if_pos hgossip,
    gossip_of_error (getElem?_withReplica hr) hbytes]
  rfl

/-! ### What a failed write leaves behind -/

/-- What can be said after a write at a replica has failed with an error. -/
structure Failed (c : Cluster) (i : Nat) (kind : Kind) (context : Clock) (r : Replica)
    (e : LedgerError) (c' : Cluster) : Prop where
  /-- The number of the replica. -/
  replica : c.replicas[i]? = some r
  /-- No other replica has changed, no link and no count. -/
  others : ∃ r', c' = c.withReplica i r'
  /-- Nothing at all has changed exactly if the write has not stranded. -/
  unchanged_iff : c.Unchanged c' ↔ ¬ (c.config.gossipOnWrite = true ∧ r.Strands kind context)
  /-- If it has, the log of the replica has one more operation. -/
  stands : c.config.gossipOnWrite = true ∧ r.Strands kind context →
    c' = c.withReplica i (r.afterWrite kind context) ∧
      r.Gains (r.draft kind context) (r.afterWrite kind context)
  /-- The error tells whether it has: only then is it about the format of messages. -/
  told : (∃ reason, e = .invalidWireFormat reason) ↔
    c.config.gossipOnWrite = true ∧ r.Strands kind context

/-- **A write that fails changes nothing unless it has stranded**, that is, unless the replica has
accepted it and cannot pass its log on. -/
theorem failed_write (h : c.submit i kind context = .ok (.error e, c')) :
    ∃ r, c.Failed i kind context r e c' := by
  obtain ⟨r, r', hr, rfl, hcase⟩ := fail_cases h
  cases hcase with
  | refused hrefused =>
    have hnot : ¬ (c.config.gossipOnWrite = true ∧ r.Strands kind context) := by
      rintro ⟨-, hstrands⟩
      rw [hstrands.submit_eq] at hrefused
      cases hrefused
    have hunchanged : c.Unchanged (c.withReplica i r') :=
      (unchanged_set_iff hr).2 (Replica.unchanged_of_submit_error hrefused)
    have hrule : ¬ ∃ reason, e = .invalidWireFormat reason := fun ⟨_, hreason⟩ =>
      Replica.ne_invalidWireFormat_of_submit hrefused hreason
    exact ⟨r, hr, ⟨r', rfl⟩, iff_of_true hunchanged hnot, fun hstrands => absurd hstrands hnot,
      iff_of_false hrule hnot⟩
  | stranded hgossip hstrands hbytes =>
    have hchanged : ¬ c.Unchanged (c.withReplica i (r.afterWrite kind context)) :=
      fun hunchanged => hstrands.gains.not_unchanged ((unchanged_set_iff hr).1 hunchanged)
    exact ⟨r, hr, ⟨_, rfl⟩, iff_of_false hchanged (not_not_intro ⟨hgossip, hstrands⟩),
      fun _ => ⟨rfl, hstrands.gains⟩,
      iff_of_true (Replica.exists_reason hbytes) ⟨hgossip, hstrands⟩⟩

/-! ### A name that is too long -/

/-- A cluster of three replicas without operations. -/
def quiet : Cluster :=
  fresh {} fun _ _ => default

/-- A name of one letter more than two bytes can count. -/
def tooLongName : AccountId :=
  longName.push 'n'

theorem not_short_tooLongName : ¬ Short tooLongName := by
  have hletter : ('n').utf8Size = 1 := by decide
  rw [Short, tooLongName, String.utf8ByteSize_push, utf8ByteSize_longName, hletter]
  exact Nat.not_succ_le_self _

theorem strands_tooLongName :
    (Replica.fresh "A").Strands (.create tooLongName) .zero := by
  have hother : AccountId.broker ≠ tooLongName := by
    intro hbroker
    have hshort : Short AccountId.broker := by decide
    exact not_short_tooLongName (hbroker ▸ hshort)
  have hclosed : (Replica.fresh "A").accounts.contains tooLongName = false :=
    Accounts.contains_eq_false_iff.2 (Accounts.balance?_seeded.trans (if_neg hother))
  have hadmitted : (Replica.fresh "A").accounts.admission (.create tooLongName) = .ok () := by
    rw [Accounts.admission, hclosed]
    rfl
  exact Replica.strands_of_long rfl hadmitted (by decide) rfl (List.mem_singleton_self _)
    not_short_tooLongName

/-- The first replica opens an account with such a name and cannot tell the others. -/
theorem exists_submit_tooLongName : ∃ reason, quiet.submit 0 (.create tooLongName) .zero =
    .ok (.error (.invalidWireFormat reason),
      quiet.withReplica 0 ((Replica.fresh "A").afterWrite (.create tooLongName) .zero)) :=
  exists_submit_of_strands rfl rfl strands_tooLongName

theorem tooLongName_failed : ∃ e c' r, quiet.submit 0 (.create tooLongName) .zero =
    .ok (.error e, c') ∧ quiet.Failed 0 (.create tooLongName) .zero r e c' := by
  obtain ⟨reason, hsubmit⟩ := exists_submit_tooLongName
  obtain ⟨r, hfailed⟩ := failed_write hsubmit
  exact ⟨_, _, r, hsubmit, hfailed⟩

/-- The write fails, and the replica is not what it was. -/
theorem tooLongName_stands : ∃ e c', quiet.submit 0 (.create tooLongName) .zero =
    .ok (.error e, c') ∧ ¬ quiet.Unchanged c' := by
  obtain ⟨reason, hsubmit⟩ := exists_submit_tooLongName
  refine ⟨_, _, hsubmit, fun hunchanged => ?_⟩
  exact strands_tooLongName.gains.not_unchanged
    ((unchanged_set_iff (c := quiet) (i := 0) rfl).1 hunchanged)

end Cluster

end GossipLedger
