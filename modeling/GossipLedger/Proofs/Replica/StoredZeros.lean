import GossipLedger.Proofs.Log.Agreement
import GossipLedger.Proofs.Replica.Session

/-!
# A replica does not see stored zeros

Two replicas agree if they have the same name, accounts and statistics, clocks with the same counts
and logs with operations that agree in the same order (`Replica.Agrees`).  A call that differs only
in the zeros that its clocks store (`Call.Agrees`) is answered alike by both, and leaves them in
agreement (`Replica.Agrees.perform`).  So it is for a whole list of calls, answer by answer and
state by state (`Replica.trace_agrees_of_fresh`).

The answers agree as well: both are the same kind of answer, with the same balance, report or error,
and with clocks that have the same counts (`Call.Returned.Agrees`).
-/

namespace GossipLedger

/-- Both fail, with errors that stand in a relation, or both succeed, with values that stand in
another one. -/
inductive Together {ε α : Type} (E : ε → ε → Prop) (R : α → α → Prop) :
    Except ε α → Except ε α → Prop where
  /-- Both fail. -/
  | error {e e' : ε} (h : E e e') : Together E R (.error e) (.error e')
  /-- Both succeed. -/
  | ok {a a' : α} (h : R a a') : Together E R (.ok a) (.ok a')

/-- Two errors are the same, but for zeros that a clock in them stores. -/
inductive LedgerError.Agrees : LedgerError → LedgerError → Prop where
  /-- The timestamps have the same counts. -/
  | duplicateOperation {t t' : Clock} (h : t.agrees t' = true) :
    Agrees (.duplicateOperation t) (.duplicateOperation t')
  /-- There is no difference. -/
  | refl (e : LedgerError) : Agrees e e

/-! ### Answers -/

namespace Call

/-- What a call returns. -/
inductive Returned where
  /-- A write returns what the client has then observed. -/
  | written (answer : Result Clock)
  /-- A question returns a balance, and what the client has then observed. -/
  | told (answer : Result (UInt64 × Clock))
  /-- A batch is reported on. -/
  | reported (report : Report)
  /-- A switch returns nothing. -/
  | switched

/-- Two calls are the same, but for zeros that clocks in them store. -/
inductive Agrees : Call → Call → Prop where
  /-- The contexts of two writes have the same counts. -/
  | submit {kind : Kind} {context context' : Clock} (h : context.agrees context' = true) :
    Agrees (.submit kind context) (.submit kind context')
  /-- The contexts of two questions have the same counts. -/
  | read {account : AccountId} {context context' : Clock} (h : context.agrees context' = true) :
    Agrees (.read account context) (.read account context')
  /-- The operations of two batches agree. -/
  | receive {ops ops' : List Operation} (h : AgreeAll ops ops') :
    Agrees (.receive ops) (.receive ops')
  /-- Writes are switched on. -/
  | activate : Agrees .activate .activate
  /-- Writes are switched off. -/
  | deactivate : Agrees .deactivate .deactivate

/-- Two answers are the same, but for zeros that clocks in them store. -/
inductive Returned.Agrees : Returned → Returned → Prop where
  /-- Both writes are accepted or both are refused. -/
  | written {answer answer' : Result Clock}
    (h : Together LedgerError.Agrees (fun c c' => c.agrees c' = true) answer answer') :
    Agrees (.written answer) (.written answer')
  /-- Both questions return the same balance or the same error. -/
  | told {answer answer' : Result (UInt64 × Clock)}
    (h : Together LedgerError.Agrees (fun x y => x.1 = y.1 ∧ x.2.agrees y.2 = true)
      answer answer') :
    Agrees (.told answer) (.told answer')
  /-- The reports are the same. -/
  | reported {report : Report} : Agrees (.reported report) (.reported report)
  /-- Nothing is returned. -/
  | switched : Agrees .switched .switched

end Call

namespace Replica

/-- Carries out a call, and tells what it returns. -/
def perform (r : Replica) : Call → Except CounterOverflow (Call.Returned × Replica)
  | .submit kind context =>
    (r.submit kind context).map fun done => (.written done.1, done.2)
  | .read account context => .ok (.told (r.read account context), r)
  | .receive ops => .ok (.reported (r.receive ops).1, (r.receive ops).2)
  | .activate => .ok (.switched, r.activate)
  | .deactivate => .ok (.switched, r.deactivate)

/-- What calls return one after the other, each with the replica after it.  A call that would count
beyond 64 bits is the last one. -/
def trace (r : Replica) : List Call → List (Except CounterOverflow (Call.Returned × Replica))
  | [] => []
  | c :: rest =>
    match r.perform c with
    | .error e => [.error e]
    | .ok done => .ok done :: done.2.trace rest

end Replica

/-! ### Ledgers that agree -/

namespace Ledger

variable {l l' : Ledger}

/-- Two ledgers are the same, but for zeros that their clocks store. -/
structure Agrees (l l' : Ledger) : Prop where
  /-- The clocks have the same counts. -/
  clock : l.clock.agrees l'.clock = true
  /-- The accounts are the same. -/
  accounts : l.accounts = l'.accounts
  /-- The statistics are the same. -/
  stats : l.stats = l'.stats

theorem keeps_agrees : Log.Keeps Ledger.clock Ledger.apply Agrees where
  clock h := h.clock
  apply {op op' l l'} hop h := by
    have hkind := Operation.kind_eq_of_agrees hop
    have hcount : (Ledger.apply op l).clock.agrees (Ledger.apply op' l').clock = true := by
      show (l.clock.advance op.origin op.sequence).agrees
        (l'.clock.advance op'.origin op'.sequence) = true
      rw [Operation.origin_eq_of_agrees hop, Operation.sequence_eq_of_agrees hop]
      exact Clock.agrees_advance h.clock
    refine ⟨hcount, ?_, ?_⟩
    · simp only [Ledger.apply, hkind, h.accounts]
    · simp only [Ledger.apply, hkind, h.accounts, h.stats]

end Ledger

/-! ### Replicas that agree -/

namespace Replica

variable {r r' : Replica} {kind : Kind} {account : AccountId} {context context' : Clock}
  {ops ops' : List Operation} {c c' : Call} {calls calls' : List Call}

/-- Two replicas are the same, but for zeros that clocks in them store. -/
structure Agrees (r r' : Replica) : Prop extends Ledger.Agrees r.toLedger r'.toLedger where
  /-- The names are the same. -/
  id : r.id = r'.id
  /-- The logs hold operations that agree, in the same order. -/
  log : r.log.Agrees r'.log
  /-- Both accept writes or neither does. -/
  active : r.active = r'.active

theorem agrees_fresh {id : ReplicaId} {money : UInt64} {active : Bool} :
    (fresh id money active).Agrees (fresh id money active) where
  clock := Clock.agrees_refl _
  accounts := rfl
  stats := rfl
  id := rfl
  log := Log.agrees_empty
  active := rfl

section

variable (h : r.Agrees r')

include h

theorem Agrees.refused : r.refused.Agrees r'.refused where
  clock := h.clock
  accounts := h.accounts
  stats := by
    show { r.stats with rejected := r.stats.rejected + 1 } = _
    rw [h.stats]
    rfl
  id := h.id
  log := h.log
  active := h.active

theorem Agrees.nextStamp : r.nextStamp.agrees r'.nextStamp = true := by
  rw [Replica.nextStamp, Replica.nextStamp, h.id, Clock.get_eq_of_agrees h.clock]
  exact Clock.agrees_set h.clock

theorem Agrees.draft (hcontext : context.agrees context' = true) :
    (r.draft kind context).agrees (r'.draft kind context') = true :=
  Operation.agrees_iff.2 ⟨rfl, h.id, hcontext, h.nextStamp, rfl⟩

theorem Agrees.written (kind : Kind) (hcontext : context.agrees context' = true) :
    (r.written kind context).1.Agrees (r'.written kind context').1 ∧
      (r.written kind context).2.Agrees (r'.written kind context').2 := by
  have hlog : (r.log.await [r.draft kind context]).Agrees
      (r'.log.await [r'.draft kind context']) :=
    ⟨h.log.stable, List.rel_append h.log.pending (.cons (h.draft hcontext) .nil)⟩
  exact hlog.settle Ledger.keeps_agrees ⟨h.nextStamp, h.accounts, h.stats⟩

theorem Agrees.afterWrite (kind : Kind) (hcontext : context.agrees context' = true) :
    (r.afterWrite kind context).Agrees (r'.afterWrite kind context') := by
  obtain ⟨hlog, hledger⟩ := h.written kind hcontext
  refine ⟨⟨hledger.clock, hledger.accounts, ?_⟩, h.id, hlog, h.active⟩
  simp only [Replica.afterWrite, hledger.stats]

/-- A write ends in the same way at both. -/
theorem Agrees.submit (kind : Kind) (hcontext : context.agrees context' = true) :
    Together Eq (fun x y => Together LedgerError.Agrees (fun c c' => c.agrees c' = true) x.1 y.1 ∧
      x.2.Agrees y.2) (r.submit kind context) (r'.submit kind context') := by
  -- both writes go through the same tests, and each test has the same answer for both
  cases hactive : r.active with
  | false =>
    rw [submit_of_inactive hactive, submit_of_inactive (h.active.symm.trans hactive)]
    exact .ok ⟨.error (.refl _), h.refused⟩
  | true =>
    have hactive' : r'.active = true := h.active.symm.trans hactive
    have hsame : r.accounts.admission kind = r'.accounts.admission kind := by rw [h.accounts]
    cases hadmitted : r.accounts.admission kind with
    | error e =>
      rw [submit_of_refused hactive hadmitted,
        submit_of_refused hactive' (hsame.symm.trans hadmitted)]
      exact .ok ⟨.error (.refl _), h.refused⟩
    | ok =>
      have hadmitted' : r'.accounts.admission kind = .ok () := hsame.symm.trans hadmitted
      have hcount : r.clock.get r.id = r'.clock.get r'.id := by
        rw [h.id, Clock.get_eq_of_agrees h.clock]
      by_cases hfull : r.clock.get r.id = Clock.maxCount
      · rw [submit_of_full hactive hadmitted hfull,
          submit_of_full hactive' hadmitted' (hcount.symm.trans hfull)]
        exact .error rfl
      · have hroom' : r'.clock.get r'.id ≠ Clock.maxCount := hcount ▸ hfull
        have hknows := h.log.contains_eq h.nextStamp
        cases hknown : r.log.contains r.nextStamp with
        | true =>
          rw [submit_of_contains hactive hadmitted hfull hknown,
            submit_of_contains hactive' hadmitted' hroom' (hknows.symm.trans hknown)]
          exact .ok ⟨.error (.duplicateOperation h.nextStamp), h⟩
        | false =>
          have hafter := h.afterWrite kind hcontext
          rw [submit_eq_ok hactive hadmitted hfull hknown,
            submit_eq_ok hactive' hadmitted' hroom' (hknows.symm.trans hknown)]
          exact .ok ⟨.ok (Clock.agrees_merged hcontext hafter.clock), hafter⟩

theorem Agrees.read (hcontext : context.agrees context' = true) :
    Together LedgerError.Agrees (fun x y => x.1 = y.1 ∧ x.2.agrees y.2 = true)
      (r.read account context) (r'.read account context') := by
  rw [Replica.read, Replica.read, h.accounts]
  split
  · exact .ok ⟨rfl, Clock.agrees_merged hcontext h.clock⟩
  · exact .error (.refl _)

/-- A batch is reported on and taken in in the same way by both. -/
theorem Agrees.receive (hops : AgreeAll ops ops') :
    (r.receive ops).1 = (r'.receive ops').1 ∧ (r.receive ops).2.Agrees (r'.receive ops').2 := by
  obtain ⟨hreport, hlog, hledger⟩ := h.log.absorb Ledger.keeps_agrees hops h.toAgrees
  refine ⟨hreport, ⟨hledger.clock, hledger.accounts, ?_⟩, h.id, hlog, h.active⟩
  simp only [Replica.receive, hledger.stats, hreport]

/-- Calls that agree return the same from both, and leave both in agreement. -/
theorem Agrees.perform (hc : c.Agrees c') :
    Together Eq (fun x y => x.1.Agrees y.1 ∧ x.2.Agrees y.2) (r.perform c) (r'.perform c') := by
  cases hc with
  | @submit kind context context' hcontext =>
    have hsubmit := h.submit kind hcontext
    rw [Replica.perform, Replica.perform]
    generalize r.submit kind context = done, r'.submit kind context' = done' at hsubmit
    cases hsubmit with
    | error he => exact .error he
    | ok hdone => exact .ok ⟨.written hdone.1, hdone.2⟩
  | read hcontext => exact .ok ⟨.told (h.read hcontext), h⟩
  | receive hops =>
    obtain ⟨hreport, hagrees⟩ := h.receive hops
    rw [Replica.perform, Replica.perform, hreport]
    exact .ok ⟨.reported, hagrees⟩
  | activate => exact .ok ⟨.switched, { h with active := rfl }⟩
  | deactivate => exact .ok ⟨.switched, { h with active := rfl }⟩

theorem Agrees.trace (hcalls : List.Forall₂ Call.Agrees calls calls') :
    List.Forall₂ (Together Eq fun x y => x.1.Agrees y.1 ∧ x.2.Agrees y.2)
      (r.trace calls) (r'.trace calls') := by
  induction hcalls generalizing r r' with
  | nil => exact .nil
  | @cons c c' calls calls' hc _ ih =>
    have hperform := h.perform hc
    rw [Replica.trace, Replica.trace]
    generalize r.perform c = done, r'.perform c' = done' at hperform
    -- a call that overflows ends both lists
    cases hperform with
    | error he => exact .cons (.error he) .nil
    | ok hdone => exact .cons (.ok hdone) (ih hdone.2)

end

/-- **A replica does not see stored zeros.**  Calls that differ at most in the zeros that their
clocks store, in contexts, operations and timestamps, are answered alike one by one, and after each
of them the two replicas agree. -/
theorem trace_agrees_of_fresh {id : ReplicaId} {money : UInt64} {active : Bool}
    (hcalls : List.Forall₂ Call.Agrees calls calls') :
    List.Forall₂ (Together Eq fun x y => x.1.Agrees y.1 ∧ x.2.Agrees y.2)
      ((fresh id money active).trace calls) ((fresh id money active).trace calls') :=
  agrees_fresh.trace hcalls

/-- A write, then a batch that brings an operation twice, then a write that is refused. -/
def unpadded : List Call :=
  [.submit (.create "x") .zero,
    .receive
      [{ kind := .transfer "broker" "x" 5, origin := "B", context := Clock.zero.set "A" 1,
          timestamp := Clock.zero.set "B" 1 },
        { kind := .transfer "broker" "x" 5, origin := "B", context := Clock.zero.set "A" 1,
          timestamp := Clock.zero.set "B" 1 }],
    .submit (.create "x") (Clock.zero.set "B" 1)]

/-- The same calls with zeros for replicas that have done nothing. -/
def padded : List Call :=
  [.submit (.create "x") (Clock.zero.set "A" 0),
    .receive
      [{ kind := .transfer "broker" "x" 5, origin := "B",
          context := (Clock.zero.set "A" 1).set "B" 0,
          timestamp := (Clock.zero.set "A" 0).set "B" 1 },
        { kind := .transfer "broker" "x" 5, origin := "B", context := Clock.zero.set "A" 1,
          timestamp := (Clock.zero.set "B" 1).set "C" 0 }],
    .submit (.create "x") ((Clock.zero.set "B" 1).set "C" 0)]

theorem padded_answered_alike : unpadded ≠ padded ∧
    List.Forall₂ Call.Agrees unpadded padded ∧
    ((fresh "A" 9 true).trace unpadded).length = 3 ∧
    List.Forall₂ (Together Eq fun x y => x.1.Agrees y.1 ∧ x.2.Agrees y.2)
      ((fresh "A" 9 true).trace unpadded) ((fresh "A" 9 true).trace padded) := by
  have hstored : Clock.zero ≠ Clock.zero.set "A" 0 := by decide
  have hcalls : List.Forall₂ Call.Agrees unpadded padded :=
    .cons (.submit (by decide)) (.cons (.receive (by decide)) (.cons (.submit (by decide)) .nil))
  refine ⟨fun hsame => ?_, hcalls, rfl, trace_agrees_of_fresh hcalls⟩
  simp only [unpadded, padded, List.cons.injEq, Call.submit.injEq] at hsame
  exact hstored hsame.1.2

end Replica

end GossipLedger
