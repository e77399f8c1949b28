import GossipLedger.Proofs.Log.Flat
import GossipLedger.Proofs.Replica.Session

/-!
# Replicas whose log is one list

A replica can keep its log as one list with a boundary and a set of timestamps (`FlatReplica`).  It
then asks the set whether the timestamp of a write is known, and the set grows with each operation
that comes in.

Such a replica answers any call as a replica does that keeps the log in two lists, and remains in
the same state otherwise (`FlatReplica.Keeps`): a write ends in the same way
(`FlatReplica.Keeps.submit`), a batch has the same report (`FlatReplica.Keeps.receive`), and any
calls are answered by both or by neither (`FlatReplica.Keeps.run`).
-/

namespace GossipLedger

/-- A replica whose log is one list, with a set of timestamps. -/
structure FlatReplica (τ : Type) extends Ledger where
  /-- The name of the replica. -/
  id : ReplicaId
  /-- The operations that the replica knows. -/
  log : FlatLog τ
  /-- Whether the replica accepts writes. -/
  active : Bool

namespace FlatReplica

variable {τ : Type} {k : Clock.Sets τ} {flat : FlatReplica τ} {r : Replica} {kind : Kind}
  {context : Clock} {ops : List Operation}

/-- A replica without operations, in which the broker holds all money. -/
def fresh (k : Clock.Sets τ) (id : ReplicaId) (money : UInt64) (active : Bool) : FlatReplica τ :=
  { id, active, clock := .zero, accounts := .seeded money, log := .empty k }

/-- The replica after it has refused a write. -/
def refused (flat : FlatReplica τ) : FlatReplica τ :=
  { flat with stats := { flat.stats with rejected := flat.stats.rejected + 1 } }

/-- The replica after it has accepted an operation. -/
def accept (k : Clock.Sets τ) (flat : FlatReplica τ) (op : Operation) (context : Clock) :
    Result Clock × FlatReplica τ :=
  match flat.log.insert k Ledger.clock Ledger.apply op
      { flat.toLedger with clock := op.timestamp } with
  | .error e => (.error e, { flat with clock := op.timestamp })
  | .ok (_, log, ledger) =>
    (.ok (context.merged ledger.clock),
      { flat with
        toLedger :=
          { ledger with stats := { ledger.stats with submitted := ledger.stats.submitted + 1 } }
        log })

/-- A client's write, whose timestamp must be new to the set. -/
def submit (k : Clock.Sets τ) (flat : FlatReplica τ) (kind : Kind) (context : Clock) :
    Except CounterOverflow (Result Clock × FlatReplica τ) :=
  if flat.active then
    match flat.accounts.admission kind with
    | .error e => .ok (.error e, flat.refused)
    | .ok () => do
      let timestamp ← flat.clock.increment flat.id
      if k.contains flat.log.seen timestamp then
        return (.error (.duplicateOperation timestamp), flat)
      else
        return flat.accept k { kind, origin := flat.id, context, timestamp } context
  else .ok (.error .readOnly, flat.refused)

/-- Takes in operations that another replica has sent. -/
def receive (k : Clock.Sets τ) (flat : FlatReplica τ) (ops : List Operation) :
    Report × FlatReplica τ :=
  let (report, log, ledger) := flat.log.absorb k Ledger.clock Ledger.apply ops flat.toLedger
  (report,
    { flat with
      toLedger := { ledger with
        stats := { ledger.stats with
          mergedBatches := ledger.stats.mergedBatches + 1
          duplicatesSkipped := ledger.stats.duplicatesSkipped + report.duplicates } }
      log })

/-- What a call does. -/
def call (k : Clock.Sets τ) (flat : FlatReplica τ) : Call → Except CounterOverflow (FlatReplica τ)
  | .submit kind context => (flat.submit k kind context).map Prod.snd
  | .read _ _ => .ok flat
  | .receive ops => .ok (flat.receive k ops).2
  | .activate => .ok { flat with active := true }
  | .deactivate => .ok { flat with active := false }

/-- What a list of calls does. -/
def run (k : Clock.Sets τ) (flat : FlatReplica τ) (calls : List Call) :
    Except CounterOverflow (FlatReplica τ) :=
  calls.foldlM (call k) flat

/-- The replica with its log in two lists. -/
def parted (flat : FlatReplica τ) (log : Log) : Replica :=
  { flat with log }

@[simp] theorem parted_log {log : Log} : (flat.parted log).log = log := rfl

@[simp] theorem parted_toLedger {log : Log} : (flat.parted log).toLedger = flat.toLedger := rfl

@[simp] theorem parted_id {log : Log} : (flat.parted log).id = flat.id := rfl

@[simp] theorem parted_active {log : Log} : (flat.parted log).active = flat.active := rfl

/-- The logs of the two replicas hold the same, and nothing else tells the replicas apart. -/
structure Keeps (k : Clock.Sets τ) (flat : FlatReplica τ) (r : Replica) : Prop where
  /-- The list, the boundary and the set stand for the log. -/
  log : flat.log.Holds k r.log
  /-- All the rest is equal. -/
  parted : flat.parted r.log = r

/-- Both fail, or both have values that are related. -/
inductive EndsAs {ε α β : Type} (R : α → β → Prop) : Except ε α → Except ε β → Prop where
  /-- Both fail alike. -/
  | error (e : ε) : EndsAs R (.error e) (.error e)
  /-- Both have values. -/
  | ok {a : α} {b : β} (h : R a b) : EndsAs R (.ok a) (.ok b)

theorem EndsAs.exists_of_ok {ε α β : Type} {R : α → β → Prop} {outcome : Except ε α} {b : β}
    (h : EndsAs R outcome (.ok b)) : ∃ a, outcome = .ok a ∧ R a b := by
  cases h with
  | ok h => exact ⟨_, rfl, h⟩

/-- The same answer, and replicas that keep the same. -/
def AnswersAs {α : Type} (k : Clock.Sets τ) (x : α × FlatReplica τ) (y : α × Replica) : Prop :=
  x.1 = y.1 ∧ x.2.Keeps k y.2

variable {s : Session} {c : Call} {calls : List Call}

theorem Keeps.exists_parted (h : flat.Keeps k r) :
    ∃ log, flat.log.Holds k log ∧ flat.parted log = r :=
  ⟨r.log, h.log, h.parted⟩

theorem Keeps.refused (h : flat.Keeps k r) : flat.refused.Keeps k r.refused where
  log := h.log
  parted := congrArg Replica.refused h.parted

theorem run_cons : flat.run k (c :: calls) = flat.call k c >>= fun t => t.run k calls :=
  List.foldlM_cons ..

section Lawful

variable (hk : k.Lawful)

include hk

theorem keeps_fresh {id : ReplicaId} {money : UInt64} {active : Bool} :
    (fresh k id money active).Keeps k (.fresh id money active) where
  log := FlatLog.holds_empty hk
  parted := rfl

theorem Keeps.accept (h : flat.Keeps k r) {op : Operation} :
    AnswersAs k (flat.accept k op context) (r.accept op context) := by
  obtain ⟨log, hlog, rfl⟩ := h.exists_parted
  let ledger : Ledger := { flat.toLedger with clock := op.timestamp }
  dsimp only [FlatReplica.accept, Replica.accept, FlatReplica.parted]
  cases hop : log.contains op.timestamp with
  | true =>
    have hflat : flat.log.insert k Ledger.clock Ledger.apply op ledger = _ :=
      hlog.insert_of_contains hk hop
    have hparted : log.insert Ledger.clock Ledger.apply op ledger = _ :=
      Log.insert_of_contains hop
    rw [hflat, hparted]
    exact ⟨rfl, hlog, rfl⟩
  | false =>
    obtain ⟨⟨report, grown, done⟩, ⟨report', log', done'⟩, hflat, hparted, hadds⟩ :
        ∃ done added, flat.log.insert k Ledger.clock Ledger.apply op ledger = .ok done ∧
          log.insert Ledger.clock Ledger.apply op ledger = .ok added ∧
            FlatLog.AddsAs k done added := hlog.insert_of_not_contains hk hop
    obtain rfl : done = done' := hadds.state
    rw [hflat, hparted]
    exact ⟨rfl, hadds.holds, rfl⟩

/-- **A write ends in the same way.** -/
theorem Keeps.submit (h : flat.Keeps k r) :
    EndsAs (AnswersAs k) (flat.submit k kind context) (r.submit kind context) := by
  obtain ⟨log, hlog, rfl⟩ := h.exists_parted
  rw [FlatReplica.submit, Replica.submit, parted_active, parted_toLedger, parted_id, parted_log]
  cases flat.active with
  | false => exact .ok ⟨rfl, h.refused⟩
  | true =>
    cases flat.accounts.admission kind with
    | error e => exact .ok ⟨rfl, h.refused⟩
    | ok =>
      cases flat.clock.increment flat.id with
      | error e => exact .error e
      | ok timestamp =>
        dsimp only [bind, Except.bind]
        rw [hlog.seen]
        cases log.contains timestamp with
        | true => exact .ok ⟨rfl, h⟩
        | false => exact .ok (h.accept hk)

/-- **A batch has the same report.** -/
theorem Keeps.receive (h : flat.Keeps k r) :
    AnswersAs k (flat.receive k ops) (r.receive ops) := by
  obtain ⟨log, hlog, rfl⟩ := h.exists_parted
  have hadds : FlatLog.AddsAs k
      (flat.log.absorb k Ledger.clock Ledger.apply ops flat.toLedger)
      (log.absorb Ledger.clock Ledger.apply ops flat.toLedger) := hlog.absorb hk
  rw [FlatReplica.receive, Replica.receive, parted_log, parted_toLedger]
  generalize flat.log.absorb k Ledger.clock Ledger.apply ops flat.toLedger = done at hadds ⊢
  generalize log.absorb Ledger.clock Ledger.apply ops flat.toLedger = added at hadds ⊢
  obtain ⟨report, grown, ledger⟩ := done
  obtain ⟨report', log', ledger'⟩ := added
  obtain rfl : report = report' := hadds.report
  obtain rfl : ledger = ledger' := hadds.state
  exact ⟨rfl, hadds.holds, rfl⟩

theorem Keeps.call (h : flat.Keeps k s.replica) (c : Call) :
    EndsAs (fun flat s => flat.Keeps k s.replica) (flat.call k c) (s.call c) := by
  cases c with
  | submit kind context =>
    have hends : EndsAs (AnswersAs k) (flat.submit k kind context)
        (s.replica.submit kind context) := h.submit hk
    rw [FlatReplica.call, Session.call]
    generalize flat.submit k kind context = outcome at hends ⊢
    generalize s.replica.submit kind context = outcome' at hends ⊢
    cases hends with
    | error e => exact .error e
    | @ok answered answered' hanswers =>
      obtain ⟨answer, flat'⟩ := answered
      obtain ⟨answer', r'⟩ := answered'
      obtain ⟨rfl, hkeeps⟩ := hanswers
      cases answer with
      | error e => exact .ok hkeeps
      | ok clock => exact .ok hkeeps
  | read account context => exact .ok h
  | receive ops => exact .ok (h.receive hk).2
  | activate => exact .ok ⟨h.log, congrArg Replica.activate h.parted⟩
  | deactivate => exact .ok ⟨h.log, congrArg Replica.deactivate h.parted⟩

/-- **Any calls are answered by both replicas or by neither**, and after them the two logs hold the
same. -/
theorem Keeps.run (h : flat.Keeps k s.replica) (calls : List Call) :
    EndsAs (fun flat s => flat.Keeps k s.replica) (flat.run k calls) (s.run calls) := by
  induction calls generalizing flat s with
  | nil => exact .ok h
  | cons c calls ih =>
    have hcall := h.call hk c
    rw [run_cons, Session.run_cons]
    generalize flat.call k c = outcome at hcall ⊢
    generalize s.call c = outcome' at hcall ⊢
    cases hcall with
    | error e => exact .error e
    | ok h => exact ih h

end Lawful

end FlatReplica

end GossipLedger
