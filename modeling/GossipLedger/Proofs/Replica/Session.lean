import GossipLedger.Proofs.Replica.Calls

/-!
# Sequences of calls

A *session* is a replica together with the operations that it has accepted from clients so far.
`Session.call` is what one call does to it and `Session.run` what a list of calls does; a run ends
with `CounterOverflow` where the replica would have to count beyond 64 bits.

Nothing is assumed of the calls: clients may send any context, and what is received may be any
operations, with any origins, contexts, timestamps and marks.

`Session.call_cases` lists what a call can do to a session, and `Session.run_invariant` is the
induction over a run.  `Session.run_eq_error_iff` tells where a run fails.  A replica that is
`Replica.Reached` from another one is the result of some run.
-/

namespace GossipLedger

/-- A call of a replica. -/
inductive Call where
  /-- A client writes. -/
  | submit (kind : Kind) (context : Clock)
  /-- A client asks for a balance. -/
  | read (account : AccountId) (context : Clock)
  /-- Operations of other replicas arrive. -/
  | receive (ops : List Operation)
  /-- Writes are switched on. -/
  | activate
  /-- Writes are switched off. -/
  | deactivate

/-- What has a result after it was mapped had one before. -/
theorem exists_of_map_eq_ok {ε α β : Type} {outcome : Except ε α} {f : α → β} {b : β}
    (h : outcome.map f = .ok b) : ∃ a, outcome = .ok a ∧ f a = b := by
  cases outcome with
  | error e => cases h
  | ok a =>
    cases h
    exact ⟨a, rfl, rfl⟩

/-- A replica and the operations that it has accepted from clients, the latest last. -/
structure Session where
  /-- The replica. -/
  replica : Replica
  /-- The accepted operations. -/
  accepted : List Operation := []

namespace Replica

/-- Two states of a replica that differ at most in what was refused and in whether writes are
accepted. -/
structure Alike (r r' : Replica) : Prop where
  /-- The names. -/
  id : r'.id = r.id
  /-- The logs. -/
  log : r'.log = r.log
  /-- The clocks. -/
  clock : r'.clock = r.clock
  /-- The accounts. -/
  accounts : r'.accounts = r.accounts
  /-- The numbers of operations that became stable. -/
  promoted : r'.stats.promoted = r.stats.promoted
  /-- The numbers of stable transfers without effect. -/
  skipped : r'.stats.transfersSkipped = r.stats.transfersSkipped

theorem Alike.refl (r : Replica) : r.Alike r :=
  ⟨rfl, rfl, rfl, rfl, rfl, rfl⟩

theorem alike_refused (r : Replica) : r.Alike r.refused :=
  ⟨rfl, rfl, rfl, rfl, rfl, rfl⟩

theorem alike_activate (r : Replica) : r.Alike r.activate :=
  ⟨rfl, rfl, rfl, rfl, rfl, rfl⟩

theorem alike_deactivate (r : Replica) : r.Alike r.deactivate :=
  ⟨rfl, rfl, rfl, rfl, rfl, rfl⟩

end Replica

namespace Session

variable {s t u : Session} {calls more : List Call} {c : Call}

/-- A replica without operations, in which the broker holds all money. -/
def fresh (id : ReplicaId) (money : UInt64) (active : Bool) : Session :=
  { replica := .fresh id money active }

/-- What a call does. -/
def call (s : Session) : Call → Except CounterOverflow Session
  | .submit kind context =>
    match s.replica.submit kind context with
    | .ok (.ok _, r) => .ok ⟨r, s.accepted ++ [s.replica.draft kind context]⟩
    | .ok (.error _, r) => .ok ⟨r, s.accepted⟩
    | .error e => .error e
  -- the answer to a question is all that it brings about
  | .read _ _ => .ok s
  | .receive ops => .ok ⟨(s.replica.receive ops).2, s.accepted⟩
  | .activate => .ok ⟨s.replica.activate, s.accepted⟩
  | .deactivate => .ok ⟨s.replica.deactivate, s.accepted⟩

/-- What a list of calls does. -/
def run (s : Session) (calls : List Call) : Except CounterOverflow Session :=
  calls.foldlM call s

theorem run_nil : s.run [] = .ok s :=
  rfl

theorem run_cons : s.run (c :: calls) = s.call c >>= fun t => t.run calls :=
  List.foldlM_cons ..

theorem run_append (h : s.run calls = .ok t) : s.run (calls ++ more) = t.run more := by
  rw [run, List.foldlM_append, show calls.foldlM call s = .ok t from h]
  rfl

theorem run_concat (h : s.run calls = .ok t) : s.run (calls ++ [c]) = t.call c := by
  rw [run_append h, run_cons]
  cases t.call c <;> rfl

/-- A run of which something can be told has come to its end. -/
theorem exists_of_map_run {α : Type} {view : Session → α} {v : α}
    (h : (s.run calls).map view = .ok v) : ∃ t, s.run calls = .ok t ∧ view t = v :=
  exists_of_map_eq_ok h

/-! ### What a call can do -/

/-- What a call can do to a session. -/
inductive CallCase (s : Session) : Session → Prop where
  /-- A write is accepted. -/
  | accepted {kind : Kind} {context : Clock}
    (hroom : s.replica.clock.get s.replica.id ≠ Clock.maxCount)
    (hadmitted : s.replica.accounts.admission kind = .ok ())
    (hnew : s.replica.log.contains s.replica.nextStamp = false) :
    CallCase s ⟨s.replica.afterWrite kind context, s.accepted ++ [s.replica.draft kind context]⟩
  /-- Operations are received. -/
  | received {ops : List Operation} : CallCase s ⟨(s.replica.receive ops).2, s.accepted⟩
  /-- A write is refused or switched on or off, or a question is asked. -/
  | quiet {r : Replica} (h : s.replica.Alike r) : CallCase s ⟨r, s.accepted⟩

theorem call_cases (h : s.call c = .ok t) : CallCase s t := by
  cases c with
  | submit kind context =>
    rw [call] at h
    split at h
    · rename_i clock r hs
      cases h
      cases Replica.submit_cases hs with
      | accepted _ hadmitted hroom hnew => exact .accepted hroom hadmitted hnew
    · rename_i e r hs
      cases h
      cases Replica.submit_cases hs with
      | refused _ _ => exact .quiet (Replica.alike_refused _)
      | collided _ _ => exact .quiet (.refl _)
    · cases h
  | read account context =>
    cases h
    exact .quiet (.refl _)
  | receive ops =>
    cases h
    exact .received
  | activate =>
    cases h
    exact .quiet (Replica.alike_activate _)
  | deactivate =>
    cases h
    exact .quiet (Replica.alike_deactivate _)

theorem CallCase.id_eq (h : CallCase s t) : t.replica.id = s.replica.id := by
  cases h with
  | accepted => rfl
  | received => rfl
  | quiet hr => exact hr.id

theorem CallCase.settled (h : CallCase s t) (hs : s.replica.Settled) : t.replica.Settled := by
  cases h with
  | accepted hroom => exact hs.afterWrite hroom
  | received => exact hs.receive
  | quiet hr => exact hs.congr hr.log hr.clock

/-- Only a write can fail as a whole. -/
theorem call_eq_error_iff {e : CounterOverflow} : s.call c = .error e ↔
    ∃ kind context, c = .submit kind context ∧ s.replica.submit kind context = .error e := by
  cases c with
  | submit kind context =>
    rcases hs : s.replica.submit kind context with e' | ⟨_ | clock, r⟩
    · rw [call, hs]
      -- there is only one failure
      exact ⟨fun _ => ⟨kind, context, rfl, hs⟩, fun _ => rfl⟩
    · simp [call, hs]
    · simp [call, hs]
  | read account context => simp [call]
  | receive ops => simp [call]
  | activate => simp [call]
  | deactivate => simp [call]

/-- A run fails at one of its calls. -/
theorem run_eq_error_iff {e : CounterOverflow} : s.run calls = .error e ↔
    ∃ before c after t, calls = before ++ c :: after ∧ s.run before = .ok t ∧
      t.call c = .error e := by
  constructor
  · intro h
    induction calls generalizing s with
    | nil => cases h
    | cons c calls ih =>
      rw [run_cons] at h
      cases hc : s.call c with
      | error e' =>
        rw [hc] at h
        cases h
        exact ⟨[], c, calls, s, rfl, rfl, hc⟩
      | ok u =>
        rw [hc] at h
        obtain ⟨before, c', after, t, rfl, hbefore, hcall⟩ := ih h
        refine ⟨c :: before, c', after, t, rfl, ?_, hcall⟩
        rw [run_cons, hc]
        exact hbefore
  · rintro ⟨before, c, after, t, rfl, hbefore, hcall⟩
    rw [run_append hbefore, run_cons, hcall]
    rfl

/-- What holds at the start and is kept by whatever a call can do holds after a run. -/
theorem run_invariant {I : Session → Prop} (h : s.run calls = .ok t) (h₀ : I s)
    (hstep : ∀ s t, I s → CallCase s t → I t) : I t := by
  induction calls generalizing s with
  | nil =>
    cases h
    exact h₀
  | cons c calls ih =>
    rw [run_cons] at h
    cases hc : s.call c with
    | error e =>
      rw [hc] at h
      cases h
    | ok u =>
      rw [hc] at h
      exact ih h (hstep _ _ h₀ (call_cases hc))

end Session

/-! ### Reached replicas -/

namespace Replica

variable {start r r' : Replica} {kind : Kind} {context : Clock} {answer : Result Clock}
  {ops : List Operation}

/-- The replica is what some calls have made of another one. -/
def Reached (start r : Replica) : Prop :=
  ∃ calls accepted, Session.run ⟨start, []⟩ calls = .ok ⟨r, accepted⟩

theorem Reached.refl : Reached start start :=
  ⟨[], [], Session.run_nil⟩

theorem Reached.submit (h : Reached start r) (hs : r.submit kind context = .ok (answer, r')) :
    Reached start r' := by
  obtain ⟨calls, accepted, hrun⟩ := h
  have hcall : ∃ accepted', Session.call ⟨r, accepted⟩ (.submit kind context) =
      .ok ⟨r', accepted'⟩ := by
    rw [Session.call, hs]
    cases answer with
    | ok clock => exact ⟨_, rfl⟩
    | error e => exact ⟨_, rfl⟩
  obtain ⟨accepted', hcall⟩ := hcall
  exact ⟨_, accepted', (Session.run_concat hrun).trans hcall⟩

theorem Reached.receive (h : Reached start r) : Reached start (r.receive ops).2 := by
  obtain ⟨calls, accepted, hrun⟩ := h
  exact ⟨calls ++ [.receive ops], accepted, Session.run_concat hrun⟩

end Replica

end GossipLedger
