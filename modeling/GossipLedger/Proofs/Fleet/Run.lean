import GossipLedger.Proofs.Replica.Session
import Mathlib.Logic.Function.Basic
import Mathlib.Logic.Relation

/-!
# Runs of a fleet

A *fleet* is a family of replicas together with what has passed between them and their clients: the
clocks that each client was told, the snapshots that were ever taken, and, for the theory only, the
operations that were accepted, in the order of their acceptance.

`Fleet.step` is what one event does.  Snapshots stay available once they are taken, so one may be
delivered late, again, out of order or never.  What clients and network do is left to a *rule*
(`Fleet.Rule`), a restriction on the events that may happen next:

* `Fleet.Carries` : clients send along the join of all clocks that they were told;
* `Fleet.Recalls` : they send along the join of any of these clocks;
* `Fleet.CaughtUp` : writes go to replicas whose clock covers the context;
* `Fleet.DeliversWhole` : whole snapshots are delivered;
* `Fleet.DeliversCopies` : any lists of copied operations are delivered.

They are combined into `Fleet.Honest`, `Fleet.Truthful`, `Fleet.Gated` and `Fleet.Disciplined`.

`Fleet.Reaches` is the reflexive and transitive closure of the steps that a rule allows, and
`Fleet.step_cases` lists once what a step can do.  To each replica, a run of the fleet is a sequence
of calls (`Fleet.Reaches.reached`).
-/

namespace GossipLedger

/-- Replicas, their clients and what has passed between them. -/
structure Fleet (ι κ : Type) where
  /-- The replicas. -/
  replicas : ι → Replica
  /-- The clocks that each client was told, the latest last. -/
  told : κ → List Clock
  /-- The snapshots that were taken. -/
  posted : List (List Operation)
  /-- The operations that replicas accepted from clients, the latest last. -/
  accepted : List Operation

namespace Fleet

variable {ι κ : Type}

/-- What can happen next. -/
inductive Event (ι κ : Type) where
  /-- A client writes at a replica. -/
  | write (client : κ) (place : ι) (kind : Kind) (context : Clock)
  /-- A client asks a replica for a balance. -/
  | read (client : κ) (place : ι) (account : AccountId) (context : Clock)
  /-- A snapshot of a replica is taken. -/
  | post (place : ι)
  /-- Operations are delivered to a replica. -/
  | deliver (place : ι) (ops : List Operation)

/-- A fleet of fresh replicas, whose clients know nothing. -/
def fresh (ids : ι → ReplicaId) (money : ι → UInt64) (active : ι → Bool) : Fleet ι κ where
  replicas i := .fresh (ids i) (money i) (active i)
  told _ := []
  posted := []
  accepted := []

/-- The fleet with another state of a replica. -/
def put [DecidableEq ι] (f : Fleet ι κ) (place : ι) (r : Replica) : Fleet ι κ :=
  { f with replicas := Function.update f.replicas place r }

/-- The fleet after a client was told a clock. -/
def tell [DecidableEq κ] (f : Fleet ι κ) (client : κ) (clock : Clock) : Fleet ι κ :=
  { f with told := Function.update f.told client (f.told client ++ [clock]) }

section Step

variable [DecidableEq ι] [DecidableEq κ]

/-- The fleet after an accepted write. -/
def afterWrite (f : Fleet ι κ) (client : κ) (place : ι) (kind : Kind) (context : Clock) :
    Fleet ι κ :=
  let r := (f.replicas place).afterWrite kind context
  { (f.put place r).tell client (context.merged r.clock) with
    accepted := f.accepted ++ [(f.replicas place).draft kind context] }

/-- The fleet after an event.  A write for which a replica has no more numbers changes nothing. -/
def step (f : Fleet ι κ) : Event ι κ → Fleet ι κ
  | .write client place kind context =>
    match (f.replicas place).submit kind context with
    | .ok (.ok clock, r) =>
      { (f.put place r).tell client clock with
        accepted := f.accepted ++ [(f.replicas place).draft kind context] }
    | .ok (.error _, r) => f.put place r
    | .error _ => f
  | .read client place account context =>
    match (f.replicas place).read account context with
    | .ok (_, clock) => f.tell client clock
    | .error _ => f
  | .post place => { f with posted := f.posted ++ [(f.replicas place).snapshot] }
  | .deliver place ops => f.put place ((f.replicas place).receive ops).2

end Step

/-! ### Rules -/

/-- Which events may happen next. -/
abbrev Rule (ι κ : Type) := Fleet ι κ → Event ι κ → Prop

/-- Clients send along all that they were told. -/
def Carries (f : Fleet ι κ) : Event ι κ → Prop
  | .write client _ _ context => context = .joined (f.told client)
  | .read client _ _ context => context = .joined (f.told client)
  | .post _ => True
  | .deliver _ _ => True

/-- Clients send along some of what they were told. -/
def Recalls (f : Fleet ι κ) : Event ι κ → Prop
  | .write client _ _ context => ∃ cs, (∀ c ∈ cs, c ∈ f.told client) ∧ context = .joined cs
  | .read client _ _ context => ∃ cs, (∀ c ∈ cs, c ∈ f.told client) ∧ context = .joined cs
  | .post _ => True
  | .deliver _ _ => True

/-- Writes go to replicas whose clock covers the context. -/
def CaughtUp (f : Fleet ι κ) : Event ι κ → Prop
  | .write _ place _ context => (f.replicas place).clock.dominates context = true
  | .read .. => True
  | .post _ => True
  | .deliver _ _ => True

/-- Whole snapshots are delivered. -/
def DeliversWhole (f : Fleet ι κ) : Event ι κ → Prop
  | .deliver _ ops => ops ∈ f.posted
  | .write .. => True
  | .read .. => True
  | .post _ => True

/-- Operations are delivered that were copied from a snapshot. -/
def DeliversCopies (f : Fleet ι κ) : Event ι κ → Prop
  | .deliver _ ops => ∀ op ∈ ops, ∃ snapshot ∈ f.posted, op ∈ snapshot
  | .write .. => True
  | .read .. => True
  | .post _ => True

/-- Clients carry their contexts and whole snapshots are delivered. -/
def Honest (f : Fleet ι κ) (e : Event ι κ) : Prop :=
  f.Carries e ∧ f.DeliversWhole e

/-- Contexts are joins of clocks that the clients were told and whole snapshots are delivered. -/
def Truthful (f : Fleet ι κ) (e : Event ι κ) : Prop :=
  f.Recalls e ∧ f.DeliversWhole e

/-- Writes go to replicas that have caught up with them and whole snapshots are delivered. -/
def Gated (f : Fleet ι κ) (e : Event ι κ) : Prop :=
  f.CaughtUp e ∧ f.DeliversWhole e

/-- Clients carry their contexts, write only where a replica has caught up with them, and whole
snapshots are delivered. -/
def Disciplined (f : Fleet ι κ) (e : Event ι κ) : Prop :=
  f.Honest e ∧ f.CaughtUp e

instance (f : Fleet ι κ) (e : Event ι κ) : Decidable (f.Carries e) :=
  match e with
  | .write client _ _ context => inferInstanceAs (Decidable (context = .joined (f.told client)))
  | .read client _ _ context => inferInstanceAs (Decidable (context = .joined (f.told client)))
  | .post _ => .isTrue trivial
  | .deliver _ _ => .isTrue trivial

instance (f : Fleet ι κ) (e : Event ι κ) : Decidable (f.CaughtUp e) :=
  match e with
  | .write _ place _ context =>
    inferInstanceAs (Decidable ((f.replicas place).clock.dominates context = true))
  | .read .. => .isTrue trivial
  | .post _ => .isTrue trivial
  | .deliver _ _ => .isTrue trivial

instance (f : Fleet ι κ) (e : Event ι κ) : Decidable (f.DeliversWhole e) :=
  match e with
  | .deliver _ ops => inferInstanceAs (Decidable (ops ∈ f.posted))
  | .write .. => .isTrue trivial
  | .read .. => .isTrue trivial
  | .post _ => .isTrue trivial

instance (f : Fleet ι κ) (e : Event ι κ) : Decidable (f.DeliversCopies e) :=
  match e with
  | .deliver _ ops =>
    inferInstanceAs (Decidable (∀ op ∈ ops, ∃ snapshot ∈ f.posted, op ∈ snapshot))
  | .write .. => .isTrue trivial
  | .read .. => .isTrue trivial
  | .post _ => .isTrue trivial

instance (f : Fleet ι κ) (e : Event ι κ) : Decidable (f.Honest e) :=
  inferInstanceAs (Decidable (_ ∧ _))

instance (f : Fleet ι κ) (e : Event ι κ) : Decidable (f.Gated e) :=
  inferInstanceAs (Decidable (_ ∧ _))

instance (f : Fleet ι κ) (e : Event ι κ) : Decidable (f.Disciplined e) :=
  inferInstanceAs (Decidable (_ ∧ _))

theorem DeliversWhole.copies {f : Fleet ι κ} {e : Event ι κ} (h : f.DeliversWhole e) :
    f.DeliversCopies e := by
  cases e with
  | deliver place ops => exact fun op hop => ⟨ops, h, hop⟩
  | _ => trivial

theorem Carries.recalls {f : Fleet ι κ} {e : Event ι κ} (h : f.Carries e) : f.Recalls e := by
  cases e with
  | write client => exact ⟨f.told client, fun _ hc => hc, h⟩
  | read client => exact ⟨f.told client, fun _ hc => hc, h⟩
  | _ => trivial

theorem Honest.truthful {f : Fleet ι κ} {e : Event ι κ} (h : f.Honest e) : f.Truthful e :=
  ⟨h.1.recalls, h.2⟩

/-! ### Reachable fleets -/

section Reaches

variable [DecidableEq ι] [DecidableEq κ] (rule : Rule ι κ)

/-- One event that the rule allows. -/
def Moves (f g : Fleet ι κ) : Prop :=
  ∃ e, rule f e ∧ g = f.step e

/-- Any number of events, each of which the rule allows. -/
def Reaches (f g : Fleet ι κ) : Prop :=
  Relation.ReflTransGen (Moves rule) f g

variable {rule} {f g : Fleet ι κ}

theorem Reaches.step {e : Event ι κ} (h : Reaches rule f g) (he : rule g e) :
    Reaches rule f (g.step e) :=
  Relation.ReflTransGen.tail h ⟨e, he, rfl⟩

theorem Reaches.trans {f' : Fleet ι κ} (h : Reaches rule f g) (h' : Reaches rule g f') :
    Reaches rule f f' :=
  Relation.ReflTransGen.trans h h'

/-- What holds at the start and is kept by every event of the rule holds throughout. -/
theorem Reaches.invariant {I : Fleet ι κ → Prop} (h : Reaches rule f g) (h₀ : I f)
    (hstep : ∀ f e, I f → rule f e → I (f.step e)) : I g := by
  induction h with
  | refl => exact h₀
  | tail _ hmove ih =>
    obtain ⟨e, he, rfl⟩ := hmove
    exact hstep _ e ih he

/-- The fleet after a list of events. -/
def run (f : Fleet ι κ) (es : List (Event ι κ)) : Fleet ι κ :=
  es.foldl step f

/-- Each event of a list is one that the rule allows when it happens. -/
def Obeys (rule : Rule ι κ) : Fleet ι κ → List (Event ι κ) → Prop
  | _, [] => True
  | f, e :: es => rule f e ∧ Obeys rule (f.step e) es

instance decidableObeys [∀ f e, Decidable (rule f e)] :
    ∀ (f : Fleet ι κ) (es : List (Event ι κ)), Decidable (Obeys rule f es)
  | _, [] => .isTrue trivial
  | f, e :: es =>
    have := decidableObeys (f.step e) es
    inferInstanceAs (Decidable (rule f e ∧ Obeys rule (f.step e) es))

theorem reaches_run {es : List (Event ι κ)} (h : Obeys rule f es) : Reaches rule f (f.run es) := by
  induction es generalizing f with
  | nil => exact .refl
  | cons e es ih => exact .head ⟨e, h.1, rfl⟩ (ih h.2)

theorem Reaches.mono {rule' : Rule ι κ} (hr : ∀ f e, rule f e → rule' f e)
    (h : Reaches rule f g) : Reaches rule' f g :=
  Relation.ReflTransGen.mono (fun _ _ ⟨e, he, hg⟩ => ⟨e, hr _ e he, hg⟩) _ _ h

end Reaches

/-! ### What a step can do -/

/-- Two fleets that differ at most in what their replicas have counted for statistics. -/
structure Alike (f g : Fleet ι κ) : Prop where
  /-- The names. -/
  id : ∀ i, (g.replicas i).id = (f.replicas i).id
  /-- The logs. -/
  log : ∀ i, (g.replicas i).log = (f.replicas i).log
  /-- The clocks. -/
  clock : ∀ i, (g.replicas i).clock = (f.replicas i).clock
  /-- What the clients were told. -/
  told : g.told = f.told
  /-- The snapshots. -/
  posted : g.posted = f.posted
  /-- The accepted operations. -/
  accepted : g.accepted = f.accepted

theorem Alike.refl (f : Fleet ι κ) : f.Alike f :=
  ⟨fun _ => rfl, fun _ => rfl, fun _ => rfl, rfl, rfl, rfl⟩

section Put

variable [DecidableEq ι] {f : Fleet ι κ}

theorem replicas_put_self {i : ι} {r : Replica} : (f.put i r).replicas i = r :=
  Function.update_self ..

theorem replicas_put_of_ne {i j : ι} {r : Replica} (h : j ≠ i) :
    (f.put i r).replicas j = f.replicas j :=
  Function.update_of_ne h ..

theorem alike_refused (f : Fleet ι κ) (i : ι) : f.Alike (f.put i (f.replicas i).refused) := by
  have h : ∀ j, (f.put i (f.replicas i).refused).replicas j = f.replicas j ∨
      (j = i ∧ (f.put i (f.replicas i).refused).replicas j = (f.replicas j).refused) := by
    intro j
    by_cases hj : j = i
    · subst hj
      exact .inr ⟨rfl, replicas_put_self⟩
    · exact .inl (replicas_put_of_ne hj)
  refine ⟨fun j => ?_, fun j => ?_, fun j => ?_, rfl, rfl, rfl⟩ <;>
    rcases h j with h | ⟨-, h⟩ <;> rw [h] <;> rfl

end Put

section Write

variable [DecidableEq ι] [DecidableEq κ] {f : Fleet ι κ} {k k' : κ} {i : ι} {kind : Kind}
  {context : Clock}

theorem replicas_afterWrite :
    (f.afterWrite k i kind context).replicas i = (f.replicas i).afterWrite kind context :=
  Function.update_self ..

theorem told_afterWrite : (f.afterWrite k i kind context).told k =
    f.told k ++ [context.merged ((f.replicas i).afterWrite kind context).clock] :=
  Function.update_self ..

theorem told_afterWrite_of_ne (h : k' ≠ k) :
    (f.afterWrite k i kind context).told k' = f.told k' :=
  Function.update_of_ne h ..

end Write

variable [DecidableEq ι] [DecidableEq κ]

/-- What a step can do. -/
inductive StepCase (f : Fleet ι κ) : Event ι κ → Fleet ι κ → Prop where
  /-- A write is accepted. -/
  | accepted {client : κ} {place : ι} {kind : Kind} {context : Clock}
    (hroom : (f.replicas place).clock.get (f.replicas place).id ≠ Clock.maxCount)
    (hactive : (f.replicas place).active = true)
    (hadmitted : (f.replicas place).accounts.admission kind = .ok ())
    (hnew : (f.replicas place).log.contains (f.replicas place).nextStamp = false) :
    StepCase f (.write client place kind context) (f.afterWrite client place kind context)
  /-- A write is refused, or a question has no answer. -/
  | quiet {e : Event ι κ} {g : Fleet ι κ} (h : f.Alike g) : StepCase f e g
  /-- A question is answered. -/
  | answered {client : κ} {place : ι} {account : AccountId} {context : Clock} :
    StepCase f (.read client place account context)
      (f.tell client (context.merged (f.replicas place).clock))
  /-- A snapshot is taken. -/
  | posted {place : ι} :
    StepCase f (.post place) { f with posted := f.posted ++ [(f.replicas place).snapshot] }
  /-- Operations are delivered. -/
  | delivered {place : ι} {ops : List Operation} :
    StepCase f (.deliver place ops) (f.put place ((f.replicas place).receive ops).2)

/-- A write that is answered is one that was accepted. -/
theorem step_write {f : Fleet ι κ} {client : κ} {place : ι} {kind : Kind} {context clock : Clock}
    {r : Replica} (h : (f.replicas place).submit kind context = .ok (.ok clock, r)) :
    f.step (.write client place kind context) = f.afterWrite client place kind context := by
  rw [step, h]
  cases Replica.submit_cases h with
  | accepted _ _ _ _ => rfl

theorem step_cases (f : Fleet ι κ) (e : Event ι κ) : StepCase f e (f.step e) := by
  cases e with
  | write client place kind context =>
    rw [step]
    split
    · rename_i clock r h
      cases Replica.submit_cases h with
      | accepted hactive hadmitted hroom hnew =>
        exact .accepted hroom hactive hadmitted hnew
    · rename_i r h
      cases Replica.submit_cases h with
      | refused e _ => exact .quiet (alike_refused f place)
      | collided _ _ =>
        refine .quiet ?_
        rw [put, Function.update_eq_self]
        exact .refl f
    · exact .quiet (.refl f)
  | read client place account context =>
    rw [step]
    cases h : (f.replicas place).accounts.balance? account with
    | none =>
      rw [Replica.read, h]
      exact .quiet (.refl f)
    | some balance =>
      rw [Replica.read, h]
      exact .answered
  | post place => exact .posted
  | deliver place ops => exact .delivered

/-- What was accepted remains so. -/
theorem Reaches.accepted_grows {rule : Rule ι κ} (h : Reaches rule f g) :
    f.accepted <+: g.accepted := by
  refine h.invariant (I := fun g => f.accepted <+: g.accepted) List.prefix_rfl
    fun g e hgrows _ => ?_
  have hcase := step_cases g e
  generalize g.step e = g' at hcase ⊢
  cases hcase with
  | accepted _ => exact hgrows.trans (List.prefix_append _ _)
  | quiet hg => rwa [hg.accepted]
  | answered => exact hgrows
  | posted => exact hgrows
  | delivered => exact hgrows

/-! ### What happens to a replica -/

/-- To each replica, whatever happens is a call or nothing. -/
theorem Reaches.reached {rule : Rule ι κ} {ids : ι → ReplicaId} {money : ι → UInt64}
    {active : ι → Bool} {f : Fleet ι κ} (h : Reaches rule (fresh ids money active) f) (i : ι) :
    Replica.Reached (.fresh (ids i) (money i) (active i)) (f.replicas i) := by
  revert i
  refine h.invariant (I := fun f => ∀ i, Replica.Reached (.fresh (ids i) (money i) (active i))
    (f.replicas i)) (fun _ => .refl) fun f e h _ => ?_
  have hput : ∀ i r, Replica.Reached (.fresh (ids i) (money i) (active i)) r → ∀ j,
      Replica.Reached (.fresh (ids j) (money j) (active j)) ((f.put i r).replicas j) :=
    fun i r hr => (Function.forall_update_iff f.replicas fun j r =>
      Replica.Reached (.fresh (ids j) (money j) (active j)) r).2 ⟨hr, fun j _ => h j⟩
  cases e with
  | write client place kind context =>
    rw [Fleet.step]
    split
    · rename_i hs
      exact hput place _ ((h place).submit hs)
    · rename_i hs
      exact hput place _ ((h place).submit hs)
    · exact h
  | read client place account context =>
    rw [Fleet.step]
    split
    · exact h
    · exact h
  | post place => exact h
  | deliver place ops => exact hput place _ (h place).receive

/-! ### A small fleet -/

/-- One of two replicas, or one of two clients. -/
inductive Side where
  | left
  | right
  deriving DecidableEq

/-- The names of two replicas. -/
def pairIds : Side → ReplicaId
  | .left => "A"
  | .right => "B"

theorem pairIds_injective : Function.Injective pairIds := by
  intro i j
  cases i <;> cases j <;> decide

/-- Two fresh replicas with two clients. -/
def pair : Fleet Side Side :=
  fresh pairIds (fun _ => 1000) fun _ => true

end Fleet

end GossipLedger
