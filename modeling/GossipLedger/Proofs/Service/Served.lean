import GossipLedger.Proofs.Replica.Session
import GossipLedger.Proofs.Wire.Decoding
import GossipLedger.Service.Connection

/-!
# Replicas that answer requests

A replica is `Replica.Served` if it has carried out requests that came in frames.  A frame brings
about one of three things (`Replica.serveFrame_cases`), and what each of them keeps holds of every
served replica (`Replica.Served.invariant`).  Such a replica is settled, and all names in it are
short (`Replica.Legible`), since no other name can arrive.
-/

namespace GossipLedger

open Wire

/-! ### Names -/

namespace Clock

variable {c d : Clock} {r : ReplicaId} {n : UInt64}

theorem named_zero : zero.Named :=
  nofun

theorem Named.set (h : c.Named) (hr : Short r) : (c.set r n).Named := by
  intro e he
  rcases NameMap.mem_place he with rfl | he
  · exact hr
  · exact h e he

theorem Named.advance (h : c.Named) (hr : Short r) : (c.advance r n).Named :=
  h.set hr

theorem Named.merged (hc : c.Named) (hd : d.Named) : (c.merged d).Named := by
  intro e he
  obtain ⟨f, hf, hname⟩ := NameMap.name_mem_merge he
  rw [← hname]
  exact (List.mem_append.1 hf).elim (hc f) (hd f)

end Clock

theorem Operation.Named.marked {op : Operation} (h : op.Named) : op.marked.Named :=
  ⟨h.origin, h.accounts, h.context, h.timestamp⟩

theorem Operation.Named.unmarked {op : Operation} (h : op.Named) : op.unmarked.Named :=
  ⟨h.origin, h.accounts, h.context, h.timestamp⟩

namespace Accounts

variable {a : Accounts} {kind : Kind}

/-- The names of the open accounts are short. -/
def Named (a : Accounts) : Prop :=
  ∀ e ∈ a.balances.entries, Short e.1

theorem named_seeded {money : UInt64} : (seeded money).Named := by
  intro e he
  obtain rfl := List.mem_singleton.1 he
  have hbroker : Short AccountId.broker := by decide
  exact hbroker

theorem mem_insert {account : AccountId} {balance : UInt64} {e : AccountId × UInt64}
    (h : e ∈ (a.balances.insert account balance).entries) :
    e.1 = account ∨ e ∈ a.balances.entries :=
  (NameMap.mem_place h).imp_left (congrArg Prod.fst)

/-- An operation brings no other names than it has. -/
theorem Named.execute (h : a.Named) (hkind : ∀ account ∈ kind.accounts, Short account) :
    (a.execute kind).2.Named := by
  have hcase := execute_cases a kind
  generalize (a.execute kind).1 = outcome, (a.execute kind).2 = b at hcase ⊢
  intro e he
  cases hcase with
  | opened _ =>
    rcases mem_insert he with hname | he
    · exact hname ▸ hkind _ (by simp [Kind.accounts])
    · exact h e he
  | closed _ _ => exact h e (List.mem_filter.1 he).1
  | @paid source target amount held owned _ _ _ _ _ =>
    have htarget : Short target := hkind _ (by simp [Kind.accounts])
    have hsource : Short source := hkind _ (by simp [Kind.accounts])
    rcases NameMap.mem_place he with rfl | he
    · exact htarget
    · rcases mem_insert he with hname | he
      · exact hname ▸ hsource
      · exact h e he
  | skipped _ => exact h e he

end Accounts

/-! ### Logs and ledgers -/

/-- The names in a log and in the ledger to which it leads are short. -/
structure Log.Legible (log : Log) (l : Ledger) : Prop where
  /-- Those in the operations. -/
  operations : ∀ op ∈ log.operations, op.Named
  /-- Those that the clock counts. -/
  clock : l.clock.Named
  /-- Those of the accounts. -/
  accounts : l.accounts.Named

namespace Log

variable {log : Log} {l : Ledger} {ops : List Operation}

theorem Legible.await (h : log.Legible l) (hops : ∀ op ∈ ops, op.Named) :
    (log.await ops).Legible l where
  operations op hop := by
    rw [operations_await] at hop
    exact (List.mem_append.1 hop).elim (h.operations op) (hops op)
  clock := h.clock
  accounts := h.accounts

/-- Applying an operation brings no other names. -/
theorem Legible.settled (h : log.Legible l) : (log.settled l).1.Legible (log.settled l).2 := by
  refine settle_induction (P := fun log (l : Ledger) => log.Legible l) ?_ h
  intro log l before op after hlog _ _ ih
  -- only the operation that is applied brings names into the clock and the accounts
  have hop : op.Named := ih.operations op (List.mem_append_right _ (by simp [hlog]))
  refine ⟨fun q hq => ?_, ih.clock.advance hop.origin, ih.accounts.execute hop.accounts⟩
  rcases List.mem_append.1 hq with hq | hq
  · rcases List.mem_append.1 hq with hq | hq
    · exact ih.operations q (List.mem_append_left _ hq)
    · rw [List.mem_singleton.1 hq]
      exact hop.marked
  · exact ih.operations q (List.mem_append_right _ (mem_pending_of_promote hlog hq))

end Log

namespace Replica

variable {r r' start : Replica} {kind : Kind} {context : Clock} {ops : List Operation}

/-- The names in a replica are short. -/
structure Legible (r : Replica) : Prop where
  /-- Its own name. -/
  id : Short r.id
  /-- Those that it has heard of. -/
  log : r.log.Legible r.toLedger

theorem legible_fresh {id : ReplicaId} {money : UInt64} {active : Bool} (hid : Short id) :
    (fresh id money active).Legible :=
  ⟨hid, nofun, Clock.named_zero, Accounts.named_seeded⟩

theorem Legible.afterWrite (h : r.Legible) (hkind : ∀ account ∈ kind.accounts, Short account)
    (hcontext : context.Named) : (r.afterWrite kind context).Legible := by
  have hstamp : r.nextStamp.Named := h.log.clock.set h.id
  have hdraft : (r.draft kind context).Named := ⟨h.id, hkind, hcontext, hstamp⟩
  have hbefore : r.log.Legible { r.toLedger with clock := r.nextStamp } :=
    ⟨h.log.operations, hstamp, h.log.accounts⟩
  have hafter := (hbefore.await (List.forall_mem_singleton.2 hdraft)).settled
  exact ⟨h.id, hafter.operations, hafter.clock, hafter.accounts⟩

theorem Legible.receive (hs : r.Settled) (h : r.Legible) (hops : ∀ op ∈ ops, op.Named) :
    (r.receive ops).2.Legible := by
  have habsorb : (r.log.absorb Ledger.clock Ledger.apply ops r.toLedger).2 =
      (r.log.await (r.log.news ops)).settled r.toLedger :=
    Log.absorb_eq_settle hs.waiting
  have hnews : ∀ op ∈ r.log.news ops, op.Named := by
    intro op hop
    obtain ⟨q, hq, rfl⟩ := Log.mem_of_mem_news hop
    exact (hops q hq).unmarked
  have hafter := (h.log.await hnews).settled
  rw [← habsorb] at hafter
  exact ⟨h.id, hafter.operations, hafter.clock, hafter.accounts⟩

theorem Legible.alike (h : r.Legible) (hr : r.Alike r') : r'.Legible := by
  obtain ⟨hid, hoperations, hclock, haccounts⟩ := h
  refine ⟨hr.id ▸ hid, hr.log ▸ hoperations, hr.clock ▸ hclock, hr.accounts ▸ haccounts⟩

/-! ### Requests in frames -/

/-- The replica is what requests that came in frames have made of another one. -/
inductive Served (start : Replica) : Replica → Prop where
  /-- No request has come. -/
  | start : Served start start
  /-- One more frame comes. -/
  | frame {r r' : Replica} {bytes : Bytes} {frame : Frame} {answer : Answer}
    (h : Served start r) (hparse : Frame.parse bytes = .ok frame)
    (hserve : r.serveFrame frame = .ok (answer, r')) : Served start r'

/-- A write that is answered has ended in one of the ways in which a write ends. -/
theorem exists_submitCase_of_serve {answer : Answer}
    (h : r.serve (.write kind context) = .ok (answer, r')) :
    ∃ result, answer = .ofWrite result ∧ SubmitCase r kind context result r' := by
  cases hsubmit : r.submit kind context with
  | error e =>
    rw [serve, hsubmit] at h
    cases h
  | ok done =>
    obtain ⟨result, after⟩ := done
    rw [serve, hsubmit] at h
    cases h
    exact ⟨result, rfl, submit_cases hsubmit⟩

/-- What a frame can bring about. -/
inductive FrameCase (r : Replica) : Replica → Prop where
  /-- A write is accepted. -/
  | written {kind : Kind} {context : Clock} (hwritable : (Request.write kind context).Writable)
    (hroom : r.clock.get r.id ≠ Clock.maxCount) (hnew : r.log.contains r.nextStamp = false) :
    FrameCase r (r.afterWrite kind context)
  /-- The log of another replica is taken in. -/
  | received {sender : ReplicaId} {ops : List Operation}
    (hwritable : (Request.pushLedgerSnapshot sender ops).Writable) : FrameCase r (r.receive ops).2
  /-- Neither log nor clock nor accounts change. -/
  | quiet {r' : Replica} (hr : r.Alike r') : FrameCase r r'

theorem serve_cases {request : Request} {answer : Answer} (hwritable : request.Writable)
    (hserve : r.serve request = .ok (answer, r')) : FrameCase r r' := by
  cases request with
  | write kind context =>
    obtain ⟨result, -, hcase⟩ := exists_submitCase_of_serve hserve
    cases hcase with
    | refused _ _ => exact .quiet (alike_refused r)
    | collided _ _ => exact .quiet (.refl r)
    | accepted _ _ hroom hnew => exact .written hwritable hroom hnew
  | activate =>
    cases hserve
    exact .quiet (alike_activate r)
  | deactivate =>
    cases hserve
    exact .quiet (alike_deactivate r)
  | pushLedgerSnapshot sender ops =>
    cases hserve
    exact .received hwritable
  | _ =>
    cases hserve
    exact .quiet (.refl r)

/-- A frame that is not too large holds a request that could be written, or none. -/
theorem serveFrame_cases {frame : Frame} {answer : Answer} (hsize : frame.body.length ≤ maxBodySize)
    (hserve : r.serveFrame frame = .ok (answer, r')) : FrameCase r r' := by
  cases hrequest : Request.ofFrame frame with
  | ok request =>
    rw [serveFrame, hrequest] at hserve
    exact serve_cases (Request.writable_of_ofFrame hsize hrequest) hserve
  | error e =>
    rw [serveFrame, hrequest] at hserve
    cases hserve
    exact .quiet (.refl r)

/-- **What each frame keeps holds of a replica that has served frames.** -/
theorem Served.invariant {I : Replica → Prop} (h : start.Served r) (h₀ : I start)
    (hstep : ∀ {r r'}, I r → FrameCase r r' → I r') : I r := by
  induction h with
  | start => exact h₀
  | frame _ hparse hserve ih =>
    exact hstep ih (serveFrame_cases (Frame.length_body_of_parse hparse) hserve)

theorem settled_of_frameCase (h : r.Settled) (hcase : FrameCase r r') : r'.Settled := by
  cases hcase with
  | written _ hroom _ => exact h.afterWrite hroom
  | received _ => exact h.receive
  | quiet hr => exact h.congr hr.log hr.clock

theorem legible_of_frameCase (hs : r.Settled) (h : r.Legible) (hcase : FrameCase r r') :
    r'.Legible := by
  cases hcase with
  | written hwritable _ _ => exact h.afterWrite hwritable.1 hwritable.2.2
  | received hwritable => exact h.receive hs hwritable.named.2
  | quiet hr => exact h.alike hr

/-- **All names in a replica that has served requests are short**, if its own is. -/
theorem Served.legible {id : ReplicaId} {money : UInt64} {active : Bool}
    (h : (fresh id money active).Served r) (hid : Short id) : r.Settled ∧ r.Legible := by
  refine h.invariant (I := fun r => r.Settled ∧ r.Legible) ⟨settled_fresh, legible_fresh hid⟩ ?_
  rintro r r' ⟨hs, hr⟩ hcase
  exact ⟨settled_of_frameCase hs hcase, legible_of_frameCase hs hr hcase⟩

end Replica

end GossipLedger
