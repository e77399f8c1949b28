import GossipLedger.Proofs.Service.Exchange

/-!
# The order of a client's writes

A client that goes from replica to replica leaves a trace: its context is the join of all clocks
that it has been told (`Client.InOrder.joined`), by a replica that has taken its write or has told
it a balance (`Client.InOrder.told`).  So it only grows, and the operations that the replicas make
of its writes show in which order it has written (`Client.InOrder.ordered`).  A later operation has
in its context both the context and the timestamp of an earlier one.

Each call finds the network in a state of its own.  So nothing is assumed of what happens between
two calls: other clients may write, nodes may gossip, stop or be replaced.  The reply to a call may
be lost, also where the request has been carried out.
-/

namespace GossipLedger

open Wire

namespace Client

/-- A call of a client: a request, the network at that time and the address to which it goes. -/
structure Call where
  /-- The request. -/
  request : Request
  /-- The network. -/
  network : Network
  /-- The address. -/
  address : String
  /-- Why no reply gets back, if none does. -/
  loss : Option LedgerError := none

/-- What a call comes to, and the client after it. -/
def perform (client : Client) (call : Call) : Result Response × Client :=
  match call.loss with
  | some e => client.conclude call.request (.error e)
  | none =>
    let done := call.network.call call.address client call.request
    (done.1, done.2.1)

/-- The client after some calls. -/
def after (client : Client) (calls : List Call) : Client :=
  calls.foldl (fun client call => (client.perform call).2) client

/-- The clock in the reply to a call, if the client accepts a clock or a balance. -/
def heard? (client : Client) (call : Call) : Option Clock :=
  match (client.perform call).1 with
  | .ok (.clock clock) => some clock
  | .ok (.balance _ clock) => some clock
  | _ => none

/-- The clocks in the replies that a client accepts in the course of some calls. -/
def heard (client : Client) : List Call → List Clock
  | [] => []
  | call :: calls => (client.heard? call).toList ++ heard (client.perform call).2 calls

variable {client : Client} {call : Call} {calls more : List Call} {request : Request}
  {reply : Result Frame} {response : Response} {r : ReplicaId}

/-! ### One call -/

/-- What a call can come to. -/
inductive PerformCase (client : Client) : Result Response × Client → Prop where
  /-- A reply is accepted, and the client learns from it. -/
  | accepted (response : Response) : PerformCase client (.ok response, client.learn response)
  /-- The call fails, and the client stays as it is. -/
  | failed (e : LedgerError) : PerformCase client (.error e, client)

theorem conclude_cases : PerformCase client (client.conclude request reply) := by
  rw [conclude]
  cases settle request reply with
  | ok response => exact .accepted response
  | error e => exact .failed e

theorem perform_cases (client : Client) (call : Call) :
    PerformCase client (client.perform call) := by
  rw [perform]
  cases call.loss with
  | some e => exact conclude_cases
  | none =>
    obtain ⟨reply, hreply⟩ := Network.exists_reply_of_call
    dsimp only
    rw [hreply]
    exact conclude_cases

theorem perform_eq_of_ok (h : (client.perform call).1 = .ok response) :
    (client.perform call).2 = client.learn response := by
  have hcases := client.perform_cases call
  generalize client.perform call = done at h hcases
  cases hcases with
  | accepted _ =>
    cases h
    rfl
  | failed _ => cases h

theorem perform_eq_of_error {e : LedgerError} (h : (client.perform call).1 = .error e) :
    (client.perform call).2 = client := by
  have hcases := client.perform_cases call
  generalize client.perform call = done at h hcases
  cases hcases with
  | accepted _ => cases h
  | failed _ => rfl

/-- A call that succeeds has had a reply. -/
theorem call_of_perform (h : (client.perform call).1 = .ok response) :
    (call.network.call call.address client call.request).1 = .ok response := by
  rw [perform] at h
  cases hloss : call.loss with
  | some e =>
    rw [hloss] at h
    cases settle_of_conclude h
  | none =>
    rw [hloss] at h
    exact h

/-- A call adds what the client has heard to its context. -/
theorem context_perform : (client.perform call).2.context =
    (client.heard? call).toList.foldl Clock.merged client.context := by
  rw [heard?]
  cases h : (client.perform call).1 with
  | error e =>
    rw [perform_eq_of_error h]
    rfl
  | ok response =>
    rw [perform_eq_of_ok h]
    cases response <;> rfl

theorem heard?_eq_some {clock : Clock} : client.heard? call = some clock ↔
    (client.perform call).1 = .ok (.clock clock) ∨
      ∃ held, (client.perform call).1 = .ok (.balance held clock) := by
  rw [heard?]
  split
  · simp_all
  · simp_all
  · simp_all

/-! ### Several calls -/

theorem after_append : client.after (calls ++ more) = (client.after calls).after more :=
  List.foldl_append

theorem after_concat :
    client.after (calls ++ [call]) = ((client.after calls).perform call).2 :=
  List.foldl_concat ..

/-- Calls add what the client has heard to its context. -/
theorem context_after :
    (client.after calls).context = (client.heard calls).foldl Clock.merged client.context := by
  induction calls generalizing client with
  | nil => rfl
  | cons call calls ih =>
    rw [heard, List.foldl_append, ← context_perform]
    exact ih

/-- What a client has heard, it has heard in one of the calls. -/
theorem mem_heard {clock : Clock} : clock ∈ client.heard calls ↔
    ∃ earlier call later, calls = earlier ++ call :: later ∧
      (client.after earlier).heard? call = some clock := by
  induction calls generalizing client with
  | nil => simp [heard]
  | cons first calls ih =>
    rw [heard, List.mem_append, Option.mem_toList, ih]
    constructor
    · rintro (h | ⟨earlier, call, later, rfl, h⟩)
      · exact ⟨[], first, calls, rfl, h⟩
      · exact ⟨first :: earlier, call, later, rfl, h⟩
    · rintro ⟨earlier, call, later, heq, h⟩
      cases earlier with
      | nil =>
        cases heq
        exact .inl h
      | cons _ earlier =>
        cases heq
        exact .inr ⟨earlier, call, later, rfl, h⟩

/-- A context only grows. -/
theorem dominates_after (client : Client) (calls : List Call) :
    (client.after calls).context.dominates client.context = true := by
  rw [context_after]
  exact (Clock.dominates_foldl_merged_iff.1 Clock.dominates_refl).1

/-! ### Acknowledged writes -/

/-- The write in a call has been acknowledged by a replica, which has made an operation of it. -/
inductive Acknowledged (client : Client) (call : Call) (op : Operation) : Prop where
  /-- The call gets to a node, whose log gains the operation, and the client learns that. -/
  | node {kind : Kind} {given : Clock} {i : Nat} {node : Node} {listening : Bool} {answer : Answer}
    {replica : Replica} {response : Response} (hrequest : call.request = .write kind given)
    (hconnect : call.network.connect call.address = .ok (i, .node node listening))
    (hserve : node.replica.serve (client.ask call.request) = .ok (answer, replica))
    (htaken : replica.log.contents.Perm (op :: node.replica.log.contents))
    (hended : (client.perform call).1 = .ok response)

end Client

namespace Replica

variable {r r' : Replica} {kind : Kind} {context observed : Clock} {answer : Answer}
  {report : GossipReport}

/-- A write whose response is a clock is accepted, and the clock is the context joined with that of
the replica. -/
theorem accepted_of_serve (h : r.serve (.write kind context) = .ok (answer, r'))
    (hanswer : answer.response report = .clock observed) :
    r' = r.afterWrite kind context ∧ observed = context.merged r'.clock ∧
      r'.clock.dominates r.nextStamp = true := by
  obtain ⟨result, rfl, hcase⟩ := exists_submitCase_of_serve h
  cases hcase with
  | refused _ _ => cases hanswer
  | collided _ _ => cases hanswer
  | accepted _ _ _ _ =>
    cases hanswer
    exact ⟨rfl, rfl, Clock.dominates_iff_count.2 fun _ => count_nextStamp_le_afterWrite⟩

end Replica

namespace Client

variable {client : Client} {call : Call} {calls : List Call} {op : Operation} {response : Response}
  {kind : Kind} {given : Clock} {i : Nat} {node : Node} {listening : Bool}

/-- What a write that is acknowledged makes of the replica, and what the client knows of it. -/
theorem exists_serve_of_perform (hrequest : call.request = .write kind given)
    (hconnect : call.network.connect call.address = .ok (i, .node node listening))
    (hended : (client.perform call).1 = .ok response) :
    (∃ answer, node.replica.serve (client.ask call.request) =
      .ok (answer, node.replica.afterWrite kind client.context)) ∧
      (client.perform call).2.context.dominates node.replica.nextStamp = true := by
  have hask : client.ask call.request = .write kind client.context := by rw [hrequest]; rfl
  obtain ⟨answer, replica, report, hserve, hanswer, hsettled⟩ :=
    Network.exists_serve_of_call hconnect (call_of_perform hended)
  rw [hask] at hserve ⊢
  rw [hrequest] at hsettled
  cases response with
  | clock observed =>
    obtain ⟨rfl, rfl, hcovers⟩ := Replica.accepted_of_serve hserve hanswer
    refine ⟨⟨answer, hserve⟩, ?_⟩
    rw [perform_eq_of_ok hended]
    -- the client joins its context with the answer, which is itself a join with the clock
    exact Clock.dominates_trans Clock.merged_dominates_right
      (Clock.dominates_trans Clock.merged_dominates_right hcovers)
  | _ => cases hsettled

/-- The operation that a replica makes of an acknowledged write carries the context of the client,
and the client knows its timestamp afterwards. -/
theorem Acknowledged.recorded (h : client.Acknowledged call op) :
    op.context = client.context ∧
      (client.perform call).2.context.dominates op.timestamp = true := by
  obtain ⟨hrequest, hconnect, hserve, htaken, hended⟩ := h
  obtain ⟨⟨answer, hwritten⟩, hcovers⟩ := exists_serve_of_perform hrequest hconnect hended
  rw [hwritten] at hserve
  cases hserve
  have hdraft := htaken.symm.trans (Replica.contents_afterWrite _ _ _)
  obtain rfl := List.singleton_perm_singleton.1 ((List.perm_append_right_iff _).1 hdraft)
  exact ⟨rfl, hcovers⟩

/-! ### Order -/

/-- What a sequence of calls of a client leaves behind. -/
structure InOrder (calls : List Call) : Prop where
  /-- The context is the join of the clocks that the client has heard. -/
  joined : (after {} calls).context = .joined (heard {} calls)
  /-- These are the clocks in the replies to its writes and to its questions for balances, as far as
  it has accepted the replies. -/
  told : ∀ clock, clock ∈ heard {} calls ↔ ∃ earlier call later, calls = earlier ++ call :: later ∧
    (((after {} earlier).perform call).1 = .ok (.clock clock) ∨
      ∃ held, ((after {} earlier).perform call).1 = .ok (.balance held clock))
  /-- It is the least clock that covers them. -/
  least : ∀ clock : Clock, clock.dominates (after {} calls).context = true ↔
    ∀ told ∈ heard {} calls, clock.dominates told = true
  /-- No count in it is lost. -/
  grows : ∀ earlier later, calls = earlier ++ later →
    ∀ r, (after {} earlier).context.count r ≤ (after {} calls).context.count r
  /-- It is the same after a call that fails. -/
  failed : ∀ earlier call later e, calls = earlier ++ call :: later →
    ((after {} earlier).perform call).1 = .error e → after {} (earlier ++ [call]) = after {} earlier
  /-- Each write that a node has acknowledged is an operation there. -/
  recorded : ∀ earlier call later, calls = earlier ++ call :: later →
    ∀ kind given i node listening response, call.request = .write kind given →
      call.network.connect call.address = .ok (i, .node node listening) →
      ((after {} earlier).perform call).1 = .ok response →
        ∃ op, (after {} earlier).Acknowledged call op ∧ op.kind = kind ∧
          op.origin = node.replica.id ∧ op.context = (after {} earlier).context
  /-- An operation has in its context what the client knew of those before it, and these. -/
  ordered : ∀ earlier first between second later,
    calls = earlier ++ first :: (between ++ second :: later) → ∀ op op',
      (after {} earlier).Acknowledged first op →
      (after {} (earlier ++ first :: between)).Acknowledged second op' →
        op'.context.dominates op.context = true ∧ op'.context.dominates op.timestamp = true

/-- **The order in which a client has written is recorded in the contexts**, whatever replicas it
has turned to and whatever has failed. -/
theorem calls_in_order (calls : List Call) : InOrder calls where
  joined := context_after
  told clock := by simp only [mem_heard, heard?_eq_some]
  least clock := by rw [context_after]; exact Clock.dominates_joined_iff
  grows := by
    rintro earlier later rfl
    rw [after_append]
    exact Clock.dominates_iff_count.1 (dominates_after _ later)
  failed := by
    intro earlier call later e _ hfailed
    rw [after_concat, perform_eq_of_error hfailed]
  recorded := by
    intro earlier call later _ kind given i node listening response hrequest hconnect hended
    obtain ⟨⟨answer, hserve⟩, -⟩ := exists_serve_of_perform hrequest hconnect hended
    exact ⟨_, .node hrequest hconnect hserve (Replica.contents_afterWrite _ _ _) hended, rfl, rfl,
      rfl⟩
  ordered := by
    intro earlier first between second later _ op op' hfirst hsecond
    obtain ⟨hcontext, hstamp⟩ := hfirst.recorded
    obtain ⟨hcontext', -⟩ := hsecond.recorded
    have hgrown := ((after {} earlier).perform first).2.dominates_after between
    rw [hcontext', hcontext, after_append]
    exact ⟨dominates_after _ _, Clock.dominates_trans hgrown hstamp⟩

/-- A write at a node. -/
def openingCall (account : AccountId) (i : Nat) (network : Network) : Call where
  request := .write (.create account) .zero
  network
  address := Network.address i

/-- The network after a client has written at a node. -/
def opened (account : AccountId) (i : Nat) (network : Network) : Network :=
  (network.call (Network.address i) {} (.write (.create account) .zero)).2.2.1

/-- The network after a write at the first of two nodes. -/
def openedOnce : Network :=
  opened "x" 0 Connection.twoNodes

/-- The network after another client's write there. -/
def openedTwice : Network :=
  opened "w" 0 openedOnce

/-- A client writes at one node, gets no reply at the other one and asks the first one for a
balance, where another client has written in the meantime. -/
def travel : List Call :=
  [openingCall "x" 0 Connection.twoNodes,
    { openingCall "y" 1 openedOnce with loss := some .timeout },
    { request := .balance "broker" .zero
      network := openedTwice
      address := Network.address 0 }]

/-- The client's second write, at the other node. -/
def returningCall : Call :=
  openingCall "y" 1 openedTwice

theorem connect_returningCall : ∃ node listening,
    returningCall.network.connect returningCall.address = .ok (1, .node node listening) ∧
      node.replica.id = "B" := by
  have hview : (returningCall.network.connect returningCall.address).toOption.map (fun found =>
      match found with
      | (i, .node node _) => some (i, node.replica.id)
      | (_, .scripted ..) => none) = some (some (1, "B")) := by decide +kernel
  generalize returningCall.network.connect returningCall.address = outcome at hview ⊢
  match outcome with
  | .error e => cases hview
  | .ok (i, .scripted reply silent) => cases hview
  | .ok (i, .node node listening) =>
    simp only [Except.toOption, Option.map_some, Option.some.injEq, Prod.mk.injEq] at hview
    obtain ⟨rfl, hid⟩ := hview
    exact ⟨node, listening, rfl, hid⟩

/-- That write has in its context the first one and also that of the other client, of which only the
balance has told. -/
theorem travelling_in_order : ∃ op op',
    (after {} []).Acknowledged (openingCall "x" 0 Connection.twoNodes) op ∧
    (after {} travel).Acknowledged returningCall op' ∧
    op'.origin = "B" ∧ op'.context.dominates op.timestamp = true ∧
    heard {} travel = [.ofEntries [("A", 1)], .ofEntries [("A", 2)]] ∧ op'.context.get "A" = 2 ∧
    InOrder (travel ++ [returningCall]) := by
  have hinOrder := calls_in_order (travel ++ [returningCall])
  have hended : ((after {} []).perform (openingCall "x" 0 Connection.twoNodes)).1 =
      .ok (.clock (.ofEntries [("A", 1)])) := by decide +kernel
  have hheard : heard {} travel = [.ofEntries [("A", 1)], .ofEntries [("A", 2)]] := by
    decide +kernel
  have hended' : ((after {} travel).perform returningCall).1 =
      .ok (.clock (.ofEntries [("A", 2), ("B", 1)])) := by decide +kernel
  obtain ⟨node, listening, hconnect, hid⟩ := connect_returningCall
  obtain ⟨op, hfirst, -⟩ :=
    hinOrder.recorded [] _ _ rfl (.create "x") .zero 0 _ _ _ rfl rfl hended
  obtain ⟨op', hsecond, -, horigin, hcontext⟩ :=
    hinOrder.recorded travel _ [] rfl (.create "y") .zero 1 _ _ _ rfl hconnect hended'
  obtain ⟨-, hstamp⟩ := hinOrder.ordered [] _ travel.tail _ [] rfl op op' hfirst hsecond
  refine ⟨op, op', hfirst, hsecond, horigin.trans hid, hstamp, hheard, ?_, hinOrder⟩
  rw [hcontext]
  decide +kernel

end Client

end GossipLedger
