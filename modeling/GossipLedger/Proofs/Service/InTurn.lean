import GossipLedger.Proofs.Replica.Atomicity
import GossipLedger.Proofs.Service.Answered
import GossipLedger.Proofs.Service.Network

/-!
# Requests in turn

A connection is served as if its requests came one at a time.  The frames on it are those up to
the first place where none can be read.  They are carried out in their order, each on what those
before it have left, and the replies are sent in that order, one for each frame, up to the first
frame without a reply (`Connection.InTurn`).  That is the last one to be carried out.  A frame has
no reply if its response cannot be sent, or if a count would have to grow beyond its largest value
(`Replica.Unanswerable`).

What the server is besides its replica does not matter, as long as nothing else reaches the replica
in between (`Connection.Hosts`).  So the main result, `Connection.served_in_turn`, is about
a replica on its own, whatever its gossip rounds report, and about each node of a network whose
rounds do not lead back to it.
-/

namespace GossipLedger

open Wire

/-- The bytes are those of an error response. -/
def IsRefusal (sent : Bytes) : Prop :=
  ∃ frame, Frame.parse sent = .ok frame ∧ frame.kind = .errorReply

/-! ### One frame at a replica -/

namespace Replica

variable {r r' : Replica} {frame : Frame} {answer : Answer} {round : Replica → GossipReport}
  {report : GossipReport} {request : Request} {sent : Bytes}

/-- What a request makes of a replica, if anything. -/
def dispatch (r : Replica) (request : Request) : Replica :=
  match r.serve request with
  | .ok (_, r') => r'
  | .error _ => r

/-- What the requests in some frames make of a replica, one after the other. -/
def dispatchAll (r : Replica) (frames : List Frame) : Replica :=
  (frames.filterMap fun frame => (Request.ofFrame frame).toOption).foldl dispatch r

theorem dispatchAll_cons {frames : List Frame} :
    r.dispatchAll (frame :: frames) = (r.dispatchAll [frame]).dispatchAll frames := by
  rw [dispatchAll, ← List.singleton_append, List.filterMap_append, List.foldl_append]
  rfl

/-- A frame is answered by carrying out the request in it. -/
theorem respond_snd : (r.respond round frame).2 = r.dispatchAll [frame] := by
  rw [respond, serveFrame, dispatchAll, List.filterMap_cons, List.filterMap_nil]
  cases Request.ofFrame frame with
  | error e => rfl
  | ok request =>
    simp only [Except.toOption, List.foldl_cons, List.foldl_nil, dispatch]
    cases r.serve request <;> rfl

/-- There is no reply to the frame: a count would have to grow beyond its largest value, or the
response cannot be sent. -/
inductive Unanswerable (r : Replica) (frame : Frame) : Prop where
  /-- The request fails as a whole. -/
  | overflow {e : CounterOverflow} (h : r.serveFrame frame = .error e)
  /-- The response cannot be written, or is too large. -/
  | unsent {answer : Answer} {r' : Replica} {report : GossipReport} {e : LedgerError}
    (h : r.serveFrame frame = .ok (answer, r')) (hbytes : (answer.response report).bytes = .error e)

theorem unanswerable_of_respond (h : (r.respond round frame).1 = none) :
    r.Unanswerable frame := by
  rw [respond] at h
  cases hserve : r.serveFrame frame with
  | error e => exact .overflow hserve
  | ok result =>
    obtain ⟨answer, r'⟩ := result
    rw [hserve] at h
    cases hbytes : (answer.response (round r')).bytes with
    | error e => exact .unsent hserve hbytes
    | ok sent =>
      dsimp only at h
      rw [hbytes] at h
      cases h

/-- A request whose response is an error changes at most the count of refusals. -/
theorem untouched_of_serve (h : r.serve request = .ok (answer, r'))
    (hkind : (answer.response report).kind = .errorReply) : r.Untouched r' := by
  cases request with
  | write kind context =>
    obtain ⟨result, rfl, hcase⟩ := exists_submitCase_of_serve h
    cases hcase with
    | refused _ _ => exact r.untouched_refused
    | collided _ _ => exact .refl r
    | accepted _ _ _ _ => cases hkind
  | balance account context =>
    cases h
    exact .refl r
  | _ =>
    cases h
    cases hkind

theorem untouched_of_serveFrame (h : r.serveFrame frame = .ok (answer, r'))
    (hkind : (answer.response report).kind = .errorReply) : r.Untouched r' := by
  rw [serveFrame] at h
  cases hrequest : Request.ofFrame frame with
  | error e =>
    rw [hrequest] at h
    cases h
    exact .refl r
  | ok request =>
    rw [hrequest] at h
    exact untouched_of_serve h hkind

/-- A reply is the response to the frame. -/
theorem exists_serveFrame_of_respond (h : (r.respond round frame).1 = some sent) :
    ∃ answer report, r.serveFrame frame = .ok (answer, (r.respond round frame).2) ∧
      (answer.response report).bytes = .ok sent := by
  rw [respond] at h ⊢
  cases hserve : r.serveFrame frame with
  | error e =>
    rw [hserve] at h
    cases h
  | ok result =>
    obtain ⟨answer, r'⟩ := result
    rw [hserve] at h
    refine ⟨answer, round r', rfl, ?_⟩
    cases hbytes : (answer.response (round r')).bytes with
    | error e =>
      dsimp only at h
      rw [hbytes] at h
      cases h
    | ok bytes =>
      dsimp only at h
      rw [hbytes] at h
      exact congrArg Except.ok (Option.some.inj h)

/-- **A frame that is answered with an error leaves the replica as it was**, but for the count of
refusals. -/
theorem untouched_of_respond (h : (r.respond round frame).1 = some sent) (hsent : IsRefusal sent) :
    r.Untouched (r.respond round frame).2 := by
  obtain ⟨f, hparse, hkind⟩ := hsent
  obtain ⟨answer, report, hserve, hbytes⟩ := exists_serveFrame_of_respond h
  rw [Response.parse_of_bytes hbytes] at hparse
  cases hparse
  exact untouched_of_serveFrame hserve hkind

end Replica

/-! ### The frames of a connection -/

namespace Connection

variable {σ : Type} {reply : Frame → σ → Option Bytes × σ} {replica : σ → Replica}
  {P : σ → Prop} {s : σ} {frame : Frame} {frames : List Frame} {sent bytes rest : Bytes}
  {ending : Stream.Ending} {k : Nat}

/-- What has become of a server that has carried out some frames. -/
def after (reply : Frame → σ → Option Bytes × σ) (frames : List Frame) (s : σ) : σ :=
  frames.foldl (fun s frame => (reply frame s).2) s

theorem after_take_succ (h : frames[k]? = some frame) :
    after reply (frames.take (k + 1)) s = (reply frame (after reply (frames.take k) s)).2 := by
  rw [after, List.take_add_one, h, List.foldl_append]
  rfl

/-- Serves frames as long as there are replies. -/
def serveFrames (reply : Frame → σ → Option Bytes × σ) : List Frame → σ → List Bytes × σ
  | [], s => ([], s)
  | frame :: frames, s =>
    match reply frame s with
    | (some sent, s) =>
      let (others, s) := serveFrames reply frames s
      (sent :: others, s)
    | (none, s) => ([], s)

theorem serveFrames_of_some {s' : σ} (h : reply frame s = (some sent, s')) :
    serveFrames reply (frame :: frames) s =
      (sent :: (serveFrames reply frames s').1, (serveFrames reply frames s').2) := by
  rw [serveFrames, h]

theorem serveFrames_of_none {s' : σ} (h : reply frame s = (none, s')) :
    serveFrames reply (frame :: frames) s = ([], s') := by
  rw [serveFrames, h]

/-- The frames that a connection delivers are served, if the bound is above their number. -/
theorem serveUpTo_eq {bound : Nat} (h : Stream.Delivers bytes frames rest)
    (hend : Stream.Ends rest ending) (hbound : frames.length < bound) :
    serveUpTo reply bound bytes s = serveFrames reply frames s := by
  induction h generalizing bound s with
  | nothing =>
    obtain ⟨bound, rfl⟩ := Nat.exists_eq_succ_of_ne_zero (Nat.ne_of_gt hbound)
    cases hend with
    | finished hread => rw [serveUpTo, hread, serveFrames]
    | failed hread => rw [serveUpTo, hread, serveFrames]
  | @frame stream next rest frame frames hread _ ih =>
    obtain ⟨bound, rfl⟩ := Nat.exists_eq_succ_of_ne_zero (Nat.ne_zero_of_lt hbound)
    rw [serveUpTo, hread, serveFrames]
    dsimp only
    obtain ⟨out, s'⟩ := reply frame s
    cases out with
    | none => rfl
    | some sent =>
      dsimp only
      rw [ih hend (Nat.lt_of_succ_lt_succ hbound)]

/-- **Serving a connection is serving its frames.** -/
theorem serve_eq : serve reply bytes s = serveFrames reply (Stream.readAll bytes).1 s := by
  obtain ⟨rest, hframes, hend⟩ := Stream.exists_ends_readAll bytes
  exact serveUpTo_eq hframes hend hframes.length_lt

/-! ### Replies in their order -/

/-- Each reply is that to the frame at its place. -/
theorem reply_of_served (h : (serveFrames reply frames s).1[k]? = some sent) :
    ∃ frame, frames[k]? = some frame ∧
      (reply frame (after reply (frames.take k) s)).1 = some sent := by
  induction frames generalizing s k with
  | nil => cases h
  | cons frame frames ih =>
    cases hreply : reply frame s with
    | mk out s' =>
      cases out with
      | none =>
        rw [serveFrames_of_none hreply] at h
        cases h
      | some first =>
        rw [serveFrames_of_some hreply] at h
        cases k with
        | zero =>
          cases h
          exact ⟨frame, rfl, congrArg Prod.fst hreply⟩
        | succ k =>
          obtain ⟨next, hnext, hsent⟩ := ih h
          refine ⟨next, hnext, ?_⟩
          rw [List.take_succ_cons, after, List.foldl_cons, hreply]
          exact hsent

/-- There is no reply to the frame behind those that were answered. -/
theorem no_reply_of_served (h : frames[(serveFrames reply frames s).1.length]? = some frame) :
    (reply frame (after reply (frames.take (serveFrames reply frames s).1.length) s)).1 = none := by
  induction frames generalizing s with
  | nil => cases h
  | cons first frames ih =>
    cases hreply : reply first s with
    | mk out s' =>
      cases out with
      | none =>
        rw [serveFrames_of_none hreply] at h ⊢
        cases h
        exact congrArg Prod.fst hreply
      | some sent =>
        rw [serveFrames_of_some hreply] at h ⊢
        rw [List.length_cons, List.take_succ_cons, after, List.foldl_cons, hreply]
        exact ih h

/-- Nothing is carried out behind that frame. -/
theorem serveFrames_snd : (serveFrames reply frames s).2 =
    after reply (frames.take ((serveFrames reply frames s).1.length + 1)) s := by
  induction frames generalizing s with
  | nil => rfl
  | cons frame frames ih =>
    cases hreply : reply frame s with
    | mk out s' =>
      cases out with
      | none =>
        rw [serveFrames_of_none hreply]
        exact (congrArg Prod.snd hreply).symm
      | some sent =>
        rw [serveFrames_of_some hreply, List.length_cons, List.take_succ_cons, after,
          List.foldl_cons, hreply]
        exact ih

/-! ### Servers with a replica -/

/-- As long as `P` holds, the server answers each frame as its replica does, with some report of
each gossip round, and does nothing else to the replica. -/
def Hosts (reply : Frame → σ → Option Bytes × σ) (replica : σ → Replica) (P : σ → Prop) : Prop :=
  ∀ frame s, P s → P (reply frame s).2 ∧ ∃ report,
    (replica s).respond (fun _ => report) frame = ((reply frame s).1, replica (reply frame s).2)

theorem Hosts.dispatched (h : Hosts reply replica P) (hs : P s) (frames : List Frame) :
    P (after reply frames s) ∧
      replica (after reply frames s) = (replica s).dispatchAll frames := by
  induction frames generalizing s with
  | nil => exact ⟨hs, rfl⟩
  | cons frame frames ih =>
    obtain ⟨hnext, report, hrespond⟩ := h frame s hs
    obtain ⟨hlast, hdispatch⟩ := ih hnext
    have hone : replica (reply frame s).2 = (replica s).dispatchAll [frame] :=
      (congrArg Prod.snd hrespond).symm.trans Replica.respond_snd
    rw [hone, ← Replica.dispatchAll_cons] at hdispatch
    exact ⟨hlast, hdispatch⟩

/-- A frame at the server, in its turn, is a frame at the replica. -/
theorem Hosts.exists_respond (h : Hosts reply replica P) (hs : P s)
    (hframe : frames[k]? = some frame) :
    ∃ report, ((replica s).dispatchAll (frames.take k)).respond (fun _ => report) frame =
      ((reply frame (after reply (frames.take k) s)).1,
        (replica s).dispatchAll (frames.take (k + 1))) := by
  obtain ⟨hbefore, hdispatched⟩ := h.dispatched hs (frames.take k)
  obtain ⟨-, report, hrespond⟩ := h frame _ hbefore
  refine ⟨report, ?_⟩
  rw [← hdispatched, ← (h.dispatched hs (frames.take (k + 1))).2, after_take_succ hframe]
  exact hrespond

theorem Hosts.exists_respond_of_served (h : Hosts reply replica P) (hs : P s)
    (hsent : (serveFrames reply frames s).1[k]? = some sent) :
    ∃ frame, frames[k]? = some frame ∧
      (reply frame (after reply (frames.take k) s)).1 = some sent ∧
        ∃ report, ((replica s).dispatchAll (frames.take k)).respond (fun _ => report) frame =
          (some sent, (replica s).dispatchAll (frames.take (k + 1))) := by
  obtain ⟨frame, hframe, hreply⟩ := reply_of_served hsent
  obtain ⟨report, hrespond⟩ := h.exists_respond hs hframe
  rw [hreply] at hrespond
  exact ⟨frame, hframe, hreply, report, hrespond⟩

/-- What serving some frames, one after the other, comes to: the replies that are sent, and what the
server has become. -/
structure InTurn (reply : Frame → σ → Option Bytes × σ) (replica : σ → Replica)
    (frames : List Frame) (s : σ) (outcome : List Bytes × σ) : Prop where
  /-- Each reply is that to the frame at its place, from the server and from the replica that the
  frames before it have left. -/
  answered : ∀ k sent, outcome.1[k]? = some sent → ∃ frame, frames[k]? = some frame ∧
    (reply frame (after reply (frames.take k) s)).1 = some sent ∧
      ∃ report, ((replica s).dispatchAll (frames.take k)).respond (fun _ => report) frame =
        (some sent, (replica s).dispatchAll (frames.take (k + 1)))
  /-- The next frame, if there is one, has no reply. -/
  unanswered : ∀ frame, frames[outcome.1.length]? = some frame →
    (reply frame (after reply (frames.take outcome.1.length) s)).1 = none ∧
      ((replica s).dispatchAll (frames.take outcome.1.length)).Unanswerable frame
  /-- It is the last one that is carried out. -/
  final : outcome.2 = after reply (frames.take (outcome.1.length + 1)) s ∧
    replica outcome.2 = (replica s).dispatchAll (frames.take (outcome.1.length + 1))
  /-- Where the reply is an error, nothing but the count of refusals has changed. -/
  refused : ∀ k sent, outcome.1[k]? = some sent → IsRefusal sent →
    ((replica s).dispatchAll (frames.take k)).Untouched
      ((replica s).dispatchAll (frames.take (k + 1)))

/-- **A server with a replica serves frames in turn.** -/
theorem Hosts.inTurn (h : Hosts reply replica P) (hs : P s) :
    InTurn reply replica (Stream.readAll bytes).1 s (serve reply bytes s) := by
  rw [serve_eq]
  constructor
  case answered => exact fun k sent => h.exists_respond_of_served hs
  case unanswered =>
    intro frame hframe
    have hnone := no_reply_of_served hframe
    obtain ⟨report, hrespond⟩ := h.exists_respond hs hframe
    rw [hnone] at hrespond
    exact ⟨hnone, Replica.unanswerable_of_respond (congrArg Prod.fst hrespond)⟩
  case final => exact ⟨serveFrames_snd, serveFrames_snd ▸ (h.dispatched hs _).2⟩
  case refused =>
    intro k sent hsent hrefusal
    obtain ⟨frame, -, -, report, hrespond⟩ := h.exists_respond_of_served hs hsent
    have huntouched := Replica.untouched_of_respond (congrArg Prod.fst hrespond) hrefusal
    rw [hrespond] at huntouched
    exact huntouched

/-! ### Replicas and nodes -/

/-- A replica is a server with a replica. -/
theorem hosts_replica {round : Replica → GossipReport} :
    Hosts (Replica.respond round) id fun _ => True := by
  intro frame r _
  refine ⟨trivial, round (r.respond round frame).2, ?_⟩
  show r.respond _ frame = r.respond round frame
  unfold Replica.respond
  cases r.serveFrame frame <;> rfl

/-- The replica of a node. -/
def replicaAt (i : Nat) (s : Network.Logged) : Replica :=
  match s.1.node? i with
  | some node => node.replica
  | none => default

theorem replicaAt_eq {i : Nat} {s : Network.Logged} {node : Node} (h : s.1.node? i = some node) :
    replicaAt i s = node.replica := by
  rw [replicaAt, h]

/-- A node whose rounds do not lead back to it is a server with a replica. -/
theorem hosts_node {i : Nat} : Hosts (Network.respond i) (replicaAt i) fun s => s.1.Alone i := by
  intro frame s halone
  obtain ⟨node, hnode, -⟩ := id halone
  cases hserve : node.replica.serveFrame frame with
  | error e =>
    rw [Network.respond_of_error hnode hserve]
    refine ⟨halone, {}, ?_⟩
    rw [Replica.respond, replicaAt_eq hnode, hserve]
  | ok result =>
    obtain ⟨answer, r'⟩ := result
    rw [Network.respond_of_ok hnode hserve]
    have hput : (s.1.setReplica i r').Alone i := halone.setReplica
    have hspares : Network.Spares i (s.1.setReplica i r') (Network.conclude i
        node.config.gossipOnWrite answer (s.1.setReplica i r', s.2)).2.1 := hput.spares_conclude
    obtain ⟨report, hreply⟩ := Network.exists_report_of_conclude
    refine ⟨hput.of_spares hspares, report, ?_⟩
    rw [Replica.respond, replicaAt_eq hnode, hserve, hreply,
      replicaAt_eq (hspares.node.trans (Network.node?_setReplica_self hnode))]

/-- **A connection is served as if its requests came one at a time**, whatever is sent: by a replica
on its own, and by a node of a network. -/
theorem served_in_turn (bytes : Bytes) :
    (∀ round r, InTurn (Replica.respond round) id (Stream.readAll bytes).1 r
      (r.connection round bytes)) ∧
    ∀ network i rounds, network.Alone i →
      InTurn (Network.respond i) (replicaAt i) (Stream.readAll bytes).1 (network, rounds)
        (serve (Network.respond i) bytes (network, rounds)) :=
  ⟨fun _ _ => hosts_replica.inTurn trivial, fun _ _ _ halone => hosts_node.inTurn halone⟩

/-- Two nodes that have just been started. -/
def twoNodes : Network :=
  (({} : Network).start { id := "A" }).start { id := "B" }

/-- A frame that holds no request. -/
def spoiltFrame : Frame :=
  ⟨.createAccount, [0xFF]⟩

/-- A write, a frame that holds no request, and bytes that are no header. -/
def mixedBytes : Bytes :=
  openingFrame.header.bytes ++ openingFrame.body ++
    (spoiltFrame.header.bytes ++ spoiltFrame.body) ++ List.replicate headerSize 0x00

/-- Both frames are answered, the second with an error. -/
theorem mixedBytes_served_in_turn : twoNodes.Alone 0 ∧
    (∃ e, Stream.readAll mixedBytes = ([openingFrame, spoiltFrame], .failed e)) ∧
    (serve (Network.respond 0) mixedBytes (twoNodes, [])).1.map
        (fun sent => (Frame.parse sent).map (·.kind)) = [.ok .clockReply, .ok .errorReply] ∧
      InTurn (Network.respond 0) (replicaAt 0) [openingFrame, spoiltFrame] (twoNodes, [])
        (serve (Network.respond 0) mixedBytes (twoNodes, [])) := by
  have halone : twoNodes.Alone 0 := ⟨_, rfl, by decide⟩
  obtain ⟨e, hread⟩ :
      ∃ e, Stream.readAll mixedBytes = ([openingFrame, spoiltFrame], .failed e) := ⟨_, rfl⟩
  have hinTurn := (served_in_turn mixedBytes).2 twoNodes 0 [] halone
  rw [hread] at hinTurn
  exact ⟨halone, ⟨e, hread⟩, by decide +kernel, hinTurn⟩

end Connection

end GossipLedger
