import GossipLedger.Proofs.Service.InTurn
import GossipLedger.Proofs.Wire.RoundTrip

/-!
# A client's request at a node

A request that a client sends to a node is carried out there as it was made, and a response that
settles it is the one that the node has given (`Network.exists_serve_of_call`).  Nothing is lost or
changed on the way: the node reads just the frame that was sent, and the client the frame that came
back.  In between, gossip rounds may reach any node.
-/

namespace GossipLedger

open Wire

/-! ### Frames there and back -/

/-- A frame on its own is all that a connection delivers. -/
theorem Wire.Stream.readAll_of_serialize {frame : Frame} {bytes : Bytes}
    (h : frame.serialize = .ok bytes) : Stream.readAll bytes = ([frame], .finished) := by
  refine Stream.readAll_eq_iff.2 ⟨[], .frame (Stream.readFrame_eq_some_iff.2 ?_) .nothing,
    .finished rfl⟩
  exact ⟨bytes, Frame.parse_of_serialize h, (List.append_nil bytes).symm⟩

/-- A request arrives as it was. -/
theorem Request.ofFrame_of_toFrame {request : Request} {frame : Frame}
    (h : request.toFrame = .ok frame) : Request.ofFrame frame = .ok request := by
  obtain ⟨rfl, hreads⟩ := Request.reads_of_toFrame h
  exact hreads.exactly

/-- The first frame of what is sent is that of the response, which is read as it was. -/
theorem Response.ofFrame_of_bytes {response : Response} {sent rest : Bytes} {frame : Frame}
    (h : response.bytes = .ok sent) (hread : Stream.readFrame sent = .ok (some (frame, rest))) :
    Response.ofFrame frame = .ok response := by
  have hwhole := Stream.readFrame_eq_some_iff.2
    ⟨sent, Response.parse_of_bytes h, (List.append_nil sent).symm⟩
  cases hwhole.symm.trans hread
  obtain ⟨hwritable, hsize⟩ := Response.exists_bytes_iff.1 ⟨sent, h⟩
  exact (Response.restores_read hsize (Encoding.takes_response.complete.2 hwritable)).exactly

theorem Response.eq_of_toResult {answer response : Response} (h : answer.toResult = .ok response) :
    answer = response := by
  cases answer with
  | error code message => cases h
  | _ => exact Except.ok.inj h

/-! ### The client's side -/

namespace Client

variable {client : Client} {request : Request} {reply : Result Frame} {response : Response}

/-- What settles a request is the response in the frame that came back. -/
theorem exists_frame_of_settle (h : settle request reply = .ok response) :
    ∃ frame, reply = .ok frame ∧ Response.ofFrame frame = .ok response ∧
      request.isSettledBy response = true := by
  rw [settle] at h
  obtain ⟨frame, hreply, h⟩ := Result.bind_eq_ok_iff.1 h
  obtain ⟨answer, hanswer, h⟩ := Result.bind_eq_ok_iff.1 h
  obtain ⟨result, hresult, h⟩ := Result.bind_eq_ok_iff.1 h
  obtain rfl := Response.eq_of_toResult hresult
  split at h
  · rename_i hsettled
    cases h
    exact ⟨frame, hreply, hanswer, hsettled⟩
  · cases h

/-- What a request comes to is what settles it. -/
theorem settle_of_conclude (h : (client.conclude request reply).1 = .ok response) :
    settle request reply = .ok response := by
  rw [conclude] at h
  cases hsettle : settle request reply with
  | error e =>
    rw [hsettle] at h
    cases h
  | ok result =>
    rw [hsettle] at h
    exact h

end Client

/-! ### The node's side -/

namespace Network

variable {network : Network} {i : Nat} {address : String} {node : Node} {listening : Bool}
  {frame back : Frame} {client : Client} {request : Request} {response : Response}

/-- What comes back from a node is what it answers to the frame. -/
theorem exchange_of_node (h : network.connect address = .ok (i, .node node listening))
    {bytes : Bytes} (hbytes : frame.serialize = .ok bytes) :
    network.exchange address frame =
      (reply address ((respond i frame (network, [])).1.getD []),
        (respond i frame (network, [])).2) := by
  rw [exchange, h, hbytes]
  dsimp only
  rw [send, h]
  dsimp only [bind, Except.bind, pure, Except.pure]
  rw [Connection.serve_eq, Stream.readAll_of_serialize hbytes]
  cases hrespond : respond i frame (network, []) with
  | mk out s =>
    cases out with
    | none => rw [Connection.serveFrames_of_none hrespond]; rfl
    | some sent =>
      rw [Connection.serveFrames_of_some hrespond, Connection.serveFrames]
      rw [List.flatten_singleton]
      rfl

/-- A frame that comes back is the first one that was sent. -/
theorem exists_readFrame_of_reply {bytes : Bytes} (h : reply address bytes = .ok back) :
    ∃ rest, Stream.readFrame bytes = .ok (some (back, rest)) := by
  obtain ⟨next, hread, h⟩ := Result.bind_eq_ok_iff.1 h
  cases next with
  | none => cases h
  | some next =>
    cases h
    exact ⟨next.2, hread⟩

/-- A frame that comes back is that of the response to the frame that was sent. -/
theorem exists_serveFrame_of_exchange
    (h : network.connect address = .ok (i, .node node listening))
    (hback : (network.exchange address frame).1 = .ok back) :
    ∃ answer replica report, node.replica.serveFrame frame = .ok (answer, replica) ∧
      Response.ofFrame back = .ok (answer.response report) := by
  cases hbytes : frame.serialize with
  | error e =>
    rw [exchange, h, hbytes] at hback
    cases hback
  | ok bytes =>
    rw [exchange_of_node h hbytes] at hback
    obtain ⟨rest, hread⟩ := exists_readFrame_of_reply hback
    have hnode : network.node? i = some node := node?_of_connect h
    cases hserve : node.replica.serveFrame frame with
    | error e =>
      rw [respond_of_error (s := (network, [])) hnode hserve] at hread
      cases hread
    | ok result =>
      obtain ⟨answer, replica⟩ := result
      rw [respond_of_ok (s := (network, [])) hnode hserve] at hread
      obtain ⟨report, hreply⟩ := exists_report_of_conclude
      rw [hreply] at hread
      refine ⟨answer, replica, report, rfl, ?_⟩
      cases hsent : (answer.response report).bytes with
      | error e =>
        rw [hsent] at hread
        cases hread
      | ok sent =>
        rw [hsent] at hread
        exact Response.ofFrame_of_bytes hsent hread

/-- A call ends with what the client makes of some reply. -/
theorem exists_reply_of_call : ∃ reply,
    ((network.call address client request).1, (network.call address client request).2.1) =
      client.conclude request reply := by
  rw [call]
  cases (client.ask request).toFrame with
  | error e => exact ⟨.error e, rfl⟩
  | ok frame => exact ⟨(network.exchange address frame).1, rfl⟩

/-- **A response of a node that settles a request is that to the request**, as the client has made
it. -/
theorem exists_serve_of_call (h : network.connect address = .ok (i, .node node listening))
    (hcall : (network.call address client request).1 = .ok response) :
    ∃ answer replica report,
      node.replica.serve (client.ask request) = .ok (answer, replica) ∧
        answer.response report = response ∧ request.isSettledBy response = true := by
  cases hframe : (client.ask request).toFrame with
  | error e =>
    rw [call, hframe] at hcall
    cases Client.settle_of_conclude hcall
  | ok frame =>
    rw [call, hframe] at hcall
    obtain ⟨back, hback, hresponse, hsettled⟩ :=
      Client.exists_frame_of_settle (Client.settle_of_conclude hcall)
    obtain ⟨answer, replica, report, hserve, hanswer⟩ := exists_serveFrame_of_exchange h hback
    rw [Replica.serveFrame, Request.ofFrame_of_toFrame hframe] at hserve
    rw [hanswer] at hresponse
    exact ⟨answer, replica, report, hserve, Except.ok.inj hresponse, hsettled⟩

end Network

end GossipLedger
