import GossipLedger.Service.Answer
import GossipLedger.Wire.Stream

/-!
# Connections

A node serves a connection frame by frame: it reads a frame, sends the reply, and goes on, as long
as there are frames.  It drops the connection where a frame cannot be read, and where there is no
reply that can be sent; what it has sent until then stands.

`Connection.serve` is for any way of making replies, `Replica.connection` is the one for a replica
on its own.
-/

namespace GossipLedger

open Wire

namespace Connection

variable {σ : Type}

/-- Serves at most `bound` frames. -/
def serveUpTo (reply : Frame → σ → Option Bytes × σ) : (bound : Nat) → Bytes → σ → List Bytes × σ
  | 0, _, s => ([], s)
  | bound + 1, bytes, s =>
    match Stream.readFrame bytes with
    | .ok (some (frame, rest)) =>
      match reply frame s with
      | (some sent, s) =>
        let (others, s) := serveUpTo reply bound rest s
        (sent :: others, s)
      | (none, s) => ([], s)
    | .ok none => ([], s)
    | .error _ => ([], s)

/-- Serves all frames that come over a connection: the replies that are sent, each in bytes, and
what has become of the server.  There are no more frames than headers' lengths in the bytes. -/
def serve (reply : Frame → σ → Option Bytes × σ) (bytes : Bytes) (s : σ) : List Bytes × σ :=
  serveUpTo reply (bytes.length / headerSize + 1) bytes s

end Connection

namespace Replica

/-- Carries out the request in a frame; the reply, if there is one that can be sent.  `round` is
the report of a gossip round at that moment. -/
def respond (round : Replica → GossipReport) (frame : Frame) (r : Replica) :
    Option Bytes × Replica :=
  match r.serveFrame frame with
  | .ok (answer, r) => ((answer.response (round r)).bytes.toOption, r)
  | .error _ => (none, r)

/-- Serves all frames that come over a connection. -/
def connection (round : Replica → GossipReport) (bytes : Bytes) (r : Replica) :
    List Bytes × Replica :=
  Connection.serve (respond round) bytes r

end Replica

end GossipLedger
