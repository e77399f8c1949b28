import GossipLedger.Wire.Frame

/-!
# Streams of frames

Frames follow each other on a connection without anything between them.  `Stream.readFrame` takes
the next one: first a header, then as many bytes as it announces.  A stream that ends before a
header is complete holds no more frames; one that ends inside a body is broken off.
-/

namespace GossipLedger

namespace Wire

namespace Stream

/-- The error of a stream that ends inside a body. -/
def brokenOff : LedgerError :=
  .transportError "early eof"

/-- The next frame and the bytes behind it; nothing if no header is left. -/
def readFrame (bytes : Bytes) : Result (Option (Frame × Bytes)) :=
  if (bytes.take headerSize).length < headerSize then .ok none
  else do
    let header ← Header.parse (bytes.take headerSize)
    let body := (bytes.drop headerSize).take header.bodyLength.toNat
    if body.length < header.bodyLength.toNat then .error brokenOff
    else
      let frame ← Frame.ofParts header body
      return some (frame, bytes.drop frame.size)

/-- How a stream ended. -/
inductive Ending where
  /-- No header was left. -/
  | finished
  /-- A frame could not be read. -/
  | failed (e : LedgerError)
  deriving DecidableEq

/-- Reads at most `bound` frames; `frames` holds those before, the last one first. -/
def readUpTo : (bound : Nat) → (frames : List Frame) → Bytes → List Frame × Ending
  | 0, frames, _ => (frames.reverse, .finished)
  | bound + 1, frames, bytes =>
    match readFrame bytes with
    | .ok (some (frame, rest)) => readUpTo bound (frame :: frames) rest
    | .ok none => (frames.reverse, .finished)
    | .error e => (frames.reverse, .failed e)

/-- The frames of a stream, and how it ended.  Every frame has a header, so there is one more
attempt to read than there are headers' lengths in the stream. -/
def readAll (bytes : Bytes) : List Frame × Ending :=
  readUpTo (bytes.length / headerSize + 1) [] bytes

/-- The stream after a frame has been written to it. -/
def write (stream : Bytes) (frame : Frame) : Result Bytes := do
  let bytes ← frame.serialize
  return stream ++ bytes

/-- Writes frames one after the other, passing over those that cannot be written; tells of each
whether it was. -/
def writeAll (frames : List Frame) : List (Result Unit) × Bytes :=
  let parts := frames.map Frame.serialize
  (parts.map fun part => part.map fun _ => (),
    (parts.map fun part => (part.toOption).getD []).flatten)

end Stream

end Wire

end GossipLedger
