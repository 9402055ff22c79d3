import Mathlib.Data.List.Basic

/-!
# Transport — Types

The types of hibana's `Transport` trait that the carriers share: the outcome of a poll, the
errors a carrier reports, an opened port, an outgoing frame, and the header and payload a
receiver is handed.  Bytes, roles, lanes and labels are `u8`, sessions and FIFO words `u32`.
-/

namespace HibanaPico.Transport

abbrev U8 := BitVec 8
abbrev U32 := BitVec 32

/-- `core::task::Poll`. -/
inductive Poll (α : Type) where
  | pending
  | ready (value : α)
  deriving DecidableEq, Repr

/-- The `TransportError` values the carriers return. -/
inductive TransportError where
  | capacity
  | failed
  | deadline
  deriving DecidableEq, Repr

/-- `PortOpen`: what `open` is told about a port. -/
structure PortOpen where
  localRole : U8
  sessionId : U32
  lane : U8
  deriving DecidableEq, Repr

/-- `Outgoing`: the frame a `poll_send` is called with. -/
structure Outgoing where
  targetRole : U8
  frameLabel : U8
  lane : U8
  payload : List U8
  deriving DecidableEq, Repr

/-- `FrameHeader::from_bytes([session (big endian), lane, source, peer, label])`. -/
structure FrameHeader where
  sessionId : U32
  lane : U8
  sourceRole : U8
  peerRole : U8
  frameLabel : U8
  deriving DecidableEq, Repr

/-- `ReceivedFrame::framed(header, payload)`. -/
structure ReceivedFrame where
  header : FrameHeader
  payload : List U8
  deriving DecidableEq, Repr

/-- At most `cap` bytes: a frame buffer and its length. -/
abbrev FrameBytes (cap : ℕ) := { bytes : List U8 // bytes.length ≤ cap }

/-- A buffer with nothing in it. -/
def FrameBytes.empty (cap : ℕ) : FrameBytes cap := ⟨[], Nat.zero_le cap⟩

/-- What is left once a carrier has refused a payload that is too long. -/
theorem Outgoing.payload_le {outgoing : Outgoing} {bound : ℕ}
    (h : ¬ outgoing.payload.length > bound) : outgoing.payload.length ≤ bound :=
  Nat.not_lt.mp h

end HibanaPico.Transport
