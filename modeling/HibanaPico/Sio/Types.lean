import HibanaPico.Transport.Types

/-!
# Sio — Types

What the two SIO carriers, Baker's over a mailbox and RP2W's over the FIFO, have in common: the
two cores, the decoded frame, and the Rx of a port with the frame it was handed.  Each carrier has
its own copy of these in the source, alike but for the counters of its traces.

* `stageFrame`, `forgetDelivered`, `requeue`: what happens to the frame an Rx has.
* `CompletedSend`, `DecodedSioFrame.received`: a frame as its sender and its receiver see it.
-/

namespace HibanaPico.Sio
open HibanaPico.Transport

inductive Core where
  | core0
  | core1
  deriving DecidableEq, Repr

def Core.peer : Core → Core
  | .core0 => .core1
  | .core1 => .core0

theorem Core.peer_peer (c : Core) : c.peer.peer = c := by cases c <;> rfl

theorem Core.peer_ne (c : Core) : c.peer ≠ c := by cases c <;> decide

theorem Core.eq_peer_of_ne {c d : Core} (h : c ≠ d) : c = d.peer := by
  cases c <;> cases d <;> first | rfl | exact absurd rfl h

def sioFrameBytes : ℕ := 128

/-- `DecodedSioFrame`.  `payload` is `bytes[..len]`; nothing reads `bytes` past it. -/
structure DecodedSioFrame where
  sessionId : U32
  senderRole : U8
  peerRole : U8
  frameLabel : U8
  lane : U8
  payload : FrameBytes sioFrameBytes
  deriving DecidableEq, Repr

/-- A send answered `Ready(Ok(()))`: the session and role of its Tx, and the frame of the call. -/
structure CompletedSend where
  sessionId : U32
  senderRole : U8
  targetRole : U8
  frameLabel : U8
  payload : List U8
  deriving DecidableEq, Repr

/-- The send a frame is of. -/
def DecodedSioFrame.sent (f : DecodedSioFrame) : CompletedSend :=
  { sessionId := f.sessionId, senderRole := f.senderRole, targetRole := f.peerRole,
    frameLabel := f.frameLabel, payload := f.payload.1 }

/-- A frame as its receiver sees it. -/
def DecodedSioFrame.received (f : DecodedSioFrame) : ReceivedFrame :=
  { header :=
      { sessionId := f.sessionId, lane := f.lane, sourceRole := f.senderRole,
        peerRole := f.peerRole, frameLabel := f.frameLabel }
    payload := f.payload.1 }

/-- The Rx of a port.  `bytes` is `bytes[..len]`. -/
structure SioRx where
  localRole : U8
  coreId : Core
  lane : U8
  sessionId : U32
  frameSessionId : U32
  frameLane : U8
  requeued : Bool
  delivered : Bool
  senderRole : U8
  frameLabel : Option U8
  operationalDeadlineTicks : U32
  bytes : FrameBytes sioFrameBytes

/-- `SioRx::new`. -/
def SioRx.new (localRole : U8) (sessionId : U32) (lane : U8) (operationalDeadlineTicks : U32)
    (coreId : Core) : SioRx :=
  { localRole, coreId, lane, sessionId, frameSessionId := sessionId, frameLane := lane,
    requeued := false, delivered := false, senderRole := 0, frameLabel := none,
    operationalDeadlineTicks, bytes := ⟨[], Nat.zero_le _⟩ }

/-- What `poll_recv` hands out: `frame_header` and `payload`. -/
def SioRx.received (rx : SioRx) (frameLabel : U8) : ReceivedFrame :=
  { header :=
      { sessionId := rx.frameSessionId, lane := rx.frameLane, sourceRole := rx.senderRole,
        peerRole := rx.localRole, frameLabel }
    payload := rx.bytes.1 }

/-- `stage_frame`. -/
def stageFrame (rx : SioRx) (frame : DecodedSioFrame) : SioRx :=
  { rx with
    frameSessionId := frame.sessionId
    frameLane := frame.lane
    frameLabel := some frame.frameLabel
    senderRole := frame.senderRole
    delivered := true
    bytes := frame.payload }

/-! ### Answers -/

abbrev SendAnswer := Poll (Except TransportError Unit)

abbrev RecvAnswer := Poll (Except TransportError ReceivedFrame)

/-- Where `poll_recv` stands: it has answered, is at the top of its loop, or waits for its
deadline. -/
inductive RecvPhase where
  | answer (answer : RecvAnswer)
  | scan
  | await

/-- The part of a `poll_recv` hands out no frame. -/
def RecvPhase.Quiet : RecvPhase → Prop
  | .answer (.ready (.ok _)) => False
  | _ => True

/-- Stage a frame and hand it out. -/
def deliver (rx : SioRx) (frame : DecodedSioFrame) : SioRx × RecvPhase :=
  let rx := stageFrame rx frame
  (rx, .answer (.ready (.ok (rx.received frame.frameLabel))))

/-- What `poll_recv` does with a delivered frame it still has: forgets it. -/
def forgetDelivered (rx : SioRx) : SioRx :=
  if rx.frameLabel.isSome then
    { rx with
      frameLabel := none
      delivered := false
      bytes := ⟨[], Nat.zero_le _⟩
      frameSessionId := rx.sessionId
      frameLane := rx.lane }
  else rx

/-- `requeue`. -/
def requeue (rx : SioRx) : SioRx :=
  let requeued := rx.frameLabel.isSome
  { rx with requeued, delivered := if requeued then false else rx.delivered }

end HibanaPico.Sio
