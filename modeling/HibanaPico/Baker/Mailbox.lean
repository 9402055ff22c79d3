import HibanaPico.Support.Cells
import HibanaPico.Support.Runs
import HibanaPico.Sio.Types

/-!
# Baker — Mailbox

One direction's `SioMailboxSlot`, cell by cell.  The producer's core runs `publish_mailbox_frame`
and the consumer's core `take_mailbox_frame`; every step of a run is one read or one write of one
cell, by either core, in any order.

* `mailboxMachine`: the two cores, the slot they share, the frames published and the frames taken.
* `MailboxInv`: the slot is empty and everything published was taken, or it holds the one frame
  that was not, and then the producer does not write.
* `mailbox_exact`: in every run the frames taken are a prefix of the frames published, and at most
  one published frame is not taken yet.
-/

namespace HibanaPico.Baker
open HibanaPico.Support
open HibanaPico.Transport
open HibanaPico.Sio

/-- A frame that `publish_mailbox_frame` is called with: never one to its own sender. -/
abbrev MailboxFrame := { f : DecodedSioFrame // f.senderRole ≠ f.peerRole }

structure SioMailboxSlot where
  occupied : U32
  sessionId : U32
  senderRole : U8
  peerRole : U8
  frameLabel : U8
  lane : U8
  len : U8
  bytes : Cells U8

/-- `SioMailboxSlot::EMPTY`. -/
def SioMailboxSlot.empty : SioMailboxSlot :=
  { occupied := 0, sessionId := 0, senderRole := 0, peerRole := 0, frameLabel := 0, lane := 0,
    len := 0, bytes := fun _ => 0 }

/-- A `write_volatile` of one cell of the slot. -/
inductive SlotWrite where
  | occupied (v : U32)
  | sessionId (v : U32)
  | senderRole (v : U8)
  | peerRole (v : U8)
  | frameLabel (v : U8)
  | lane (v : U8)
  | len (v : U8)
  | byte (idx : ℕ) (v : U8)

def SioMailboxSlot.write (slot : SioMailboxSlot) : SlotWrite → SioMailboxSlot
  | .occupied v => { slot with occupied := v }
  | .sessionId v => { slot with sessionId := v }
  | .senderRole v => { slot with senderRole := v }
  | .peerRole v => { slot with peerRole := v }
  | .frameLabel v => { slot with frameLabel := v }
  | .lane v => { slot with lane := v }
  | .len v => { slot with len := v }
  | .byte idx v => { slot with bytes := Function.update slot.bytes idx v }

/-- The `while idx < frame.len` loop of `publish_mailbox_frame`, from `idx` on. -/
def byteWrites : ℕ → List U8 → List SlotWrite
  | _, [] => []
  | idx, b :: bs => .byte idx b :: byteWrites (idx + 1) bs

/-- The writes of `publish_mailbox_frame` to an empty slot before the last: header, length,
bytes. -/
def frameWrites (f : DecodedSioFrame) : List SlotWrite :=
  [.sessionId f.sessionId, .senderRole f.senderRole, .peerRole f.peerRole,
    .frameLabel f.frameLabel, .lane f.lane, .len (BitVec.ofNat 8 f.payload.1.length)] ++
  byteWrites 0 f.payload.1

/-- Where the producer is in `publish_mailbox_frame`. -/
inductive PublishPc where
  /-- Between frames. -/
  | idle
  /-- About to read `occupied`; a full slot returns `false`, and the caller calls again. -/
  | check (f : MailboxFrame)
  /-- About to do the first of these writes, and then to set `occupied`. -/
  | write (f : MailboxFrame) (todo : List SlotWrite)

/-- A length that passed the check of `take_mailbox_frame`. -/
abbrev FrameLen := { len : U8 // len.toNat ≤ sioFrameBytes }

/-- Where the consumer is in `take_mailbox_frame`, with the locals it has read. -/
inductive TakePc where
  | idle
  | readOccupied
  | readLen
  | readSender (len : FrameLen)
  | readPeer (len : FrameLen) (sender : U8)
  | readByte (len : FrameLen) (sender peer : U8)
      (bytes : { bytes : List U8 // bytes.length < len.1.toNat })
  | readSession (sender peer : U8) (bytes : FrameBytes sioFrameBytes)
  | readLabel (sender peer : U8) (bytes : FrameBytes sioFrameBytes) (session : U32)
  | readLane (sender peer : U8) (bytes : FrameBytes sioFrameBytes) (session : U32) (label : U8)
  /-- About to clear `occupied` and return. -/
  | clear (result : Except TransportError DecodedSioFrame)

structure MailboxState where
  slot : SioMailboxSlot
  producer : PublishPc
  consumer : TakePc
  published : List DecodedSioFrame
  taken : List DecodedSioFrame
  errors : List TransportError

def MailboxState.init (slot : SioMailboxSlot) : MailboxState :=
  { slot, producer := .idle, consumer := .idle, published := [], taken := [], errors := [] }

/-- The producer's next cell access. -/
def publishStep (s : MailboxState) : Option MailboxState :=
  match s.producer with
  | .idle => none
  | .check f =>
      if s.slot.occupied ≠ 0 then some s
      else some { s with producer := .write f (frameWrites f.1) }
  | .write f (w :: todo) => some { s with slot := s.slot.write w, producer := .write f todo }
  | .write f [] => some { s with
      slot := s.slot.write (.occupied 1)
      producer := .idle
      published := s.published ++ [f.1] }

/-- The `while idx < len` loop of `take_mailbox_frame`: the next byte, or the rest of the header. -/
def byteLoop (len : FrameLen) (sender peer : U8) (bytes : List U8)
    (hbytes : bytes.length ≤ len.1.toNat) : TakePc :=
  if h : bytes.length < len.1.toNat then .readByte len sender peer ⟨bytes, h⟩
  else .readSession sender peer ⟨bytes, Nat.le_trans hbytes len.2⟩

/-- The consumer's next cell access. -/
def takeStep (s : MailboxState) : Option MailboxState :=
  match s.consumer with
  | .idle => none
  | .readOccupied =>
      if s.slot.occupied = 0 then some { s with consumer := .idle }
      else some { s with consumer := .readLen }
  | .readLen =>
      let len := s.slot.len
      if h : len.toNat > sioFrameBytes then some { s with consumer := .clear (.error .capacity) }
      else some { s with consumer := .readSender ⟨len, Nat.not_lt.mp h⟩ }
  | .readSender len => some { s with consumer := .readPeer len s.slot.senderRole }
  | .readPeer len sender =>
      let peer := s.slot.peerRole
      if sender = peer then some { s with consumer := .clear (.error .failed) }
      else some { s with consumer := byteLoop len sender peer [] (Nat.zero_le _) }
  | .readByte len sender peer bytes => some { s with
      consumer := byteLoop len sender peer (bytes.1 ++ [s.slot.bytes bytes.1.length])
        (by rw [List.length_append]; exact bytes.2) }
  | .readSession sender peer bytes => some { s with
      consumer := .readLabel sender peer bytes s.slot.sessionId }
  | .readLabel sender peer bytes session => some { s with
      consumer := .readLane sender peer bytes session s.slot.frameLabel }
  | .readLane sender peer bytes session label => some { s with
      consumer := .clear (.ok
        { sessionId := session, senderRole := sender, peerRole := peer, frameLabel := label,
          lane := s.slot.lane, payload := bytes }) }
  | .clear (.ok f) => some { s with
      slot := s.slot.write (.occupied 0)
      consumer := .idle
      taken := s.taken ++ [f] }
  | .clear (.error e) => some { s with
      slot := s.slot.write (.occupied 0)
      consumer := .idle
      errors := s.errors ++ [e] }

/-- A step of the two cores: a call begins, or a core does its next cell access. -/
inductive MailboxAction where
  | publish (f : MailboxFrame)
  | publishStep
  | take
  | takeStep

def mailboxNext (s : MailboxState) : MailboxAction → Option MailboxState
  | .publish f =>
      match s.producer with
      | .idle => some { s with producer := .check f }
      | _ => none
  | .publishStep => publishStep s
  | .take =>
      match s.consumer with
      | .idle => some { s with consumer := .readOccupied }
      | _ => none
  | .takeStep => takeStep s

def mailboxMachine : Machine MailboxState MailboxAction := ⟨mailboxNext⟩

/-! ### The invariant -/

/-- The slot holds the frame; its cells past the frame's length are anything. -/
structure Holds (slot : SioMailboxSlot) (f : DecodedSioFrame) : Prop where
  occupied : slot.occupied ≠ 0
  sessionId : slot.sessionId = f.sessionId
  senderRole : slot.senderRole = f.senderRole
  peerRole : slot.peerRole = f.peerRole
  frameLabel : slot.frameLabel = f.frameLabel
  lane : slot.lane = f.lane
  len : slot.len.toNat = f.payload.1.length
  bytes : slot.bytes.slice 0 f.payload.1.length = f.payload.1

/-- A write that leaves `occupied` alone. -/
def SlotWrite.KeepsFlag : SlotWrite → Prop
  | .occupied _ => False
  | _ => True

/-- A producer that writes has an empty slot, and what it has left to write completes its
frame. -/
def Completes (slot : SioMailboxSlot) : PublishPc → Prop
  | .idle | .check _ => True
  | .write f todo => (∀ w ∈ todo, w.KeepsFlag) ∧
      Holds ((todo.foldl SioMailboxSlot.write slot).write (.occupied 1)) f.1

/-- The producer does not write. -/
def PublishPc.Waits : PublishPc → Prop
  | .write _ _ => False
  | _ => True

/-- The consumer has not seen `occupied` set. -/
def TakePc.AtRest : TakePc → Prop
  | .idle | .readOccupied => True
  | _ => False

/-- What the consumer has read is of the frame. -/
inductive TakePc.Agrees (f : DecodedSioFrame) : TakePc → Prop where
  | idle : Agrees f .idle
  | readOccupied : Agrees f .readOccupied
  | readLen : Agrees f .readLen
  | readSender {len} (hlen : len.1.toNat = f.payload.1.length) : Agrees f (.readSender len)
  | readPeer {len} (hlen : len.1.toNat = f.payload.1.length) :
      Agrees f (.readPeer len f.senderRole)
  | readByte {len bytes} (hlen : len.1.toNat = f.payload.1.length)
      (hbytes : bytes.1 = f.payload.1.take bytes.1.length) :
      Agrees f (.readByte len f.senderRole f.peerRole bytes)
  | readSession : Agrees f (.readSession f.senderRole f.peerRole f.payload)
  | readLabel : Agrees f (.readLabel f.senderRole f.peerRole f.payload f.sessionId)
  | readLane : Agrees f (.readLane f.senderRole f.peerRole f.payload f.sessionId f.frameLabel)
  | clear : Agrees f (.clear (.ok f))

inductive MailboxInv (s : MailboxState) : Prop where
  | empty (hslot : s.slot.occupied = 0) (hconsumer : s.consumer.AtRest)
      (hproducer : Completes s.slot s.producer) (hall : s.published = s.taken)
      (herrors : s.errors = [])
  | full (f : MailboxFrame) (hslot : Holds s.slot f.1) (hconsumer : s.consumer.Agrees f.1)
      (hproducer : s.producer.Waits) (hall : s.published = s.taken ++ [f.1])
      (herrors : s.errors = [])

/-! ### The producer -/

theorem foldl_byteWrites (slot : SioMailboxSlot) (idx : ℕ) (bs : List U8) :
    (byteWrites idx bs).foldl SioMailboxSlot.write slot =
      { slot with bytes := slot.bytes.store idx bs } := by
  induction bs generalizing slot idx with
  | nil => rw [Cells.store_nil]; rfl
  | cons b bs ih => rw [byteWrites, List.foldl_cons, ih, Cells.store_cons]; rfl

theorem keepsFlag_of_mem_frameWrites {f : DecodedSioFrame} {w : SlotWrite}
    (h : w ∈ frameWrites f) : w.KeepsFlag := by
  have hbytes : ∀ (idx : ℕ) (bs : List U8), ∀ w ∈ byteWrites idx bs, w.KeepsFlag := by
    intro idx bs
    induction bs generalizing idx with
    | nil => simp [byteWrites]
    | cons b bs ih =>
        intro w hw
        rcases List.mem_cons.mp hw with rfl | hw
        · trivial
        · exact ih _ w hw
  rcases List.mem_append.mp h with h | h
  · simp only [List.mem_cons, List.not_mem_nil, or_false] at h
    rcases h with rfl | rfl | rfl | rfl | rfl | rfl <;> trivial
  · exact hbytes 0 f.payload.1 w h

/-- **The writes of a frame**, from any contents of the slot, leave it holding the frame. -/
theorem completes_frameWrites (slot : SioMailboxSlot) (f : MailboxFrame) :
    Completes slot (.write f (frameWrites f.1)) := by
  refine ⟨fun w => keepsFlag_of_mem_frameWrites, ?_⟩
  rw [frameWrites, List.foldl_append, foldl_byteWrites]
  refine ⟨?_, rfl, rfl, rfl, rfl, rfl, ?_, Cells.slice_store _ 0 _⟩
  · exact show (1 : U32) ≠ 0 by decide
  · have := f.1.payload.2
    unfold sioFrameBytes at this
    exact show (BitVec.ofNat 8 _).toNat = _ by rw [BitVec.toNat_ofNat]; omega

theorem occupied_write {slot : SioMailboxSlot} {w : SlotWrite} (h : w.KeepsFlag) :
    (slot.write w).occupied = slot.occupied := by
  cases w with
  | occupied v => exact h.elim
  | _ => rfl

theorem mailboxInv_publishStep {s t : MailboxState} (h : MailboxInv s)
    (hstep : publishStep s = some t) : MailboxInv t := by
  obtain ⟨slot, producer, consumer, published, taken, errors⟩ := s
  cases producer with
  | idle => cases hstep
  | check f =>
      -- the producer waits while the slot is occupied
      simp only [publishStep] at hstep
      split at hstep
      · cases hstep; exact h
      rename_i hempty
      cases hstep
      cases h with
      | empty hslot hconsumer _ hall herrors =>
          exact .empty hslot hconsumer (completes_frameWrites slot f) hall herrors
      | full g hslot _ _ _ _ => exact absurd hslot.occupied hempty
  | write f todo =>
      cases h with
      | full g _ _ hproducer _ _ => exact hproducer.elim
      | empty hslot hconsumer hproducer hall herrors =>
          obtain ⟨hflags, hholds⟩ := hproducer
          cases todo with
          | nil =>
              cases hstep
              -- the last of the writes sets the flag, and the slot holds the frame
              refine .full f hholds ?_ trivial ?_ herrors
              · cases consumer with
                | idle => exact .idle
                | readOccupied => exact .readOccupied
                | _ => exact hconsumer.elim
              · dsimp only at hall ⊢
                rw [hall]
          | cons w todo =>
              cases hstep
              exact .empty ((occupied_write (hflags w List.mem_cons_self)).trans hslot) hconsumer
                ⟨fun w' hw' => hflags w' (List.mem_cons_of_mem _ hw'), hholds⟩ hall herrors

/-! ### The consumer -/

theorem agrees_byteLoop {f : DecodedSioFrame} {len : FrameLen} {bytes : List U8}
    (hbytes : bytes.length ≤ len.1.toNat) (hlen : len.1.toNat = f.payload.1.length)
    (hread : bytes = f.payload.1.take bytes.length) :
    (byteLoop len f.senderRole f.peerRole bytes hbytes).Agrees f := by
  unfold byteLoop
  split
  · exact .readByte hlen hread
  · have hall : bytes = f.payload.1 := by
      rw [hread]
      exact List.take_of_length_le (by omega)
    subst hall
    exact .readSession

theorem mailboxInv_takeStep {s t : MailboxState} (h : MailboxInv s)
    (hstep : takeStep s = some t) : MailboxInv t := by
  obtain ⟨slot, producer, consumer, published, taken, errors⟩ := s
  cases h with
  | empty hslot hconsumer hproducer hall herrors =>
      cases consumer with
      | idle => cases hstep
      | readOccupied =>
          simp only [takeStep, if_pos hslot] at hstep
          cases hstep
          exact .empty hslot trivial hproducer hall herrors
      | _ => exact hconsumer.elim
  | full f hslot hconsumer hproducer hall herrors =>
      dsimp only at hslot hconsumer hproducer hall herrors
      cases hconsumer with
      | idle => cases hstep
      | readOccupied =>
          simp only [takeStep, if_neg hslot.occupied] at hstep
          cases hstep
          exact .full f hslot .readLen hproducer hall herrors
      | readLen =>
          have hfits : ¬ slot.len.toNat > sioFrameBytes := by
            rw [hslot.len]; exact Nat.not_lt.mpr f.1.payload.2
          simp only [takeStep, dif_neg hfits] at hstep
          cases hstep
          exact .full f hslot (.readSender hslot.len) hproducer hall herrors
      | readSender hlen =>
          simp only [takeStep, hslot.senderRole] at hstep
          cases hstep
          exact .full f hslot (.readPeer hlen) hproducer hall herrors
      | readPeer hlen =>
          simp only [takeStep, hslot.peerRole, if_neg f.2] at hstep
          cases hstep
          exact .full f hslot (agrees_byteLoop (Nat.zero_le _) hlen rfl) hproducer hall herrors
      | @readByte len bytes hlen hbytes =>
          simp only [takeStep] at hstep
          cases hstep
          -- one byte more of the payload has been read
          have hfits : (bytes.1 ++ [slot.bytes bytes.1.length]).length ≤ len.1.toNat := by
            rw [List.length_append]; exact bytes.2
          refine .full f hslot (agrees_byteLoop hfits hlen ?_) hproducer hall herrors
          have hlt : bytes.1.length < f.1.payload.1.length := by have := bytes.2; omega
          have hcell : slot.bytes bytes.1.length = f.1.payload.1[bytes.1.length] := by
            have hget := congrArg (fun xs => xs[bytes.1.length]?) hslot.bytes
            simpa [Cells.slice, hlt] using hget
          rw [hcell, List.length_append, List.length_singleton,
            List.take_succ_eq_append_getElem hlt, ← hbytes]
      | readSession =>
          simp only [takeStep, hslot.sessionId] at hstep
          cases hstep
          exact .full f hslot .readLabel hproducer hall herrors
      | readLabel =>
          simp only [takeStep, hslot.frameLabel] at hstep
          cases hstep
          exact .full f hslot .readLane hproducer hall herrors
      | readLane =>
          simp only [takeStep, hslot.lane] at hstep
          cases hstep
          exact .full f hslot .clear hproducer hall herrors
      | clear =>
          cases hstep
          -- the frame is noted as taken when the flag is cleared
          refine .empty rfl trivial ?_ hall herrors
          cases producer with
          | write f todo => exact hproducer.elim
          | _ => trivial

/-! ### Runs -/

theorem mailboxInv_init {slot : SioMailboxSlot} (h : slot.occupied = 0) :
    MailboxInv (.init slot) := .empty h trivial trivial rfl rfl

theorem mailboxInv_step (s : MailboxState) (a : MailboxAction) (t : MailboxState)
    (h : MailboxInv s) (hstep : mailboxMachine.next s a = some t) : MailboxInv t := by
  obtain ⟨slot, producer, consumer, published, taken, errors⟩ := s
  cases a with
  | publish f =>
      cases producer with
      | idle =>
          cases hstep
          cases h with
          | empty hslot hconsumer _ hall herrors =>
              exact .empty hslot hconsumer trivial hall herrors
          | full g hslot hconsumer _ hall herrors =>
              exact .full g hslot hconsumer trivial hall herrors
      | _ => cases hstep
  | publishStep => exact mailboxInv_publishStep h hstep
  | take =>
      cases consumer with
      | idle =>
          cases hstep
          cases h with
          | empty hslot _ hproducer hall herrors =>
              exact .empty hslot trivial hproducer hall herrors
          | full g hslot _ hproducer hall herrors =>
              exact .full g hslot .readOccupied hproducer hall herrors
      | _ => cases hstep
  | takeStep => exact mailboxInv_takeStep h hstep

/-- **The mailbox is exact.**  From any empty slot, whatever stale cells it has, in every run of
the two cores: the frames taken are a prefix of the frames published, at most one published frame
is not taken yet, and that one is in the slot; no take reports an error. -/
theorem mailbox_exact (slot : SioMailboxSlot) (hslot : slot.occupied = 0)
    (as : List MailboxAction) (s : MailboxState)
    (hrun : mailboxMachine.exec (.init slot) as = some s) :
    s.taken <+: s.published ∧ s.published.length ≤ s.taken.length + 1 ∧
      (s.slot.occupied = 0 → s.taken = s.published) ∧ s.errors = [] := by
  cases Machine.exec_keeps mailboxInv_step (mailboxInv_init hslot) hrun with
  | empty hslot hconsumer hproducer hall herrors =>
      rw [hall]
      exact ⟨List.prefix_rfl, Nat.le_succ _, fun _ => rfl, herrors⟩
  | full f hslot hconsumer hproducer hall herrors =>
      rw [hall]
      exact ⟨List.prefix_append _ _, by simp, fun h => absurd h hslot.occupied, herrors⟩

/-- A frame of two bytes through a slot whose cells are stale; the consumer starts before the
producer is done. -/
theorem mailbox_exact_stale :
    ∃ s, mailboxMachine.exec (.init { SioMailboxSlot.empty with bytes := fun _ => 0xAA, len := 9 })
        ([.publish ⟨⟨42, 0, 1, 7, 3, ⟨[1, 2], by decide⟩⟩, by decide⟩] ++
          List.replicate 4 .publishStep ++ [.take, .takeStep] ++
          List.replicate 6 .publishStep ++ [.take] ++ List.replicate 10 .takeStep) = some s ∧
      s.published = [⟨42, 0, 1, 7, 3, ⟨[1, 2], by decide⟩⟩] ∧ s.taken = s.published := by
  have hsome : (mailboxMachine.exec
      (.init { SioMailboxSlot.empty with bytes := fun _ => 0xAA, len := 9 })
      ([.publish ⟨⟨42, 0, 1, 7, 3, ⟨[1, 2], by decide⟩⟩, by decide⟩] ++
          List.replicate 4 .publishStep ++ [.take, .takeStep] ++
          List.replicate 6 .publishStep ++ [.take] ++ List.replicate 10 .takeStep)).map
      (fun s => (s.published, s.slot.occupied)) =
        some ([⟨42, 0, 1, 7, 3, ⟨[1, 2], by decide⟩⟩], 0) := by decide +kernel
  obtain ⟨s, hrun, hs⟩ := Option.map_eq_some_iff.mp hsome
  obtain ⟨hpublished, hempty⟩ := Prod.mk.inj hs
  exact ⟨s, hrun, hpublished, (mailbox_exact _ rfl _ s hrun).2.2.1 hempty⟩

end HibanaPico.Baker
