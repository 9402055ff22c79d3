import HibanaPico.SensorPanel.Conformance

/-!
# Sensor panel — Acks

`poll_wifi_udp_ack` takes one packet out of the radio, and compares its ack with the sequence number
of the cycle.

* `AckedInOrder`: the Uno Q acks each datagram at most once and in their order, at any time.
* `SessionState.Polling`: what a poll is about to answer.
* `CycleNote.AckMatched`: a write is committed on its own ack, and whenever that ack was in time.
* `acks_matched_iff`: all are, exactly when an ack that is in time is the first frame of the radio.
-/

namespace HibanaPico.SensorPanel
open HibanaPico.Support
open HibanaPico.Transport

variable {P : Panel} {s t : SessionState} {lightRaw : U16} {bus : Dht20Bus} {gspi : GspiOutcome}
  {A : List RadioFrame}

/-! ### Frames -/

/-- An ack of this number is among the frames. -/
def HasAck (seq : U16) (frames : List RadioFrame) : Prop := ∃ frame ∈ frames, ackOk frame seq = true

/-- It is the first of them. -/
def AckFirst (seq : U16) (frames : List RadioFrame) : Prop :=
  ∃ frame ∈ frames.head?, ackOk frame seq = true

instance (seq : U16) (frames : List RadioFrame) : Decidable (HasAck seq frames) :=
  inferInstanceAs (Decidable (∃ frame ∈ frames, _))

instance (seq : U16) : ∀ frames, Decidable (AckFirst seq frames)
  | [] => .isFalse fun ⟨_, h, _⟩ => by cases h
  | frame :: _ => decidable_of_iff (ackOk frame seq = true)
      ⟨fun h => ⟨frame, rfl, h⟩, fun ⟨_, h, hack⟩ => Option.some.inj h ▸ hack⟩

/-- The payload of the ack of the `n`th datagram. -/
def SessionState.ackOf (s : SessionState) (n : ℕ) : Option (List U8) :=
  (s.sent[n]?.bind fun datagram => pico2wSampleFromPayload datagram.slice).map fun sample =>
    pico2wSensorUdpAck sample.seq

/-- What comes into the radio is the ack of a datagram that was sent, later than those that were
acked. -/
def AckedInOrder (s : SessionState) : SessionAction → Prop
  | .arrive frame (some n) =>
      s.heard ≤ n ∧ frame.isSome = true ∧ frame.map (·.slice) = s.ackOf n
  | .arrive _ none => False
  | _ => True

instance (s : SessionState) : ∀ a, Decidable (AckedInOrder s a)
  | .arrive _ (some _) => inferInstanceAs (Decidable (_ ∧ _ ∧ _))
  | .arrive _ none => .isFalse id
  | .call _ | .ret | .driver _ _ | .driverFails | .boundary _ | .boundaryFails => .isTrue trivial

/-- The frame that comes in. -/
def SessionAction.arrived : SessionAction → Option RadioFrame
  | .arrive frame _ => some frame
  | _ => none

/-! ### Cycles -/

/-- A cycle's write is committed only if its ack was received, and if it was in the radio when the
cycle polled. -/
structure CycleNote.AckMatched (arrived : List RadioFrame) (c : CycleNote) : Prop where
  committed : c.errno = some 0 → HasAck c.seq arrived
  inTime : HasAck c.seq c.queued → c.errno = some 0

/-- An ack that is in time is the first frame of the radio, and the radio does not fail. -/
def CycleNote.InFront (c : CycleNote) : Prop :=
  HasAck c.seq c.queued → AckFirst c.seq c.queued ∧ c.failed = false

instance (c : CycleNote) : Decidable c.InFront := inferInstanceAs (Decidable (_ → _))

/-- What the poll has answered: the packet of the first frame, unless the radio failed. -/
def Answers (queued : List RadioFrame) (failed : Bool) (packet : Option SensorWifiPacket) : Prop :=
  ∀ frame ∈ queued.head?, packet = if failed then none else frame

/-- A cycle as it is noted. -/
def CycleNote.Sound (arrived : List RadioFrame) (c : CycleNote) : Prop :=
  ∃ packet : Option SensorWifiPacket, (packet.isSome = true → packet ∈ arrived) ∧
    Answers c.queued c.failed packet ∧ (c.errno = some 0 ↔ ackOk packet c.seq = true)

theorem HasAck.head {seq : U16} {frames : List RadioFrame} (h : HasAck seq frames) :
    ∃ frame, frames.head? = some frame := by
  obtain ⟨frame, hmem, -⟩ := h
  cases frames with
  | nil => cases hmem
  | cons first rest => exact ⟨first, rfl⟩

namespace CycleNote
variable {c : CycleNote}

theorem Sound.committed (h : c.Sound A) (errno : c.errno = some 0) : HasAck c.seq A := by
  obtain ⟨packet, hmem, -, hack⟩ := h
  have ack := hack.mp errno
  cases packet with
  | none => cases ack
  | some packet => exact ⟨some packet, hmem rfl, ack⟩

/-- **A cycle whose ack is in time** is committed exactly when that ack is the first frame. -/
theorem Sound.inTime_iff (h : c.Sound A) (inTime : HasAck c.seq c.queued) :
    c.errno = some 0 ↔ AckFirst c.seq c.queued ∧ c.failed = false := by
  obtain ⟨packet, -, hanswers, hack⟩ := h
  obtain ⟨frame, hframe⟩ := inTime.head
  have hpacket := hanswers frame hframe
  rw [hack, hpacket, AckFirst, hframe]
  cases c.failed with
  | true => exact ⟨fun h => Bool.noConfusion h, fun h => Bool.noConfusion h.2⟩
  | false => exact ⟨fun h => ⟨⟨frame, rfl, h⟩, rfl⟩, fun ⟨⟨_, hsame, h⟩, _⟩ =>
      Option.some.inj hsame ▸ h⟩

theorem Sound.matched_iff (h : c.Sound A) : c.AckMatched A ↔ c.InFront :=
  ⟨fun hmatched inTime => (h.inTime_iff inTime).mp (hmatched.inTime inTime),
    fun inFront => ⟨h.committed, fun inTime => (h.inTime_iff inTime).mpr (inFront inTime)⟩⟩

end CycleNote

/-! ### Where a poll is -/

section
variable {b : BoundaryPhase} {tb fb : List Msg} {m : Msg} {request : FdWrite} {seq : U16}

theorem Paired.unpolled (h : Paired (.commit false m) tb b fb) :
    tb = [] ∧ b = .rxOffer ∧ fb = [] := by
  cases h with
  | idle idle => exact idle.elim
  | txFailed => exact ⟨rfl, rfl, rfl⟩

theorem Paired.offers (h : Paired (.rxSend request seq) tb b fb) : b = .rxOffer := by
  cases h with
  | idle idle => exact idle.elim
  | txDone => rfl

/-- What the boundary sends to a driver that polls is its answer. -/
theorem Paired.answer (h : Paired (.rxOffer request seq) tb b fb) {after : BoundaryPhase}
    (sends : b.sends = some (m, after)) :
    b = .rxSend m.packet ∧ fb = [] ∧ after = .txOffer := by
  cases h with
  | idle idle => exact idle.elim
  | rxAsked | receiving | rxAnswered => cases sends
  | rxAnswers request seq packet =>
      cases packet with
      | none =>
          cases sends
          exact ⟨rfl, rfl, rfl⟩
      | some packet =>
          cases sends
          exact ⟨rfl, rfl, rfl⟩

/-- The only message on its way to the boundary is then the poll. -/
theorem Paired.poll (h : Paired (.rxOffer request seq) (m :: tb) b fb) :
    b = .rxOffer ∧ ∃ localPort, m = .wifiRxPoll localPort := by
  cases h with
  | rxAsked request seq localPort => exact ⟨rfl, localPort, rfl⟩

theorem Paired.hasAnswered (h : Paired (.rxOffer request seq) tb b (m :: fb)) : b = .txOffer := by
  cases h with
  | rxAnswered => rfl

end

/-- What a poll that has begun will answer, by where the boundary is. -/
def Answering (queued : List RadioFrame) (failed : Bool) (radio : List RadioFrame)
    (fromBoundary : List Msg) : BoundaryPhase → Prop
  | .receiving _ _ => failed = false ∧ ∀ frame ∈ queued.head?, radio.head? = some frame
  | .rxSend packet => Answers queued failed packet
  | .txOffer => ∀ m ∈ fromBoundary, Answers queued failed m.packet
  | _ => True

/-- The driver does not poll, nor wait for anything but the answer to a datagram. -/
def DriverPhase.Unpolling : DriverPhase → Prop
  | .serve _ | .reply _ _ | .txSend _ _ _ | .txOffer _ _ => True
  | _ => False

structure Strayed (d : DriverPhase) (toBoundary : List Msg) (b : BoundaryPhase)
    (boundaryEnded : Bool) (fromBoundary : List Msg) : Prop where
  silent : fromBoundary = []
  driver : d.Unpolling
  boundary : boundaryEnded = true ∨ b = .rxOffer ∧ ∀ m ∈ toBoundary, m.label = .wifiTxUdp

namespace SessionState

def Polling (s : SessionState) : Prop :=
  ∀ request seq, s.driver = .rxOffer request seq →
    Answering s.queued s.failed s.radio s.fromBoundary s.boundary

/-- The driver has gone on behind a `WIFI_TX_ERR`, and the boundary waits for a poll. -/
def Astray (s : SessionState) : Prop :=
  Strayed s.driver s.toBoundary s.boundary s.boundaryEnded s.fromBoundary

/-- Where the packets of a session are from, and how its polls stand. -/
structure AckInv (A : List RadioFrame) (s : SessionState) : Prop where
  notes : ∀ c ∈ s.cycles, c.Sound A
  radio : ∀ frame ∈ s.radio, frame ∈ A ∧ frame.isSome = true
  answer : ∀ packet, s.boundary = .rxSend (some packet) → some packet ∈ A
  packets : ∀ m ∈ s.fromBoundary, ∀ packet, m.packet = some packet → some packet ∈ A
  paired : s.driverEnded = false → s.Astray ∨ s.InStep
  polling : s.driverEnded = false → s.Polling

theorem ackInv_init (A : List RadioFrame) : init.AckInv A where
  notes _ h := nomatch h
  radio _ h := nomatch h
  answer _ h := nomatch h
  packets _ h := nomatch h
  paired _ := .inr inStep_init
  polling _ _ _ h := nomatch h

/-! ### The driver -/

/-- The reply of a polled cycle is committed exactly on its ack. -/
theorem errno_unoQReply (request : FdWrite) (ackOk : Bool) :
    (unoQReply request ackOk).errno = some 0 ↔ ackOk = true := by
  cases ackOk with
  | true => exact ⟨fun _ => rfl, fun _ => rfl⟩
  | false =>
      have io : wasiErrnoIo ≠ 0 := by decide
      exact ⟨fun h => absurd (Option.some.inj h) io, fun h => Bool.noConfusion h⟩

/-- No message has the driver wait for the answer to a poll. -/
theorem handled_ne_rxOffer {d phase : DriverPhase} {m : Msg} {sensorUdpSeq : U16}
    (handled : (driverHandle P lightRaw bus sensorUdpSeq d m).1 = some phase)
    (request : FdWrite) (seq : U16) : phase ≠ .rxOffer request seq := by
  rintro rfl
  cases d with
  | bootSend | reply | txSend | rxSend | commit => cases handled
  | bootRecv ret steps => cases steps <;> cases handled
  | serve i =>
      obtain ⟨reply, h, -⟩ | ⟨-, _, _, _, -, -, h⟩ := served_cases handled
      · cases h
      · cases h
  | txOffer request seq =>
      obtain ⟨_, -, h⟩ | ⟨-, h⟩ := txAnswered_cases handled
      · cases h
      · cases h
  | rxOffer request seq =>
      obtain ⟨-, h⟩ := rxAnswered_cases handled
      cases h

/-- The driver has received a message. -/
theorem ackInv_driverReceived {m : Msg} (notes : ∀ c ∈ s.cycles, c.Sound A)
    (radio : ∀ frame ∈ s.radio, frame ∈ A ∧ frame.isSome = true)
    (answer : ∀ packet, s.boundary = .rxSend (some packet) → some packet ∈ A)
    (packets : ∀ m ∈ s.fromBoundary, ∀ packet, m.packet = some packet → some packet ∈ A)
    (taken : ∀ phase, (driverHandle P lightRaw bus s.sensorUdpSeq s.driver m).1 = some phase →
      (({ s with driver := phase } : SessionState).Astray ∨
        ({ s with driver := phase } : SessionState).InStep) ∧
        ∀ c ∈ s.noteCycle s.driver phase, c.Sound A) :
    (s.driverReceived P lightRaw bus m).AckInv A := by
  rw [SessionState.driverReceived]
  cases handled : (driverHandle P lightRaw bus s.sensorUdpSeq s.driver m).1 with
  | none =>
      exact ⟨notes, radio, answer, packets, fun live => Bool.noConfusion live,
        fun live => Bool.noConfusion live⟩
  | some phase =>
      obtain ⟨paired, noted⟩ := taken phase handled
      refine ⟨fun c hc => ?_, radio, answer, packets, fun _ => ?_, fun _ request seq driver => ?_⟩
      · exact (List.mem_append.mp hc).elim (notes c) (noted c)
      · exact paired
      · exact absurd driver (handled_ne_rxOffer handled request seq)

theorem Astray.sent {target : Role} {m : Msg} {phase : DriverPhase} (h : s.Astray)
    (sends : s.driver.sends P.srcPort = some (target, m, phase)) :
    (s.driverSent target m phase).Astray := by
  obtain ⟨silent, unpolling, boundary⟩ := h
  cases driver : s.driver with
  | bootSend | bootRecv | rxSend | rxOffer | commit =>
      rw [driver] at unpolling
      exact unpolling.elim
  | serve | txOffer =>
      rw [driver] at sends
      cases sends
  | reply i m =>
      rw [driver] at sends
      cases sends
      exact ⟨silent, trivial, boundary⟩
  | txSend request datagram seq =>
      rw [driver] at sends
      cases sends
      refine ⟨silent, trivial, boundary.imp_right fun ⟨offers, unanswered⟩ => ⟨offers, ?_⟩⟩
      intro m hm
      rcases List.mem_append.mp hm with hm | hm
      · exact unanswered m hm
      · rw [List.mem_singleton.mp hm]
        rfl

/-- Behind a `WIFI_TX_ERR` the driver sends its reply, and the boundary waits for a poll. -/
theorem InStep.skips {m : Msg} (h : s.InStep) (driver : s.driver = .commit false m) :
    (s.driverSent .engine m (.serve .poll)).Astray := by
  rw [InStep, driver] at h
  obtain ⟨asked, offers, silent⟩ := h.unpolled
  exact ⟨silent, trivial, .inr ⟨offers, asked ▸ List.forall_mem_nil _⟩⟩

/-- The driver polls when the boundary waits for it. -/
theorem polling_driverSent {target : Role} {m : Msg} {phase : DriverPhase}
    (paired : s.Astray ∨ s.InStep) (sends : s.driver.sends P.srcPort = some (target, m, phase)) :
    (s.driverSent target m phase).Polling := by
  rintro request seq rfl
  cases driver : s.driver with
  | bootSend steps =>
      rw [driver] at sends
      cases steps <;> cases sends
  | bootRecv | serve | reply | txSend | txOffer | rxOffer | commit =>
      rw [driver] at sends
      cases sends
  | rxSend request seq =>
      rcases paired with astray | inStep
      · have unpolling := astray.driver
        rw [driver] at unpolling
        exact unpolling.elim
      · rw [InStep, driver] at inStep
        rw [SessionState.driverSent, inStep.offers]
        trivial

/-- The answer to a poll, as it is noted. -/
theorem sound_noteCycle {m : Msg} {rest : List Msg} {phase : DriverPhase} (inStep : s.InStep)
    (channel : s.fromBoundary = m :: rest)
    (packets : ∀ m ∈ s.fromBoundary, ∀ packet, m.packet = some packet → some packet ∈ A)
    (polling : s.Polling)
    (handled : (driverHandle P lightRaw bus s.sensorUdpSeq s.driver m).1 = some phase) :
    ∀ c ∈ s.noteCycle s.driver phase, c.Sound A := by
  have mem : m ∈ s.fromBoundary := channel ▸ List.mem_cons_self
  intro c hc
  cases driver : s.driver with
  | rxOffer request seq =>
      rw [driver] at handled hc
      obtain ⟨-, rfl⟩ := rxAnswered_cases handled
      obtain rfl := List.mem_singleton.mp hc
      have answered := polling request seq driver
      rw [InStep, driver, channel] at inStep
      rw [inStep.hasAnswered] at answered
      refine ⟨m.packet, fun some => ?_, answered m mem, errno_unoQReply request _⟩
      obtain ⟨packet, hpacket⟩ := Option.isSome_iff_exists.mp some
      exact hpacket ▸ packets m mem packet hpacket
  | _ =>
      rw [driver] at hc
      exact absurd hc List.not_mem_nil

/-- A call of the driver's. -/
theorem AckInv.driverStep (h : s.AckInv A) (live : s.driverEnded = false)
    (hstep : DriverStep P lightRaw bus s t) : t.AckInv A := by
  cases hstep with
  | sent target m phase sends =>
      have paired := h.paired live
      refine ⟨h.notes, h.radio, h.answer, h.packets, fun _ => ?_, fun _ =>
        polling_driverSent paired sends⟩
      rcases paired with astray | inStep
      · exact .inl (astray.sent sends)
      · by_cases skips : ∃ m, s.driver = .commit false m
        · obtain ⟨m, driver⟩ := skips
          rw [driver] at sends
          cases sends
          exact .inl (inStep.skips driver)
        · exact .inr (Paired.driverSent inStep (fun m driver => skips ⟨m, driver⟩) sends)
  | served i m rest driver channel label =>
      refine ackInv_driverReceived h.notes h.radio h.answer h.packets fun phase handled => ?_
      have driver : ({ s with toKernel := rest } : SessionState).driver = .serve i := driver
      rw [driver] at handled ⊢
      refine ⟨(h.paired live).imp (fun astray => ?_) fun inStep => ?_, fun c hc => nomatch hc⟩
      · obtain ⟨reply, rfl, -⟩ | ⟨-, _, _, _, -, -, rfl⟩ := served_cases handled
        · exact ⟨astray.silent, trivial, astray.boundary⟩
        · exact ⟨astray.silent, trivial, astray.boundary⟩
      · rw [InStep, show s.driver = .serve i from driver] at inStep
        exact inStep.served handled
  | answered m rest source channel awaited =>
      rcases h.paired live with astray | inStep
      · cases channel.symm.trans astray.silent
      · have packets : ∀ m ∈ rest, ∀ packet, m.packet = some packet → some packet ∈ A :=
          fun m hm => h.packets m (channel ▸ List.mem_cons_of_mem _ hm)
        refine ackInv_driverReceived h.notes h.radio h.answer packets fun phase handled =>
          ⟨.inr ?_, sound_noteCycle (s := s) inStep channel h.packets (h.polling live) handled⟩
        rw [InStep, channel] at inStep
        exact inStep.driverAnswered handled
  | mismatched m channel sends other =>
      exact ⟨h.notes, h.radio, h.answer, h.packets, fun live => Bool.noConfusion live,
        fun live => Bool.noConfusion live⟩

/-! ### The boundary -/

theorem recvHead_cases (emptyPolls frames : ℕ) :
    UnoQWifiSender.recvHead emptyPolls frames = .receiving emptyPolls frames ∨
      UnoQWifiSender.recvHead emptyPolls frames = .rxSend none := by
  rw [UnoQWifiSender.recvHead]
  split
  · exact .inl rfl
  · exact .inr rfl

/-- The loop of `recv_packet` reads the radio from its front. -/
theorem recvTurn_radio (gspi : GspiOutcome) (emptyPolls frames : ℕ) (radio : List RadioFrame) :
    (UnoQWifiSender.recvTurn gspi emptyPolls frames radio).2 <:+ radio := by
  rw [UnoQWifiSender.recvTurn.eq_def]
  split
  · exact List.suffix_rfl
  · exact List.suffix_rfl
  · exact List.suffix_cons _ _
  · exact List.suffix_cons _ _
  · exact List.suffix_cons _ _

/-- It returns a packet that is the front of the radio. -/
theorem recvTurn_answer {emptyPolls frames : ℕ} {radio : List RadioFrame}
    {packet : SensorWifiPacket}
    (h : (UnoQWifiSender.recvTurn gspi emptyPolls frames radio).1 = .rxSend (some packet)) :
    some packet ∈ radio := by
  have head (emptyPolls frames : ℕ) :
      UnoQWifiSender.recvHead emptyPolls frames ≠ .rxSend (some packet) := by
    intro h
    rcases recvHead_cases emptyPolls frames with h' | h' <;> cases h'.symm.trans h
  rw [UnoQWifiSender.recvTurn.eq_def] at h
  split at h
  · cases h
  · exact absurd h (head _ _)
  · cases h
    exact List.mem_cons_self
  · exact absurd h (head _ _)
  · cases h

/-- **A turn of a poll**: with a packet at the front, it is the last. -/
theorem answering_recvTurn {queued radio : List RadioFrame} {emptyPolls frames : ℕ}
    {fromBoundary : List Msg} (packets : ∀ frame ∈ radio, frame.isSome = true)
    (front : ∀ frame ∈ queued.head?, radio.head? = some frame) :
    Answering queued (recvFails gspi radio)
      (UnoQWifiSender.recvTurn gspi emptyPolls frames radio).2 fromBoundary
      (UnoQWifiSender.recvTurn gspi emptyPolls frames radio).1 := by
  cases radio with
  | nil =>
      have none (packet : Option SensorWifiPacket) (failed : Bool) : Answers queued failed packet :=
        fun frame hframe => nomatch front frame hframe
      have head : Answering queued false [] fromBoundary
          (UnoQWifiSender.recvHead (emptyPolls + 1) frames) := by
        rcases recvHead_cases (emptyPolls + 1) frames with h | h
        · rw [h]
          exact ⟨rfl, fun frame hframe => nomatch front frame hframe⟩
        · rw [h]
          exact none _ _
      cases gspi with
      | fails => exact none _ _
      | ok | replyFails => exact head
  | cons frame radio =>
      obtain ⟨packet, rfl⟩ := Option.isSome_iff_exists.mp (packets frame List.mem_cons_self)
      cases gspi with
      | fails => exact fun frame _ => rfl
      | ok | replyFails => exact fun frame hframe => Option.some.inj (front frame hframe)

/-- Where the boundary is after it has sent. -/
theorem ne_rxSend_of_sends {b after : BoundaryPhase} {m : Msg} (sends : b.sends = some (m, after))
    (packet : Option SensorWifiPacket) : after ≠ .rxSend packet := by
  rintro rfl
  cases b with
  | bootRecv | txOffer | rxOffer | receiving => cases sends
  | bootReady ret steps => cases steps <;> cases sends
  | txSend result => cases result <;> cases sends
  | rxSend packet => cases packet <;> cases sends

/-- A packet that it sends is the one it has. -/
theorem packet_of_sends {b after : BoundaryPhase} {m : Msg} {packet : SensorWifiPacket}
    (sends : b.sends = some (m, after)) (hpacket : m.packet = some packet) :
    b = .rxSend (some packet) := by
  cases b with
  | bootRecv | txOffer | rxOffer | receiving => cases sends
  | bootReady ret steps =>
      cases sends
      cases hpacket
  | txSend result =>
      cases result with
      | none =>
          cases sends
          cases hpacket
      | some written =>
          cases sends
          cases hpacket
  | rxSend result =>
      cases result with
      | none =>
          cases sends
          cases hpacket
      | some packet' =>
          cases sends
          cases hpacket
          rfl

/-- The boundary sends. -/
theorem polling_boundarySent {m : Msg} {phase : BoundaryPhase} (inStep : s.InStep)
    (polling : s.Polling) (sends : s.boundary.sends = some (m, phase)) :
    (s.boundarySent P m phase).Polling := by
  intro request seq driver
  have answering := polling request seq driver
  rw [InStep, show s.driver = .rxOffer request seq from driver] at inStep
  obtain ⟨boundary, silent, rfl⟩ := inStep.answer sends
  rw [boundary] at answering
  intro m' hm'
  rw [show (s.boundarySent P m .txOffer).fromBoundary = s.fromBoundary ++ [m] from rfl, silent]
    at hm'
  rw [List.mem_singleton.mp hm']
  exact answering

/-- What the boundary makes of a message leaves the radio as it is, and what it has answered. -/
theorem boundaryReceived_radio (gspi : GspiOutcome) (s : SessionState) (m : Msg) :
    (s.boundaryReceived gspi m).radio = s.radio ∧
      (s.boundaryReceived gspi m).fromBoundary = s.fromBoundary ∧
      (s.boundaryReceived gspi m).cycles = s.cycles ∧
      ∀ packet, (s.boundaryReceived gspi m).boundary = .rxSend (some packet) →
        s.boundary = .rxSend (some packet) := by
  rw [SessionState.boundaryReceived, boundaryHandle.eq_def]
  split
  · refine ⟨rfl, rfl, rfl, fun _ h => ?_⟩
    cases h
  · refine ⟨rfl, rfl, rfl, fun _ h => ?_⟩
    cases h
  · refine ⟨rfl, rfl, rfl, fun packet h => ?_⟩
    dsimp only at h
    rw [UnoQWifiSender.recvPacket] at h
    split at h
    · rcases recvHead_cases 0 0 with h' | h' <;> cases h'.symm.trans h
    · cases h
  · exact ⟨rfl, rfl, rfl, fun _ h => h⟩

/-- The boundary receives a request. -/
theorem polling_boundaryReceived {m : Msg} {rest : List Msg} (inStep : s.InStep)
    (channel : s.toBoundary = m :: rest) :
    (SessionState.boundaryReceived gspi { s with toBoundary := rest } m).Polling := by
  intro request seq driver
  obtain ⟨hdriver, -⟩ := boundaryHandle_frame gspi { s with
    toBoundary := rest, boundaryCalls := s.boundaryCalls ++ [.received .kernel m.label] }
    s.boundary m
  rw [InStep, channel, show s.driver = .rxOffer request seq from hdriver.symm.trans driver]
    at inStep
  obtain ⟨boundary, localPort, rfl⟩ := inStep.poll
  rw [SessionState.boundaryReceived, show ({ s with toBoundary := rest } : SessionState).boundary =
    .rxOffer from boundary, boundaryHandle]
  dsimp only
  rw [UnoQWifiSender.recvPacket]
  cases s.wifi.driver with
  | true => exact ⟨rfl, fun frame hframe => hframe⟩
  | false => exact fun frame _ => rfl

/-- A boundary that waits for a poll in vain has nothing to send, -/
theorem Astray.not_sends {m : Msg} {phase : BoundaryPhase} (h : s.Astray)
    (live : ¬ s.boundaryEnded = true) : s.boundary.sends ≠ some (m, phase) := by
  rcases h.boundary with ended | ⟨offers, -⟩
  · exact absurd ended live
  · rw [offers]
    exact fun h => nomatch h

/-- and finds no poll. -/
theorem Astray.not_awaits {m : Msg} (h : s.Astray) (live : ¬ s.boundaryEnded = true)
    (asked : m ∈ s.toBoundary) : s.boundary.awaits m.label = false := by
  rcases h.boundary with ended | ⟨offers, datagrams⟩
  · exact absurd ended live
  · rw [offers, datagrams m asked]
    rfl

/-- A call of the boundary's. -/
theorem AckInv.boundaryStep (h : s.AckInv A) (live : s.boundaryEnded = false)
    (hstep : BoundaryStep P gspi s t) : t.AckInv A := by
  have lives : ¬ s.boundaryEnded = true := Bool.not_eq_true _ ▸ live
  cases hstep with
  | receiving emptyPolls frames boundary =>
      refine ⟨h.notes, fun frame hframe => h.radio frame ?_, fun packet hpacket => ?_, h.packets,
        fun driverLive => (h.paired driverLive).imp (fun astray => ?_) fun inStep => ?_,
        fun driverLive request seq driver => ?_⟩
      · exact (recvTurn_radio gspi emptyPolls frames s.radio).subset hframe
      · exact (h.radio _ (recvTurn_answer hpacket)).1
      · rcases astray.boundary with ended | ⟨offers, -⟩
        · exact absurd ended lives
        · cases boundary.symm.trans offers
      · rw [InStep, boundary] at inStep
        exact inStep.received gspi s.radio
      · have answering := h.polling driverLive request seq driver
        rw [boundary] at answering
        dsimp only
        rw [answering.1, Bool.false_or]
        exact answering_recvTurn (fun frame hframe => (h.radio frame hframe).2) answering.2
  | bringupFailed ret steps boundary =>
      exact ⟨h.notes, h.radio, h.answer, h.packets, fun driverLive => (h.paired driverLive).imp_left
        fun astray => ⟨astray.silent, astray.driver, .inl rfl⟩, h.polling⟩
  | sent m phase sends =>
      refine ⟨h.notes, h.radio, fun packet hphase => ?_, fun m' hm' packet hpacket => ?_,
        fun driverLive => (h.paired driverLive).imp (fun astray => ?_) fun inStep => ?_,
        fun driverLive => ?_⟩
      · exact absurd hphase (ne_rxSend_of_sends sends _)
      · rcases List.mem_append.mp hm' with hm' | hm'
        · exact h.packets m' hm' packet hpacket
        · obtain rfl := List.mem_singleton.mp hm'
          exact h.answer packet (packet_of_sends sends hpacket)
      · exact absurd sends (astray.not_sends lives)
      · exact Paired.boundarySent inStep sends
      · rcases h.paired driverLive with astray | inStep
        · exact absurd sends (astray.not_sends lives)
        · exact polling_boundarySent inStep (h.polling driverLive) sends
  | received m rest channel awaited =>
      have asked : m ∈ s.toBoundary := channel ▸ List.mem_cons_self
      have inStep (driverLive : s.driverEnded = false) : s.InStep := by
        refine (h.paired driverLive).resolve_left fun astray => ?_
        exact absurd awaited (Bool.not_eq_true _ ▸ astray.not_awaits lives asked)
      obtain ⟨-, driverEnded, -, -, -, -, -, -, -⟩ := boundaryHandle_frame gspi { s with
        toBoundary := rest, boundaryCalls := s.boundaryCalls ++ [.received .kernel m.label] }
        s.boundary m
      obtain ⟨radio, fromBoundary, cycles, answer⟩ :=
        boundaryReceived_radio gspi { s with toBoundary := rest } m
      refine ⟨?_, ?_, fun packet hpacket => ?_, ?_, fun driverLive => ?_, fun driverLive => ?_⟩
      · rw [cycles]
        exact h.notes
      · rw [radio]
        exact h.radio
      · exact h.answer packet (answer packet hpacket)
      · rw [fromBoundary]
        exact h.packets
      · exact .inr (InStep.boundaryReceived (inStep (driverEnded.symm.trans driverLive)) channel)
      · exact polling_boundaryReceived (inStep (driverEnded.symm.trans driverLive)) channel
  | mismatched m rest channel other =>
      exact ⟨h.notes, h.radio, h.answer, h.packets, fun driverLive => (h.paired driverLive).imp_left
        fun astray => ⟨astray.silent, astray.driver, .inl rfl⟩, h.polling⟩

/-! ### Runs -/

theorem answering_arrive {queued radio : List RadioFrame} {failed : Bool} {fromBoundary : List Msg}
    {b : BoundaryPhase} (h : Answering queued failed radio fromBoundary b) (frame : RadioFrame) :
    Answering queued failed (radio ++ [frame]) fromBoundary b := by
  cases b with
  | receiving emptyPolls frames =>
      refine ⟨h.1, fun first hfirst => ?_⟩
      rw [List.head?_append, h.2 first hfirst]
      rfl
  | _ => exact h

/-- A step. -/
theorem AckInv.step {a : SessionAction} (h : s.AckInv A)
    (arrives : ∀ frame, a.arrived = some frame → frame ∈ A ∧ frame.isSome = true)
    (hnext : s.next P a = some t) : t.AckInv A := by
  cases a with
  | call m =>
      obtain ⟨i, -, -, rfl⟩ := guestCalls_eq hnext
      exact ⟨h.notes, h.radio, h.answer, h.packets, h.paired, h.polling⟩
  | ret =>
      obtain ⟨i, m, rest, -, -, ⟨-, rfl⟩ | ⟨-, rfl⟩⟩ := guestReturns_eq hnext
      · exact ⟨h.notes, h.radio, h.answer, h.packets, h.paired, h.polling⟩
      · exact ⟨h.notes, h.radio, h.answer, h.packets, h.paired, h.polling⟩
  | driver lightRaw bus =>
      obtain ⟨live, hstep⟩ := SensorPanel.driverStep hnext
      exact h.driverStep live hstep
  | driverFails =>
      obtain ⟨-, rfl⟩ := driverFails_eq hnext
      exact ⟨h.notes, h.radio, h.answer, h.packets, fun live => Bool.noConfusion live,
        fun live => Bool.noConfusion live⟩
  | boundary gspi =>
      obtain ⟨live, hstep⟩ := SensorPanel.boundaryStep hnext
      exact h.boundaryStep live hstep
  | boundaryFails =>
      obtain ⟨-, rfl⟩ := boundaryFails_eq hnext
      exact ⟨h.notes, h.radio, h.answer, h.packets, fun live => (h.paired live).imp_left
        fun astray => ⟨astray.silent, astray.driver, .inl rfl⟩, h.polling⟩
  | arrive frame answers =>
      cases hnext
      refine ⟨h.notes, fun f hf => ?_, h.answer, h.packets, h.paired, fun live request seq driver =>
        answering_arrive (h.polling live request seq driver) frame⟩
      rcases List.mem_append.mp hf with hf | hf
      · exact h.radio f hf
      · exact List.mem_singleton.mp hf ▸ arrives frame rfl

theorem ackInv_run {acts : List SessionAction} (h : (sessionMachine P).exec init acts = some s)
    (peer : (sessionMachine P).Along AckedInOrder init acts) :
    s.AckInv (acts.filterMap SessionAction.arrived) := by
  refine Machine.exec_invariant (P := fun s a => a ∈ acts ∧ AckedInOrder s a)
    (fun s a t hI hP hnext => hI.step (fun frame hframe => ⟨?_, ?_⟩) hnext)
    (ackInv_init _) ((Machine.along_mem init acts).and peer) h
  · exact List.mem_filterMap.mpr ⟨a, hP.1, hframe⟩
  · cases a with
    | arrive frame answers =>
        cases hframe
        cases answers with
        | none => exact hP.2.elim
        | some n => exact hP.2.2.1
    | _ => cases hframe

end SessionState

open SessionState

/-- **The acks.** Of acks that come in order, each at any time, every write is committed on its own
ack only, and whenever that ack was in time, exactly when in every cycle an ack in time is the first
frame of the radio. -/
theorem acks_matched_iff (P : Panel) {acts : List SessionAction} {s : SessionState}
    (h : (sessionMachine P).exec init acts = some s)
    (peer : (sessionMachine P).Along AckedInOrder init acts) :
    (∀ c ∈ s.cycles, c.AckMatched (acts.filterMap SessionAction.arrived)) ↔
      ∀ c ∈ s.cycles, c.InFront :=
  forall₂_congr fun c hc => ((ackInv_run h peer).notes c hc).matched_iff

/-- The ack is in the radio when the cycle polls. -/
def ackInTime : List SessionAction :=
  opened ++ writes 0 ++ [.boundary .ok, .boundary .ok, .arrive (ackFrame 0) (some 0)] ++
    [.driver 0 dht20Answer, .driver 0 dht20Answer] ++ List.replicate 3 (.boundary .ok) ++ replies

theorem acks_matched_iff_inTime : ∃ s, (sessionMachine sensorPanel).exec init ackInTime = some s ∧
    s.cycles.map (·.queued) = [[ackFrame 0]] ∧
      ∀ c ∈ s.cycles, c.AckMatched (ackInTime.filterMap SessionAction.arrived) := by
  have hrun : ((sessionMachine sensorPanel).exec init ackInTime).map
      (fun s => (s.cycles.map (·.queued), decide (∀ c ∈ s.cycles, c.InFront))) =
        some ([[ackFrame 0]], true) := by decide +kernel
  obtain ⟨s, hs, hfields⟩ := Option.map_eq_some_iff.mp hrun
  obtain ⟨queued, inFront⟩ := Prod.mk.inj hfields
  exact ⟨s, hs, queued,
    (acks_matched_iff sensorPanel hs (by decide +kernel)).mpr (of_decide_eq_true inFront)⟩

/-- The ack of the first cycle comes behind its poll, and that of the second in time. -/
def lateAck : List SessionAction :=
  opened ++ writes 0 ++ polls ++ List.replicate 18 (.boundary .ok) ++ replies ++
    [.arrive (ackFrame 0) (some 0)] ++ writes 1 ++ polls ++ [.arrive (ackFrame 1) (some 1)] ++
    List.replicate 3 (.boundary .ok) ++ replies

/-- Neither cycle is committed. -/
theorem acks_matched_lateAck :
    (sessionMachine sensorPanel).Along AckedInOrder init lateAck ∧
      ∃ s, (sessionMachine sensorPanel).exec init lateAck = some s ∧
        s.cycles.map (·.errno) = [some wasiErrnoIo, some wasiErrnoIo] ∧
        ¬ ∀ c ∈ s.cycles, c.AckMatched (lateAck.filterMap SessionAction.arrived) := by
  refine ⟨by decide +kernel, ?_⟩
  have hrun : ((sessionMachine sensorPanel).exec init lateAck).map
      (fun s => (s.cycles.map (·.errno), decide (∃ c ∈ s.cycles, HasAck c.seq c.queued))) =
        some ([some wasiErrnoIo, some wasiErrnoIo], true) := by decide +kernel
  obtain ⟨s, hs, hfields⟩ := Option.map_eq_some_iff.mp hrun
  obtain ⟨errnos, inTime⟩ := Prod.mk.inj hfields
  obtain ⟨c, hc, inTime⟩ := of_decide_eq_true inTime
  refine ⟨s, hs, errnos, fun matched => ?_⟩
  have io : ∀ errno ∈ s.cycles.map (·.errno), errno ≠ some 0 := by
    intro errno h
    rw [errnos, List.mem_cons, List.mem_singleton, or_self] at h
    rw [h]
    exact fun zero => absurd (Option.some.inj zero) (by decide)
  exact io c.errno (List.mem_map_of_mem hc) ((matched c hc).inTime inTime)

end HibanaPico.SensorPanel
