import HibanaPico.SensorPanel.Session

/-!
# Sensor panel — Lockstep

How far the guest, the driver and the boundary can be from each other.

* `DriverStep`, `BoundaryStep`: what a call of their endpoints can do.
* `Paired`, `Served`: the driver against the boundary, and the guest against the driver, with at
  most one message between them.
-/

namespace HibanaPico.SensorPanel
open HibanaPico.Support
open HibanaPico.Transport

variable {P : Panel} {s t : SessionState} {lightRaw : U16} {bus : Dht20Bus} {gspi : GspiOutcome}

/-! ### What a call of the driver's endpoint does -/

/-- A call of the driver's endpoint that returns. -/
inductive DriverStep (P : Panel) (lightRaw : U16) (bus : Dht20Bus) (s : SessionState) :
    SessionState → Prop
  | sent (target : Role) (m : Msg) (phase : DriverPhase)
      (sends : s.driver.sends P.srcPort = some (target, m, phase)) :
      DriverStep P lightRaw bus s (s.driverSent target m phase)
  | served (i : Import) (m : Msg) (rest : List Msg) (driver : s.driver = .serve i)
      (channel : s.toKernel = m :: rest) (label : m.label = i.req) :
      DriverStep P lightRaw bus s ({ s with toKernel := rest }.driverReceived P lightRaw bus m)
  | answered (m : Msg) (rest : List Msg) (source : s.driver.source = .cyw43Driver)
      (channel : s.fromBoundary = m :: rest) (awaited : s.driver.awaits m.label = true) :
      DriverStep P lightRaw bus s ({ s with fromBoundary := rest }.driverReceived P lightRaw bus m)
  | mismatched (m : Msg)
      (channel : s.driver.source = .engine ∧ s.toKernel.head? = some m ∨
        s.driver.source = .cyw43Driver ∧ s.fromBoundary.head? = some m)
      (sends : s.driver.sends P.srcPort = none)
      (other : s.driver.awaits m.label = false) :
      DriverStep P lightRaw bus s { s with driverEnded := true, mismatched := true }

theorem source_eq_engine {phase : DriverPhase} (h : phase.source = .engine) :
    ∃ i, phase = .serve i := by
  cases phase with
  | serve i => exact ⟨i, rfl⟩
  | _ => cases h

theorem source_of_ne_engine {phase : DriverPhase} (h : phase.source ≠ .engine) :
    phase.source = .cyw43Driver := by
  cases phase with
  | serve i => exact absurd rfl h
  | _ => rfl

/-- **The driver's step lemma.** -/
theorem driverStep (h : s.driverNext P lightRaw bus = some t) :
    s.driverEnded = false ∧ DriverStep P lightRaw bus s t := by
  rw [SessionState.driverNext] at h
  split at h
  · cases h
  · rename_i live
    refine ⟨Bool.not_eq_true _ ▸ live, ?_⟩
    split at h
    · rename_i target m phase sends
      cases h
      exact .sent target m phase sends
    · rename_i sends
      split at h
      · rename_i source
        split at h
        · cases h
        · rename_i m rest channel
          cases h
          rw [SessionState.driverFinds]
          split
          · rename_i awaited
            obtain ⟨i, driver⟩ := source_eq_engine source
            rw [driver] at awaited
            exact .served i m rest driver channel (eq_of_beq awaited)
          · rename_i other
            exact .mismatched m (.inl ⟨source, by rw [channel]; rfl⟩) sends
              (Bool.not_eq_true _ ▸ other)
      · rename_i source
        have source := source_of_ne_engine source
        split at h
        · cases h
        · rename_i m rest channel
          cases h
          rw [SessionState.driverFinds]
          split
          · rename_i awaited
            exact .answered m rest source channel awaited
          · rename_i other
            exact .mismatched m (.inr ⟨source, by rw [channel]; rfl⟩) sends
              (Bool.not_eq_true _ ▸ other)

/-- What the driver asks its endpoint for when the call fails. -/
def SessionState.askedCall (P : Panel) (s : SessionState) : List Event :=
  match s.driver.sends P.srcPort with
  | some (target, m, _) => [.sent target m.label]
  | none => []

theorem driverFails_eq (h : s.driverFails P = some t) : s.driverEnded = false ∧
    t = { s with driverEnded := true, driverCalls := s.driverCalls ++ s.askedCall P } := by
  rw [SessionState.driverFails] at h
  split at h
  · cases h
  · rename_i live
    cases h
    exact ⟨Bool.not_eq_true _ ▸ live, rfl⟩

/-! ### What a call of the boundary's endpoint does -/

/-- A call of the boundary's endpoint, or of the radio in `recv_packet`, that returns. -/
inductive BoundaryStep (P : Panel) (gspi : GspiOutcome) (s : SessionState) : SessionState → Prop
  | receiving (emptyPolls frames : ℕ) (boundary : s.boundary = .receiving emptyPolls frames) :
      BoundaryStep P gspi s { s with
        boundary := (UnoQWifiSender.recvTurn gspi emptyPolls frames s.radio).1
        radio := (UnoQWifiSender.recvTurn gspi emptyPolls frames s.radio).2
        failed := s.failed || SessionState.recvFails gspi s.radio }
  | bringupFailed (ret : Label) (steps : List (Label × Label))
      (boundary : s.boundary = .bootReady ret steps) :
      BoundaryStep P gspi s { s with boundaryEnded := true }
  | sent (m : Msg) (phase : BoundaryPhase) (sends : s.boundary.sends = some (m, phase)) :
      BoundaryStep P gspi s (s.boundarySent P m phase)
  | received (m : Msg) (rest : List Msg) (channel : s.toBoundary = m :: rest)
      (awaited : s.boundary.awaits m.label = true) :
      BoundaryStep P gspi s ({ s with toBoundary := rest }.boundaryReceived gspi m)
  | mismatched (m : Msg) (rest : List Msg) (channel : s.toBoundary = m :: rest)
      (other : s.boundary.awaits m.label = false) :
      BoundaryStep P gspi s { s with boundaryEnded := true, mismatched := true }

/-- **The boundary's step lemma.** -/
theorem boundaryStep (h : s.boundaryNext P gspi = some t) :
    s.boundaryEnded = false ∧ BoundaryStep P gspi s t := by
  rw [SessionState.boundaryNext] at h
  split at h
  · cases h
  · rename_i live
    refine ⟨Bool.not_eq_true _ ▸ live, ?_⟩
    split at h
    · rename_i emptyPolls frames boundary
      cases h
      exact .receiving emptyPolls frames boundary
    · rename_i ret steps boundary
      split at h
      · cases h
        exact .bringupFailed ret steps boundary
      · cases h
        exact .sent _ _ (by rw [boundary]; rfl)
    · split at h
      · rename_i m phase sends
        cases h
        exact .sent m phase sends
      · split at h
        · cases h
        · rename_i m rest channel
          split at h
          · rename_i awaited
            cases h
            exact .received m rest channel awaited
          · rename_i other
            cases h
            exact .mismatched m rest channel (Bool.not_eq_true _ ▸ other)

theorem boundaryFails_eq (h : s.boundaryFails = some t) : s.boundaryEnded = false ∧
    t = { s with
      boundaryEnded := true
      boundaryCalls := s.boundaryCalls ++ match s.boundary.sends with
        | some (m, _) => [.sent .kernel m.label]
        | none => [] } := by
  rw [SessionState.boundaryFails] at h
  split at h
  · cases h
  · rename_i live
    cases h
    exact ⟨Bool.not_eq_true _ ▸ live, rfl⟩

/-! ### What the driver makes of a message -/

/-- The answers to a datagram. -/
def Msg.AnswersTx : Msg → Prop
  | .wifiTxDone _ | .wifiTxErr => True
  | _ => False

/-- The answers to a poll. -/
def Msg.AnswersRx : Msg → Prop
  | .wifiRxPacket _ | .wifiRxPending => True
  | _ => False

section
variable {m : Msg} {phase : DriverPhase}

theorem handlePathOpen_eq {request : PathOpen} {fd : U8} {object : ℕ} {rights : U64}
    (h : handlePathOpen P request fd object rights = some m) : ∃ fd, m = .pathOpenRet fd := by
  rw [handlePathOpen] at h
  split at h
  · cases h
  · obtain ⟨_, -, h⟩ := Option.bind_eq_some_iff.mp h
    obtain ⟨fact, -, h⟩ := Option.bind_eq_some_iff.mp h
    split at h
    · cases h
    · cases h
      exact ⟨_, rfl⟩

theorem handleFdRead_eq {sensorUdpSeq : U16} {request : FdRead}
    (h : (handleFdRead P lightRaw bus sensorUdpSeq request).1 = some m) :
    ∃ sample : Pico2wSensorSample, m = .fdReadRet request.fd sample.encode := by
  rw [handleFdRead, sampledPayload_eq] at h
  dsimp only at h
  split at h
  · split at h
    · cases h
    · cases h
      exact ⟨_, rfl⟩
  · cases h

theorem handleFdWriteDisplay_eq {request : FdWrite} (h : handleFdWriteDisplay P request = some m) :
    m = fdWriteDone request ∧ ∃ sample, pico2wSampleFromPayload request.bytes = some sample := by
  obtain ⟨-, h⟩ := Option.ite_none_right_eq_some.mp h
  obtain ⟨sample, hsample, rfl⟩ := Option.map_eq_some_iff.mp h
  exact ⟨rfl, sample, hsample⟩

theorem label_unoQReply (request : FdWrite) (ackOk : Bool) :
    (unoQReply request ackOk).label = .fdWriteRet := by
  cases ackOk <;> rfl

/-- What the driver makes of a request: its reply, or a datagram for the Uno Q. -/
theorem served_cases {i : Import} {sensorUdpSeq : U16}
    (handled : (driverHandle P lightRaw bus sensorUdpSeq (.serve i) m).1 = some phase) :
    (∃ reply, phase = .reply i reply ∧ i ≠ .unoQ ∧ reply.label = i.ret) ∨
      i = .unoQ ∧ ∃ request datagram sample, m = .fdWriteReq request ∧
        handleFdWriteUnoQ P request = some (datagram, sample) ∧
        phase = .txSend request datagram sample.seq := by
  cases i with
  | openSample | openDisplay | openUnoQ =>
      cases m with
      | pathOpenReq request =>
          obtain ⟨reply, h, rfl⟩ := Option.map_eq_some_iff.mp handled
          obtain ⟨_, rfl⟩ := handlePathOpen_eq h
          exact .inl ⟨_, rfl, by decide, rfl⟩
      | _ => cases handled
  | read =>
      cases m with
      | fdReadReq request =>
          obtain ⟨reply, h, rfl⟩ := Option.map_eq_some_iff.mp handled
          obtain ⟨_, rfl⟩ := handleFdRead_eq h
          exact .inl ⟨_, rfl, by decide, rfl⟩
      | _ => cases handled
  | display =>
      cases m with
      | fdWriteReq request =>
          obtain ⟨reply, h, rfl⟩ := Option.map_eq_some_iff.mp handled
          obtain ⟨rfl, -⟩ := handleFdWriteDisplay_eq h
          exact .inl ⟨_, rfl, by decide, rfl⟩
      | _ => cases handled
  | unoQ =>
      cases m with
      | fdWriteReq request =>
          obtain ⟨⟨datagram, sample⟩, h, rfl⟩ := Option.map_eq_some_iff.mp handled
          exact .inr ⟨rfl, request, datagram, sample, rfl, h, rfl⟩
      | _ => cases handled
  | poll =>
      cases m with
      | pollOneoffReq timeoutTick =>
          obtain ⟨-, handled⟩ := Option.ite_none_right_eq_some.mp handled
          cases handled
          exact .inl ⟨_, rfl, by decide, rfl⟩
      | _ => cases handled

/-- What the driver makes of an answer to a datagram. -/
theorem txAnswered_cases {request : FdWrite} {seq sensorUdpSeq : U16}
    (handled : (driverHandle P lightRaw bus sensorUdpSeq (.txOffer request seq) m).1 =
      some phase) :
    (∃ result, m = .wifiTxDone result ∧ phase = .rxSend request seq) ∨
      m = .wifiTxErr ∧ phase = .commit false (unoQReply request false) := by
  cases m with
  | wifiTxDone result =>
      obtain ⟨-, handled⟩ := Option.ite_none_right_eq_some.mp handled
      cases handled
      exact .inl ⟨result, rfl, rfl⟩
  | wifiTxErr =>
      cases handled
      exact .inr ⟨rfl, rfl⟩
  | _ => cases handled

/-- The packet of an answer to a poll. -/
def Msg.packet : Msg → Option SensorWifiPacket
  | .wifiRxPacket packet => some packet
  | _ => none

/-- `poll_wifi_udp_ack`'s result, for the packet or none. -/
def ackOk (packet : Option SensorWifiPacket) (seq : U16) : Bool :=
  (packet.bind fun packet => decodePico2wSensorUdpAck packet.slice) == some seq

/-- What the driver makes of an answer to a poll. -/
theorem rxAnswered_cases {request : FdWrite} {seq sensorUdpSeq : U16}
    (handled : (driverHandle P lightRaw bus sensorUdpSeq (.rxOffer request seq) m).1 =
      some phase) :
    m.AnswersRx ∧ phase = .commit true (unoQReply request (ackOk m.packet seq)) := by
  cases m with
  | wifiRxPacket packet =>
      cases handled
      exact ⟨trivial, rfl⟩
  | wifiRxPending =>
      cases handled
      exact ⟨trivial, rfl⟩
  | _ => cases handled

end

/-! ### The driver and the boundary -/

/-- The driver is between two exchanges with the boundary. -/
def DriverPhase.Idle : DriverPhase → Prop
  | .serve _ | .reply _ _ | .txSend _ _ _ | .commit true _ => True
  | _ => False

/-- The driver and the boundary, and what is on its way to either, while neither has left the
choreography. -/
inductive Paired : DriverPhase → List Msg → BoundaryPhase → List Msg → Prop
  | asks (step : Label × Label) (steps : List (Label × Label)) :
      Paired (.bootSend (step :: steps)) [] (.bootRecv (step :: steps)) []
  | asked (req ret : Label) (steps : List (Label × Label)) :
      Paired (.bootRecv ret steps) [.bringup req] (.bootRecv ((req, ret) :: steps)) []
  | answers (ret : Label) (steps : List (Label × Label)) :
      Paired (.bootRecv ret steps) [] (.bootReady ret steps) []
  | answered (ret : Label) (steps : List (Label × Label)) :
      Paired (.bootRecv ret steps) [] (.booted steps) [.bringup ret]
  | idle {d : DriverPhase} (h : d.Idle) : Paired d [] .txOffer []
  | txAsked (request : FdWrite) (seq : U16) (datagram : SensorWifiDatagram) :
      Paired (.txOffer request seq) [.wifiTxUdp datagram] .txOffer []
  | txAnswers (request : FdWrite) (seq : U16) (result : Option U32) :
      Paired (.txOffer request seq) [] (.txSend result) []
  | txAnswered (request : FdWrite) (seq : U16) {m : Msg} (h : m.AnswersTx) :
      Paired (.txOffer request seq) [] .rxOffer [m]
  | txDone (request : FdWrite) (seq : U16) : Paired (.rxSend request seq) [] .rxOffer []
  | txFailed (m : Msg) : Paired (.commit false m) [] .rxOffer []
  | rxAsked (request : FdWrite) (seq localPort : U16) :
      Paired (.rxOffer request seq) [.wifiRxPoll localPort] .rxOffer []
  | receiving (request : FdWrite) (seq : U16) (emptyPolls frames : ℕ) :
      Paired (.rxOffer request seq) [] (.receiving emptyPolls frames) []
  | rxAnswers (request : FdWrite) (seq : U16) (packet : Option SensorWifiPacket) :
      Paired (.rxOffer request seq) [] (.rxSend packet) []
  | rxAnswered (request : FdWrite) (seq : U16) {m : Msg} (h : m.AnswersRx) :
      Paired (.rxOffer request seq) [] .txOffer [m]

theorem paired_booted (steps : List (Label × Label)) :
    Paired (.booted steps) [] (.booted steps) [] := by
  cases steps with
  | nil => exact .idle trivial
  | cons step steps => exact .asks step steps

theorem paired_recvHead (request : FdWrite) (seq : U16) (emptyPolls frames : ℕ) :
    Paired (.rxOffer request seq) [] (UnoQWifiSender.recvHead emptyPolls frames) [] := by
  rw [UnoQWifiSender.recvHead]
  split
  · exact .receiving request seq emptyPolls frames
  · exact .rxAnswers request seq none

/-- A turn of the loop of `recv_packet` leaves it in its loop or with its result. -/
theorem paired_recvTurn (request : FdWrite) (seq : U16) (gspi : GspiOutcome)
    (emptyPolls frames : ℕ) (radio : List RadioFrame) :
    Paired (.rxOffer request seq) []
      (UnoQWifiSender.recvTurn gspi emptyPolls frames radio).1 [] := by
  rw [UnoQWifiSender.recvTurn.eq_def]
  split
  · exact .rxAnswers request seq none
  · exact paired_recvHead request seq _ _
  · exact .rxAnswers request seq _
  · exact paired_recvHead request seq _ _
  · exact .rxAnswers request seq none

variable {d phase : DriverPhase} {b after : BoundaryPhase} {tb fb : List Msg} {m : Msg}

/-- The driver sends a message. -/
theorem Paired.driverSent (h : Paired d tb b fb) (noSkip : ∀ m, d ≠ .commit false m) {port : U16}
    {target : Role} (sends : d.sends port = some (target, m, phase)) :
    Paired phase (if target = .engine then tb else tb ++ [m]) b fb := by
  cases h with
  | asks step steps =>
      cases sends
      exact .asked _ _ steps
  | asked | answers | answered | txAsked | txAnswers | txAnswered | rxAsked | receiving | rxAnswers
      | rxAnswered => cases sends
  | idle idle =>
      cases d with
      | bootSend | bootRecv | txOffer | rxSend | rxOffer => exact idle.elim
      | serve i => cases sends
      | reply i m =>
          cases sends
          exact .idle trivial
      | txSend request datagram seq =>
          cases sends
          exact .txAsked request seq datagram
      | commit txOk m =>
          cases sends
          exact .idle trivial
  | txDone request seq =>
      cases sends
      exact .rxAsked request seq _
  | txFailed m => exact absurd rfl (noSkip m)

/-- The driver receives a request of the engine's. -/
theorem Paired.served {i : Import} (h : Paired (.serve i) tb b fb) {lightRaw : U16}
    {bus : Dht20Bus} {sensorUdpSeq : U16}
    (handled : (driverHandle P lightRaw bus sensorUdpSeq (.serve i) m).1 = some phase) :
    Paired phase tb b fb := by
  have idle : phase.Idle := by
    obtain ⟨reply, rfl, -⟩ | ⟨-, _, _, _, -, -, rfl⟩ := served_cases handled
    · trivial
    · trivial
  cases h with
  | idle => exact .idle idle

/-- An answer of the boundary is one that the driver takes. -/
theorem Paired.awaited (h : Paired d tb b (m :: fb)) : d.awaits m.label = true := by
  cases h with
  | answered ret steps => exact beq_self_eq_true ret
  | txAnswered request seq h => cases m <;> first | rfl | exact h.elim
  | rxAnswered request seq h => cases m <;> first | rfl | exact h.elim

/-- The driver receives an answer of the boundary's. -/
theorem Paired.driverAnswered (h : Paired d tb b (m :: fb)) {lightRaw : U16} {bus : Dht20Bus}
    {sensorUdpSeq : U16}
    (handled : (driverHandle P lightRaw bus sensorUdpSeq d m).1 = some phase) :
    Paired phase tb b fb := by
  cases h with
  | answered ret steps =>
      cases handled
      exact paired_booted steps
  | txAnswered request seq h =>
      obtain ⟨_, -, rfl⟩ | ⟨-, rfl⟩ := txAnswered_cases handled
      · exact .txDone request seq
      · exact .txFailed _
  | rxAnswered request seq h =>
      obtain ⟨-, rfl⟩ := rxAnswered_cases handled
      exact .idle trivial

/-- The boundary sends a message. -/
theorem Paired.boundarySent (h : Paired d tb b fb) (sends : b.sends = some (m, after)) :
    Paired d tb after (fb ++ [m]) := by
  cases h with
  | asks | asked | idle | txAsked | txAnswered | txDone | txFailed | rxAsked | receiving
      | rxAnswered => cases sends
  | answers ret steps =>
      cases sends
      exact .answered ret steps
  | answered ret steps => cases steps <;> cases sends
  | txAnswers request seq result =>
      cases result with
      | none =>
          cases sends
          exact .txAnswered request seq trivial
      | some written =>
          cases sends
          exact .txAnswered request seq trivial
  | rxAnswers request seq packet =>
      cases packet with
      | none =>
          cases sends
          exact .rxAnswered request seq trivial
      | some packet =>
          cases sends
          exact .rxAnswered request seq trivial

/-- The boundary is in the loop of `recv_packet`. -/
theorem Paired.received (gspi : GspiOutcome) {emptyPolls frames : ℕ} (radio : List RadioFrame)
    (h : Paired d tb (.receiving emptyPolls frames) fb) :
    Paired d tb (UnoQWifiSender.recvTurn gspi emptyPolls frames radio).1 fb := by
  generalize hb : BoundaryPhase.receiving emptyPolls frames = b at h
  cases h with
  | receiving request seq =>
      cases hb
      exact paired_recvTurn request seq gspi emptyPolls frames radio
  | answered ret steps => cases steps <;> cases hb
  | _ => cases hb

namespace SessionState

/-- The driver and the boundary are in step. -/
def InStep (s : SessionState) : Prop :=
  Paired s.driver s.toBoundary s.boundary s.fromBoundary

theorem inStep_init : init.InStep := paired_booted driverCyw43Bootstrap

/-- The boundary receives a request. -/
theorem InStep.boundaryReceived {rest : List Msg} (h : s.InStep)
    (channel : s.toBoundary = m :: rest) :
    (SessionState.boundaryReceived gspi { s with toBoundary := rest } m).InStep := by
  rw [InStep, channel] at h
  rw [InStep, SessionState.boundaryReceived]
  dsimp only
  generalize hd : s.driver = d at h
  generalize hb : s.boundary = b at h
  generalize hf : s.fromBoundary = fb at h
  cases h with
  | asked req ret steps =>
      simp only [boundaryHandle]
      exact .answers ret steps
  | txAsked request seq datagram =>
      simp only [boundaryHandle]
      exact .txAnswers request seq _
  | rxAsked request seq localPort =>
      simp only [boundaryHandle]
      rw [UnoQWifiSender.recvPacket]
      split
      · exact paired_recvHead request seq 0 0
      · exact .rxAnswers request seq none

end SessionState

/-! ### The guest and the driver -/

/-- The driver is at the bring-up. -/
def DriverPhase.Booting : DriverPhase → Prop
  | .bootSend _ | .bootRecv _ _ => True
  | _ => False

/-- The driver has the request of this import, and has not replied yet. -/
def DriverPhase.Serving (i : Import) : DriverPhase → Prop
  | .reply j m => j = i ∧ m.label = i.ret
  | .txSend _ _ _ | .txOffer _ _ | .rxSend _ _ | .rxOffer _ _ => i = .unoQ
  | .commit _ m => i = .unoQ ∧ m.label = i.ret
  | _ => False

/-- The guest and the driver, and what is on its way to either. -/
inductive Served : GuestPhase → List Msg → DriverPhase → List Msg → Prop
  | booting {d : DriverPhase} (h : d.Booting) : Served (.calling .openSample) [] d []
  | waits {d : DriverPhase} (h : d.Booting) {m : Msg} (label : m.label = Import.openSample.req) :
      Served (.waiting .openSample) [m] d []
  | calling (i : Import) : Served (.calling i) [] (.serve i) []
  | called (i : Import) {m : Msg} (label : m.label = i.req) :
      Served (.waiting i) [m] (.serve i) []
  | serving (i : Import) {d : DriverPhase} (h : d.Serving i) : Served (.waiting i) [] d []
  | replied (i : Import) {m : Msg} (label : m.label = i.ret) :
      Served (.waiting i) [] (.serve i.next) [m]

section
variable {guest : GuestPhase} {tk te : List Msg}

/-- The guest performs its next import. -/
theorem Served.guestCalls {i : Import} (h : Served (.calling i) tk d te) (label : m.label = i.req) :
    Served (.waiting i) (tk ++ [m]) d te := by
  cases h with
  | booting booting => exact .waits booting label
  | calling => exact .called i label

/-- A reply that the guest finds is the one it waits for. -/
theorem Served.guestReturns {i : Import} (h : Served (.waiting i) tk d (m :: te)) :
    m.label = i.ret ∧ Served (.calling i.next) tk d te := by
  cases h with
  | replied _ label => exact ⟨label, .calling i.next⟩

/-- A request that the driver finds is the one it waits for. -/
theorem Served.awaited {i : Import} (h : Served guest (m :: tk) (.serve i) te) :
    m.label = i.req := by
  cases h with
  | waits booting => exact booting.elim
  | called _ label => exact label

/-- The driver receives the request of an import. -/
theorem Served.driverServed {i : Import} (h : Served guest (m :: tk) (.serve i) te)
    {sensorUdpSeq : U16}
    (handled : (driverHandle P lightRaw bus sensorUdpSeq (.serve i) m).1 = some phase) :
    Served guest tk phase te := by
  have serving : phase.Serving i := by
    obtain ⟨reply, rfl, -, label⟩ | ⟨rfl, _, _, _, -, -, rfl⟩ := served_cases handled
    · exact ⟨rfl, label⟩
    · rfl
  cases h with
  | waits booting => exact booting.elim
  | called => exact .serving i serving

end

section
variable {guest : GuestPhase} {tk te : List Msg}

/-- The driver sends a message. -/
theorem Served.driverSent (h : Served guest tk d te) {port : U16} {target : Role}
    (sends : d.sends port = some (target, m, phase)) :
    Served guest tk phase (if target = .engine then te ++ [m] else te) := by
  cases d with
  | bootSend steps =>
      cases steps with
      | nil => cases sends
      | cons step steps =>
          cases sends
          cases h with
          | booting => exact .booting trivial
          | waits _ label => exact .waits (d := .bootRecv _ _) trivial label
          | serving i serving => exact serving.elim
  | bootRecv | serve | txOffer | rxOffer => cases sends
  | reply j m =>
      cases sends
      cases h with
      | booting booting => exact booting.elim
      | waits booting => exact booting.elim
      | serving i serving =>
          obtain ⟨rfl, label⟩ := serving
          exact .replied j label
  | txSend | rxSend =>
      cases sends
      cases h with
      | booting booting => exact booting.elim
      | waits booting => exact booting.elim
      | serving i serving => exact .serving i serving
  | commit txOk m =>
      cases sends
      cases h with
      | booting booting => exact booting.elim
      | waits booting => exact booting.elim
      | serving i serving =>
          obtain ⟨rfl, label⟩ := serving
          exact .replied .unoQ label

/-- The driver receives an answer of the boundary's. -/
theorem Served.driverAnswered (h : Served guest tk d te) (source : d.source = .cyw43Driver)
    {sensorUdpSeq : U16} (handled : (driverHandle P lightRaw bus sensorUdpSeq d m).1 = some phase) :
    Served guest tk phase te := by
  cases d with
  | bootSend | reply | txSend | rxSend | commit => cases handled
  | serve => cases source
  | bootRecv ret steps =>
      cases handled
      cases h with
      | booting =>
          cases steps with
          | nil => exact .calling .openSample
          | cons => exact .booting trivial
      | waits _ label =>
          cases steps with
          | nil => exact .called .openSample label
          | cons => exact .waits (d := .bootSend _) trivial label
      | serving i serving => exact serving.elim
  | txOffer request seq =>
      cases h with
      | booting booting => exact booting.elim
      | waits booting => exact booting.elim
      | serving i serving =>
          obtain rfl : i = .unoQ := serving
          obtain ⟨_, -, rfl⟩ | ⟨-, rfl⟩ := txAnswered_cases handled
          · exact .serving .unoQ rfl
          · exact .serving .unoQ ⟨rfl, label_unoQReply request false⟩
  | rxOffer request seq =>
      cases h with
      | booting booting => exact booting.elim
      | waits booting => exact booting.elim
      | serving i serving =>
          obtain rfl : i = .unoQ := serving
          obtain ⟨-, rfl⟩ := rxAnswered_cases handled
          exact .serving .unoQ ⟨rfl, label_unoQReply request _⟩

end

theorem served_init : Served SessionState.init.guest SessionState.init.toKernel
    SessionState.init.driver SessionState.init.toEngine := .booting trivial

/-! ### No message that nobody waits for -/

/-- What is on its way to the boundary, whatever has become of the driver. -/
def Fed (b : BoundaryPhase) (toBoundary : List Msg) : Prop :=
  toBoundary = [] ∨ ∃ m, toBoundary = [m] ∧ b.awaits m.label = true

/-- What is on its way to the engine. -/
def Heard (guest : GuestPhase) (toEngine : List Msg) : Prop :=
  toEngine = [] ∨ ∃ i m, guest = .waiting i ∧ toEngine = [m] ∧ m.label = i.ret

theorem Paired.fed (h : Paired d tb b fb) : Fed b tb := by
  cases h with
  | asked | txAsked | rxAsked => exact .inr ⟨_, rfl, beq_self_eq_true _⟩
  | _ => exact .inl rfl

theorem Served.heard {guest : GuestPhase} {tk te : List Msg} (h : Served guest tk d te) :
    Heard guest te := by
  cases h with
  | replied i label => exact .inr ⟨i, _, rfl, rfl, label⟩
  | _ => exact .inl rfl

/-- A boundary that sends waits for nothing. -/
theorem awaits_of_sends (sends : b.sends = some (m, after)) (label : Label) :
    b.awaits label = false := by
  cases b with
  | bootRecv | txOffer | rxOffer | receiving => cases sends
  | bootReady | txSend | rxSend => rfl

theorem Fed.eq_nil (h : Fed b tb) (deaf : ∀ label, b.awaits label = false) : tb = [] := by
  rcases h with rfl | ⟨m, -, awaited⟩
  · rfl
  · rw [deaf] at awaited
    cases awaited

/-- Each role finds the messages it waits for. -/
structure SessionState.Matched (s : SessionState) : Prop where
  inStep : s.driverEnded = false → s.InStep
  fed : Fed s.boundary s.toBoundary
  served : s.driverEnded = false → Served s.guest s.toKernel s.driver s.toEngine
  heard : Heard s.guest s.toEngine
  matched : s.mismatched = false

namespace SessionState

theorem matched_of_live (inStep : s.InStep) (served : Served s.guest s.toKernel s.driver s.toEngine)
    (matched : s.mismatched = false) : s.Matched :=
  ⟨fun _ => inStep, inStep.fed, fun _ => served, served.heard, matched⟩

theorem matched_init : init.Matched := matched_of_live inStep_init served_init rfl

/-- The driver has received a message that it takes. -/
theorem matched_driverReceived (fed : Fed s.boundary s.toBoundary)
    (heard : Heard s.guest s.toEngine) (matched : s.mismatched = false)
    (taken : ∀ phase, (driverHandle P lightRaw bus s.sensorUdpSeq s.driver m).1 = some phase →
      Paired phase s.toBoundary s.boundary s.fromBoundary ∧
        Served s.guest s.toKernel phase s.toEngine) :
    (s.driverReceived P lightRaw bus m).Matched := by
  rw [SessionState.driverReceived]
  cases handled : (driverHandle P lightRaw bus s.sensorUdpSeq s.driver m).1 with
  | some phase =>
      obtain ⟨inStep, served⟩ := taken phase handled
      exact matched_of_live inStep served matched
  | none =>
      exact ⟨fun live => Bool.noConfusion live, fed, fun live => Bool.noConfusion live, heard,
        matched⟩

/-- A call of the driver's, but behind a `WIFI_TX_ERR`. -/
theorem Matched.driverStep (h : s.Matched) (live : s.driverEnded = false)
    (noSkip : ∀ m, s.driver ≠ .commit false m) (hstep : DriverStep P lightRaw bus s t) :
    t.Matched := by
  have inStep := h.inStep live
  have served := h.served live
  cases hstep with
  | sent target m phase sends =>
      exact matched_of_live (Paired.driverSent inStep noSkip sends) (served.driverSent sends)
        h.matched
  | served i m rest driver channel label =>
      rw [InStep, driver] at inStep
      rw [driver, channel] at served
      refine matched_driverReceived h.fed h.heard h.matched fun phase handled => ?_
      rw [show ({ s with toKernel := rest } : SessionState).driver = .serve i from driver]
        at handled
      exact ⟨inStep.served handled, served.driverServed handled⟩
  | answered m rest source channel awaited =>
      rw [InStep, channel] at inStep
      exact matched_driverReceived h.fed h.heard h.matched fun phase handled =>
        ⟨inStep.driverAnswered handled, served.driverAnswered source handled⟩
  | mismatched m channel sends other =>
      exfalso
      rcases channel with ⟨source, channel⟩ | ⟨-, channel⟩
      · obtain ⟨i, driver⟩ := source_eq_engine source
        obtain ⟨rest, channel⟩ := List.head?_eq_some_iff.mp channel
        rw [driver, channel] at served
        rw [driver, DriverPhase.awaits, served.awaited, beq_self_eq_true] at other
        cases other
      · obtain ⟨rest, channel⟩ := List.head?_eq_some_iff.mp channel
        rw [InStep, channel] at inStep
        rw [inStep.awaited] at other
        cases other

/-- What the boundary makes of a message is its own affair. -/
theorem boundaryHandle_frame (gspi : GspiOutcome) (s : SessionState) (b : BoundaryPhase) (m : Msg) :
    (boundaryHandle gspi s b m).driver = s.driver ∧
      (boundaryHandle gspi s b m).driverEnded = s.driverEnded ∧
      (boundaryHandle gspi s b m).driverCalls = s.driverCalls ∧
      (boundaryHandle gspi s b m).guest = s.guest ∧
      (boundaryHandle gspi s b m).toKernel = s.toKernel ∧
      (boundaryHandle gspi s b m).toEngine = s.toEngine ∧
      (boundaryHandle gspi s b m).toBoundary = s.toBoundary ∧
      (boundaryHandle gspi s b m).mismatched = s.mismatched ∧
      (boundaryHandle gspi s b m).boundaryCalls = s.boundaryCalls := by
  rw [boundaryHandle.eq_def]
  split <;> exact ⟨rfl, rfl, rfl, rfl, rfl, rfl, rfl, rfl, rfl⟩

/-- A call of the boundary's. -/
theorem Matched.boundaryStep (h : s.Matched) (hstep : BoundaryStep P gspi s t) : t.Matched := by
  cases hstep with
  | receiving emptyPolls frames boundary =>
      have none : s.toBoundary = [] := h.fed.eq_nil fun label => by rw [boundary]; rfl
      refine ⟨fun live => ?_, .inl none, h.served, h.heard, h.matched⟩
      have inStep := h.inStep live
      rw [InStep, boundary] at inStep
      exact inStep.received gspi s.radio
  | bringupFailed ret steps boundary => exact ⟨h.inStep, h.fed, h.served, h.heard, h.matched⟩
  | sent m phase sends =>
      have none : s.toBoundary = [] := h.fed.eq_nil (awaits_of_sends sends)
      exact ⟨fun live => (h.inStep live).boundarySent sends, .inl none, h.served, h.heard,
        h.matched⟩
  | received m rest channel awaited =>
      have none : rest = [] := by
        rcases h.fed with fed | ⟨_, fed, -⟩
        · rw [channel] at fed
          cases fed
        · rw [channel] at fed
          exact (List.cons.inj fed).2
      obtain ⟨driver, driverEnded, -, guest, toKernel, toEngine, toBoundary, mismatched, -⟩ :=
        boundaryHandle_frame gspi { s with
          toBoundary := rest, boundaryCalls := s.boundaryCalls ++ [.received .kernel m.label] }
          s.boundary m
      refine ⟨fun live => ?_, .inl (toBoundary.trans none), fun live => ?_, ?_,
        mismatched.trans h.matched⟩
      · exact InStep.boundaryReceived (h.inStep (driverEnded.symm.trans live)) channel
      · rw [SessionState.boundaryReceived, guest, toKernel, driver, toEngine]
        exact h.served (driverEnded.symm.trans live)
      · rw [SessionState.boundaryReceived, guest, toEngine]
        exact h.heard
  | mismatched m rest channel other =>
      exfalso
      rcases h.fed with fed | ⟨_, fed, awaited⟩
      · rw [channel] at fed
        cases fed
      · obtain ⟨rfl, -⟩ := List.cons.inj (channel.symm.trans fed)
        rw [awaited] at other
        cases other

theorem guestCalls_eq (h : s.guestCalls m = some t) : ∃ i, s.guest = .calling i ∧
    m.label = i.req ∧ t = { s with guest := .waiting i, toKernel := s.toKernel ++ [m] } := by
  rw [SessionState.guestCalls] at h
  split at h
  · rename_i i guest
    obtain ⟨label, h⟩ := Option.ite_none_right_eq_some.mp h
    cases h
    exact ⟨i, guest, label, rfl⟩
  · cases h

theorem Matched.guestCalls (h : s.Matched) (hcalls : s.guestCalls m = some t) : t.Matched := by
  obtain ⟨i, guest, label, rfl⟩ := guestCalls_eq hcalls
  refine ⟨h.inStep, h.fed, fun live => ?_, ?_, h.matched⟩
  · have served := h.served live
    rw [guest] at served
    exact served.guestCalls label
  · rcases h.heard with none | ⟨_, _, waiting, -⟩
    · exact .inl none
    · rw [guest] at waiting
      cases waiting

theorem guestReturns_eq (h : s.guestReturns = some t) : ∃ i m rest, s.guest = .waiting i ∧
    s.toEngine = m :: rest ∧
      (m.label = i.ret ∧ t = { s with
          guest := .calling i.next, replies := s.replies ++ [m], toEngine := rest } ∨
        m.label ≠ i.ret ∧ t = { s with guest := .ended, mismatched := true }) := by
  rw [SessionState.guestReturns] at h
  split at h
  · rename_i i m rest guest channel
    refine ⟨i, m, rest, guest, channel, ?_⟩
    split at h
    · rename_i label
      cases h
      exact .inl ⟨label, rfl⟩
    · rename_i label
      cases h
      exact .inr ⟨label, rfl⟩
  · cases h

theorem Matched.guestReturns (h : s.Matched) (hreturns : s.guestReturns = some t) :
    t.Matched := by
  obtain ⟨i, m, rest, guest, channel, cases⟩ := guestReturns_eq hreturns
  have heard : rest = [] ∧ m.label = i.ret := by
    rcases h.heard with none | ⟨_, _, waiting, heard, label⟩
    · rw [channel] at none
      cases none
    · obtain ⟨rfl, rfl⟩ := List.cons.inj (channel.symm.trans heard)
      cases guest.symm.trans waiting
      exact ⟨rfl, label⟩
  rcases cases with ⟨-, rfl⟩ | ⟨other, -⟩
  · refine ⟨h.inStep, h.fed, fun live => ?_, .inl heard.1, h.matched⟩
    have served := h.served live
    rw [guest, channel] at served
    exact served.guestReturns.2
  · exact absurd heard.2 other

end SessionState

/-! ### What a call leaves alone -/

/-- The driver goes on as before. -/
theorem BoundaryStep.driver_eq (hstep : BoundaryStep P gspi s t) :
    t.driver = s.driver ∧ t.driverEnded = s.driverEnded ∧ t.driverCalls = s.driverCalls := by
  cases hstep with
  | received m rest channel awaited =>
      obtain ⟨driver, driverEnded, driverCalls, -⟩ := SessionState.boundaryHandle_frame gspi
        { s with
          toBoundary := rest, boundaryCalls := s.boundaryCalls ++ [.received .kernel m.label] }
        s.boundary m
      exact ⟨driver, driverEnded, driverCalls⟩
  | _ => exact ⟨rfl, rfl, rfl⟩

theorem BoundaryStep.calls (hstep : BoundaryStep P gspi s t) :
    s.boundaryCalls <+: t.boundaryCalls ∧ (t.mismatched = false → s.mismatched = false) := by
  cases hstep with
  | receiving | bringupFailed => exact ⟨List.prefix_rfl, id⟩
  | sent m phase sends => exact ⟨List.prefix_append _ _, id⟩
  | received m rest channel awaited =>
      obtain ⟨-, -, -, -, -, -, -, mismatched, boundaryCalls⟩ :=
        SessionState.boundaryHandle_frame gspi { s with
          toBoundary := rest, boundaryCalls := s.boundaryCalls ++ [.received .kernel m.label] }
          s.boundary m
      rw [SessionState.boundaryReceived, boundaryCalls]
      exact ⟨List.prefix_append _ _, fun h => mismatched.symm.trans h⟩
  | mismatched => exact ⟨List.prefix_rfl, fun h => Bool.noConfusion h⟩

/-- What a message does to the driver leaves the boundary as it is. -/
theorem driverReceived_frame (P : Panel) (lightRaw : U16) (bus : Dht20Bus) (s : SessionState)
    (m : Msg) :
    (s.driverReceived P lightRaw bus m).boundary = s.boundary ∧
      (s.driverReceived P lightRaw bus m).boundaryEnded = s.boundaryEnded ∧
      (s.driverReceived P lightRaw bus m).boundaryCalls = s.boundaryCalls ∧
      (s.driverReceived P lightRaw bus m).mismatched = s.mismatched ∧
      (s.driverReceived P lightRaw bus m).driverCalls =
        s.driverCalls ++ [.received s.driver.source m.label] := by
  rw [SessionState.driverReceived]
  cases (driverHandle P lightRaw bus s.sensorUdpSeq s.driver m).1 with
  | none => exact ⟨rfl, rfl, rfl, rfl, rfl⟩
  | some phase => exact ⟨rfl, rfl, rfl, rfl, rfl⟩

theorem DriverStep.boundary_eq (hstep : DriverStep P lightRaw bus s t) :
    t.boundary = s.boundary ∧ t.boundaryEnded = s.boundaryEnded ∧
      t.boundaryCalls = s.boundaryCalls := by
  cases hstep with
  | served i m rest =>
      obtain ⟨boundary, boundaryEnded, boundaryCalls, -⟩ :=
        driverReceived_frame P lightRaw bus { s with toKernel := rest } m
      exact ⟨boundary, boundaryEnded, boundaryCalls⟩
  | answered m rest =>
      obtain ⟨boundary, boundaryEnded, boundaryCalls, -⟩ :=
        driverReceived_frame P lightRaw bus { s with fromBoundary := rest } m
      exact ⟨boundary, boundaryEnded, boundaryCalls⟩
  | _ => exact ⟨rfl, rfl, rfl⟩

theorem DriverStep.calls (hstep : DriverStep P lightRaw bus s t) :
    s.driverCalls <+: t.driverCalls ∧ (t.mismatched = false → s.mismatched = false) := by
  cases hstep with
  | sent target m phase sends => exact ⟨List.prefix_append _ _, id⟩
  | served i m rest =>
      obtain ⟨-, -, -, mismatched, driverCalls⟩ :=
        driverReceived_frame P lightRaw bus { s with toKernel := rest } m
      exact ⟨driverCalls ▸ List.prefix_append _ _, fun h => mismatched.symm.trans h⟩
  | answered m rest =>
      obtain ⟨-, -, -, mismatched, driverCalls⟩ :=
        driverReceived_frame P lightRaw bus { s with fromBoundary := rest } m
      exact ⟨driverCalls ▸ List.prefix_append _ _, fun h => mismatched.symm.trans h⟩
  | mismatched => exact ⟨List.prefix_rfl, fun h => Bool.noConfusion h⟩

end HibanaPico.SensorPanel
