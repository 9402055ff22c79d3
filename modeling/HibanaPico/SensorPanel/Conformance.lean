import HibanaPico.SensorPanel.Lockstep

/-!
# Sensor panel — Conformance

The calls of the driver and of the boundary against the projections of the choreography.

* `DriverPhase.words`, `BoundaryPhase.words`: how the choreography goes on from where a role is.
* `DriverTraced`, `BoundaryTraced`: what a role has called is what stands before that.
* `conforming_iff`: a run conforms exactly when the driver makes no call behind a `WIFI_TX_ERR`.
-/

namespace HibanaPico.SensorPanel
open Computability
open HibanaPico.Support
open HibanaPico.Transport

variable {P : Panel} {s t : SessionState} {lightRaw : U16} {bus : Dht20Bus} {gspi : GspiOutcome}

/-! ### What is left of the choreography -/

/-- The choreography goes on from the request of this import. -/
def Import.words : Import → Language Event
  | .openSample => openSampleWords
  | .openDisplay => openDisplayWords
  | .openUnoQ => openUnoQWords
  | .read => cycleWords
  | .display => displayWords cycleWords
  | .unoQ => unoQWords cycleWords
  | .poll => pollWords cycleWords

/-- And behind that request. -/
def Import.servedWords : Import → Language Event
  | .unoQ => txSendWords cycleWords
  | i => followedBy (toEngine i.ret) i.next.words

/-- How the choreography goes on from where the driver is.  Behind a `WIFI_TX_ERR` it polls, as
behind a `WIFI_TX_DONE`. -/
def DriverPhase.words : DriverPhase → Language Event
  | .bootSend steps => handshakes toBoundary fromBoundary openSampleWords steps
  | .bootRecv ret steps =>
      followedBy (fromBoundary ret) (handshakes toBoundary fromBoundary openSampleWords steps)
  | .serve i => i.words
  | .reply i _ => followedBy (toEngine i.ret) i.next.words
  | .txSend _ _ _ => txSendWords cycleWords
  | .txOffer _ _ => txOfferWords cycleWords
  | .rxSend _ _ | .commit false _ => rxSendWords cycleWords
  | .rxOffer _ _ => rxOfferWords cycleWords
  | .commit true _ => commitWords cycleWords

/-- How it goes on behind the message that the driver waits for. -/
def DriverPhase.receivedWords : DriverPhase → Language Event
  | .bootRecv _ steps => handshakes toBoundary fromBoundary openSampleWords steps
  | .serve i => i.servedWords
  | .txOffer _ _ => rxSendWords cycleWords
  | .rxOffer _ _ => commitWords cycleWords
  | _ => 0

def BoundaryPhase.words : BoundaryPhase → Language Event
  | .bootRecv steps => handshakes fromKernel toKernel boundaryCycleWords steps
  | .bootReady ret steps =>
      followedBy (toKernel ret) (handshakes fromKernel toKernel boundaryCycleWords steps)
  | .txOffer => boundaryCycleWords
  | .txSend _ => txAnsweredWords boundaryCycleWords
  | .rxOffer => rxPolledWords boundaryCycleWords
  | .receiving _ _ | .rxSend _ => rxAnsweredWords boundaryCycleWords

def BoundaryPhase.receivedWords : BoundaryPhase → Language Event
  | .bootRecv ((_, ret) :: steps) =>
      followedBy (toKernel ret) (handshakes fromKernel toKernel boundaryCycleWords steps)
  | .txOffer => txAnsweredWords boundaryCycleWords
  | .rxOffer => rxAnsweredWords boundaryCycleWords
  | _ => 0

theorem words_driverBooted (steps : List (Label × Label)) : (DriverPhase.booted steps).words =
    handshakes toBoundary fromBoundary openSampleWords steps := by
  cases steps <;> rfl

theorem words_boundaryBooted (steps : List (Label × Label)) : (BoundaryPhase.booted steps).words =
    handshakes fromKernel toKernel boundaryCycleWords steps := by
  cases steps <;> rfl

/-! ### There is always a way on -/

section
variable {K : Language Event}

theorem handshakes_nonempty (request answer : Label → Event) (h : ∃ v, v ∈ K)
    (steps : List (Label × Label)) : ∃ v, v ∈ handshakes request answer K steps := by
  induction steps with
  | nil => exact h
  | cons step steps ih => exact followedBy_nonempty (followedBy_nonempty ih)

theorem served_nonempty {req ret : Label} (h : ∃ v, v ∈ K) : ∃ v, v ∈ served req ret K :=
  followedBy_nonempty (followedBy_nonempty h)

theorem add_nonempty (L : Language Event) (h : ∃ v, v ∈ K) : ∃ v, v ∈ K + L := by
  obtain ⟨v, hv⟩ := h
  exact ⟨v, .inl hv⟩

theorem commitWords_nonempty (h : ∃ v, v ∈ K) : ∃ v, v ∈ commitWords K :=
  followedBy_nonempty (served_nonempty h)

theorem rxSendWords_nonempty (h : ∃ v, v ∈ K) : ∃ v, v ∈ rxSendWords K :=
  followedBy_nonempty (add_nonempty _ (followedBy_nonempty (commitWords_nonempty h)))

theorem txSendWords_nonempty (h : ∃ v, v ∈ K) : ∃ v, v ∈ txSendWords K :=
  followedBy_nonempty (add_nonempty _ (followedBy_nonempty (rxSendWords_nonempty h)))

theorem rxPolledWords_nonempty (h : ∃ v, v ∈ K) : ∃ v, v ∈ rxPolledWords K :=
  followedBy_nonempty (add_nonempty _ (followedBy_nonempty h))

end

theorem Import.words_nonempty (i : Import) : ∃ v, v ∈ i.words := by
  have cycle : ∃ v, v ∈ cycleWords := ⟨[], Language.nil_mem_kstar _⟩
  have unoQ : ∃ v, v ∈ unoQWords cycleWords := followedBy_nonempty (txSendWords_nonempty cycle)
  have openUnoQ : ∃ v, v ∈ openUnoQWords := served_nonempty cycle
  have openDisplay : ∃ v, v ∈ openDisplayWords := served_nonempty openUnoQ
  cases i with
  | openSample => exact served_nonempty openDisplay
  | openDisplay => exact openDisplay
  | openUnoQ => exact openUnoQ
  | read => exact cycle
  | display => exact served_nonempty unoQ
  | unoQ => exact unoQ
  | poll => exact served_nonempty cycle

theorem DriverPhase.words_nonempty (d : DriverPhase) : ∃ v, v ∈ d.words := by
  have cycle : ∃ v, v ∈ cycleWords := ⟨[], Language.nil_mem_kstar _⟩
  have opening := Import.openSample.words_nonempty
  cases d with
  | bootSend steps => exact handshakes_nonempty _ _ opening steps
  | bootRecv ret steps => exact followedBy_nonempty (handshakes_nonempty _ _ opening steps)
  | serve i => exact i.words_nonempty
  | reply i m => exact followedBy_nonempty i.next.words_nonempty
  | txSend => exact txSendWords_nonempty cycle
  | txOffer => exact add_nonempty _ (followedBy_nonempty (rxSendWords_nonempty cycle))
  | rxSend => exact rxSendWords_nonempty cycle
  | rxOffer => exact add_nonempty _ (followedBy_nonempty (commitWords_nonempty cycle))
  | commit txOk m =>
      cases txOk with
      | true => exact commitWords_nonempty cycle
      | false => exact rxSendWords_nonempty cycle

theorem BoundaryPhase.words_nonempty (b : BoundaryPhase) : ∃ v, v ∈ b.words := by
  have cycle : ∃ v, v ∈ boundaryCycleWords := ⟨[], Language.nil_mem_kstar _⟩
  cases b with
  | bootRecv steps => exact handshakes_nonempty _ _ cycle steps
  | bootReady ret steps => exact followedBy_nonempty (handshakes_nonempty _ _ cycle steps)
  | txOffer => exact cycle
  | txSend => exact add_nonempty _ (followedBy_nonempty (rxPolledWords_nonempty cycle))
  | rxOffer => exact rxPolledWords_nonempty cycle
  | receiving | rxSend => exact add_nonempty _ (followedBy_nonempty cycle)

/-! ### Behind a call -/

section
variable {K : Language Event} {a b : Event}

theorem behind_followedBy (a : Event) (K : Language Event) :
    (followedBy a K).leftQuotient [a] = K := by
  rw [leftQuotient_followedBy, if_pos rfl]

theorem behind_first (h : b ≠ a) : (followedBy a K + followedBy b K).leftQuotient [a] = K := by
  rw [leftQuotient_add, behind_followedBy, leftQuotient_followedBy, if_neg h, add_zero]

theorem behind_second (h : a ≠ b) : (followedBy a K + followedBy b K).leftQuotient [b] = K := by
  rw [leftQuotient_add, behind_followedBy, leftQuotient_followedBy, if_neg h, zero_add]

end

/-- Behind the request of an import. -/
theorem Import.behind_req (i : Import) :
    i.words.leftQuotient [fromEngine i.req] = i.servedWords := by
  cases i with
  | read =>
      calc cycleWords.leftQuotient [fromEngine .fdReadReq]
          = readWords 1 * cycleWords := leftQuotient_kstar _ _
        _ = readWords cycleWords := by rw [readWords_mul, one_mul]
  | openSample | openDisplay | openUnoQ | display | unoQ | poll => exact behind_followedBy _ _

/-- Behind a message that the driver takes. -/
theorem DriverPhase.behind_received {d : DriverPhase} {label : Label}
    (h : d.awaits label = true) :
    d.words.leftQuotient [.received d.source label] = d.receivedWords := by
  cases d with
  | bootSend | reply | txSend | rxSend | commit => cases h
  | bootRecv ret steps =>
      obtain rfl : label = ret := eq_of_beq h
      exact behind_followedBy _ _
  | serve i =>
      obtain rfl : label = i.req := eq_of_beq h
      exact i.behind_req
  | txOffer request seq =>
      rcases Bool.or_eq_true_iff.mp h with h | h
      · rw [eq_of_beq h]
        exact behind_first (by decide)
      · rw [eq_of_beq h]
        exact behind_second (by decide)
  | rxOffer request seq =>
      rcases Bool.or_eq_true_iff.mp h with h | h
      · rw [eq_of_beq h]
        exact behind_first (by decide)
      · rw [eq_of_beq h]
        exact behind_second (by decide)

theorem Import.servedWords_nonempty (i : Import) : ∃ v, v ∈ i.servedWords := by
  cases i with
  | unoQ => exact txSendWords_nonempty ⟨[], Language.nil_mem_kstar _⟩
  | _ => exact followedBy_nonempty (Import.words_nonempty _)

theorem DriverPhase.receivedWords_nonempty {d : DriverPhase} {label : Label}
    (h : d.awaits label = true) : ∃ v, v ∈ d.receivedWords := by
  have cycle : ∃ v, v ∈ cycleWords := ⟨[], Language.nil_mem_kstar _⟩
  cases d with
  | bootSend | reply | txSend | rxSend | commit => cases h
  | bootRecv ret steps => exact handshakes_nonempty _ _ Import.openSample.words_nonempty steps
  | serve i => exact i.servedWords_nonempty
  | txOffer => exact rxSendWords_nonempty cycle
  | rxOffer => exact commitWords_nonempty cycle

/-- Where the driver is when it has taken a message. -/
theorem DriverPhase.words_handled {d phase : DriverPhase} {m : Msg} {sensorUdpSeq : U16}
    (handled : (driverHandle P lightRaw bus sensorUdpSeq d m).1 = some phase) :
    phase.words = d.receivedWords := by
  cases d with
  | bootSend | reply | txSend | rxSend | commit => cases handled
  | bootRecv ret steps =>
      cases handled
      exact words_driverBooted steps
  | serve i =>
      obtain ⟨reply, rfl, other, -⟩ | ⟨rfl, _, _, _, -, -, rfl⟩ := served_cases handled
      · cases i with
        | unoQ => exact absurd rfl other
        | _ => rfl
      · rfl
  | txOffer request seq =>
      obtain ⟨_, -, rfl⟩ | ⟨-, rfl⟩ := txAnswered_cases handled <;> rfl
  | rxOffer request seq =>
      obtain ⟨-, rfl⟩ := rxAnswered_cases handled
      rfl

/-- A reply has the label that its import waits for. -/
def DriverPhase.Labelled : DriverPhase → Prop
  | .reply i m => m.label = i.ret
  | .commit _ m => m.label = .fdWriteRet
  | _ => True

theorem Served.labelled {guest : GuestPhase} {tk te : List Msg} {d : DriverPhase}
    (h : Served guest tk d te) : d.Labelled := by
  cases h with
  | booting booting => cases d <;> first | exact booting.elim | trivial
  | waits booting => cases d <;> first | exact booting.elim | trivial
  | calling | called | replied => trivial
  | serving i serving =>
      cases d with
      | reply j m =>
          obtain ⟨rfl, label⟩ := serving
          exact label
      | commit txOk m =>
          obtain ⟨rfl, label⟩ := serving
          exact label
      | _ => trivial

/-- What the driver sends is what the choreography goes on with, but behind a `WIFI_TX_ERR`. -/
theorem DriverPhase.words_sends {d phase : DriverPhase} {port : U16} {target : Role} {m : Msg}
    (labelled : d.Labelled) (noSkip : ∀ m, d ≠ .commit false m)
    (sends : d.sends port = some (target, m, phase)) :
    d.words = followedBy (.sent target m.label) phase.words := by
  cases d with
  | bootSend steps =>
      cases steps with
      | nil => cases sends
      | cons step steps =>
          cases sends
          rfl
  | bootRecv | serve | txOffer | rxOffer => cases sends
  | reply i m =>
      cases sends
      rw [show m.label = i.ret from labelled]
      rfl
  | txSend | rxSend =>
      cases sends
      rfl
  | commit txOk m =>
      cases txOk with
      | false => exact absurd rfl (noSkip m)
      | true =>
          cases sends
          rw [show m.label = .fdWriteRet from labelled]
          rfl

/-- Behind a message that the boundary takes. -/
theorem BoundaryPhase.behind_received {b : BoundaryPhase} {label : Label}
    (h : b.awaits label = true) :
    b.words.leftQuotient [.received .kernel label] = b.receivedWords := by
  cases b with
  | bootRecv steps =>
      cases steps with
      | nil => cases h
      | cons step steps =>
          obtain rfl : label = step.1 := eq_of_beq h
          exact behind_followedBy _ _
  | bootReady | txSend | receiving | rxSend => cases h
  | txOffer =>
      obtain rfl : label = .wifiTxUdp := eq_of_beq h
      calc boundaryCycleWords.leftQuotient [fromKernel .wifiTxUdp]
          = txAnsweredWords 1 * boundaryCycleWords := leftQuotient_kstar _ _
        _ = txAnsweredWords boundaryCycleWords := by rw [txAnsweredWords_mul, one_mul]
  | rxOffer =>
      obtain rfl : label = .wifiRxPoll := eq_of_beq h
      exact behind_followedBy _ _

/-- Behind what the boundary sends. -/
theorem BoundaryPhase.behind_sent {b after : BoundaryPhase} {m : Msg}
    (sends : b.sends = some (m, after)) :
    b.words.leftQuotient [.sent .kernel m.label] = after.words := by
  cases b with
  | bootRecv | txOffer | rxOffer | receiving => cases sends
  | bootReady ret steps =>
      cases sends
      rw [words_boundaryBooted]
      exact behind_followedBy _ _
  | txSend result =>
      cases result with
      | none =>
          cases sends
          exact behind_second (by decide)
      | some written =>
          cases sends
          exact behind_first (by decide)
  | rxSend packet =>
      cases packet with
      | none =>
          cases sends
          exact behind_second (by decide)
      | some packet =>
          cases sends
          exact behind_first (by decide)

theorem BoundaryPhase.receivedWords_nonempty {b : BoundaryPhase} {label : Label}
    (h : b.awaits label = true) : ∃ v, v ∈ b.receivedWords := by
  have cycle : ∃ v, v ∈ boundaryCycleWords := ⟨[], Language.nil_mem_kstar _⟩
  cases b with
  | bootRecv steps =>
      cases steps with
      | nil => cases h
      | cons step steps => exact followedBy_nonempty (handshakes_nonempty _ _ cycle steps)
  | bootReady | txSend | receiving | rxSend => cases h
  | txOffer => exact add_nonempty _ (followedBy_nonempty (rxPolledWords_nonempty cycle))
  | rxOffer => exact add_nonempty _ (followedBy_nonempty cycle)

theorem words_recvHead (emptyPolls frames : ℕ) :
    (UnoQWifiSender.recvHead emptyPolls frames).words = rxAnsweredWords boundaryCycleWords := by
  rw [UnoQWifiSender.recvHead]
  split <;> rfl

theorem words_recvPacket (wifi : UnoQWifiSender) :
    wifi.recvPacket.words = rxAnsweredWords boundaryCycleWords := by
  rw [UnoQWifiSender.recvPacket]
  split
  · exact words_recvHead 0 0
  · rfl

/-- The loop of `recv_packet` owes an answer until it has one. -/
theorem words_recvTurn (gspi : GspiOutcome) (emptyPolls frames : ℕ) (radio : List RadioFrame) :
    (UnoQWifiSender.recvTurn gspi emptyPolls frames radio).1.words =
      rxAnsweredWords boundaryCycleWords := by
  rw [UnoQWifiSender.recvTurn.eq_def]
  split
  · rfl
  · exact words_recvHead _ _
  · rfl
  · exact words_recvHead _ _
  · rfl

/-- The driver has received a `WIFI_TX_ERR` and not replied. -/
def DriverPhase.afterTxErr : DriverPhase → Bool
  | .commit false _ => true
  | _ => false

theorem DriverPhase.afterTxErr_iff {d : DriverPhase} :
    d.afterTxErr = true ↔ ∃ m, d = .commit false m := by
  constructor
  · intro h
    cases d with
    | commit txOk m =>
        cases txOk with
        | true => cases h
        | false => exact ⟨m, rfl⟩
    | _ => cases h
  · rintro ⟨m, rfl⟩
    rfl

/-! ### The calls of a run -/

/-- The calls so far go on to a word of the choreography, and while the role has not ended what is
left of it is what goes on from where the role is. -/
structure Traced (L rest : Language Event) (ended : Bool) (calls : List Event) : Prop where
  left : ended = false → L.leftQuotient calls = rest
  conforms : Conforms L calls

namespace Traced

variable {L rest rest' : Language Event} {ended : Bool} {calls : List Event} {a : Event}

/-- A call that the choreography has next. -/
theorem snoc (h : Traced L rest false calls) (behind : rest.leftQuotient [a] = rest')
    (way : ∃ v, v ∈ rest') (ended : Bool) : Traced L rest' ended (calls ++ [a]) := by
  have left : L.leftQuotient (calls ++ [a]) = rest' := by
    rw [leftQuotient_snoc, h.left rfl, behind]
  exact ⟨fun _ => left, conforms_iff.mpr (left ▸ way)⟩

/-- A role that ends, or has ended. -/
theorem ends (h : Traced L rest ended calls) : Traced L rest' true calls :=
  ⟨fun live => Bool.noConfusion live, h.conforms⟩

/-- A call that it has not. -/
theorem not_snoc (h : Traced L rest false calls) (behind : rest.leftQuotient [a] = 0) :
    ¬ Conforms L (calls ++ [a]) := by
  rw [conforms_iff, leftQuotient_snoc, h.left rfl, behind]
  exact fun ⟨_, hv⟩ => hv.elim

end Traced

namespace SessionState

def DriverTraced (s : SessionState) : Prop :=
  Traced driverWords s.driver.words s.driverEnded s.driverCalls

def BoundaryTraced (s : SessionState) : Prop :=
  Traced boundaryWords s.boundary.words s.boundaryEnded s.boundaryCalls

/-- The driver has received a message. -/
theorem DriverTraced.received {m : Msg} (h : s.DriverTraced) (live : s.driverEnded = false)
    (awaited : s.driver.awaits m.label = true) :
    (s.driverReceived P lightRaw bus m).DriverTraced := by
  rw [DriverTraced, live] at h
  have behind := DriverPhase.behind_received awaited
  have way := DriverPhase.receivedWords_nonempty awaited
  cases handled : (driverHandle P lightRaw bus s.sensorUdpSeq s.driver m).1 with
  | some phase =>
      rw [SessionState.driverReceived, handled]
      rw [← DriverPhase.words_handled handled] at behind way
      exact h.snoc behind way _
  | none =>
      rw [SessionState.driverReceived, handled]
      exact (h.snoc behind way true).ends

/-- **The driver's calls.**  A call that returns, but behind a `WIFI_TX_ERR`. -/
theorem DriverTraced.step (h : s.DriverTraced) (live : s.driverEnded = false)
    (labelled : s.driver.Labelled) (noSkip : ∀ m, s.driver ≠ .commit false m)
    (hstep : DriverStep P lightRaw bus s t) : t.DriverTraced := by
  cases hstep with
  | sent target m phase sends =>
      rw [DriverTraced, live] at h
      have behind := DriverPhase.words_sends labelled noSkip sends
      exact h.snoc (behind ▸ behind_followedBy _ _) phase.words_nonempty _
  | served i m rest driver channel label =>
      exact DriverTraced.received (s := { s with toKernel := rest }) h live
        (by rw [show s.driver = .serve i from driver]; exact beq_iff_eq.mpr label)
  | answered m rest source channel awaited =>
      exact DriverTraced.received (s := { s with fromBoundary := rest }) h live awaited
  | mismatched m channel sends other => exact h.ends

/-- A call that fails is a call. -/
theorem DriverTraced.failed (h : s.DriverTraced) (live : s.driverEnded = false)
    (labelled : s.driver.Labelled) (noSkip : ∀ m, s.driver ≠ .commit false m) :
    Traced driverWords s.driver.words true (s.driverCalls ++ s.askedCall P) := by
  rw [DriverTraced, live] at h
  rw [askedCall]
  split
  · rename_i target m phase sends
    have behind := DriverPhase.words_sends labelled noSkip sends
    exact (h.snoc (behind ▸ behind_followedBy _ _) phase.words_nonempty true).ends
  · rw [List.append_nil]
    exact h.ends

/-- The boundary has made of a message what it makes of it. -/
theorem words_boundaryHandle (gspi : GspiOutcome) (s : SessionState) (b : BoundaryPhase) (m : Msg) :
    (boundaryHandle gspi s b m).boundaryEnded = true ∨
      (boundaryHandle gspi s b m).boundary.words = b.receivedWords := by
  rw [boundaryHandle.eq_def]
  split
  · exact .inr rfl
  · exact .inr rfl
  · exact .inr (words_recvPacket _)
  · exact .inl rfl

/-- **The boundary's calls.** -/
theorem BoundaryTraced.step (h : s.BoundaryTraced) (live : s.boundaryEnded = false)
    (hstep : BoundaryStep P gspi s t) : t.BoundaryTraced := by
  rw [BoundaryTraced, live] at h
  cases hstep with
  | receiving emptyPolls frames boundary =>
      rw [BoundaryTraced, live, words_recvTurn]
      rw [boundary] at h
      exact h
  | bringupFailed ret steps boundary => exact h.ends
  | sent m phase sends =>
      exact h.snoc (BoundaryPhase.behind_sent sends) phase.words_nonempty _
  | received m rest channel awaited =>
      have behind := BoundaryPhase.behind_received awaited
      have way := BoundaryPhase.receivedWords_nonempty awaited
      obtain ⟨-, -, -, -, -, -, -, -, calls⟩ := boundaryHandle_frame gspi { s with
        toBoundary := rest, boundaryCalls := s.boundaryCalls ++ [.received .kernel m.label] }
        s.boundary m
      rcases words_boundaryHandle gspi { s with
        toBoundary := rest, boundaryCalls := s.boundaryCalls ++ [.received .kernel m.label] }
        s.boundary m with ended | words
      · rw [BoundaryTraced, SessionState.boundaryReceived, ended, calls]
        exact (h.snoc behind way true).ends
      · rw [BoundaryTraced, SessionState.boundaryReceived, words, calls]
        exact h.snoc behind way _
  | mismatched m rest channel other => exact h.ends

/-- A call of the boundary's that fails. -/
theorem BoundaryTraced.failed (h : s.BoundaryTraced) (live : s.boundaryEnded = false) :
    Traced boundaryWords s.boundary.words true (s.boundaryCalls ++ match s.boundary.sends with
      | some (m, _) => [.sent .kernel m.label]
      | none => []) := by
  rw [BoundaryTraced, live] at h
  split
  · rename_i m after sends
    exact (h.snoc (BoundaryPhase.behind_sent sends) after.words_nonempty true).ends
  · rw [List.append_nil]
    exact h.ends

/-! ### Runs -/

/-- What driver and boundary have called goes on to words of the choreography, and no role has found
a message that it does not wait for. -/
structure Conforming (s : SessionState) : Prop where
  driver : Conforms (choreography.project .kernel).matches' s.driverCalls
  boundary : Conforms (choreography.project .cyw43Driver).matches' s.boundaryCalls
  matched : s.mismatched = false

/-- The driver, behind a `WIFI_TX_ERR`, calls its endpoint with the reply of the Uno Q write. -/
def Skips (s : SessionState) : SessionAction → Prop
  | .driver _ _ | .driverFails => s.driver.afterTxErr = true
  | _ => False

instance (s : SessionState) : ∀ a, Decidable (s.Skips a)
  | .driver _ _ | .driverFails => inferInstanceAs (Decidable (_ = _))
  | .call _ | .ret | .boundary _ | .boundaryFails | .arrive _ _ => .isFalse id

structure SessionInv (s : SessionState) : Prop where
  driver : s.DriverTraced
  boundary : s.BoundaryTraced
  matched : s.Matched

theorem sessionInv_init : init.SessionInv where
  driver := ⟨fun _ => rfl, conforms_iff.mpr init.driver.words_nonempty⟩
  boundary := ⟨fun _ => rfl, conforms_iff.mpr init.boundary.words_nonempty⟩
  matched := matched_init

theorem SessionInv.conforming (h : s.SessionInv) : s.Conforming where
  driver := matches'_project_kernel ▸ h.driver.conforms
  boundary := matches'_project_cyw43Driver ▸ h.boundary.conforms
  matched := h.matched.matched

/-- A step behind no `WIFI_TX_ERR`. -/
theorem SessionInv.step {a : SessionAction} (h : s.SessionInv) (noSkip : ¬ s.Skips a)
    (hnext : s.next P a = some t) : t.SessionInv := by
  cases a with
  | call m =>
      have matched := h.matched.guestCalls hnext
      obtain ⟨i, -, -, rfl⟩ := guestCalls_eq hnext
      exact ⟨h.driver, h.boundary, matched⟩
  | ret =>
      have matched := h.matched.guestReturns hnext
      obtain ⟨i, m, rest, -, -, ⟨-, rfl⟩ | ⟨-, rfl⟩⟩ := guestReturns_eq hnext
      · exact ⟨h.driver, h.boundary, matched⟩
      · exact ⟨h.driver, h.boundary, matched⟩
  | driver lightRaw bus =>
      obtain ⟨live, hstep⟩ := driverStep hnext
      have noSkip : ∀ m, s.driver ≠ .commit false m := fun m driver =>
        noSkip (DriverPhase.afterTxErr_iff.mpr ⟨m, driver⟩)
      obtain ⟨boundary, boundaryEnded, boundaryCalls⟩ := hstep.boundary_eq
      refine ⟨h.driver.step live (h.matched.served live).labelled noSkip hstep, ?_,
        h.matched.driverStep live noSkip hstep⟩
      rw [BoundaryTraced, boundary, boundaryEnded, boundaryCalls]
      exact h.boundary
  | driverFails =>
      obtain ⟨live, rfl⟩ := driverFails_eq hnext
      have noSkip : ∀ m, s.driver ≠ .commit false m := fun m driver =>
        noSkip (DriverPhase.afterTxErr_iff.mpr ⟨m, driver⟩)
      refine ⟨h.driver.failed live (h.matched.served live).labelled noSkip, h.boundary, ?_⟩
      exact ⟨fun live => Bool.noConfusion live, h.matched.fed, fun live => Bool.noConfusion live,
        h.matched.heard, h.matched.matched⟩
  | boundary gspi =>
      obtain ⟨live, hstep⟩ := boundaryStep hnext
      obtain ⟨driver, driverEnded, driverCalls⟩ := hstep.driver_eq
      refine ⟨?_, h.boundary.step live hstep, h.matched.boundaryStep hstep⟩
      rw [DriverTraced, driver, driverEnded, driverCalls]
      exact h.driver
  | boundaryFails =>
      obtain ⟨live, rfl⟩ := boundaryFails_eq hnext
      exact ⟨h.driver, h.boundary.failed live, h.matched.inStep, h.matched.fed, h.matched.served,
        h.matched.heard, h.matched.matched⟩
  | arrive frame answers =>
      cases hnext
      exact ⟨h.driver, h.boundary, h.matched.inStep, h.matched.fed, h.matched.served,
        h.matched.heard, h.matched.matched⟩

theorem sessionInv_run {acts : List SessionAction} (h : (sessionMachine P).exec init acts = some s)
    (noSkip : (sessionMachine P).Along (fun s a => ¬ s.Skips a) init acts) : s.SessionInv :=
  Machine.exec_invariant (fun _ _ _ h noSkip hnext => h.step noSkip hnext) sessionInv_init noSkip h

/-- What has been called stays called. -/
theorem calls_prefix {a : SessionAction} (hnext : s.next P a = some t) :
    s.driverCalls <+: t.driverCalls ∧ s.boundaryCalls <+: t.boundaryCalls ∧
      (t.mismatched = false → s.mismatched = false) := by
  cases a with
  | call m =>
      obtain ⟨i, -, -, rfl⟩ := guestCalls_eq hnext
      exact ⟨List.prefix_rfl, List.prefix_rfl, id⟩
  | ret =>
      obtain ⟨i, m, rest, -, -, ⟨-, rfl⟩ | ⟨-, rfl⟩⟩ := guestReturns_eq hnext
      · exact ⟨List.prefix_rfl, List.prefix_rfl, id⟩
      · exact ⟨List.prefix_rfl, List.prefix_rfl, fun h => Bool.noConfusion h⟩
  | driver lightRaw bus =>
      obtain ⟨-, hstep⟩ := driverStep hnext
      obtain ⟨-, -, boundaryCalls⟩ := hstep.boundary_eq
      exact ⟨hstep.calls.1, boundaryCalls ▸ List.prefix_rfl, hstep.calls.2⟩
  | driverFails =>
      obtain ⟨-, rfl⟩ := driverFails_eq hnext
      exact ⟨List.prefix_append _ _, List.prefix_rfl, id⟩
  | boundary gspi =>
      obtain ⟨-, hstep⟩ := boundaryStep hnext
      obtain ⟨-, -, driverCalls⟩ := hstep.driver_eq
      exact ⟨driverCalls ▸ List.prefix_rfl, hstep.calls⟩
  | boundaryFails =>
      obtain ⟨-, rfl⟩ := boundaryFails_eq hnext
      exact ⟨List.prefix_rfl, List.prefix_append _ _, id⟩
  | arrive frame answers =>
      cases hnext
      exact ⟨List.prefix_rfl, List.prefix_rfl, id⟩

/-- The call behind a `WIFI_TX_ERR` is not one of the choreography. -/
theorem DriverTraced.skipped (h : s.DriverTraced) {a : SessionAction} (skips : s.Skips a)
    (hnext : s.next P a = some t) : ¬ Conforms driverWords t.driverCalls := by
  have behind {m : Msg} (driver : s.driver = .commit false m) :
      s.driver.words.leftQuotient [.sent .engine m.label] = 0 := by
    rw [driver]
    exact (leftQuotient_followedBy _ _ _).trans (if_neg fun h => by cases h)
  cases a with
  | driver lightRaw bus =>
      obtain ⟨m, driver⟩ := DriverPhase.afterTxErr_iff.mp skips
      obtain ⟨live, -⟩ := driverStep hnext
      rw [DriverTraced, live] at h
      rw [SessionState.next, driverNext, live, driver] at hnext
      cases hnext
      exact h.not_snoc (behind driver)
  | driverFails =>
      obtain ⟨m, driver⟩ := DriverPhase.afterTxErr_iff.mp skips
      obtain ⟨live, rfl⟩ := driverFails_eq hnext
      rw [DriverTraced, live] at h
      dsimp only
      rw [askedCall, driver]
      exact h.not_snoc (behind driver)
  | call | ret | boundary | boundaryFails | arrive => exact skips.elim

/-- **A step**, both ways. -/
theorem conforming_step {a : SessionAction} (h : s.Conforming → s.SessionInv)
    (hnext : s.next P a = some t) : t.Conforming ↔ s.Conforming ∧ ¬ s.Skips a := by
  constructor
  · intro conforming
    obtain ⟨driverCalls, boundaryCalls, mismatched⟩ := calls_prefix hnext
    have before : s.Conforming :=
      ⟨conforming.driver.of_prefix driverCalls, conforming.boundary.of_prefix boundaryCalls,
        mismatched conforming.matched⟩
    exact ⟨before, fun skips => (h before).driver.skipped skips hnext
      (matches'_project_kernel ▸ conforming.driver)⟩
  · rintro ⟨conforming, noSkip⟩
    exact ((h conforming).step noSkip hnext).conforming

end SessionState

open SessionState

/-- **The session.** Driver and boundary follow the choreography, and no role skips a message that
another waits for, in exactly the runs in which the driver makes no call behind a `WIFI_TX_ERR`. -/
theorem conforming_iff (P : Panel) {acts : List SessionAction} {s : SessionState}
    (h : (sessionMachine P).exec init acts = some s) :
    s.Conforming ↔ (sessionMachine P).Along (fun s a => ¬ s.Skips a) init acts := by
  have keeps (s : SessionState) (a : SessionAction) (t : SessionState)
      (hI : s.Conforming → s.SessionInv) (hnext : s.next P a = some t) :
      t.Conforming → t.SessionInv := by
    intro conforming
    obtain ⟨conforming, noSkip⟩ := (conforming_step hI hnext).mp conforming
    exact (hI conforming).step noSkip hnext
  rw [Machine.exec_iff_along_of_invariant (I := fun s => s.Conforming → s.SessionInv) keeps
    (fun s a t hI hnext => conforming_step hI hnext) (fun _ => sessionInv_init) h]
  exact and_iff_right sessionInv_init.conforming

/-! ### A cycle -/

/-- The path of a device of the panel. -/
def devicePath (name : List Char) : List U8 :=
  (['d', 'e', 'v', 'i', 'c', 'e', '/', 'r', 'p', '2', 'w', '/'] ++ name).map fun c =>
    .ofNat 8 c.toNat

def samplePath : List U8 := devicePath ['s', 'a', 'm', 'p', 'l', 'e']

def displayPath : List U8 := devicePath ['d', 'i', 's', 'p', 'l', 'a', 'y']

/-- `UNO_Q_SENSOR_UDP_PATH`. -/
def unoQSensorUdpPath : List U8 := devicePath ['u', 'd', 'p', '/', 'u', 'n', 'o', '-', 'q']

/-- The descriptors of `OBJECT_FACTS`. -/
def panelFds : List LedgerFdFact :=
  [⟨sensorSampleFd.toNat, sensorSampleObject, fdReadRight⟩,
    ⟨displayFd.toNat, displayObject, fdWriteRight⟩, ⟨unoQUdpFd.toNat, unoQUdpObject, fdWriteRight⟩]

/-- `OBJECT_FACTS`, with the radio's artifacts. -/
def sensorPanel : Panel where
  resolve path :=
    if path = samplePath then some sensorSampleObject
    else if path = displayPath then some displayObject
    else if path = unoQSensorUdpPath then some unoQUdpObject
    else none
  fds := panelFds
  ledgerFd fd := panelFds.find? fun fact => fact.fd = fd
  embedCyw43Artifacts := true
  unoQWifiIp := ⟨127, 0, 0, 1⟩
  srcPort := 43210
  dstPort := 43211

/-- The payload of a sample of `dht20Answer`. -/
def samplePayload (seq : U16) : List U8 := (sampledPayload 900 dht20Answer seq).getD []

/-- The guest performs an import, and the driver serves it by itself. -/
def performs (m : Msg) : List SessionAction :=
  [.call m, .driver 900 dht20Answer, .driver 900 dht20Answer, .ret]

/-- The bring-up and the three `path_open`s. -/
def opened : List SessionAction :=
  (List.replicate 10 [SessionAction.driver 0 dht20Answer, .boundary .ok, .boundary .ok,
    .driver 0 dht20Answer]).flatten ++
  performs (.pathOpenReq ⟨devicePreopenFd, fdReadRight, samplePath⟩) ++
  performs (.pathOpenReq ⟨devicePreopenFd, fdWriteRight, displayPath⟩) ++
  performs (.pathOpenReq ⟨devicePreopenFd, fdWriteRight, unoQSensorUdpPath⟩)

/-- A cycle up to the datagram of its Uno Q write. -/
def writes (seq : U16) : List SessionAction :=
  performs (.fdReadReq ⟨sensorSampleFd, 9⟩) ++
  performs (.fdWriteReq ⟨displayFd, samplePayload seq⟩) ++
  [.call (.fdWriteReq ⟨unoQUdpFd, samplePayload seq⟩), .driver 0 dht20Answer,
    .driver 0 dht20Answer]

/-- The radio sends the datagram, and the driver asks for its ack. -/
def polls : List SessionAction :=
  [.boundary .ok, .boundary .ok, .driver 0 dht20Answer, .driver 0 dht20Answer]

/-- The driver replies to the Uno Q write, and to the `poll_oneoff`. -/
def replies : List SessionAction :=
  [.driver 0 dht20Answer, .driver 0 dht20Answer, .ret] ++ performs (.pollOneoffReq 1000)

/-- A frame with the ack of this number. -/
def ackFrame (seq : U16) : RadioFrame :=
  SensorWifiPacket.fromProto ⟨10, 0, 0, 2⟩ ⟨10, 0, 0, 1⟩ 43211 43210 (pico2wSensorUdpAck seq)

/-- The ack comes while the driver polls for it. -/
def ackedCycle : List SessionAction :=
  opened ++ writes 0 ++ polls ++ [.boundary .ok, .boundary .ok, .arrive (ackFrame 0) (some 0),
    .boundary .ok, .boundary .ok] ++ replies

theorem conforming_iff_ackedCycle : ∃ s,
    (sessionMachine sensorPanel).exec init ackedCycle = some s ∧
      s.guest = .calling .read ∧ s.cycles.map (·.errno) = [some 0] ∧ s.Conforming := by
  have hrun : ((sessionMachine sensorPanel).exec init ackedCycle).map
      (fun s => (s.guest, s.cycles.map (·.errno))) = some (.calling .read, [some 0]) := by
    decide +kernel
  obtain ⟨s, hs, hfields⟩ := Option.map_eq_some_iff.mp hrun
  obtain ⟨guest, cycles⟩ := Prod.mk.inj hfields
  exact ⟨s, hs, guest, cycles, (conforming_iff sensorPanel hs).mpr (by decide +kernel)⟩

/-- The radio fails to send the datagram; the boundary answers, and waits for a poll. -/
def txFailed : List SessionAction :=
  opened ++ writes 0 ++ [.boundary .fails, .boundary .ok, .driver 0 dht20Answer]

/-- The driver replies to the guest, and does not poll. -/
theorem conforming_txFailed : ∃ s, (sessionMachine sensorPanel).exec init
    (txFailed ++ [.driver 0 dht20Answer]) = some s ∧ s.boundary = .rxOffer ∧ ¬ s.Conforming := by
  have hrun : ((sessionMachine sensorPanel).exec init (txFailed ++ [.driver 0 dht20Answer])).map
      (·.boundary) = some .rxOffer := by decide +kernel
  obtain ⟨s, hs, boundary⟩ := Option.map_eq_some_iff.mp hrun
  refine ⟨s, hs, boundary, fun conforming => ?_⟩
  obtain ⟨u, hu, hlast⟩ := Machine.exec_append.mp hs
  obtain ⟨t, hnext, hend⟩ := Machine.exec_cons.mp hlast
  cases hend
  have inv : u.SessionInv := sessionInv_run hu (by decide +kernel)
  have hdriver : ((sessionMachine sensorPanel).exec init txFailed).map (·.driver.afterTxErr) =
      some true := by decide +kernel
  rw [hu] at hdriver
  exact inv.driver.skipped (a := .driver 0 dht20Answer) (Option.some.inj hdriver) hnext
    (matches'_project_kernel ▸ conforming.driver)

end HibanaPico.SensorPanel
