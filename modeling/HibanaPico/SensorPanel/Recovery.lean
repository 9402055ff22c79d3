import HibanaPico.SensorPanel.Acks

/-!
# Sensor panel — Recovery

The session with the guest that is shipped, `rp2w-sensor-panel-guest`.  Its `run` returns the first
error of an import, and `main` aborts; `send_datagram` drops its driver at its first error.

* `ShippedGuest.asks`, `ShippedGuest.receives`: the guest's imports, and what it makes of a reply.
* `panelMachine`: the session with it, and what an observer notes behind a failed cycle.
* `PanelState.Recovers`: the panel keeps cycling.
* `recovers_iff`: it does, exactly when no cycle fails.
-/

namespace HibanaPico.SensorPanel
open HibanaPico.Support
open HibanaPico.Transport

variable {P : Panel} {lightRaw : U16} {bus : Dht20Bus} {gspi : GspiOutcome}

/-! ### The guest -/

def sensorReadBytes : ℕ := 9

/-- The `errno` that `write_all` takes for another attempt. -/
def wasiErrnoIntr : U16 := 27

/-- The guest's variables: its three files, `buffer[..len]`, and what `write_all` has left of it. -/
structure ShippedGuest where
  sample : U8
  display : U8
  unoQ : U8
  buffer : List U8
  left : List U8
  deriving DecidableEq

namespace ShippedGuest

/-- The request of an import; what a `path_open` and a `poll_oneoff` ask is up to the guest's
standard library. -/
def asks (g : ShippedGuest) : Import → Msg → Bool
  | .read, .fdReadReq request => request = ⟨g.sample, sensorReadBytes⟩
  | .display, .fdWriteReq request => request = ⟨g.display, g.left⟩
  | .unoQ, .fdWriteReq request => request = ⟨g.unoQ, g.left⟩
  | .read, _ | .display, _ | .unoQ, _ => false
  | i, m => m.label == i.req

/-- The loop of `write_all`, behind a reply. -/
def written (g : ShippedGuest) (i : Import) (written : U8) (errno : U16) :
    GuestPhase × ShippedGuest :=
  if errno = wasiErrnoIntr then (.calling i, g)
  else if errno ≠ 0 ∨ written = 0 ∨ g.left.length < written.toNat then (.ended, g)
  else if written.toNat < g.left.length then
    (.calling i, { g with left := g.left.drop written.toNat })
  else (.calling i.next, { g with left := g.buffer })

/-- What the guest makes of a reply: its next import, or it aborts. -/
def receives (g : ShippedGuest) : Import → Msg → GuestPhase × ShippedGuest
  | .openSample, .pathOpenRet fd => (.calling .openDisplay, { g with sample := fd })
  | .openDisplay, .pathOpenRet fd => (.calling .openUnoQ, { g with display := fd })
  | .openUnoQ, .pathOpenRet fd => (.calling .read, { g with unoQ := fd })
  | .read, .fdReadRet _ bytes =>
      -- with nothing to write, neither `write_all` performs an import
      (.calling (if bytes = [] then .poll else .display), { g with buffer := bytes, left := bytes })
  | .display, .fdWriteRet _ count errno => g.written .display count errno
  | .unoQ, .fdWriteRet _ count errno => g.written .unoQ count errno
  | .poll, .pollOneoffRet => (.calling .read, g)
  | _, _ => (.ended, g)

/-- The reply of a cycle that went through, or the one of a failed cycle. -/
def Owed (g : ShippedGuest) : Import → Msg → Prop
  | .openSample, .pathOpenRet _ | .openDisplay, .pathOpenRet _ | .openUnoQ, .pathOpenRet _ => True
  | .read, .fdReadRet _ bytes => bytes ≠ []
  | .display, .fdWriteRet _ count errno => errno = 0 ∧ count.toNat = g.left.length ∧ count ≠ 0
  | .unoQ, .fdWriteRet _ count errno =>
      errno = wasiErrnoIo ∨ errno = 0 ∧ count.toNat = g.left.length ∧ count ≠ 0
  | .poll, .pollOneoffRet => True
  | _, _ => False

variable {g : ShippedGuest} {i : Import} {m : Msg}

theorem label_of_asks (h : g.asks i m = true) : m.label = i.req := by
  cases i with
  | read =>
      cases m with
      | fdReadReq request => rfl
      | _ => cases h
  | display | unoQ =>
      cases m with
      | fdWriteReq request => rfl
      | _ => cases h
  | openSample | openDisplay | openUnoQ | poll => exact eq_of_beq h

/-- A write that went through. -/
theorem written_all {count : U8} (hcount : count.toNat = g.left.length) (hne : count ≠ 0) :
    g.written i count 0 = (.calling i.next, { g with left := g.buffer }) := by
  have hzero : (0 : U16) ≠ wasiErrnoIntr := by decide
  have hfits : ¬ ((0 : U16) ≠ 0 ∨ count = 0 ∨ g.left.length < count.toNat) := by
    rintro (h | h | h)
    · exact h rfl
    · exact hne h
    · omega
  rw [written, if_neg hzero, if_neg hfits, if_neg (by omega)]

theorem receives_read (g : ShippedGuest) (fd : U8) (bytes : List U8) :
    g.receives .read (.fdReadRet fd bytes) =
      (.calling (if bytes = [] then .poll else .display),
        { g with buffer := bytes, left := bytes }) := rfl

theorem receives_display (g : ShippedGuest) (fd count : U8) (errno : U16) :
    g.receives .display (.fdWriteRet fd count errno) = g.written .display count errno := rfl

theorem receives_unoQ (g : ShippedGuest) (fd count : U8) (errno : U16) :
    g.receives .unoQ (.fdWriteRet fd count errno) = g.written .unoQ count errno := rfl

/-- **The guest goes on** behind every reply but that of a failed cycle. -/
theorem receives_owed (h : g.Owed i m) : m.errno = some wasiErrnoIo ∧ i = .unoQ ∧
      (g.receives i m).1 = .ended ∨
    m.errno ≠ some wasiErrnoIo ∧ (g.receives i m).1 = .calling i.next := by
  cases i with
  | openSample | openDisplay | openUnoQ =>
      cases m with
      | pathOpenRet fd => exact .inr ⟨fun h => (nomatch h), rfl⟩
      | _ => exact h.elim
  | read =>
      cases m with
      | fdReadRet fd bytes =>
          refine .inr ⟨fun h => (nomatch h), ?_⟩
          rw [receives_read, if_neg (show bytes ≠ [] from h)]
          rfl
      | _ => exact h.elim
  | display =>
      cases m with
      | fdWriteRet fd count errno =>
          obtain ⟨rfl, hcount, hne⟩ := h
          refine .inr ⟨fun h => absurd (Option.some.inj h) (by decide), ?_⟩
          rw [receives_display, written_all hcount hne]
      | _ => exact h.elim
  | unoQ =>
      cases m with
      | fdWriteRet fd count errno =>
          rcases h with rfl | ⟨rfl, hcount, hne⟩
          · have io : wasiErrnoIo ≠ wasiErrnoIntr ∧ wasiErrnoIo ≠ 0 := by decide
            refine .inl ⟨rfl, rfl, ?_⟩
            rw [receives_unoQ, written, if_neg io.1, if_pos (.inl io.2)]
          · refine .inr ⟨fun h => absurd (Option.some.inj h) (by decide), ?_⟩
            rw [receives_unoQ, written_all hcount hne]
      | _ => exact h.elim
  | poll =>
      cases m with
      | pollOneoffRet => exact .inr ⟨fun h => (nomatch h), rfl⟩
      | _ => exact h.elim

end ShippedGuest

/-! ### The panel -/

/-- The boundary is at the bring-up. -/
def BoundaryPhase.booting : BoundaryPhase → Bool
  | .bootRecv _ | .bootReady _ _ => true
  | _ => false

namespace SessionState

/-- The boundary takes a datagram. -/
def takesDatagram (s : SessionState) : Bool :=
  match s.boundary, s.toBoundary with
  | .txOffer, .wifiTxUdp _ :: _ => true
  | _, _ => false

/-- The radio fails under `send_datagram`. -/
def LosesDriver (s : SessionState) (gspi : GspiOutcome) : Prop :=
  s.takesDatagram = true ∧ s.wifi.driver = true ∧ gspi ≠ .ok

instance (s : SessionState) (gspi : GspiOutcome) : Decidable (s.LosesDriver gspi) :=
  inferInstanceAs (Decidable (_ ∧ _ ∧ _))

/-- Past the bring-up the sender has the driver that it was brought up with. -/
def KeepsDriver (P : Panel) (s : SessionState) : Prop :=
  s.boundary.booting = false → s.wifi.driver = P.embedCyw43Artifacts

end SessionState

/-- The session, the guest's variables, and what an observer notes: whether the guest has received
the reply of a failed cycle, and the cycles that have polled since. -/
structure PanelState where
  session : SessionState
  vars : ShippedGuest
  failedReply : Bool
  later : List CycleNote
  deriving DecidableEq

namespace PanelState

def init : PanelState where
  session := .init
  vars := ⟨0, 0, 0, [], []⟩
  failedReply := false
  later := []

/-- The guest performs its next import. -/
def guestCalls (s : PanelState) (m : Msg) : Option PanelState :=
  match s.session.guest with
  | .calling i =>
      if s.vars.asks i m then (s.session.guestCalls m).map fun session => { s with session }
      else none
  | _ => none

/-- The guest receives a reply. -/
def guestReturns (s : PanelState) : Option PanelState :=
  match s.session.guest, s.session.toEngine with
  | .waiting i, m :: rest => some { s with
      session := { s.session with
        guest := (s.vars.receives i m).1
        replies := s.session.replies ++ [m]
        toEngine := rest }
      vars := (s.vars.receives i m).2
      failedReply := s.failedReply || m.errno == some wasiErrnoIo }
  | _, _ => none

/-- The others go on, behind a failed cycle too. -/
def goesOn (s : PanelState) (session : SessionState) : PanelState :=
  { s with
    session
    later := if s.failedReply then s.later ++ session.cycles.drop s.session.cycles.length
      else s.later }

def next (P : Panel) (s : PanelState) : SessionAction → Option PanelState
  | .call m => s.guestCalls m
  | .ret => s.guestReturns
  | a => (s.session.next P a).map s.goesOn

/-- A cycle fails: the radio fails under `send_datagram`, or the guest receives the reply of a cycle
whose datagram was not sent or whose ack did not come. -/
def Fails (s : PanelState) : SessionAction → Prop
  | .boundary gspi => s.session.LosesDriver gspi
  | .ret => ∃ m ∈ s.session.toEngine.head?, m.errno = some wasiErrnoIo
  | _ => False

instance (s : PanelState) : ∀ a, Decidable (s.Fails a)
  | .boundary gspi => inferInstanceAs (Decidable (s.session.LosesDriver gspi))
  | .ret => inferInstanceAs (Decidable (∃ m ∈ s.session.toEngine.head?, _))
  | .call _ | .driver _ _ | .driverFails | .boundaryFails | .arrive _ _ => .isFalse id

/-- The panel keeps cycling. -/
structure Recovers (P : Panel) (s : PanelState) : Prop where
  /-- The guest has not aborted. -/
  cycles : s.session.guest ≠ .ended
  /-- The sender has the driver that it was brought up with. -/
  keepsDriver : s.session.KeepsDriver P
  /-- Behind a failed cycle, a cycle whose ack is there when it polls is committed. -/
  commits : ∀ c ∈ s.later, HasAck c.seq c.queued → c.failed = false → c.errno = some 0

end PanelState

/-- The session with the guest that is shipped. -/
def panelMachine (P : Panel) : Machine PanelState SessionAction := ⟨PanelState.next P⟩

/-! ### The guest and the driver -/

theorem handleFdWriteUnoQ_eq {request : FdWrite} {datagram : SensorWifiDatagram}
    {sample : Pico2wSensorSample} (h : handleFdWriteUnoQ P request = some (datagram, sample)) :
    pico2wSampleFromPayload request.bytes = some sample := by
  obtain ⟨-, h⟩ := Option.ite_none_right_eq_some.mp h
  obtain ⟨sample', hsample, h⟩ := Option.bind_eq_some_iff.mp h
  split at h
  · cases h
    exact hsample
  · cases h

/-- The guest has asked for this write, and all of it. -/
def ShippedGuest.Writes (g : ShippedGuest) (request : FdWrite) : Prop :=
  request.bytes = g.left ∧ request.bytes.length = pico2wSensorSampleBytes

/-- What the driver has for a guest that waits. -/
def DriverPhase.Owes (g : ShippedGuest) : DriverPhase → Prop
  | .reply i m => g.Owed i m
  | .txSend request _ _ | .txOffer request _ | .rxSend request _ | .rxOffer request _ =>
      g.Writes request
  | .commit _ m => g.Owed .unoQ m
  | _ => True

section
variable {g : ShippedGuest} {i : Import} {m : Msg} {phase : DriverPhase} {request : FdWrite}

theorem ShippedGuest.Writes.count (h : g.Writes request) :
    (BitVec.ofNat 8 request.bytes.length).toNat = g.left.length ∧
      BitVec.ofNat 8 request.bytes.length ≠ 0 := by
  rw [← h.1, h.2]
  decide

theorem ShippedGuest.Writes.owed (h : g.Writes request) (ackOk : Bool) :
    g.Owed .unoQ (unoQReply request ackOk) := by
  cases ackOk with
  | true => exact .inr ⟨rfl, h.count⟩
  | false => exact .inl rfl

/-- What the driver makes of a request of the guest's. -/
theorem ShippedGuest.owes_served {sensorUdpSeq : U16} (asks : g.asks i m = true)
    (handled : (driverHandle P lightRaw bus sensorUdpSeq (.serve i) m).1 = some phase) :
    phase.Owes g := by
  cases i with
  | openSample | openDisplay | openUnoQ =>
      cases m with
      | pathOpenReq request =>
          obtain ⟨reply, h, rfl⟩ := Option.map_eq_some_iff.mp handled
          obtain ⟨_, rfl⟩ := handlePathOpen_eq h
          trivial
      | _ => cases handled
  | read =>
      cases m with
      | fdReadReq request =>
          obtain ⟨reply, h, rfl⟩ := Option.map_eq_some_iff.mp handled
          obtain ⟨_, rfl⟩ := handleFdRead_eq h
          exact List.cons_ne_nil _ _
      | _ => cases handled
  | display =>
      cases m with
      | fdWriteReq request =>
          obtain ⟨reply, h, rfl⟩ := Option.map_eq_some_iff.mp handled
          obtain ⟨rfl, sample, hsample⟩ := handleFdWriteDisplay_eq h
          obtain rfl := of_decide_eq_true asks
          have writes : g.Writes ⟨g.display, g.left⟩ :=
            ⟨rfl, length_of_pico2wSampleFromPayload hsample⟩
          exact ⟨rfl, writes.count⟩
      | _ => cases handled
  | unoQ =>
      cases m with
      | fdWriteReq request =>
          obtain ⟨⟨datagram, sample⟩, h, rfl⟩ := Option.map_eq_some_iff.mp handled
          obtain rfl := of_decide_eq_true asks
          exact ⟨rfl, length_of_pico2wSampleFromPayload (handleFdWriteUnoQ_eq h)⟩
      | _ => cases handled
  | poll =>
      cases m with
      | pollOneoffReq timeoutTick =>
          obtain ⟨-, handled⟩ := Option.ite_none_right_eq_some.mp handled
          cases handled
          trivial
      | _ => cases handled

/-- What it makes of an answer. -/
theorem DriverPhase.Owes.answered {d : DriverPhase} {sensorUdpSeq : U16} (h : d.Owes g)
    (source : d.source = .cyw43Driver)
    (handled : (driverHandle P lightRaw bus sensorUdpSeq d m).1 = some phase) : phase.Owes g := by
  cases d with
  | bootSend | reply | txSend | rxSend | commit => cases handled
  | bootRecv ret steps =>
      cases handled
      cases steps <;> trivial
  | serve i => cases source
  | txOffer request seq =>
      obtain ⟨_, -, rfl⟩ | ⟨-, rfl⟩ := txAnswered_cases handled
      · exact h
      · exact ShippedGuest.Writes.owed h false
  | rxOffer request seq =>
      obtain ⟨-, rfl⟩ := rxAnswered_cases handled
      exact ShippedGuest.Writes.owed h _

/-- What it has when it has sent, and what it has sent the guest. -/
theorem DriverPhase.Owes.sent {d : DriverPhase} {port : U16} {target : Role} (h : d.Owes g)
    (sends : d.sends port = some (target, m, phase)) (serving : d.Serving i) :
    phase.Owes g ∧ (target = .engine → g.Owed i m) := by
  cases d with
  | bootSend | bootRecv | serve => exact serving.elim
  | txOffer | rxOffer => cases sends
  | reply j m =>
      cases sends
      obtain ⟨rfl, -⟩ := serving
      exact ⟨trivial, fun _ => h⟩
  | txSend | rxSend =>
      cases sends
      exact ⟨h, fun engine => nomatch engine⟩
  | commit txOk m =>
      cases sends
      obtain ⟨rfl, -⟩ := serving
      exact ⟨trivial, fun _ => h⟩

end

/-- A guest whose request is on its way waits. -/
theorem Served.waiting {guest : GuestPhase} {tk te : List Msg} {i : Import} {m : Msg}
    (h : Served guest (m :: tk) (.serve i) te) : guest = .waiting i := by
  cases h with
  | waits booting => exact booting.elim
  | called => rfl

/-- A guest that does not wait is owed nothing. -/
theorem Served.owes_calling {tk te : List Msg} {d : DriverPhase} {i : Import}
    (h : Served (.calling i) tk d te) (g : ShippedGuest) : d.Owes g := by
  cases h with
  | booting booting => cases d <;> trivial
  | calling => trivial

/-- A driver that sends is at the bring-up, or serves an import. -/
theorem Served.of_sends {guest : GuestPhase} {tk te : List Msg} {d phase : DriverPhase}
    {port : U16} {target : Role} {m : Msg} (h : Served guest tk d te)
    (sends : d.sends port = some (target, m, phase)) :
    te = [] ∧ (target = .cyw43Driver ∧ (∀ g, phase.Owes g) ∨
      ∃ i, guest = .waiting i ∧ d.Serving i) := by
  have booting (h : d.Booting) : target = .cyw43Driver ∧ ∀ g, phase.Owes g := by
    cases d with
    | bootSend steps =>
        cases steps with
        | nil => cases sends
        | cons step steps =>
            cases sends
            exact ⟨rfl, fun _ => trivial⟩
    | bootRecv => cases sends
    | _ => exact h.elim
  cases h with
  | booting h => exact ⟨rfl, .inl (booting h)⟩
  | waits h => exact ⟨rfl, .inl (booting h)⟩
  | calling | called | replied => cases sends
  | serving i serving => exact ⟨rfl, .inr ⟨i, rfl, serving⟩⟩

/-- The guest and the driver, what is on its way to either, and whether the driver has ended. -/
structure Exchange (g : ShippedGuest) (guest : GuestPhase) (toKernel : List Msg) (d : DriverPhase)
    (ended : Bool) (toEngine : List Msg) : Prop where
  served : guest ≠ .ended → ended = false → Served guest toKernel d toEngine
  heard : guest ≠ .ended → Heard guest toEngine
  asked : ended = false → ∀ i, guest = .waiting i → ∀ m ∈ toKernel, g.asks i m = true
  owes : ended = false → ∀ i, guest = .waiting i → d.Owes g
  owed : ∀ i, guest = .waiting i → ∀ m ∈ toEngine, g.Owed i m
  stopped : guest = .ended → ended = false → toKernel = [] ∧ d = .serve .poll

namespace Exchange
variable {g : ShippedGuest} {guest : GuestPhase} {tk te : List Msg} {d : DriverPhase} {ended : Bool}

theorem driverEnded (h : Exchange g guest tk d ended te) (tk' : List Msg) (d' : DriverPhase) :
    Exchange g guest tk' d' true te where
  served _ live := Bool.noConfusion live
  heard := h.heard
  asked live := Bool.noConfusion live
  owes live := Bool.noConfusion live
  owed := h.owed
  stopped _ live := Bool.noConfusion live

/-- A driver that has stopped with the guest takes no step. -/
theorem not_stopped {s t : SessionState}
    (h : Exchange g s.guest s.toKernel s.driver s.driverEnded s.toEngine)
    (live : s.driverEnded = false) (hstep : DriverStep P lightRaw bus s t) : s.guest ≠ .ended := by
  intro stopped
  obtain ⟨silent, driver⟩ := h.stopped stopped live
  cases hstep with
  | sent target m phase sends =>
      rw [driver] at sends
      cases sends
  | served i m rest _ channel => cases silent.symm.trans channel
  | answered m rest source =>
      rw [driver] at source
      cases source
  | mismatched m channel =>
      rw [driver, silent] at channel
      rcases channel with ⟨-, channel⟩ | ⟨source, -⟩
      · cases channel
      · cases source

/-- The driver has received a message. -/
theorem driverReceived {s : SessionState} {m : Msg} (alive : s.guest ≠ .ended)
    (heard : Heard s.guest s.toEngine)
    (owed : ∀ i, s.guest = .waiting i → ∀ m ∈ s.toEngine, g.Owed i m)
    (taken : ∀ phase, (driverHandle P lightRaw bus s.sensorUdpSeq s.driver m).1 = some phase →
      Served s.guest s.toKernel phase s.toEngine ∧ phase.Owes g ∧
        ∀ i, s.guest = .waiting i → ∀ m ∈ s.toKernel, g.asks i m = true) :
    let t := s.driverReceived P lightRaw bus m
    Exchange g t.guest t.toKernel t.driver t.driverEnded t.toEngine := by
  intro t
  have ht : t = s.driverReceived P lightRaw bus m := rfl
  rw [SessionState.driverReceived] at ht
  cases handled : (driverHandle P lightRaw bus s.sensorUdpSeq s.driver m).1 with
  | none =>
      rw [handled] at ht
      rw [ht]
      exact ⟨fun _ live => Bool.noConfusion live, fun _ => heard, fun live => Bool.noConfusion live,
        fun live => Bool.noConfusion live, owed, fun _ live => Bool.noConfusion live⟩
  | some phase =>
      obtain ⟨served, owes, asked⟩ := taken phase handled
      rw [handled] at ht
      rw [ht]
      exact ⟨fun _ _ => served, fun _ => heard, fun _ => asked, fun _ _ _ => owes, owed,
        fun stopped => absurd stopped alive⟩

/-- A call of the driver's. -/
theorem driverStep {s t : SessionState}
    (h : Exchange g s.guest s.toKernel s.driver s.driverEnded s.toEngine)
    (live : s.driverEnded = false) (hstep : DriverStep P lightRaw bus s t) :
    Exchange g t.guest t.toKernel t.driver t.driverEnded t.toEngine := by
  have alive := h.not_stopped live hstep
  have served := h.served alive live
  cases hstep with
  | sent target m phase sends =>
      have served' := served.driverSent sends
      obtain ⟨silent, sending⟩ := served.of_sends sends
      refine ⟨fun _ _ => served', fun _ => served'.heard, fun _ => h.asked live,
        fun _ i waiting => ?_, fun i waiting m' hm' => ?_, fun stopped => absurd stopped alive⟩
      · rcases sending with ⟨-, owes⟩ | ⟨j, waiting', serving⟩
        · exact owes g
        · exact ((h.owes live j waiting').sent sends serving).1
      · rcases sending with ⟨rfl, -⟩ | ⟨j, waiting', serving⟩
        · exact h.owed i waiting m' hm'
        · cases waiting.symm.trans waiting'
          rw [SessionState.driverSent, silent] at hm'
          by_cases engine : target = .engine
          · rw [if_pos engine] at hm'
            obtain rfl := List.mem_singleton.mp hm'
            exact ((h.owes live i waiting).sent sends serving).2 engine
          · rw [if_neg engine] at hm'
            cases hm'
  | served i m rest driver channel label =>
      rw [driver, channel] at served
      refine driverReceived (s := { s with toKernel := rest }) alive (h.heard alive) h.owed
        fun phase handled => ?_
      rw [show ({ s with toKernel := rest } : SessionState).driver = .serve i from driver]
        at handled
      have mem : m ∈ s.toKernel := channel ▸ List.mem_cons_self
      refine ⟨served.driverServed handled, ?_, fun j waiting m' hm' =>
        h.asked live j waiting m' (channel ▸ List.mem_cons_of_mem _ hm')⟩
      have waiting : s.guest = .waiting i := served.waiting
      exact ShippedGuest.owes_served (h.asked live i waiting m mem) handled
  | answered m rest source channel awaited =>
      refine driverReceived (s := { s with fromBoundary := rest }) alive (h.heard alive) h.owed
        fun phase handled => ⟨served.driverAnswered source handled, ?_, h.asked live⟩
      have owes : s.driver.Owes g := by
        cases guest : s.guest with
        | calling i => exact (guest ▸ served).owes_calling g
        | waiting i => exact h.owes live i guest
        | ended => exact absurd guest alive
      exact owes.answered source handled
  | mismatched m channel sends other => exact h.driverEnded _ _

/-- The guest performs its next import. -/
theorem calls {i : Import} {m : Msg} (h : Exchange g (.calling i) tk d ended te)
    (asks : g.asks i m = true) : Exchange g (.waiting i) (tk ++ [m]) d ended te := by
  have alive : GuestPhase.calling i ≠ .ended := fun h => nomatch h
  have silent : te = [] := (h.heard alive).resolve_right fun ⟨_, _, waiting, _⟩ => nomatch waiting
  refine ⟨fun _ live => ?_, fun _ => .inl silent, fun live j waiting m' hm' => ?_,
    fun live _ _ => (h.served alive live).owes_calling g, fun _ _ m' hm' => ?_,
    fun stopped => nomatch stopped⟩
  · exact (h.served alive live).guestCalls (ShippedGuest.label_of_asks asks)
  · cases waiting
    have none : tk = [] := by
      cases h.served alive live with
      | booting => rfl
      | calling => rfl
    rw [none] at hm'
    exact List.mem_singleton.mp hm' ▸ asks
  · rw [silent] at hm'
    cases hm'

/-- The guest receives the reply it waits for. -/
theorem returns {i : Import} {m : Msg} {rest : List Msg}
    (h : Exchange g (.waiting i) tk d ended (m :: rest)) :
    Exchange (g.receives i m).2 (g.receives i m).1 tk d ended rest := by
  have alive : GuestPhase.waiting i ≠ .ended := fun h => nomatch h
  have owed : g.Owed i m := h.owed i rfl m List.mem_cons_self
  have silent : rest = [] := by
    rcases h.heard alive with none | ⟨_, _, _, one, -⟩
    · cases none
    · exact (List.cons.inj one).2
  rcases ShippedGuest.receives_owed owed with ⟨-, rfl, aborts⟩ | ⟨-, goesOn⟩
  · rw [aborts]
    refine ⟨fun alive => absurd rfl alive, fun alive => absurd rfl alive,
      fun _ _ waiting => (nomatch waiting), fun _ _ waiting => (nomatch waiting),
      fun _ waiting => (nomatch waiting), fun _ live => ?_⟩
    cases h.served alive live with
    | replied => exact ⟨rfl, rfl⟩
  · rw [goesOn]
    exact ⟨fun _ live => (h.served alive live).guestReturns.2, fun _ => .inl silent,
      fun _ _ waiting => (nomatch waiting), fun _ _ waiting => (nomatch waiting),
      fun _ waiting => (nomatch waiting), fun stopped => nomatch stopped⟩

end Exchange

/-! ### The radio -/

/-- A call of the boundary's leaves guest and driver as they are. -/
theorem BoundaryStep.exchange_eq {s t : SessionState} (hstep : BoundaryStep P gspi s t) :
    t.guest = s.guest ∧ t.toKernel = s.toKernel ∧ t.toEngine = s.toEngine ∧
      t.cycles = s.cycles := by
  cases hstep with
  | received m rest channel awaited =>
      obtain ⟨-, -, -, guest, toKernel, toEngine, -⟩ := SessionState.boundaryHandle_frame gspi
        { s with
          toBoundary := rest, boundaryCalls := s.boundaryCalls ++ [.received .kernel m.label] }
        s.boundary m
      obtain ⟨-, -, cycles, -⟩ :=
        SessionState.boundaryReceived_radio gspi { s with toBoundary := rest } m
      exact ⟨guest, toKernel, toEngine, cycles⟩
  | _ => exact ⟨rfl, rfl, rfl, rfl⟩

/-- A call of the driver's leaves the guest, the boundary and its sender as they are. -/
theorem DriverStep.radio_eq {s t : SessionState} (hstep : DriverStep P lightRaw bus s t) :
    t.guest = s.guest ∧ t.wifi = s.wifi := by
  have received (s : SessionState) (m : Msg) :
      (s.driverReceived P lightRaw bus m).guest = s.guest ∧
        (s.driverReceived P lightRaw bus m).wifi = s.wifi := by
    rw [SessionState.driverReceived]
    cases (driverHandle P lightRaw bus s.sensorUdpSeq s.driver m).1 with
    | none => exact ⟨rfl, rfl⟩
    | some phase => exact ⟨rfl, rfl⟩
  cases hstep with
  | served i m rest => exact received { s with toKernel := rest } m
  | answered m rest => exact received { s with fromBoundary := rest } m
  | _ => exact ⟨rfl, rfl⟩

theorem booting_recvTurn (gspi : GspiOutcome) (emptyPolls frames : ℕ) (radio : List RadioFrame) :
    (UnoQWifiSender.recvTurn gspi emptyPolls frames radio).1.booting = false := by
  have head (emptyPolls frames : ℕ) :
      (UnoQWifiSender.recvHead emptyPolls frames).booting = false := by
    rcases SessionState.recvHead_cases emptyPolls frames with h | h <;> rw [h] <;> rfl
  rw [UnoQWifiSender.recvTurn.eq_def]
  split
  · rfl
  · exact head _ _
  · rfl
  · exact head _ _
  · rfl

theorem booting_recvPacket (wifi : UnoQWifiSender) : wifi.recvPacket.booting = false := by
  rw [UnoQWifiSender.recvPacket]
  split
  · rcases SessionState.recvHead_cases 0 0 with h | h <;> rw [h] <;> rfl
  · rfl

/-- The driver of the sender, behind `send_datagram`. -/
theorem driver_sendDatagram (wifi : UnoQWifiSender) (gspi : GspiOutcome)
    (datagram : SensorWifiDatagram) : (wifi.sendDatagram gspi datagram).2.driver =
      (wifi.driver && decide (gspi = .ok)) := by
  obtain ⟨driver, sequence⟩ := wifi
  cases driver <;> cases gspi <;> rfl

theorem takesDatagram_of_boundary {s : SessionState} (h : s.boundary ≠ .txOffer) :
    s.takesDatagram = false := by
  rw [SessionState.takesDatagram]
  split
  · rename_i boundary _
    exact absurd boundary h
  · rfl

theorem takesDatagram_iff {s : SessionState} : s.takesDatagram = true ↔
    s.boundary = .txOffer ∧ ∃ datagram rest, s.toBoundary = .wifiTxUdp datagram :: rest := by
  rw [SessionState.takesDatagram]
  split
  · rename_i datagram rest boundary channel
    exact ⟨fun _ => ⟨boundary, datagram, rest, channel⟩, fun _ => rfl⟩
  · rename_i none
    exact ⟨fun h => Bool.noConfusion h, fun ⟨boundary, datagram, rest, channel⟩ =>
      (none datagram rest boundary channel).elim⟩

/-- A message that is no datagram leaves the sender as it is. -/
theorem boundaryReceived_untaken (gspi : GspiOutcome) {s : SessionState} {m : Msg}
    (h : ¬ (s.boundary = .txOffer ∧ ∃ datagram, m = .wifiTxUdp datagram)) :
    (SessionState.boundaryReceived gspi s m).wifi = s.wifi ∧
      (SessionState.boundaryReceived gspi s m).boundary.booting = s.boundary.booting := by
  rw [SessionState.boundaryReceived, SessionState.boundaryHandle.eq_def]
  split
  · rename_i boundary
    exact ⟨rfl, by rw [boundary]; rfl⟩
  · rename_i datagram boundary
    exact absurd ⟨boundary, datagram, rfl⟩ h
  · rename_i boundary
    exact ⟨rfl, by rw [boundary]; exact booting_recvPacket _⟩
  · exact ⟨rfl, rfl⟩

/-- The boundary takes a datagram. -/
theorem keepsDriver_taken {s t : SessionState} {datagram : SensorWifiDatagram} {rest : List Msg}
    (boundary : s.boundary = .txOffer) (channel : s.toBoundary = .wifiTxUdp datagram :: rest)
    (ht : t =
      SessionState.boundaryReceived gspi { s with toBoundary := rest } (.wifiTxUdp datagram))
    (embedded : s.wifi.driver = true → P.embedCyw43Artifacts = true) :
    (t.wifi.driver = true → P.embedCyw43Artifacts = true) ∧
      (t.KeepsDriver P ↔ s.KeepsDriver P ∧ ¬ s.LosesDriver gspi) := by
  have after : t.wifi.driver = (s.wifi.driver && decide (gspi = .ok)) ∧
      t.boundary.booting = false := by
    rw [ht, SessionState.boundaryReceived,
      show ({ s with toBoundary := rest } : SessionState).boundary = .txOffer from boundary]
    exact ⟨driver_sendDatagram s.wifi gspi datagram, rfl⟩
  have takes : s.takesDatagram = true := takesDatagram_iff.mpr ⟨boundary, datagram, rest, channel⟩
  have past : s.boundary.booting = false := by rw [boundary]; rfl
  rw [SessionState.KeepsDriver, SessionState.KeepsDriver, SessionState.LosesDriver, after.1,
    after.2, past, takes]
  cases hdriver : s.wifi.driver with
  | false => simp
  | true =>
      have hembed := embedded hdriver
      simp [hembed]

/-- The boundary sends. -/
theorem keepsDriver_sent {s t : SessionState} {m : Msg} {phase : BoundaryPhase}
    (sends : s.boundary.sends = some (m, phase)) (ht : t = s.boundarySent P m phase)
    (embedded : s.wifi.driver = true → P.embedCyw43Artifacts = true) :
    (t.wifi.driver = true → P.embedCyw43Artifacts = true) ∧
      (t.KeepsDriver P ↔ s.KeepsDriver P) := by
  have ht_boundary : t.boundary = phase := by rw [ht]; rfl
  rw [SessionState.KeepsDriver, SessionState.KeepsDriver, ht_boundary]
  cases boundary : s.boundary with
  | bootRecv | txOffer | rxOffer | receiving =>
      rw [boundary] at sends
      cases sends
  | bootReady ret steps =>
      rw [boundary] at sends
      cases sends
      have before : ¬ (BoundaryPhase.bootReady ret steps).booting = false := Bool.noConfusion
      cases steps with
      | nil =>
          -- the last answer of the bring-up: the sender is made
          have hwifi : t.wifi = ⟨P.embedCyw43Artifacts, 0⟩ := by
            rw [ht, SessionState.boundarySent, boundary]
          rw [hwifi]
          exact ⟨id, fun _ h => absurd h before, fun _ _ => rfl⟩
      | cons step steps =>
          have hwifi : t.wifi = s.wifi := by rw [ht, SessionState.boundarySent, boundary]
          rw [hwifi]
          exact ⟨embedded, fun _ h => absurd h before, fun _ h => Bool.noConfusion h⟩
  | txSend result =>
      have hwifi : t.wifi = s.wifi := by rw [ht, SessionState.boundarySent, boundary]
      rw [boundary] at sends
      rw [hwifi]
      cases result <;> cases sends <;> exact ⟨embedded, Iff.rfl⟩
  | rxSend packet =>
      have hwifi : t.wifi = s.wifi := by rw [ht, SessionState.boundarySent, boundary]
      rw [boundary] at sends
      rw [hwifi]
      cases packet <;> cases sends <;> exact ⟨embedded, Iff.rfl⟩

/-- **The sender keeps its driver** over a call of the boundary's, unless the radio fails under
`send_datagram`. -/
theorem BoundaryStep.keepsDriver {s t : SessionState} (hstep : BoundaryStep P gspi s t)
    (embedded : s.wifi.driver = true → P.embedCyw43Artifacts = true) :
    (t.wifi.driver = true → P.embedCyw43Artifacts = true) ∧
      (t.KeepsDriver P ↔ s.KeepsDriver P ∧ ¬ s.LosesDriver gspi) := by
  have keeps (hno : s.takesDatagram = false) (h : t.KeepsDriver P ↔ s.KeepsDriver P) :
      t.KeepsDriver P ↔ s.KeepsDriver P ∧ ¬ s.LosesDriver gspi :=
    h.trans (and_iff_left fun ⟨takes, _⟩ => by rw [hno] at takes; cases takes).symm
  cases hstep with
  | receiving emptyPolls frames boundary =>
      refine ⟨embedded, keeps (by rw [SessionState.takesDatagram, boundary]) ?_⟩
      rw [SessionState.KeepsDriver, SessionState.KeepsDriver, boundary, booting_recvTurn]
      exact Iff.rfl
  | bringupFailed ret steps boundary =>
      exact ⟨embedded, keeps (by rw [SessionState.takesDatagram, boundary]) Iff.rfl⟩
  | sent m phase sends =>
      have silent : s.takesDatagram = false := takesDatagram_of_boundary fun offers => by
        rw [offers] at sends
        cases sends
      obtain ⟨embedded', hkeeps⟩ := keepsDriver_sent sends rfl embedded
      exact ⟨embedded', keeps silent hkeeps⟩
  | received m rest channel awaited =>
      by_cases takes : s.takesDatagram = true
      · obtain ⟨boundary, datagram, rest', channel'⟩ := takesDatagram_iff.mp takes
        obtain ⟨rfl, rfl⟩ := List.cons.inj (channel.symm.trans channel')
        exact keepsDriver_taken boundary channel rfl embedded
      · obtain ⟨hwifi, hbooting⟩ := boundaryReceived_untaken gspi
          (s := { s with toBoundary := rest }) (m := m) fun ⟨boundary, datagram, hm⟩ =>
            takes (takesDatagram_iff.mpr ⟨boundary, datagram, rest, hm ▸ channel⟩)
        rw [hwifi]
        refine ⟨embedded, keeps (Bool.not_eq_true _ ▸ takes) ?_⟩
        rw [SessionState.KeepsDriver, SessionState.KeepsDriver, hwifi, hbooting]
  | mismatched m rest channel other =>
      refine ⟨embedded, keeps (Bool.not_eq_true _ ▸ fun takes => ?_) Iff.rfl⟩
      obtain ⟨boundary, datagram, rest', channel'⟩ := takesDatagram_iff.mp takes
      obtain ⟨rfl, -⟩ := List.cons.inj (channel.symm.trans channel')
      rw [boundary] at other
      cases other

/-! ### Runs -/

namespace PanelState
variable {s t : PanelState}

structure PanelInv (P : Panel) (s : PanelState) : Prop where
  exchange : Exchange s.vars s.session.guest s.session.toKernel s.session.driver
    s.session.driverEnded s.session.toEngine
  embedded : s.session.wifi.driver = true → P.embedCyw43Artifacts = true
  failed : s.failedReply = true → s.session.guest = .ended
  later : s.later = []

theorem panelInv_init : init.PanelInv P where
  exchange := {
    served := fun _ _ => served_init
    heard := fun _ => .inl rfl
    asked := fun _ _ waiting => nomatch waiting
    owes := fun _ _ waiting => nomatch waiting
    owed := fun _ waiting => nomatch waiting
    stopped := fun stopped => nomatch stopped }
  embedded h := nomatch h
  failed h := nomatch h
  later := rfl

theorem recovers_init : init.Recovers P where
  cycles h := nomatch h
  keepsDriver h := nomatch h
  commits _ h := nomatch h

/-- Behind a failed cycle there is none. -/
theorem PanelInv.recovers (h : s.PanelInv P) :
    s.Recovers P ↔ s.session.guest ≠ .ended ∧ s.session.KeepsDriver P := by
  refine ⟨fun h => ⟨h.cycles, h.keepsDriver⟩, fun ⟨cycles, keepsDriver⟩ =>
    ⟨cycles, keepsDriver, fun c hc => ?_⟩⟩
  rw [h.later] at hc
  cases hc

/-- The others go on. -/
theorem PanelInv.goesOn {u : SessionState} (h : s.PanelInv P)
    (exchange : Exchange s.vars u.guest u.toKernel u.driver u.driverEnded u.toEngine)
    (embedded : u.wifi.driver = true → P.embedCyw43Artifacts = true)
    (guest : u.guest = s.session.guest)
    (cycles : s.failedReply = true → u.cycles = s.session.cycles) : (s.goesOn u).PanelInv P := by
  refine ⟨exchange, embedded, fun failed => guest.trans (h.failed failed), ?_⟩
  rw [PanelState.goesOn]
  dsimp only
  split
  · rename_i failed
    rw [h.later, cycles failed, List.drop_length]
    rfl
  · exact h.later

/-- A call of the guest's. -/
theorem PanelInv.guestCalls {m : Msg} (h : s.PanelInv P) (hnext : s.guestCalls m = some t) :
    t.PanelInv P ∧ (t.Recovers P ↔ s.Recovers P) := by
  rw [PanelState.guestCalls] at hnext
  split at hnext
  · rename_i i guest
    obtain ⟨asks, hnext⟩ := Option.ite_none_right_eq_some.mp hnext
    obtain ⟨u, hu, rfl⟩ := Option.map_eq_some_iff.mp hnext
    obtain ⟨j, guest', -, rfl⟩ := SessionState.guestCalls_eq hu
    cases guest.symm.trans guest'
    have exchange := h.exchange
    rw [guest] at exchange
    have running : s.session.guest ≠ .ended := by
      rw [guest]
      exact fun h => nomatch h
    have inv : PanelInv P { s with session := { s.session with
        guest := .waiting i, toKernel := s.session.toKernel ++ [m] } } :=
      ⟨exchange.calls asks, h.embedded, fun failed => absurd (h.failed failed) running, h.later⟩
    refine ⟨inv, ?_⟩
    rw [inv.recovers, h.recovers]
    exact and_congr_left fun _ => iff_of_true (fun h => nomatch h) running
  · cases hnext

/-- The guest receives a reply. -/
theorem PanelInv.guestReturns (h : s.PanelInv P) (hnext : s.guestReturns = some t) :
    t.PanelInv P ∧ (t.Recovers P ↔ s.Recovers P ∧ ¬ s.Fails .ret) := by
  rw [PanelState.guestReturns] at hnext
  split at hnext
  · rename_i i m rest guest channel
    cases hnext
    have exchange := h.exchange
    rw [guest, channel] at exchange
    have owed : s.vars.Owed i m := exchange.owed i rfl m List.mem_cons_self
    have running : s.session.guest ≠ .ended := by
      rw [guest]
      exact fun h => nomatch h
    have fails : s.Fails .ret ↔ m.errno = some wasiErrnoIo := by
      rw [PanelState.Fails, channel]
      exact ⟨fun ⟨_, hm, herrno⟩ => Option.some.inj hm ▸ herrno, fun herrno => ⟨m, rfl, herrno⟩⟩
    have hfailed : (s.failedReply || m.errno == some wasiErrnoIo) = true →
        (s.vars.receives i m).1 = .ended := by
      intro failed
      rcases ShippedGuest.receives_owed owed with ⟨-, -, aborts⟩ | ⟨herrno, -⟩
      · exact aborts
      · rcases Bool.or_eq_true_iff.mp failed with failed | failed
        · exact absurd (h.failed failed) running
        · exact absurd (eq_of_beq failed) herrno
    have inv : PanelInv P { s with
        session := { s.session with
          guest := (s.vars.receives i m).1
          replies := s.session.replies ++ [m]
          toEngine := rest }
        vars := (s.vars.receives i m).2
        failedReply := s.failedReply || m.errno == some wasiErrnoIo } :=
      ⟨exchange.returns, h.embedded, hfailed, h.later⟩
    refine ⟨inv, ?_⟩
    rw [inv.recovers, h.recovers, fails, and_right_comm]
    refine and_congr_left fun _ => ?_
    dsimp only
    rcases ShippedGuest.receives_owed owed with ⟨herrno, -, aborts⟩ | ⟨herrno, goesOn⟩
    · rw [aborts]
      exact ⟨fun alive => absurd rfl alive, fun ⟨_, hno⟩ => absurd herrno hno⟩
    · rw [goesOn]
      exact ⟨fun _ => ⟨running, herrno⟩, fun _ h => nomatch h⟩
  · cases hnext

/-- **A step.** -/
theorem PanelInv.step {a : SessionAction} (h : s.PanelInv P) (hnext : s.next P a = some t) :
    t.PanelInv P ∧ (t.Recovers P ↔ s.Recovers P ∧ ¬ s.Fails a) := by
  have still {u : SessionState} (inv : (s.goesOn u).PanelInv P) (guest : u.guest = s.session.guest)
      (keepsDriver : u.KeepsDriver P ↔ s.session.KeepsDriver P) (noFail : ¬ s.Fails a) :
      (s.goesOn u).PanelInv P ∧ ((s.goesOn u).Recovers P ↔ s.Recovers P ∧ ¬ s.Fails a) := by
    refine ⟨inv, ?_⟩
    rw [inv.recovers, h.recovers, and_iff_left noFail]
    exact and_congr (by rw [PanelState.goesOn, guest]) keepsDriver
  cases a with
  | call m =>
      obtain ⟨inv, hrecovers⟩ := h.guestCalls hnext
      exact ⟨inv, hrecovers.trans (and_iff_left id).symm⟩
  | ret => exact h.guestReturns hnext
  | driver lightRaw bus =>
      obtain ⟨u, hu, rfl⟩ := Option.map_eq_some_iff.mp hnext
      obtain ⟨live, hstep⟩ := SensorPanel.driverStep hu
      obtain ⟨guest, wifi⟩ := hstep.radio_eq
      obtain ⟨boundary, -⟩ := hstep.boundary_eq
      refine still (h.goesOn (h.exchange.driverStep live hstep) (wifi ▸ h.embedded) guest
        fun failed => ?_) guest ?_ id
      · exact absurd (h.failed failed) (h.exchange.not_stopped live hstep)
      · rw [SessionState.KeepsDriver, SessionState.KeepsDriver, boundary, wifi]
  | driverFails =>
      obtain ⟨u, hu, rfl⟩ := Option.map_eq_some_iff.mp hnext
      obtain ⟨-, rfl⟩ := driverFails_eq hu
      exact still (h.goesOn (h.exchange.driverEnded _ _) h.embedded rfl fun _ => rfl) rfl Iff.rfl id
  | boundary gspi =>
      obtain ⟨u, hu, rfl⟩ := Option.map_eq_some_iff.mp hnext
      obtain ⟨-, hstep⟩ := SensorPanel.boundaryStep hu
      obtain ⟨guest, toKernel, toEngine, cycles⟩ := hstep.exchange_eq
      obtain ⟨driver, driverEnded, -⟩ := hstep.driver_eq
      obtain ⟨embedded, keepsDriver⟩ := hstep.keepsDriver h.embedded
      have exchange := h.exchange
      rw [← guest, ← toKernel, ← toEngine, ← driver, ← driverEnded] at exchange
      have inv := h.goesOn exchange embedded guest fun _ => cycles
      refine ⟨inv, ?_⟩
      rw [inv.recovers, h.recovers, and_assoc]
      exact and_congr (by rw [PanelState.goesOn, guest]) keepsDriver
  | boundaryFails =>
      obtain ⟨u, hu, rfl⟩ := Option.map_eq_some_iff.mp hnext
      obtain ⟨-, rfl⟩ := boundaryFails_eq hu
      exact still (h.goesOn h.exchange h.embedded rfl fun _ => rfl) rfl Iff.rfl id
  | arrive frame answers =>
      cases hnext
      exact still (h.goesOn h.exchange h.embedded rfl fun _ => rfl) rfl Iff.rfl id

end PanelState

open PanelState

/-- **Recovery.** The panel with its shipped guest keeps cycling in exactly the runs in which no
cycle fails: behind the reply of a failed cycle the guest has aborted, and behind an error of the
radio the sender has no driver any more. -/
theorem recovers_iff (P : Panel) {acts : List SessionAction} {s : PanelState}
    (h : (panelMachine P).exec init acts = some s) :
    s.Recovers P ↔ (panelMachine P).Along (fun s a => ¬ s.Fails a) init acts := by
  rw [Machine.exec_iff_along_of_invariant (I := PanelInv P)
    (fun s a t hI hnext => (hI.step hnext).1) (fun s a t hI hnext => (hI.step hnext).2)
    panelInv_init h]
  exact and_iff_right recovers_init

theorem recovers_iff_inTime : ∃ s, (panelMachine sensorPanel).exec init ackInTime = some s ∧
    s.session.guest = .calling .read ∧ s.Recovers sensorPanel := by
  have hrun : ((panelMachine sensorPanel).exec init ackInTime).map (·.session.guest) =
      some (.calling .read) := by decide +kernel
  obtain ⟨s, hs, guest⟩ := Option.map_eq_some_iff.mp hrun
  exact ⟨s, hs, guest, (recovers_iff sensorPanel hs).mpr (by decide +kernel)⟩

/-- One error of the radio, in the first cycle: the guest has aborted, and the sender has no
driver. -/
theorem recovers_txFailed : ∃ s, (panelMachine sensorPanel).exec init
    (txFailed ++ [.driver 0 dht20Answer, .ret]) = some s ∧ s.session.guest = .ended ∧
      s.session.wifi.driver = false ∧ ¬ s.Recovers sensorPanel := by
  have hrun : ((panelMachine sensorPanel).exec init
      (txFailed ++ [.driver 0 dht20Answer, .ret])).map
        (fun s => (s.session.guest, s.session.wifi.driver)) = some (.ended, false) := by
    decide +kernel
  obtain ⟨s, hs, hfields⟩ := Option.map_eq_some_iff.mp hrun
  obtain ⟨guest, driver⟩ := Prod.mk.inj hfields
  exact ⟨s, hs, guest, driver, fun recovers => recovers.cycles guest⟩

end HibanaPico.SensorPanel
