import HibanaPico.Baker.EpfSpool

/-!
# RP2W — EPF policy image route

How the image of a timer policy reaches the engine.  The driver looks for an image in the mailbox,
among what is active and on the UART, and sends it, or a notice that there is none; hibana asks the
board's resolver which of the two arms is the one to send.  The host and the other core may write
the same statics between any two of its looks.  The board's EPF statics and the functions that load
an image are, word for word, those of Baker.

* `epfPolicyImageReady`, `readEpfPolicyImage`, `tryLoadUartPolicyImage`: the three looks.
* `driverTurn`, `engineTurn`: the two roles, up to the engine's first receive.
* `Followed`, `StillThere`: the arm sent is the one decided and followed, when an image is still
  there.
-/

namespace HibanaPico.Rp2w
open HibanaPico.Support
open HibanaPico.Transport
open HibanaPico.Sio
open HibanaPico.Baker

variable {V ε : Type}

def epfPolicyImageBytes : ℕ := 64
def epfIngressUartChoreography : U32 := 0x55434852

/-- `HIBANA_EPF_UART_IMAGE`, `HIBANA_EPF_UART_IMAGE_LEN` and `HIBANA_EPF_UART_RX_READY`. -/
structure UartIngress where
  image : Cells U8
  len : U32
  rxReady : Bool

def UartIngress.empty : UartIngress := { image := fun _ => 0, len := 0, rxReady := false }

/-- `rp2w_epf_policy_image_ready`. -/
def epfPolicyImageReady (m : EpfStatics V) : Bool :=
  (m.bytecodeState = epfBytecodeStateCommit ∧ m.bytecodeLen.toNat = epfBytecodeBytes) ∨
    m.activeLen.toNat = epfBytecodeBytes

/-- `read_epf_policy_image::<N>`. -/
def readEpfPolicyImage (n : ℕ) (m : EpfStatics V) : Option (List U8) :=
  if n > epfBytecodeBytes then none
  else if m.bytecodeState = epfBytecodeStateCommit ∧ m.bytecodeLen.toNat = n then
    some (m.bytecodeImage.slice 0 n)
  else if m.activeLen.toNat = n then some (m.activeImage.slice 0 n)
  else none

/-- `read_epf_uart_image::<N>`. -/
def readEpfUartImage (n : ℕ) (u : UartIngress) : Option (List U8) :=
  if u.len.toNat ≠ n ∨ u.len.toNat > epfBytecodeBytes then none else some (u.image.slice 0 n)

/-- `load_epf_uart_choreography_image`. -/
def loadEpfUartChoreographyImage (E : HibanaEpf V ε) (m : EpfStatics V) (core : Core)
    (image : List U8) : EpfStatics V × Bool :=
  epfLoadImage E m core image (epfHashImage E image) epfIngressUartChoreography

/-- `try_load_uart_policy_image`, on the driver's core. -/
def tryLoadUartPolicyImage (E : HibanaEpf V ε) (m : EpfStatics V) (u : UartIngress) :
    EpfStatics V × UartIngress × Option (List U8) :=
  if !u.rxReady then (m, u, none)
  else
    match readEpfUartImage epfPolicyImageBytes u with
    | none => (m, u, none)
    | some image =>
        match loadEpfUartChoreographyImage E m .core0 image with
        | (m, false) => (m, u, none)
        | (m, true) => (m, { u with rxReady := false }, some image)

/-- The UART has a whole image that the driver has not taken, and that the engine of its core
accepts. -/
def uartImageReady (E : HibanaEpf V ε) (m : EpfStatics V) (u : UartIngress) : Bool :=
  u.rxReady && decide (u.len.toNat = epfPolicyImageBytes) &&
    (E.load (m.vm .core0) (u.image.slice 0 epfPolicyImageBytes)).2.isOk

inductive DecisionArm where
  | left
  | right
  deriving DecidableEq, Repr

/-- `epf_image_ready_resolver`. -/
def epfImageReadyResolver (m : EpfStatics V) : DecisionArm :=
  if epfPolicyImageReady m then .left else .right

/-- `EpfPolicyImage`, `EpfNoImageNotice`. -/
inductive PolicyMsg where
  | policyImage (image : List U8)
  | noImageNotice
  deriving DecidableEq, Repr

/-- The arm of the choreography's first route that sends the message. -/
def PolicyMsg.arm : PolicyMsg → DecisionArm
  | .policyImage _ => .left
  | .noImageNotice => .right

/-- `ctx.recv::<EpfPolicyImage>()`, which takes no message of another label. -/
def recvPolicyImage : PolicyMsg → Option (List U8)
  | .policyImage image => some image
  | .noImageNotice => none

/-- Where the driver is. -/
inductive Driver where
  /-- `while !rp2w_epf_policy_image_ready()`, after so many waits. -/
  | look (waits : ℕ)
  /-- `try_load_uart_policy_image`. -/
  | uart (waits : ℕ)
  /-- `read_epf_policy_image`. -/
  | read
  /-- `ctx.send(..)`. -/
  | send (msg : PolicyMsg)
  | sent
  | endpointError
  deriving DecidableEq, Repr

/-- Where the engine is. -/
inductive Engine where
  /-- `ctx.recv::<EpfPolicyImage>()`. -/
  | recv
  | received (image : List U8)
  | endpointError
  deriving DecidableEq, Repr

/-- The driver gives up after so many waits. -/
def epfImageWaits : ℕ := 5000

structure RouteState (V ε : Type) where
  statics : EpfStatics V
  uart : UartIngress
  /-- The engine core's. -/
  spool : TapSpool ε
  driver : Driver
  engine : Engine
  /-- From the driver to the engine. -/
  channel : Option PolicyMsg
  /-- Whether there was an image where the driver looked last, as an observer notes it of the
  statics and the UART. -/
  found : Bool

def RouteState.init (E : HibanaEpf V ε) : RouteState V ε :=
  { statics := .init E, uart := .empty, spool := .empty, driver := .look 0, engine := .recv
    channel := none, found := false }

/-- The driver goes on; a send on the resolved route asks the resolver. -/
def driverTurn (E : HibanaEpf V ε) (s : RouteState V ε) : Option (RouteState V ε) :=
  match s.driver with
  | .look waits =>
      some { s with driver := if epfPolicyImageReady s.statics then .read else .uart waits }
  | .uart waits =>
      let found := uartImageReady E s.statics s.uart
      match tryLoadUartPolicyImage E s.statics s.uart with
      | (statics, uart, some image) =>
          some { s with statics, uart, driver := .send (.policyImage image), found }
      | (statics, uart, none) =>
          if waits ≥ epfImageWaits then
            some { s with statics, uart, driver := .send .noImageNotice, found }
          else some { s with statics, uart, driver := .look (waits + 1), found }
  | .read =>
      let found := epfPolicyImageReady s.statics
      match readEpfPolicyImage epfPolicyImageBytes s.statics with
      | some image => some { s with driver := .send (.policyImage image), found }
      | none => some { s with driver := .send .noImageNotice, found }
  | .send msg =>
      if msg.arm = epfImageReadyResolver s.statics then
        some { s with driver := .sent, channel := some msg }
      else some { s with driver := .endpointError }
  | .sent | .endpointError => none

/-- The engine goes on. -/
def engineTurn (s : RouteState V ε) : Option (RouteState V ε) :=
  match s.engine, s.channel with
  | .recv, some msg =>
      match recvPolicyImage msg with
      | some image => some { s with engine := .received image, channel := none }
      | none => some { s with engine := .endpointError, channel := none }
  | _, _ => none

inductive RouteAction (ε : Type) where
  /-- The host writes the mailbox. -/
  | host (state len hash : U32) (image : Cells U8)
  /-- The UART has an image, which its ingress accepted. -/
  | uart (image : { bytes : List U8 // bytes.length ≤ epfBytecodeBytes })
  /-- `poll_epf_diagnostic` of the engine's core, with the events in the tap port. -/
  | pollDiagnostic (tap : List ε)
  | driver
  | engine

def RouteState.next (E : HibanaEpf V ε) (s : RouteState V ε) :
    RouteAction ε → Option (RouteState V ε)
  | .host state len hash image =>
      some { s with
        statics.bytecodeState := state
        statics.bytecodeLen := len
        statics.bytecodeHash := hash
        statics.bytecodeImage := image }
  | .uart image =>
      some { s with
        uart.image := s.uart.image.store 0 image.1
        uart.len := BitVec.ofNat 32 image.1.length
        uart.rxReady := true }
  | .pollDiagnostic tap =>
      let r := pollEpfDiagnostic E s.statics .core1 s.spool tap
      some { s with statics := r.statics, spool := r.spool }
  | .driver => driverTurn E s
  | .engine => engineTurn s

def routeMachine (E : HibanaEpf V ε) : Machine (RouteState V ε) (RouteAction ε) where
  next := RouteState.next E

/-- The message sent is of the arm the resolver decides, and the engine receives it; neither role
ends in an endpoint error. -/
structure Followed (E : HibanaEpf V ε) (s : RouteState V ε) (a : RouteAction ε) : Prop where
  decided : ∀ msg, a = .driver → s.driver = .send msg → msg.arm = epfImageReadyResolver s.statics
  received : ∀ msg, a = .driver → s.driver = .send msg → (recvPolicyImage msg).isSome = true
  noError : ∀ t, (routeMachine E).next s a = some t →
    t.driver ≠ .endpointError ∧ t.engine ≠ .endpointError

/-- When the driver sends, there was an image at its last look, and there is one still. -/
def StillThere (s : RouteState V ε) (a : RouteAction ε) : Prop :=
  ∀ msg, a = .driver → s.driver = .send msg →
    s.found = true ∧ epfPolicyImageReady s.statics = true

/-! ### The looks -/

/-- The reader finds an image exactly when the board says there is one. -/
theorem readEpfPolicyImage_isSome (m : EpfStatics V) :
    (readEpfPolicyImage epfPolicyImageBytes m).isSome = epfPolicyImageReady m := by
  have hbytes : epfPolicyImageBytes = epfBytecodeBytes := rfl
  rw [hbytes, readEpfPolicyImage, if_neg (Nat.lt_irrefl _), epfPolicyImageReady]
  by_cases hcommit : m.bytecodeState = epfBytecodeStateCommit ∧
      m.bytecodeLen.toNat = epfBytecodeBytes
  · rw [if_pos hcommit, decide_eq_true (.inl hcommit)]
    rfl
  rw [if_neg hcommit]
  by_cases hactive : m.activeLen.toNat = epfBytecodeBytes
  · rw [if_pos hactive, decide_eq_true (.inr hactive)]
    rfl
  · rw [if_neg hactive, decide_eq_false fun h => h.elim hcommit hactive]
    rfl

/-- The UART's bytes are read when they are as many as a policy image has. -/
theorem readEpfUartImage_eq (u : UartIngress) :
    readEpfUartImage epfPolicyImageBytes u =
      if u.len.toNat = epfPolicyImageBytes then some (u.image.slice 0 epfPolicyImageBytes)
      else none := by
  have hbytes : epfPolicyImageBytes ≤ epfBytecodeBytes := by decide
  unfold readEpfUartImage
  by_cases hlen : u.len.toNat = epfPolicyImageBytes
  · rw [if_pos hlen, if_neg (not_or.mpr ⟨not_not.mpr hlen, by rw [hlen]; exact hbytes.not_gt⟩)]
  · rw [if_neg hlen, if_pos (.inl hlen)]

/-- An image of a fitting length is loaded exactly when the engine accepts it. -/
theorem loadEpfUartChoreographyImage_snd (E : HibanaEpf V ε) (m : EpfStatics V) (core : Core)
    {image : List U8} (hne : image ≠ []) (hlen : image.length ≤ epfBytecodeBytes) :
    (loadEpfUartChoreographyImage E m core image).2 = (E.load (m.vm core) image).2.isOk := by
  unfold loadEpfUartChoreographyImage epfLoadImage
  rw [if_neg (not_or.mpr ⟨hne, hlen.not_gt⟩)]
  rcases E.load (m.vm core) image with ⟨vm, _ | loaded⟩
  · rfl
  · rfl

/-- The driver takes an image from the UART exactly when there is one to take. -/
theorem tryLoadUartPolicyImage_isSome (E : HibanaEpf V ε) (m : EpfStatics V) (u : UartIngress) :
    (tryLoadUartPolicyImage E m u).2.2.isSome = uartImageReady E m u := by
  unfold tryLoadUartPolicyImage uartImageReady
  rw [readEpfUartImage_eq]
  by_cases hready : u.rxReady = true
  · rw [hready, Bool.true_and]
    by_cases hlen : u.len.toNat = epfPolicyImageBytes
    · have hne : u.image.slice 0 epfPolicyImageBytes ≠ [] := by
        rw [← List.length_pos_iff, Cells.length_slice]
        decide
      have hfits : (u.image.slice 0 epfPolicyImageBytes).length ≤ epfBytecodeBytes := by
        rw [Cells.length_slice]
        decide
      rw [if_pos hlen, decide_eq_true hlen, Bool.true_and,
        ← loadEpfUartChoreographyImage_snd E m .core0 hne hfits]
      dsimp only
      rcases loadEpfUartChoreographyImage E m .core0 (u.image.slice 0 epfPolicyImageBytes) with
        ⟨statics, _ | _⟩
      · rfl
      · rfl
    · rw [if_neg hlen, decide_eq_false hlen]
      rfl
  · rw [Bool.eq_false_iff.mpr hready]
    rfl

/-- A message that the engine receives is of the left arm. -/
theorem PolicyMsg.arm_of_recv {msg : PolicyMsg} (h : (recvPolicyImage msg).isSome = true) :
    msg.arm = .left := by
  cases msg with
  | policyImage image => rfl
  | noImageNotice => cases h

theorem epfImageReadyResolver_eq_left {m : EpfStatics V} :
    epfImageReadyResolver m = .left ↔ epfPolicyImageReady m = true := by
  unfold epfImageReadyResolver
  split <;> simp_all

/-! ### Steps -/

/-- What is kept as long as every send finds an image: the driver is about to send one exactly if it
found one, what is on its way is an image, and there was no endpoint error. -/
structure OnRoute (s : RouteState V ε) : Prop where
  sends : ∀ msg, s.driver = .send msg → (recvPolicyImage msg).isSome = s.found
  carries : ∀ msg, s.channel = some msg → (recvPolicyImage msg).isSome = true
  driver : s.driver ≠ .endpointError
  engine : s.engine ≠ .endpointError

variable {E : HibanaEpf V ε} {s t : RouteState V ε} {a : RouteAction ε}

theorem OnRoute.init (E : HibanaEpf V ε) : OnRoute (.init E) where
  sends := fun msg h => by cases h
  carries := fun msg h => by cases h
  driver := fun h => by cases h
  engine := fun h => by cases h

/-- Only the driver's place, and what it found, have changed. -/
theorem OnRoute.driven (hs : OnRoute s) (hdriver : t.driver ≠ .endpointError)
    (hsends : ∀ msg, t.driver = .send msg → (recvPolicyImage msg).isSome = t.found)
    (hengine : t.engine = s.engine) (hchannel : t.channel = s.channel) : OnRoute t where
  sends := hsends
  carries := hchannel ▸ hs.carries
  driver := hdriver
  engine := hengine ▸ hs.engine

theorem driverTurn_onRoute (hs : OnRoute s) (hf : StillThere s .driver)
    (h : driverTurn E s = some t) : OnRoute t := by
  unfold driverTurn at h
  split at h
  · cases h
    refine hs.driven ?_ ?_ rfl rfl
    · show (if _ then Driver.read else _) ≠ _
      split <;> simp
    · intro msg hmsg
      dsimp only at hmsg
      split at hmsg <;> cases hmsg
  · have hsome := tryLoadUartPolicyImage_isSome E s.statics s.uart
    dsimp only at h
    split at h
    · rename_i himage
      rw [himage] at hsome
      cases h
      exact hs.driven (by simp) (fun msg hmsg => by cases hmsg; exact hsome) rfl rfl
    · rename_i himage
      rw [himage] at hsome
      split at h
      · cases h
        exact hs.driven (by simp) (fun msg hmsg => by cases hmsg; exact hsome) rfl rfl
      · cases h
        exact hs.driven (by simp) (fun msg hmsg => by cases hmsg) rfl rfl
  · have hsome := readEpfPolicyImage_isSome s.statics
    dsimp only at h
    split at h
    · rename_i image himage
      rw [himage] at hsome
      cases h
      exact hs.driven (by simp) (fun msg hmsg => by cases hmsg; exact hsome) rfl rfl
    · rename_i himage
      rw [himage] at hsome
      cases h
      exact hs.driven (by simp) (fun msg hmsg => by cases hmsg; exact hsome) rfl rfl
  · rename_i msg hmsg
    obtain ⟨hfound, hready⟩ := hf msg rfl hmsg
    have hrecv : (recvPolicyImage msg).isSome = true := (hs.sends msg hmsg).trans hfound
    rw [if_pos ((PolicyMsg.arm_of_recv hrecv).trans
      (epfImageReadyResolver_eq_left.mpr hready).symm)] at h
    cases h
    exact ⟨fun _ h => (by cases h), fun _ h => (by cases h; exact hrecv), by simp, hs.engine⟩
  · cases h
  · cases h

theorem engineTurn_onRoute (hs : OnRoute s) (h : engineTurn s = some t) : OnRoute t := by
  unfold engineTurn at h
  split at h
  · rename_i msg _ hmsg
    split at h
    · cases h
      exact ⟨hs.sends, fun _ h => (by cases h), hs.driver, by simp⟩
    · rename_i hnone
      have hrecv := hs.carries msg hmsg
      rw [hnone] at hrecv
      cases hrecv
  · cases h

theorem OnRoute.step (hs : OnRoute s) (hf : StillThere s a)
    (h : (routeMachine E).next s a = some t) : OnRoute t := by
  cases a with
  | host | uart | pollDiagnostic =>
      cases h
      exact ⟨hs.sends, hs.carries, hs.driver, hs.engine⟩
  | driver => exact driverTurn_onRoute hs hf h
  | engine => exact engineTurn_onRoute hs h

/-- **The policy image route.**  Along every run of the driver and the engine, with the host, the
UART and the engine's core in between: the arm sent is the arm decided, the engine follows it and
no endpoint fails, exactly if at each send there was an image at the driver's last look and there is
one still. -/
theorem image_route_followed_iff (E : HibanaEpf V ε) (as : List (RouteAction ε)) :
    (routeMachine E).Along (Followed E) (.init E) as ↔
      (routeMachine E).Along StillThere (.init E) as := by
  refine Machine.along_iff_of_invariant (I := OnRoute) ?_ (fun s a t hs hf ht => hs.step hf ht)
    (.init E)
  intro s a hs
  constructor
  · intro hfollowed msg ha hmsg
    have hrecv := hfollowed.received msg ha hmsg
    refine ⟨(hs.sends msg hmsg).symm.trans hrecv, epfImageReadyResolver_eq_left.mp ?_⟩
    rw [← hfollowed.decided msg ha hmsg, PolicyMsg.arm_of_recv hrecv]
  · intro hf
    have hrecv : ∀ msg, a = .driver → s.driver = .send msg →
        (recvPolicyImage msg).isSome = true :=
      fun msg ha hmsg => (hs.sends msg hmsg).trans (hf msg ha hmsg).1
    refine ⟨fun msg ha hmsg => ?_, hrecv, fun t ht => ?_⟩
    · rw [PolicyMsg.arm_of_recv (hrecv msg ha hmsg),
        epfImageReadyResolver_eq_left.mpr (hf msg ha hmsg).2]
    · have hs' := hs.step hf ht
      exact ⟨hs'.driver, hs'.engine⟩

/-- The message the driver is about to send. -/
def Driver.sends : Driver → Option PolicyMsg
  | .send msg => some msg
  | _ => none

theorem not_followed_of_exec {as : List (RouteAction ε)} (received : Bool)
    (sent decided : DecisionArm)
    (h : (((routeMachine E).exec (.init E) as).bind fun s => s.driver.sends.map fun msg =>
      ((recvPolicyImage msg).isSome, msg.arm, epfImageReadyResolver s.statics)) =
        some (received, sent, decided))
    (hnot : ¬ (received = true ∧ sent = decided)) :
    ¬ (routeMachine E).Along (Followed E) (.init E) (as ++ [.driver]) := by
  obtain ⟨s, hs, h⟩ := Option.bind_eq_some_iff.mp h
  obtain ⟨msg, hmsg, h⟩ := Option.map_eq_some_iff.mp h
  simp only [Prod.mk.injEq] at h
  obtain ⟨hreceived, hsent, hdecided⟩ := h
  have hsend : s.driver = .send msg := by
    cases hdriver : s.driver with
    | send msg' =>
        rw [hdriver] at hmsg
        cases hmsg
        rfl
    | look | uart | read | sent | endpointError =>
        rw [hdriver] at hmsg
        cases hmsg
  refine Machine.not_along_of_exec hs fun hfollowed => hnot ⟨?_, ?_⟩
  · rw [← hreceived]
    exact hfollowed.received msg rfl hsend
  · rw [← hsent, ← hdecided]
    exact hfollowed.decided msg rfl hsend

/-- A mailbox commit of so many bytes, with a policy image at their front. -/
def commits (len hash : U32) : RouteAction Bool :=
  .host epfBytecodeStateCommit len hash (Cells.store (fun _ => 0) 0 (headerImage 1 57))

/-- A UART delivery of a policy image filled up to its full length. -/
def delivers : RouteAction Bool :=
  .uart ⟨headerImage 1 57 ++ List.replicate 54 0, by decide⟩

/-- A commit that the other core rejects before it is read makes the driver send the notice, which
the engine does not receive; rejected after it is read, the driver sends an image where the notice
is decided; and so it does when the other core loads a short image after the UART's. -/
theorem image_route_not_followed :
    ¬ (routeMachine headerEpf).Along (Followed headerEpf) (.init headerEpf)
      ([commits 64 0, .driver, .pollDiagnostic [], .driver] ++ [.driver]) ∧
    ¬ (routeMachine headerEpf).Along (Followed headerEpf) (.init headerEpf)
      ([commits 64 0, .driver, .driver, .pollDiagnostic []] ++ [.driver]) ∧
    ¬ (routeMachine headerEpf).Along (Followed headerEpf) (.init headerEpf)
      ([.driver, delivers, .driver, commits 10 (fnv32 (headerImage 1 57)), .pollDiagnostic []] ++
        [.driver]) := by
  refine ⟨?_, ?_, ?_⟩
  · exact not_followed_of_exec false .right .right (by decide +kernel) (by decide)
  · exact not_followed_of_exec true .left .right (by decide +kernel) (by decide)
  · exact not_followed_of_exec true .left .right (by decide +kernel) (by decide)

end HibanaPico.Rp2w
