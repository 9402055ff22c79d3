import HibanaPico.Cyw43439.Steps

/-!
# CYW43439 — Receive queue

The receive queue of the device is a keyed queue of depth eight: a frame leaves as the first of its
node.  Every byte, poll and datagram is a number of events of that queue, or a reset, which leaves
it empty.

* `WifiState.received`: the queue as what waits, the notes, and the overflow flag.
* `queuePush_step`, `queuePopFor_step`: one push and one pop.
* `radioDrain_steps`: a poll hands over the frames that pass the checks, in order.
* `next_steps`: one action.
* `receive_queue_exact`: every run.
-/

namespace HibanaPico.Cyw43439
open HibanaPico.Support
open HibanaPico.Transport

/-- The frames that wait, oldest first: node and bytes. -/
def WifiState.waiting (s : WifiState) : List (U8 × List U8) := s.frames.map WifiFrame.content

/-- The receive queue, as its events see it. -/
def WifiState.received (s : WifiState) : KeyedQueue Origin (U8 × List U8) :=
  ⟨s.waiting, s.events, s.overflow⟩

/-- What the receive side consists of. -/
def WifiState.receiveSide (s : WifiState) :
    List (U8 × List U8) × List RadioEvent × Bool × List Arrival :=
  (s.waiting, s.events, s.overflow, s.inbox)

/-- The events of the receive queue that lead from one state to another. -/
abbrev ReceiveSteps (s t : WifiState) : Prop :=
  KeyedQueue.Steps Prod.fst wifiQueueDepth s.received t.received

/-- The frame of a datagram that passes the checks of `cyw43439_radio_poll`. -/
def accepted (cfg : Config) : Arrival → Option (Origin × (U8 × List U8))
  | .datagram datagram source =>
      let packet := datagram.take (2 + wifiFrameSize)
      (acceptsFrame cfg packet source).map fun (dstNode, len) =>
        (.radio source, (dstNode, (packet.drop 2).take len))
  | .failed => none

variable {cfg : Config} {s t : WifiState}

@[simp] theorem length_waiting (s : WifiState) : s.waiting.length = s.queueLen := by
  simp [WifiState.waiting, WifiState.frames]

/-! ### One push, one pop -/

/-- The frame a push stores reads as what was pushed. -/
theorem content_stored (dstNode : U8) (old : Cells U8) (bytes : List U8) {len : ℕ}
    (h : len ≤ bytes.length) :
    WifiFrame.content { dstNode, len, bytes := old.store 0 (bytes.take len) } =
      (dstNode, bytes.take len) := by
  have hlen : (bytes.take len).length = len := by rw [List.length_take]; omega
  have hread := Cells.slice_store old 0 (bytes.take len)
  rw [hlen] at hread
  exact congrArg (Prod.mk dstNode) hread

/-- A push puts its frame behind those that wait, or leaves a full queue as it is. -/
theorem queuePush_waiting {origin : Origin} {dstNode : U8} {bytes : List U8} {len : ℕ}
    (hs : QueueBounded s) (h : queuePush s origin dstNode bytes len = some t) :
    t.waiting = if s.queueLen = wifiQueueDepth then s.waiting
      else s.waiting ++ [(dstNode, bytes.take len)] := by
  unfold queuePush at h
  split at h
  · rename_i hfull
    cases h
    exact (if_pos hfull).symm
  · rename_i hfull
    have hlt : s.queueLen < wifiQueueDepth := Nat.lt_of_le_of_ne hs.len hfull
    obtain ⟨copied, hcopy, h⟩ := Option.bind_eq_some_iff.mp h
    obtain ⟨queueLen, hbump, h⟩ := Option.bind_eq_some_iff.mp h
    obtain ⟨-, hlen, rfl⟩ := memcpy_eq_some hcopy
    obtain rfl := bump_eq_some hbump
    cases h
    rw [if_neg hfull]
    simp only [WifiState.waiting, WifiState.frames]
    rw [Ring.window_write_tail _ _ hs.head hlt, List.map_append, List.map_singleton,
      content_stored _ _ _ hlen]

/-- **One push** is a frame queued, or, with the queue full, a frame lost. -/
theorem queuePush_step {origin : Origin} {dstNode : U8} {bytes : List U8} {len : ℕ}
    (hs : QueueBounded s) (h : queuePush s origin dstNode bytes len = some t) :
    KeyedQueue.Step Prod.fst wifiQueueDepth s.received t.received ∧
      KeyedEvent.handed t.events =
        KeyedEvent.handed s.events ++ [(origin, (dstNode, bytes.take len))] ∧
      KeyedEvent.pops t.events = KeyedEvent.pops s.events ∧ t.inbox = s.inbox := by
  have hwait := queuePush_waiting hs h
  unfold queuePush at h
  split at h
  · rename_i hfull
    cases h
    exact ⟨.lose s.received origin _ ((length_waiting s).trans hfull),
      by simp only [KeyedEvent.handed_append, KeyedEvent.handed_lost], by simp, rfl⟩
  · rename_i hfull
    have hlt : s.queueLen < wifiQueueDepth := Nat.lt_of_le_of_ne hs.len hfull
    obtain ⟨copied, hcopy, h⟩ := Option.bind_eq_some_iff.mp h
    obtain ⟨queueLen, -, h⟩ := Option.bind_eq_some_iff.mp h
    cases h
    refine ⟨?_, by simp only [KeyedEvent.handed_append, KeyedEvent.handed_queued], by simp, rfl⟩
    have hstep := @KeyedQueue.Step.queue _ _ _ Prod.fst wifiQueueDepth s.received origin
      (dstNode, bytes.take len) (by simpa [WifiState.received] using hlt)
    simp only [WifiState.received] at hstep ⊢
    rw [hwait, if_neg hfull]
    exact hstep

/-- The first frame that meets a condition, and those ahead of it. -/
theorem firstOffset_eq_some {p : WifiFrame → Bool} {offset : ℕ}
    (h : firstOffset s p = some offset) :
    offset < s.queueLen ∧ p (s.queue (Ring.slot wifiQueueDepth s.queueHead offset)) = true ∧
      s.frames = s.frames.take offset ++
        s.queue (Ring.slot wifiQueueDepth s.queueHead offset) :: s.frames.drop (offset + 1) ∧
      ∀ g ∈ s.frames.take offset, p g = false := by
  obtain ⟨hp, hmem, hbefore⟩ := List.find?_range_eq_some.mp h
  have hlt := List.mem_range.mp hmem
  have hlen : offset < s.frames.length := by simpa [WifiState.frames] using hlt
  refine ⟨hlt, hp, ?_, fun g hg => ?_⟩
  · have hget : s.frames[offset] = s.queue (Ring.slot wifiQueueDepth s.queueHead offset) := by
      have := Ring.getElem?_window s.queue wifiQueueDepth s.queueHead hlt
      rw [← WifiState.frames, List.getElem?_eq_getElem hlen] at this
      exact Option.some.inj this
    rw [← hget, List.getElem_cons_drop, List.take_append_drop]
  · obtain ⟨j, hj, rfl⟩ := List.mem_take_iff_getElem.mp hg
    have hj' : j < s.frames.length := by omega
    have hget : s.frames[j] = s.queue (Ring.slot wifiQueueDepth s.queueHead j) := by
      have := Ring.getElem?_window s.queue wifiQueueDepth s.queueHead (n := s.queueLen) (i := j)
        (by omega)
      rw [← WifiState.frames, List.getElem?_eq_getElem hj'] at this
      exact Option.some.inj this
    rw [hget]
    simpa using hbefore j (by omega)

/-- No frame meets the condition. -/
theorem firstOffset_eq_none {p : WifiFrame → Bool} (h : firstOffset s p = none) :
    ∀ f ∈ s.frames, p f = false := by
  intro f hf
  obtain ⟨i, hi, rfl⟩ := List.mem_map.mp hf
  simpa using List.find?_range_eq_none.mp h i (List.mem_range.mp hi)

/-- Closing the gap a popped frame leaves removes it from the queue. -/
theorem frames_popped {offset : ℕ} {u : WifiState} (hs : QueueBounded s)
    (hlt : offset < s.queueLen)
    (hqueue : u.queue =
      Ring.shiftDown wifiQueueDepth s.queueHead (s.queueLen - 1 - offset) offset s.queue)
    (hlen : u.queueLen = s.queueLen - 1)
    (hhead : u.queueHead = if s.queueLen - 1 = 0 then 0 else s.queueHead) :
    u.frames = s.frames.take offset ++ s.frames.drop (offset + 1) := by
  have hle := hs.len
  have herase : u.frames = s.frames.eraseIdx offset := by
    have hshift := Ring.window_shiftDown s.queue hs.head (n := s.queueLen - 1) (j := offset)
      (by omega) (by omega)
    rw [show s.queueLen - 1 + 1 = s.queueLen by omega] at hshift
    rw [WifiState.frames, WifiState.frames, hlen, hhead, hqueue, ← hshift]
    split
    · rename_i hzero
      rw [hzero]
      rfl
    · rfl
  rw [herase, List.eraseIdx_eq_take_drop_succ]

/-- **One pop** takes the first frame of its node, wherever it stands, and `rx_buf` holds its
bytes; or no frame of the node waits. -/
theorem queuePopFor_step {node : U8} {popped : Bool} (hs : QueueBounded s)
    (h : queuePopFor s node = some (t, popped)) :
    (popped = true ∧ ∃ ahead f behind, s.waiting = ahead ++ f :: behind ∧ f.1 = node ∧
        (∀ g ∈ ahead, g.1 ≠ node) ∧ t.waiting = ahead ++ behind ∧
        t.events = s.events ++ [.popped f] ∧ t.overflow = s.overflow ∧ t.inbox = s.inbox ∧
        t.rxLen = f.2.length ∧ t.rxBuf.slice 0 t.rxLen = f.2) ∨
      (popped = false ∧ t = s ∧ ∀ g ∈ s.waiting, g.1 ≠ node) := by
  unfold queuePopFor at h
  cases hfirst : firstOffset s fun f => f.dstNode == node with
  | none =>
      rw [hfirst] at h
      cases h
      refine .inr ⟨rfl, rfl, fun g hg => ?_⟩
      obtain ⟨f, hf, rfl⟩ := List.mem_map.mp hg
      simpa using firstOffset_eq_none hfirst f hf
  | some offset =>
      rw [hfirst] at h
      obtain ⟨hlt, hnode, hsplit, hahead⟩ := firstOffset_eq_some hfirst
      dsimp only at h
      generalize s.queue (Ring.slot wifiQueueDepth s.queueHead offset) = frame at h hnode hsplit
      obtain ⟨rxBuf, hcopy, h⟩ := Option.bind_eq_some_iff.mp h
      obtain ⟨-, hlen, rfl⟩ := memcpy_eq_some hcopy
      cases h
      refine .inl ⟨rfl, (s.frames.take offset).map WifiFrame.content, frame.content,
        (s.frames.drop (offset + 1)).map WifiFrame.content, ?_, by simpa using hnode, ?_, ?_, rfl,
        rfl, rfl, frame.length_content.symm, ?_⟩
      · rw [WifiState.waiting]
        conv_lhs => rw [hsplit]
        simp
      · intro g hg
        obtain ⟨f, hf, rfl⟩ := List.mem_map.mp hg
        simpa using hahead f hf
      · rw [WifiState.waiting, frames_popped hs hlt rfl rfl rfl, List.map_append]
      · have htake : (frame.bytes.slice 0 wifiFrameSize).take frame.len =
            frame.bytes.slice 0 frame.len := by
          rw [Cells.length_slice] at hlen
          rw [show wifiFrameSize = frame.len + (wifiFrameSize - frame.len) by omega,
            Cells.slice_add, List.take_append_of_le_length (by simp),
            List.take_of_length_le (by simp)]
        have hread := Cells.slice_store s.rxBuf 0
          ((frame.bytes.slice 0 wifiFrameSize).take frame.len)
        rw [htake, Cells.length_slice] at hread
        show Cells.slice (s.rxBuf.store 0 ((frame.bytes.slice 0 wifiFrameSize).take frame.len)) 0
          frame.len = frame.bytes.slice 0 frame.len
        rw [htake]
        exact hread

/-! ### What one action does to the queue -/

/-- The frames the radio handed to the queue. -/
def radioHanded (log : List RadioEvent) : List (Origin × (U8 × List U8)) :=
  (KeyedEvent.handed log).filter (·.1 ≠ .transmitted)

/-- The frames handed to the queue by the device's own transmissions. -/
def localHanded (log : List RadioEvent) : List (U8 × List U8) :=
  ((KeyedEvent.handed log).filter (·.1 = .transmitted)).map Prod.snd

/-- From `s` to `t` the datagrams `arrived` came into the socket, those taken from it were handed to
the queue where they pass the checks, and so were the frames `sent`; the frames `popped` left it. -/
structure Receives (cfg : Config) (arrived : List Arrival) (sent popped : List (U8 × List U8))
    (s t : WifiState) : Prop where
  steps : ReceiveSteps s t
  pops : KeyedEvent.pops t.events = KeyedEvent.pops s.events ++ popped
  took : ∃ taken, s.inbox ++ arrived = taken ++ t.inbox ∧
    radioHanded t.events = radioHanded s.events ++ taken.filterMap (accepted cfg)
  looped : localHanded t.events = localHanded s.events ++ sent

namespace Receives

variable {arrived arrived' : List Arrival} {sent sent' popped popped' : List (U8 × List U8)}
  {u : WifiState}

/-- Only the receive side counts. -/
theorem congr {s' t' : WifiState} (h : Receives cfg arrived sent popped s t)
    (hs : s'.receiveSide = s.receiveSide)
    (ht : t'.receiveSide = t.receiveSide) : Receives cfg arrived sent popped s' t' := by
  simp only [WifiState.receiveSide, Prod.mk.injEq] at hs ht
  obtain ⟨h₁, h₂, h₃, h₄⟩ := hs
  obtain ⟨h₁', h₂', h₃', h₄'⟩ := ht
  refine ⟨?_, ?_, ?_, ?_⟩
  · rw [ReceiveSteps, WifiState.received, WifiState.received, h₁, h₂, h₃, h₁', h₂', h₃']
    exact h.steps
  · rw [h₂, h₂']
    exact h.pops
  · rw [h₂, h₄, h₂', h₄']
    exact h.took
  · rw [h₂, h₂']
    exact h.looped

theorem refl (s : WifiState) : Receives cfg [] [] [] s s :=
  ⟨.refl, (List.append_nil _).symm, ⟨[], List.append_nil _, (List.append_nil _).symm⟩,
    (List.append_nil _).symm⟩

/-- Nothing of the receive side changes. -/
theorem same (h : t.receiveSide = s.receiveSide) : Receives cfg [] [] [] s t :=
  (refl s).congr rfl h

theorem trans (h : Receives cfg arrived sent popped s u)
    (h' : Receives cfg arrived' sent' popped' u t) :
    Receives cfg (arrived ++ arrived') (sent ++ sent') (popped ++ popped') s t := by
  obtain ⟨taken, hbox, hradio⟩ := h.took
  obtain ⟨taken', hbox', hradio'⟩ := h'.took
  refine ⟨h.steps.trans h'.steps, ?_, ⟨taken ++ taken', ?_, ?_⟩, ?_⟩
  · rw [h'.pops, h.pops, List.append_assoc]
  · rw [← List.append_assoc, hbox, List.append_assoc, hbox', List.append_assoc]
  · rw [hradio', hradio, List.filterMap_append, List.append_assoc]
  · rw [h'.looped, h.looped, List.append_assoc]

end Receives

theorem radioDrain_receives : ∀ (inbox : List Arrival) {s t : WifiState}, QueueBounded s →
    radioDrain cfg inbox s = some t → Receives cfg [] [] [] { s with inbox } t
  | [], s, t, _, h => by cases h; exact .same rfl
  | .failed :: rest, s, t, _, h => by
      cases h
      refine ⟨.refl, (List.append_nil _).symm,
        ⟨[.failed], List.append_nil _, (List.append_nil _).symm⟩, ?_⟩
      exact (List.append_nil _).symm
  | .datagram datagram source :: rest, s, t, hs, h => by
      rw [radioDrain] at h
      cases htaken : acceptsFrame cfg (datagram.take (2 + wifiFrameSize)) source with
      | none =>
          rw [htaken] at h
          obtain ⟨hsteps, hpops, ⟨taken, hbox, hradio⟩, hlocal⟩ := radioDrain_receives rest hs h
          have hnone : accepted cfg (.datagram datagram source) = none := by
            simp [accepted, htaken]
          refine ⟨hsteps, hpops, ⟨.datagram datagram source :: taken, ?_, ?_⟩, hlocal⟩
          · simpa using hbox
          · rw [List.filterMap_cons_none hnone]
            exact hradio
      | some frame =>
          obtain ⟨dstNode, len⟩ := frame
          rw [htaken] at h
          obtain ⟨u, hu, h⟩ := Option.bind_eq_some_iff.mp h
          obtain ⟨hstep, hhanded, hunpopped, hinbox⟩ := queuePush_step hs hu
          obtain ⟨hlen, hpacket⟩ := accepts_length htaken
          obtain ⟨u', hu', -, hq⟩ := queuePush_bounded (.radio source) dstNode
            ((datagram.take (2 + wifiFrameSize)).drop 2) hs hlen (by rw [List.length_drop]; omega)
          cases hu'.symm.trans hu
          obtain ⟨hsteps, hpops, ⟨taken, hbox, hradio⟩, hlocal⟩ := radioDrain_receives rest hq h
          have hsome : accepted cfg (.datagram datagram source) = some (.radio source,
              (dstNode, ((datagram.take (2 + wifiFrameSize)).drop 2).take len)) := by
            simp [accepted, htaken]
          refine ⟨.head hstep hsteps, hpops.trans (by rw [hunpopped]),
            ⟨.datagram datagram source :: taken, ?_, ?_⟩, ?_⟩
          · simpa using hbox
          · rw [List.filterMap_cons_some hsome]
            refine hradio.trans ?_
            show radioHanded u.events ++ _ = radioHanded s.events ++ _
            simp [radioHanded, hhanded]
          · refine hlocal.trans ?_
            show localHanded u.events ++ [] = localHanded s.events ++ []
            simp [localHanded, hhanded]

theorem radioPoll_receives (hs : QueueBounded s) (h : radioPoll cfg s = some t) :
    Receives cfg [] [] [] s t := by
  unfold radioPoll at h
  split at h
  · cases h
    exact .same rfl
  · exact radioDrain_receives s.inbox hs h

/-- The frame a transmission hands to the device's own queue, if any. -/
def loopedFrame (cfg : Config) (s : WifiState) : List (U8 × List U8) :=
  if s.fwReady && (!cfg.radioEnabled || cfg.radioMeshEnabled && s.txDstNode == cfg.nodeId) then
    [(s.txDstNode, (s.txBuf.slice 0 wifiFrameSize).take s.txLen)]
  else []

theorem queuePush_receives {dstNode : U8} {bytes : List U8} {len : ℕ} (hs : QueueBounded s)
    (h : queuePush s .transmitted dstNode bytes len = some t) :
    Receives cfg [] [(dstNode, bytes.take len)] [] s t := by
  obtain ⟨hstep, hhanded, hunpopped, hinbox⟩ := queuePush_step hs h
  refine ⟨.single hstep, by rw [hunpopped, List.append_nil], ⟨[], ?_, ?_⟩, ?_⟩
  · rw [hinbox, List.append_nil]
    rfl
  · simp [radioHanded, hhanded]
  · simp [localHanded, hhanded]

/-- The overflow flag raised. -/
theorem Receives.raised (s : WifiState) :
    Receives cfg [] [] [] s { s with overflow := true } :=
  ⟨.single (.raise s.received), (List.append_nil _).symm,
    ⟨[], List.append_nil _, (List.append_nil _).symm⟩, (List.append_nil _).symm⟩

/-- A packet handed to `sendto`. -/
theorem Receives.sent (s : WifiState) (sendOk : Bool) (sent : List (ℕ × List U8)) :
    Receives cfg [] [] [] s { s with sent, overflow := s.overflow || !sendOk } := by
  cases sendOk with
  | true => exact .same (by simp [WifiState.receiveSide, WifiState.waiting, WifiState.frames])
  | false =>
      refine (Receives.raised s).congr rfl ?_
      simp [WifiState.receiveSide, WifiState.waiting, WifiState.frames]

theorem radioSend_receives {sendOk : Bool} (hs : QueueBounded s)
    (h : radioSend cfg s sendOk = some t) : Receives cfg [] (loopedFrame cfg s) [] s t := by
  unfold radioSend at h
  dsimp only at h
  split at h
  · rename_i hready
    have hnone : loopedFrame cfg s = [] := by simp_all [loopedFrame]
    cases h
    rw [hnone]
    exact .raised s
  split at h
  · rename_i hready hradio
    have hloop : loopedFrame cfg s = [(s.txDstNode, (s.txBuf.slice 0 wifiFrameSize).take s.txLen)]
      := by simp_all [loopedFrame]
    rw [hloop]
    exact queuePush_receives hs h
  split at h
  · split at h
    · rename_i hready hradio hmesh hself
      have hloop : loopedFrame cfg s =
          [(s.txDstNode, (s.txBuf.slice 0 wifiFrameSize).take s.txLen)] := by
        simp_all [loopedFrame]
      rw [hloop]
      exact queuePush_receives hs h
    rename_i hready hradio hmesh hself
    have hnone : loopedFrame cfg s = [] := by simp_all [loopedFrame]
    rw [hnone]
    split at h
    · cases h
      exact .raised s
    split at h
    · cases h
      exact .raised s
    split at h
    · cases h
      exact .sent s sendOk _
    · cases h
  · rename_i hready hradio hmesh
    have hnone : loopedFrame cfg s = [] := by simp_all [loopedFrame]
    rw [hnone]
    split at h
    · cases h
      exact .sent s sendOk _
    · cases h

/-- `RX_FRAME` delivers the first frame of the selected node that waits once the radio has been
polled, or finds none. -/
theorem startRx_cases {r : U8} (hs : Bounded s) (h : startRx cfg s = some (t, r)) :
    (s.fwReady = false ∧ t = s ∧ r = 0) ∨
      s.fwReady = true ∧ ∃ u, radioPoll cfg s = some u ∧
        ((∃ ahead f behind, u.waiting = ahead ++ f :: behind ∧ f.1 = s.selectedNode ∧
            (∀ g ∈ ahead, g.1 ≠ s.selectedNode) ∧
            t.receiveSide = (ahead ++ behind, u.events ++ [.popped f], u.overflow, u.inbox) ∧
            t.mode = .rxPayload ∧ t.rxPos = 0 ∧ t.rxLen = f.2.length ∧
            t.rxBuf.slice 0 t.rxLen = f.2 ∧ r = BitVec.ofNat 8 f.2.length) ∨
          (∀ g ∈ u.waiting, g.1 ≠ s.selectedNode) ∧
            t = { u with rxLen := 0, rxPos := 0, rxBuf := fun _ => 0 } ∧ r = 0) := by
  unfold startRx at h
  split at h
  · rename_i hready
    cases h
    exact .inl ⟨by simpa using hready, rfl, rfl⟩
  · rename_i hready
    obtain ⟨u, hu, h⟩ := Option.bind_eq_some_iff.mp h
    obtain ⟨⟨v, popped⟩, hv, h⟩ := Option.bind_eq_some_iff.mp h
    obtain ⟨hsu, hq⟩ := radioPoll_receiveOnly hs.toQueueBounded hu
    have hnode : u.selectedNode = s.selectedNode := by
      obtain ⟨_, _, _, _, _, _, rfl⟩ := hsu
      rfl
    obtain ⟨hpop, -, -⟩ := queuePopFor_popOnly
      (s := { u with rxLen := 0, rxPos := 0, rxBuf := fun _ => 0 }) (hq.same rfl) (Nat.zero_le _) hv
    have hpos : v.rxPos = 0 := by
      obtain ⟨_, _, _, _, _, _, rfl⟩ := hpop
      rfl
    refine .inr ⟨by simpa using hready, u, hu, ?_⟩
    rcases queuePopFor_step (s := { u with rxLen := 0, rxPos := 0, rxBuf := fun _ => 0 })
      (hq.same rfl) hv with
      ⟨rfl, ahead, f, behind, hw, hf, hahead, hw', hevents, hflag, hinbox, hlen, hbuf⟩ |
      ⟨rfl, rfl, hall⟩
    · cases h
      refine .inl ⟨ahead, f, behind, hw, hf.trans hnode, fun g hg => hnode ▸ hahead g hg, ?_, rfl,
        hpos, hlen, hbuf, by rw [hlen]⟩
      show (v.waiting, v.events, v.overflow, v.inbox) = _
      rw [hw', hevents, hflag, hinbox]
    · cases h
      exact .inr ⟨fun g hg => hnode ▸ hall g hg, rfl, rfl⟩

theorem startRx_receives {r : U8} (hs : Bounded s) (h : startRx cfg s = some (t, r)) :
    ∃ popped, Receives cfg [] [] popped s t := by
  rcases startRx_cases hs h with ⟨-, rfl, -⟩ | ⟨-, u, hu, hpop | ⟨-, rfl, -⟩⟩
  · exact ⟨[], .refl _⟩
  · obtain ⟨ahead, f, behind, hw, hf, hahead, hside, -⟩ := hpop
    simp only [WifiState.receiveSide, Prod.mk.injEq] at hside
    obtain ⟨h₁, h₂, h₃, h₄⟩ := hside
    have hstep := @KeyedQueue.Step.pop _ _ _ Prod.fst wifiQueueDepth u.received f
      ahead behind hw fun g hg => by rw [hf]; exact hahead g hg
    have hpopped : Receives cfg [] [] [f] u t := by
      refine ⟨.single ?_, by simp [h₂], ⟨[], ?_, ?_⟩, ?_⟩
      · rw [WifiState.received.eq_1 t, h₁, h₂, h₃]
        exact hstep
      · rw [h₄, List.append_nil]
        rfl
      · simp [radioHanded, h₂]
      · simp [localHanded, h₂]
    exact ⟨[] ++ [f], (radioPoll_receives hs.toQueueBounded hu).trans hpopped⟩
  · exact ⟨[], (radioPoll_receives hs.toQueueBounded hu).congr rfl rfl⟩

/-- A command that puts the device in the state after a reset. -/
def Command.Resets (s : WifiState) : Command → Prop
  | .reset => True
  | .powerOn => True
  | .resetAssert => s.powered = true
  | _ => False

instance (s : WifiState) : ∀ c : Command, Decidable (c.Resets s)
  | .reset | .powerOn => isTrue trivial
  | .resetAssert => inferInstanceAs (Decidable (_ = _))
  | .selectNode | .status | .txFrame | .rxFrame | .clearStatus | .resetRelease | .peekLabel
  | .nodeRole | .nodeId | .radioMode | .nodeCount | .fwBegin | .fwChunk | .fwCommit | .clmBegin
  | .clmChunk | .clmCommit | .nvramApply | .boot | .fwState | .ident => isFalse id

theorem execute_receives {r : U8} {c : Command} (hs : Bounded s) (hc : ¬ c.Resets s)
    (hrx : c ≠ .rxFrame) (h : execute cfg s c = some (t, r)) : Receives cfg [] [] [] s t := by
  have hs' := hs.toQueueBounded
  cases c with
  | reset | powerOn => exact absurd trivial hc
  | rxFrame => exact absurd rfl hrx
  | status =>
      simp only [execute, status] at h
      split at h
      · cases h
        exact .same rfl
      · obtain ⟨u, hu, h⟩ := Option.bind_eq_some_iff.mp h
        cases h
        exact radioPoll_receives hs' hu
  | peekLabel =>
      simp only [execute] at h
      obtain ⟨u, hu, h⟩ := Option.bind_eq_some_iff.mp h
      obtain ⟨label, -, h⟩ := Option.bind_eq_some_iff.mp h
      cases h
      exact radioPoll_receives hs' hu
  | clearStatus =>
      cases h
      have hclear := @KeyedQueue.Step.clear _ _ _ Prod.fst wifiQueueDepth s.received
      exact ⟨.single hclear, by simp, ⟨[], List.append_nil _, by simp [radioHanded]⟩,
        by simp [localHanded]⟩
  | resetAssert =>
      simp only [execute] at h
      split at h
      · cases h
        exact .same rfl
      · rename_i hpowered
        exact absurd (show s.powered = true by simpa using hpowered) hc
  | resetRelease | boot | ident =>
      simp only [execute] at h
      split at h
      · cases h
        exact .same rfl
      · cases h
        exact .same rfl
  | fwCommit =>
      simp only [execute, loadCommitFw] at h
      split at h
      · cases h
        exact .same rfl
      split at h
      · cases h
        exact .same rfl
      · cases h
        exact .same rfl
  | clmCommit =>
      simp only [execute, loadCommitClm] at h
      split at h
      · cases h
        exact .same rfl
      split at h
      · cases h
        exact .same rfl
      · cases h
        exact .same rfl
  | selectNode | txFrame | nodeRole | nodeId | radioMode | nodeCount | fwBegin | fwChunk
  | clmBegin | clmChunk | nvramApply | fwState =>
      cases h
      exact .same rfl

/-- A step that puts the device in the state after a reset. -/
def WifiAction.Resets (s : WifiState) : WifiAction → Prop
  | .reset => True
  | .byte code _ => s.mode = .command ∧ ∃ c ∈ Command.ofByte code, c.Resets s
  | .arrive _ => False
  | .fdReady => False

instance (s : WifiState) : ∀ a : WifiAction, Decidable (a.Resets s)
  | .reset => isTrue trivial
  | .byte code _ =>
      inferInstanceAs (Decidable (s.mode = .command ∧ ∃ c ∈ Command.ofByte code, c.Resets s))
  | .arrive _ | .fdReady => isFalse id

/-- An `RX_FRAME`. -/
def WifiAction.Delivers (s : WifiState) : WifiAction → Prop
  | .byte code _ => s.mode = .command ∧ Command.ofByte code = some .rxFrame
  | _ => False

instance (s : WifiState) : ∀ a : WifiAction, Decidable (a.Delivers s)
  | .byte code _ =>
      inferInstanceAs (Decidable (s.mode = .command ∧ Command.ofByte code = some .rxFrame))
  | .reset | .arrive _ | .fdReady => isFalse id

/-- The datagram an action brings to the socket. -/
def WifiAction.arrived : WifiAction → List Arrival
  | .arrive arrival => [arrival]
  | _ => []

/-- The frame a byte completes and the device hands to its own queue. -/
def completed (cfg : Config) (s : WifiState) : WifiAction → List (U8 × List U8)
  | .byte last _ =>
      if s.mode = .txLen ∧ last = 0 then loopedFrame cfg { s with txLen := 0 }
      else if s.mode = .txPayload ∧ s.txPos + 1 = s.txLen then loopedFrame cfg (s.txStored last)
      else []
  | _ => []

theorem loadBegin_receiveSide (s : WifiState) : (loadBegin s).receiveSide = s.receiveSide := by
  unfold loadBegin
  dsimp only
  split
  · split
    · rfl
    split <;> rfl
  · split <;> rfl
  · rfl

theorem loadChunkReady_receiveSide (s : WifiState) :
    (loadChunkReady s).receiveSide = s.receiveSide := by
  unfold loadChunkReady
  dsimp only
  split <;> rfl

theorem transfer_receives {byte r : U8} {sendOk : Bool} (hs : Bounded s)
    (hr : ¬ (WifiAction.byte byte sendOk).Resets s)
    (hrx : ¬ (WifiAction.byte byte sendOk).Delivers s)
    (h : transfer cfg s byte sendOk = some (t, r)) :
    Receives cfg [] (completed cfg s (.byte byte sendOk)) [] s t := by
  have hs' := hs.toQueueBounded
  have hstep := transfer_cases h
  clear h
  cases hstep with
  | selectNode h | txDst h | rxNone h | unknown h | rxByte h | chunkByte h | nvramByte h
  | nvramRefused h | nvramApplied h | beginByte h | chunkHeaderByte h =>
      have hnone : completed cfg s (.byte byte sendOk) = [] := by simp [completed, h]
      rw [hnone]
      exact .same rfl
  | beginLast h =>
      have hnone : completed cfg s (.byte byte sendOk) = [] := by simp [completed, h]
      rw [hnone]
      exact .same (loadBegin_receiveSide _)
  | chunkHeaderLast h =>
      have hnone : completed cfg s (.byte byte sendOk) = [] := by simp [completed, h]
      rw [hnone]
      exact .same (loadChunkReady_receiveSide _)
  | txTooLong h hlen =>
      have hnone : completed cfg s (.byte byte sendOk) = [] := by
        have hne : byte ≠ 0 := by rintro rfl; exact absurd hlen (Nat.not_lt_zero _)
        rw [completed, if_neg fun hlast => hne hlast.2, if_neg (by rw [h]; simp)]
      rw [hnone]
      exact (Receives.raised s).congr rfl rfl
  | txEmpty h hlen u hu =>
      have hsome : completed cfg s (.byte byte sendOk) =
          loopedFrame cfg { s with txLen := 0, txPos := 0 } := by
        rw [completed, if_pos ⟨h, hlen⟩]
        rfl
      rw [hsome]
      have hsend := radioSend_receives (s := { s with txLen := 0, txPos := 0 }) (hs'.same rfl) hu
      exact hsend.congr rfl rfl
  | txLen h hlen hne =>
      have hnone : completed cfg s (.byte byte sendOk) = [] := by
        rw [completed, if_neg fun hlast => hne hlast.2, if_neg (by rw [h]; simp)]
      rw [hnone]
      exact .same rfl
  | txLast h hpos u hu =>
      have hsome : completed cfg s (.byte byte sendOk) = loopedFrame cfg (s.txStored byte) := by
        rw [completed, if_neg (by rw [h]; simp), if_pos ⟨h, hpos⟩]
      rw [hsome]
      have hsend := radioSend_receives (s := s.txStored byte) (hs'.same rfl) hu
      exact hsend.congr rfl rfl
  | txByte h hpos =>
      have hnone : completed cfg s (.byte byte sendOk) = [] := by simp [completed, h, hpos]
      rw [hnone]
      exact .same rfl
  | command h c hc t r ht =>
      have hnone : completed cfg s (.byte byte sendOk) = [] := by simp [completed, h]
      rw [hnone]
      exact execute_receives hs (fun hres => hr ⟨h, c, hc, hres⟩)
        (fun he => hrx ⟨h, he ▸ hc⟩) ht

/-- **One action** that is neither a reset nor an `RX_FRAME`. -/
theorem next_receives_of_not_delivers {a : WifiAction} (hs : Bounded s) (hr : ¬ a.Resets s)
    (hrx : ¬ a.Delivers s) (h : (wifiMachine cfg).next s a = some t) :
    Receives cfg a.arrived (completed cfg s a) [] s t := by
  cases a with
  | byte byte sendOk =>
      obtain ⟨⟨t', r⟩, ht, hfst⟩ := Option.map_eq_some_iff.mp h
      cases hfst
      exact transfer_receives hs hr hrx ht
  | arrive arrival =>
      cases h
      exact ⟨.refl, (List.append_nil _).symm, ⟨[], rfl, (List.append_nil _).symm⟩,
        (List.append_nil _).symm⟩
  | fdReady => exact radioPoll_receives hs.toQueueBounded h
  | reset => exact absurd trivial hr

/-- **One action** that is not a reset. -/
theorem next_receives {a : WifiAction} (hs : Bounded s) (hr : ¬ a.Resets s)
    (h : (wifiMachine cfg).next s a = some t) :
    ∃ popped, Receives cfg a.arrived (completed cfg s a) popped s t := by
  by_cases hrx : a.Delivers s
  · cases a with
    | byte byte sendOk =>
        obtain ⟨⟨t', r⟩, ht, hfst⟩ := Option.map_eq_some_iff.mp h
        cases hfst
        obtain ⟨hmode, hc⟩ := hrx
        have hexec : startRx cfg s = some (t', r) := by
          rw [transfer, hmode, hc] at ht
          exact ht
        have hnone : completed cfg s (.byte byte sendOk) = [] := by simp [completed, hmode]
        rw [hnone]
        exact startRx_receives hs hexec
    | arrive arrival => cases hrx
    | fdReady => cases hrx
    | reset => cases hrx
  · exact ⟨[], next_receives_of_not_delivers hs hr hrx h⟩

/-- A reset empties the queue, and stops the firmware. -/
theorem next_of_resets {a : WifiAction} (hr : a.Resets s)
    (h : (wifiMachine cfg).next s a = some t) : t.received = .empty false ∧ t.fwReady = false := by
  cases a with
  | arrive arrival => cases hr
  | fdReady => cases hr
  | reset => cases h; exact ⟨rfl, rfl⟩
  | byte byte sendOk =>
      obtain ⟨hmode, c, hc, hres⟩ := hr
      obtain ⟨⟨t', r⟩, ht, hfst⟩ := Option.map_eq_some_iff.mp h
      cases hfst
      have hexec : execute cfg s c = some (t', r) := by
        rw [transfer, hmode, Option.mem_def.mp hc] at ht
        exact ht
      cases c with
      | reset | powerOn => cases hexec; exact ⟨rfl, rfl⟩
      | resetAssert =>
          have hpowered : s.powered = true := hres
          rw [execute, hpowered] at hexec
          cases hexec
          exact ⟨rfl, rfl⟩
      | selectNode | status | txFrame | rxFrame | clearStatus | resetRelease | peekLabel | nodeRole
      | nodeId | radioMode | nodeCount | fwBegin | fwChunk | fwCommit | clmBegin | clmChunk
      | clmCommit | nvramApply | boot | fwState | ident => cases hres

/-! ### The checks in mesh mode -/

/-- A frame a peer of the mesh sent to this node: node and header name this node, and the header
names as its source the node whose port the datagram came from. -/
structure FromPeer (cfg : Config) (source : SourceAddr) (frame : U8 × List U8) : Prop where
  loopback : source.inet = true ∧ source.loopback = true
  node : frame.1 = cfg.nodeId
  header : 6 ≤ frame.2.length
  destination : (readBe16 (frame.2.getD 4 0) (frame.2.getD 5 0)).toNat = cfg.nodeId.toNat
  aboveBase : cfg.radioPortBase.toNat < source.port.toNat
  peer : (readBe16 (frame.2.getD 2 0) (frame.2.getD 3 0)).toNat =
    source.port.toNat - cfg.radioPortBase.toNat
  within : source.port.toNat - cfg.radioPortBase.toNat ≤ cfg.nodeCount.toNat

/-- A byte of the frame is the byte two further in its packet. -/
theorem getD_frame {packet : List U8} {len i : ℕ} (hi : i < len) :
    ((packet.drop 2).take len).getD i 0 = packet.getD (i + 2) 0 := by
  rw [List.getD_eq_getElem?_getD, List.getElem?_take, if_pos hi, List.getElem?_drop,
    ← List.getD_eq_getElem?_getD, Nat.add_comm]

theorem admitted_fromPeer {arrival : Arrival} {origin : Origin} {frame : U8 × List U8}
    (hmesh : cfg.radioMeshEnabled = true) (h : accepted cfg arrival = some (origin, frame)) :
    ∃ source, origin = .radio source ∧ FromPeer cfg source frame := by
  cases arrival with
  | failed => cases h
  | datagram datagram source =>
      obtain ⟨⟨dstNode, len⟩, htaken, hframe⟩ := Option.map_eq_some_iff.mp h
      cases hframe
      obtain ⟨-, hlength⟩ := accepts_length htaken
      rw [acceptsFrame, hmesh] at htaken
      split at htaken
      · cases htaken
      dsimp only at htaken
      split at htaken
      · cases htaken
      split at htaken
      · cases htaken
      rename_i hmeshAdmits
      cases htaken
      rw [Bool.true_and, Bool.not_eq_true, Bool.not_eq_false'] at hmeshAdmits
      simp only [meshAdmits, Bool.and_eq_true, decide_eq_true_eq, ne_eq] at hmeshAdmits
      obtain ⟨⟨⟨⟨⟨⟨⟨⟨hinet, hloop⟩, hbase⟩, -⟩, hcount⟩, hnode⟩, hsix⟩, hsrc⟩, hdst⟩ := hmeshAdmits
      have hsub : (source.port - cfg.radioPortBase).toNat =
          source.port.toNat - cfg.radioPortBase.toNat :=
        BitVec.toNat_sub_of_le (Nat.le_of_lt hbase)
      refine ⟨source, rfl, ⟨hinet, hloop⟩, hnode, ?_, ?_, hbase, ?_, by rw [← hsub]; exact hcount⟩
      · rw [List.length_take, List.length_drop]
        omega
      · rw [getD_frame (by omega), getD_frame (by omega)]
        exact hdst
      · rw [getD_frame (by omega), getD_frame (by omega), ← hsub]
        exact congrArg BitVec.toNat hsrc

/-! ### Runs -/

theorem next_bounded_of {a : WifiAction} (hs : Bounded s)
    (h : (wifiMachine cfg).next s a = some t) : Bounded t := by
  obtain ⟨u, hu, hb⟩ := next_bounded cfg a hs
  cases hu.symm.trans h
  exact hb

/-- **Per node, in order, once each.**  In every state a run reaches from a reset. -/
theorem received_exact {as : List WifiAction}
    (h : (wifiMachine cfg).exec s.resetState as = some t) :
    KeyedQueue.Exact Prod.fst wifiQueueDepth t.received := by
  suffices H : Bounded t ∧ KeyedQueue.Exact Prod.fst wifiQueueDepth t.received from H.2
  refine Machine.exec_keeps (M := wifiMachine cfg)
    (I := fun u => Bounded u ∧ KeyedQueue.Exact Prod.fst wifiQueueDepth u.received) ?_
    ⟨.resetState s, KeyedQueue.exact_empty false⟩ h
  rintro u a v ⟨hb, hexact⟩ hv
  refine ⟨next_bounded_of hb hv, ?_⟩
  by_cases hr : a.Resets u
  · rw [(next_of_resets hr hv).1]
    exact KeyedQueue.exact_empty false
  · obtain ⟨popped, hreceives⟩ := next_receives hb hr hv
    exact hexact.steps hreceives.steps

/-- Between resets, every frame that arrives is handed to the queue. -/
theorem exec_receives {as : List WifiAction} (hb : Bounded s)
    (hr : (wifiMachine cfg).Along (fun u a => ¬ a.Resets u) s as)
    (h : (wifiMachine cfg).exec s as = some t) :
    ∃ popped, Receives cfg (as.flatMap WifiAction.arrived)
      ((wifiMachine cfg).collect (completed cfg) s as) popped s t := by
  induction as generalizing s with
  | nil => cases h; exact ⟨[], .refl _⟩
  | cons a as ih =>
      obtain ⟨u, hu, ht⟩ := Machine.exec_cons.mp h
      rw [List.flatMap_cons, Machine.collect_cons hu]
      obtain ⟨popped, hfirst⟩ := next_receives hb hr.1 hu
      obtain ⟨popped', hrest⟩ := ih (next_bounded_of hb hu) (hr.2 u hu) ht
      exact ⟨popped ++ popped', hfirst.trans hrest⟩

/-- In mesh mode what the radio hands to the queue comes from peers. -/
theorem handed_fromPeer {as : List WifiAction} (hmesh : cfg.radioMeshEnabled = true)
    (h : (wifiMachine cfg).exec s.resetState as = some t) :
    ∀ e ∈ radioHanded t.events, ∃ source, e.1 = .radio source ∧ FromPeer cfg source e.2 := by
  suffices H : Bounded t ∧ ∀ e ∈ radioHanded t.events,
      ∃ source, e.1 = .radio source ∧ FromPeer cfg source e.2 from H.2
  refine Machine.exec_keeps (M := wifiMachine cfg) (I := fun u => Bounded u ∧
    ∀ e ∈ radioHanded u.events, ∃ source, e.1 = .radio source ∧ FromPeer cfg source e.2) ?_
    ⟨.resetState s, fun e he => by cases he⟩ h
  rintro u a v ⟨hb, hall⟩ hv
  refine ⟨next_bounded_of hb hv, fun e he => ?_⟩
  by_cases hr : a.Resets u
  · have hempty : v.events = [] := congrArg KeyedQueue.log (next_of_resets hr hv).1
    rw [hempty] at he
    cases he
  · obtain ⟨popped, hreceives⟩ := next_receives hb hr hv
    obtain ⟨taken, -, hradio⟩ := hreceives.took
    rw [hradio, List.mem_append] at he
    rcases he with he | he
    · exact hall e he
    · obtain ⟨arrival, -, htaken⟩ := List.mem_filterMap.mp he
      exact admitted_fromPeer hmesh htaken

/-- **The receive queue.**  In every state reached from a reset the queue is exact.  Between two
resets the datagrams taken from the socket that pass the checks, and the frames the device
transmits to itself, are handed to it, in order; and in mesh mode those from the radio come from the
peers they name. -/
theorem receive_queue_exact (cfg : Config) (s : WifiState) {pre as : List WifiAction}
    {u t : WifiState} (hu : (wifiMachine cfg).exec s.resetState pre = some u)
    (hr : (wifiMachine cfg).Along (fun v a => ¬ a.Resets v) u as)
    (ht : (wifiMachine cfg).exec u as = some t) :
    KeyedQueue.Exact Prod.fst wifiQueueDepth t.received ∧
      (∃ taken, u.inbox ++ as.flatMap WifiAction.arrived = taken ++ t.inbox ∧
        radioHanded t.events = radioHanded u.events ++ taken.filterMap (accepted cfg)) ∧
      localHanded t.events =
        localHanded u.events ++ (wifiMachine cfg).collect (completed cfg) u as ∧
      (cfg.radioMeshEnabled = true → ∀ e ∈ radioHanded t.events,
        ∃ source, e.1 = .radio source ∧ FromPeer cfg source e.2) := by
  have hrun : (wifiMachine cfg).exec s.resetState (pre ++ as) = some t :=
    Machine.exec_append.mpr ⟨u, hu, ht⟩
  have hb : Bounded u := by
    obtain ⟨u', hu', hb⟩ := exec_bounded cfg pre (.resetState s)
    cases hu'.symm.trans hu
    exact hb
  obtain ⟨popped, hreceives⟩ := exec_receives hb hr ht
  exact ⟨received_exact hrun, hreceives.took, hreceives.looped, fun hmesh =>
    handed_fromPeer hmesh hrun⟩

/-- Node 2 sends a frame, and the host of node 1 reads it. -/
theorem receive_queue_exact_peer :
    ∃ t : WifiState, KeyedQueue.Exact Prod.fst wifiQueueDepth t.received ∧
      KeyedEvent.pops t.events = [(1, [0, 0, 0, 2, 0, 1])] := by
  have hrun : (((wifiMachine meshConfig).exec WifiState.init.resetState bootSession).bind fun u =>
      ((wifiMachine meshConfig).exec u
        (.arrive (.datagram [1, 6, 0, 0, 0, 2, 0, 1] ⟨true, true, 9002⟩) ::
          spi [0x10, 1, 0x20, 0x40])).map fun t =>
        (decide ((wifiMachine meshConfig).Along (fun v a => ¬ a.Resets v) u
          (.arrive (.datagram [1, 6, 0, 0, 0, 2, 0, 1] ⟨true, true, 9002⟩) ::
            spi [0x10, 1, 0x20, 0x40])), KeyedEvent.pops t.events)) =
      some (true, [(1, [0, 0, 0, 2, 0, 1])]) := by decide +kernel
  obtain ⟨u, hu, hrun⟩ := Option.bind_eq_some_iff.mp hrun
  obtain ⟨t, ht, hboth⟩ := Option.map_eq_some_iff.mp hrun
  obtain ⟨hr, hpops⟩ := Prod.mk.inj hboth
  exact ⟨t, (receive_queue_exact meshConfig WifiState.init hu (of_decide_eq_true hr) ht).1, hpops⟩

end HibanaPico.Cyw43439
