import HibanaPico.Cyw43439.Transactions

/-!
# CYW43439 — Peeked labels

`PEEK_LABEL` and `RX_FRAME` each scan the queue from its head.  `PEEK_LABEL` passes over the
frames of the node that are too short to have a label; `RX_FRAME` takes the first frame of the
node, however short it is.

* `peekedLabel`, `peekLabelFor_eq`: the label of the first frame of the node that has one.
* `polled_alike`: two polls over the same frames and the same socket leave the same frames.
* `PeekAgrees`: the answer is the label of the frame that the next `RX_FRAME` delivers.
* `peekAgrees_iff`, `peek_label_iff`: when it is, in one state and along every run.
-/

namespace HibanaPico.Cyw43439
open HibanaPico.Support
open HibanaPico.Transport

/-- Where the label of a frame stands. -/
def labelAt : ℕ := 17

/-- The first frame that waits for a node and is long enough to have a label. -/
def WifiState.labelledFor (s : WifiState) (node : U8) : Option (U8 × List U8) :=
  s.waiting.find? fun f => f.1 = node ∧ labelAt < f.2.length

/-- The label that a peek finds. -/
def peekedLabel (s : WifiState) (node : U8) : Option U8 :=
  (s.labelledFor node).bind fun f => f.2[labelAt]?

/-- The label of the frame that would be received. -/
def receivedLabel (s : WifiState) (node : U8) : Option U8 := (s.frameFor node)[labelAt]?

/-- Nothing comes, neither into the queue nor into the socket; the firmware and the selected node
stay as they are. -/
def NoneArrives (cfg : Config) (s : WifiState) (a : WifiAction) : Prop :=
  ∀ t, (wifiMachine cfg).next s a = some t →
    t.waiting = s.waiting ∧ t.inbox = s.inbox ∧ t.fwReady = s.fwReady ∧
      t.selectedNode = s.selectedNode

/-- The answer to a `PEEK_LABEL` is the label of the frame that the host reads with the next
`RX_FRAME`, when no frame arrives in between; it is `0xff` exactly when the host reads no frame, or
one without a label. -/
def PeekAgrees (cfg : Config) (s : WifiState) : Prop :=
  ∀ sendOk t label, transfer cfg s (Command.code .peekLabel) sendOk = some (t, label) →
    ∀ between u, (wifiMachine cfg).Along (NoneArrives cfg) t between →
      (wifiMachine cfg).exec t between = some u → u.mode = .command →
      ∀ sendOk' v r, transfer cfg u (Command.code .rxFrame) sendOk' = some (v, r) →
        ∀ reading : List WifiAction, (∀ a ∈ reading, a ≠ .reset) →
          reading.countP WifiAction.isByte = r.toNat →
          let frame := (wifiMachine cfg).collect (answered cfg) v reading
          (∀ l, frame[labelAt]? = some l → label = l) ∧
            (label = 0xff ↔ frame.length ≤ labelAt)

/-- The peek misses the frame that will be received: `w` is the device after the poll of
`PEEK_LABEL`, and `v` after that of `RX_FRAME`.  The first frame of the node has the label `0xff`,
or it has none, and a frame behind it has another; or it was not in the queue yet, as an error of
the first poll had left it in the socket. -/
def misled (w v : WifiState) (node : U8) : Bool :=
  match w.firstFor node with
  | some f =>
      match f.2[labelAt]? with
      | some label => label == 0xff
      | none => (peekedLabel w node).any (· != 0xff)
  | none => (receivedLabel v node).isSome

/-- The queue and the socket before a `PEEK_LABEL` are such that it misses the frame. -/
def PeekMisled (cfg : Config) (s : WifiState) : Prop :=
  ∃ w v, radioPoll cfg s = some w ∧ radioPoll cfg w = some v ∧ misled w v s.selectedNode = true

variable {cfg : Config} {s t : WifiState} {node : U8}

/-! ### The peek -/

theorem peekLabelFor_eq (hready : s.fwReady = true) :
    peekLabelFor s node = some ((peekedLabel s node).getD 0xff) := by
  rw [peekLabelFor, if_neg (by simp [hready]), peekedLabel]
  cases hfirst : firstOffset s fun f => f.dstNode == node && 17 < f.len with
  | some offset =>
      obtain ⟨-, hp, hsplit, hahead⟩ := firstOffset_eq_some hfirst
      dsimp only
      generalize s.queue (Ring.slot wifiQueueDepth s.queueHead offset) = f at hp hsplit
      obtain ⟨hnode, hlen⟩ := by simpa using hp
      have hwait := congrArg (List.map WifiFrame.content) hsplit
      rw [List.map_append, List.map_cons] at hwait
      have hfind : s.labelledFor node = some f.content := by
        refine List.find?_eq_some_iff_append.mpr ⟨by simp [labelAt, hnode, hlen], _, _, hwait, ?_⟩
        intro e he
        obtain ⟨g, hg, rfl⟩ := List.mem_map.mp he
        simpa [labelAt, imp_iff_not_or] using hahead g hg
      have hlabel : f.content.2[labelAt]? = some (f.bytes 17) := by
        have := Cells.getElem?_slice f.bytes 0 hlen
        rwa [Nat.zero_add] at this
      rw [hfind, Option.bind_some, hlabel, peek_of_lt (by decide)]
      rfl
  | none =>
      have hnone := firstOffset_eq_none hfirst
      have hfind : s.labelledFor node = none := by
        refine List.find?_eq_none.mpr fun e he => ?_
        obtain ⟨g, hg, rfl⟩ := List.mem_map.mp he
        simpa [labelAt] using hnone g hg
      rw [hfind]
      rfl

/-! ### The polls -/

/-- Draining the same socket into the same queue leaves the same frames. -/
theorem drained_alike : ∀ (inbox : List Arrival) {s s' t t' : WifiState}, QueueBounded s →
    QueueBounded s' → s'.waiting = s.waiting → radioDrain cfg inbox s = some t →
    radioDrain cfg inbox s' = some t' → t'.waiting = t.waiting
  | [], _, _, _, _, _, _, hw, h, h' => by
      cases h
      cases h'
      exact hw
  | .failed :: _, _, _, _, _, _, _, hw, h, h' => by
      cases h
      cases h'
      exact hw
  | .datagram datagram source :: rest, s, s', t, t', hs, hs', hw, h, h' => by
      rw [radioDrain] at h h'
      cases htaken : acceptsFrame cfg (datagram.take (2 + wifiFrameSize)) source with
      | none =>
          rw [htaken] at h h'
          exact drained_alike rest hs hs' hw h h'
      | some frame =>
          rw [htaken] at h h'
          obtain ⟨u, hu, h⟩ := Option.bind_eq_some_iff.mp h
          obtain ⟨u', hu', h'⟩ := Option.bind_eq_some_iff.mp h'
          obtain ⟨hlen, hpacket⟩ := accepts_length htaken
          have hbounded {x y : WifiState} (hx : QueueBounded x)
              (hxy : queuePush x (.radio source) frame.1
                ((datagram.take (2 + wifiFrameSize)).drop 2) frame.2 = some y) :
              QueueBounded y := by
            obtain ⟨y', hy', -, hq⟩ := queuePush_bounded (.radio source) frame.1
              ((datagram.take (2 + wifiFrameSize)).drop 2) hx hlen
              (by rw [List.length_drop]; omega)
            cases hy'.symm.trans hxy
            exact hq
          refine drained_alike rest (hbounded hs hu) (hbounded hs' hu') ?_ h h'
          rw [queuePush_waiting hs hu, queuePush_waiting hs' hu', hw, ← length_waiting s,
            ← length_waiting s', hw]

theorem polled_alike {s' t' : WifiState} (hs : QueueBounded s) (hs' : QueueBounded s')
    (hw : s'.waiting = s.waiting) (hinbox : s'.inbox = s.inbox) (hready : s'.fwReady = s.fwReady)
    (h : radioPoll cfg s = some t) (h' : radioPoll cfg s' = some t') : t'.waiting = t.waiting := by
  rw [radioPoll] at h h'
  rw [hready, hinbox] at h'
  split at h
  · rename_i hoff
    rw [if_pos hoff] at h'
    cases h
    cases h'
    exact hw
  · rename_i hon
    rw [if_neg hon] at h'
    exact drained_alike s.inbox hs hs' hw h h'

/-! ### The two scans -/

/-- A peek that finds no frame of the node finds no label. -/
theorem peekedLabel_of_none (h : s.firstFor node = none) : peekedLabel s node = none := by
  have hnone : s.labelledFor node = none := by
    refine List.find?_eq_none.mpr fun f hf => ?_
    have := List.find?_eq_none.mp h f hf
    simp_all
  rw [peekedLabel, hnone]
  rfl

/-- When the first frame of the node has a label, the peek finds it. -/
theorem peekedLabel_of_some {f : U8 × List U8} (h : s.firstFor node = some f)
    {label : U8} (hlabel : f.2[labelAt]? = some label) : peekedLabel s node = some label := by
  obtain ⟨hf, ahead, behind, hwait, hahead⟩ := List.find?_eq_some_iff_append.mp h
  obtain ⟨hlen, -⟩ := List.getElem?_eq_some_iff.mp hlabel
  have hfind : s.labelledFor node = some f := by
    refine List.find?_eq_some_iff_append.mpr ⟨by simp_all, ahead, behind, hwait, fun e he => ?_⟩
    have := hahead e he
    simp_all
  rw [peekedLabel, hfind]
  exact hlabel

/-- **The two scans agree** exactly when the peek is not misled. -/
theorem agreed_iff {w v : WifiState}
    (hstays : ∀ f, w.firstFor node = some f → v.firstFor node = some f) :
    ((∀ l, receivedLabel v node = some l → (peekedLabel w node).getD 0xff = l) ∧
      ((peekedLabel w node).getD 0xff = 0xff ↔ (v.frameFor node).length ≤ labelAt)) ↔
      misled w v node = false := by
  rw [← List.getElem?_eq_none_iff]
  cases hfirst : w.firstFor node with
  | none =>
      rw [misled, hfirst, peekedLabel_of_none hfirst]
      change (_ ∧ (_ ↔ receivedLabel v node = none)) ↔ (receivedLabel v node).isSome = false
      cases receivedLabel v node with
      | none => simp
      | some l => simp
  | some f =>
      have hframe : v.frameFor node = f.2 := by rw [WifiState.frameFor, hstays f hfirst]; rfl
      rw [misled, hfirst, receivedLabel, hframe]
      dsimp only
      cases hlabel : f.2[labelAt]? with
      | some label =>
          rw [peekedLabel_of_some hfirst hlabel]
          simp
      | none =>
          cases peekedLabel w node with
          | none => simp
          | some told => simp

/-! ### The two commands -/

/-- What comes in between, when no frame arrives. -/
theorem noneArrives_exec {between : List WifiAction} {u : WifiState} (hb : Bounded t)
    (hbetween : (wifiMachine cfg).Along (NoneArrives cfg) t between)
    (h : (wifiMachine cfg).exec t between = some u) :
    Bounded u ∧ u.waiting = t.waiting ∧ u.inbox = t.inbox ∧ u.fwReady = t.fwReady ∧
      u.selectedNode = t.selectedNode := by
  refine Machine.exec_invariant (M := wifiMachine cfg) (P := NoneArrives cfg)
    (I := fun u => Bounded u ∧ u.waiting = t.waiting ∧ u.inbox = t.inbox ∧
      u.fwReady = t.fwReady ∧ u.selectedNode = t.selectedNode) ?_
    ⟨hb, rfl, rfl, rfl, rfl⟩ hbetween h
  rintro u a u' ⟨hu, hw, hi, hr, hn⟩ hnone hnext
  obtain ⟨hw', hi', hr', hn'⟩ := hnone u' hnext
  exact ⟨next_bounded_of hu hnext, hw'.trans hw, hi'.trans hi, hr'.trans hr, hn'.trans hn⟩

/-- A poll leaves the firmware and the selected node as they are. -/
theorem ReceiveOnly.selected (h : ReceiveOnly s t) :
    t.fwReady = s.fwReady ∧ t.selectedNode = s.selectedNode := by
  obtain ⟨_, _, _, _, _, _, rfl⟩ := h
  exact ⟨rfl, rfl⟩

/-- `PEEK_LABEL` polls the radio and answers what the peek finds. -/
theorem peekLabel_eq {w : WifiState} (hmode : s.mode = .command) (hready : w.fwReady = true)
    (hw : radioPoll cfg s = some w) (sendOk : Bool) :
    transfer cfg s (Command.code .peekLabel) sendOk =
      some (w, (peekedLabel w w.selectedNode).getD 0xff) := by
  rw [transfer, hmode]
  dsimp only
  rw [Command.ofByte_code]
  dsimp only [execute]
  rw [hw, Option.bind_eq_bind, Option.bind_some, peekLabelFor_eq hready]
  rfl

/-- The host reads the first frame of the selected node, when it reads all that `RX_FRAME` has
announced. -/
theorem rxFrame_reads {v x : WifiState} {r : U8} {sendOk : Bool} (hb : Bounded s)
    (hmode : s.mode = .command) (hready : s.fwReady = true) (hx : radioPoll cfg s = some x)
    (h : transfer cfg s (Command.code .rxFrame) sendOk = some (v, r)) {reading : List WifiAction}
    (hreset : ∀ a ∈ reading, a ≠ .reset) (hcount : reading.countP WifiAction.isByte = r.toNat) :
    (wifiMachine cfg).collect (answered cfg) v reading = x.frameFor s.selectedNode := by
  rw [transfer, hmode, Command.ofByte_code] at h
  obtain ⟨x', hx', -, hlen, hreads⟩ := startRx_reads hb hmode hready h
  cases hx.symm.trans hx'
  rw [hreads reading hreset hcount.le, hcount, hlen, List.take_length]

/-- **Peeked, then received.** -/
theorem peekAgrees_iff (hb : Bounded s) (hmode : s.mode = .command) (hready : s.fwReady = true) :
    PeekAgrees cfg s ↔ ¬ PeekMisled cfg s := by
  obtain ⟨w, hw, hsw, hwq⟩ := radioPoll_bounded cfg hb.toQueueBounded
  obtain ⟨v, hv, -, -⟩ := radioPoll_bounded cfg hwq
  have hwb : Bounded w := hb.receiveOnly hsw hwq
  have hwmode : w.mode = .command := hsw.mode.trans hmode
  have hwready : w.fwReady = true := hsw.selected.1.trans hready
  have hmisled : PeekMisled cfg s ↔ misled w v w.selectedNode = true := by
    rw [hsw.selected.2]
    refine ⟨?_, fun h => ⟨w, v, hw, hv, h⟩⟩
    rintro ⟨w', v', hw', hv', h⟩
    cases hw.symm.trans hw'
    cases hv.symm.trans hv'
    exact h
  rw [hmisled, Bool.not_eq_true,
    ← agreed_iff fun f hf => radioPoll_firstFor hwb hv hf]
  constructor
  · intro h
    -- `RX_FRAME` right after `PEEK_LABEL`, and as many bytes as it has announced
    obtain ⟨x, r, hx, -⟩ := startRx_bounded cfg hwb hwmode
    have hrx : transfer cfg w (Command.code .rxFrame) true = some (x, r) := by
      rw [transfer, hwmode, Command.ofByte_code]
      exact hx
    have hreset : ∀ a ∈ List.replicate r.toNat (WifiAction.byte 0 true), a ≠ .reset := by
      intro a ha
      rw [List.eq_of_mem_replicate ha]
      exact WifiAction.noConfusion
    have hcount : (List.replicate r.toNat (WifiAction.byte 0 true)).countP WifiAction.isByte =
        r.toNat := by simp [List.countP_replicate, WifiAction.isByte]
    have := h true w _ (peekLabel_eq hmode hwready hw true) [] w trivial rfl hwmode true x r hrx _
      hreset hcount
    rwa [rxFrame_reads hwb hwmode hwready hv hrx hreset hcount] at this
  · intro h sendOk t label hpeek between u hbetween hu humode sendOk' x r hrx reading hreset hcount
    cases (peekLabel_eq hmode hwready hw sendOk).symm.trans hpeek
    obtain ⟨hub, huw, hui, hur, hun⟩ := noneArrives_exec hwb hbetween hu
    obtain ⟨y, hy, -, -⟩ := radioPoll_bounded cfg hub.toQueueBounded
    have hsame : y.waiting = v.waiting :=
      polled_alike hwb.toQueueBounded hub.toQueueBounded huw hui hur hv hy
    have hframe : y.frameFor u.selectedNode = v.frameFor w.selectedNode := by
      rw [hun, WifiState.frameFor, WifiState.firstFor, hsame]
      rfl
    dsimp only
    rw [rxFrame_reads hub humode (hur.trans hwready) hy hrx hreset hcount, hframe]
    exact h

/-! ### Runs -/

/-- **Peeked labels.**  In every state that a run from a reset passes through with the firmware
running, the answer to `PEEK_LABEL` is the label of the frame that the next `RX_FRAME` delivers,
and `0xff` exactly when there is none, if and only if the peek is not misled: the first frame of
the selected node does not have the label `0xff`; when it has none, no frame behind it has another;
and no frame with a label is left in the socket behind an error when the queue has none of the
node. -/
theorem peek_label_iff (cfg : Config) (s : WifiState) (as : List WifiAction) :
    (wifiMachine cfg).Along (fun s _ => s.mode = .command → s.fwReady = true →
      (PeekAgrees cfg s ↔ ¬ PeekMisled cfg s)) s.resetState as :=
  Machine.along_of_invariant (I := Bounded) (P := fun _ _ => True)
    (fun _ _ _ hb _ h => next_bounded_of hb h)
    (fun _ _ hb _ hmode hready => peekAgrees_iff hb hmode hready)
    (.resetState s) (Machine.along_trivial _ _)

/-- A run to a state in which the peek is misled. -/
theorem not_peekAgrees_of_exec {as : List WifiAction}
    (h : ((wifiMachine cfg).exec s.resetState as).any fun u => decide (u.mode = .command) &&
      u.fwReady && (radioPoll cfg u).any fun w => (radioPoll cfg w).any fun v =>
        misled w v u.selectedNode) :
    ∃ u, (wifiMachine cfg).exec s.resetState as = some u ∧ u.mode = .command ∧
      u.fwReady = true ∧ ¬ PeekAgrees cfg u := by
  obtain ⟨u, hu, h⟩ := (Option.any_eq_true _ _).mp h
  obtain ⟨h, hpoll⟩ := Bool.and_eq_true_iff.mp h
  obtain ⟨hmode, hready⟩ := Bool.and_eq_true_iff.mp h
  obtain ⟨w, hw, hpoll⟩ := (Option.any_eq_true _ _).mp hpoll
  obtain ⟨v, hv, hmisled⟩ := (Option.any_eq_true _ _).mp hpoll
  have hb : Bounded u := Machine.exec_keeps (fun _ _ _ hb h => next_bounded_of hb h)
    (.resetState s) hu
  refine ⟨u, hu, of_decide_eq_true hmode, hready, fun hagrees => ?_⟩
  exact (peekAgrees_iff hb (of_decide_eq_true hmode) hready).mp hagrees ⟨w, v, hw, hv, hmisled⟩

/-- A host that sends its own node a frame of one byte and one of eighteen, and peeks: the answer is
the label of the second frame, and `RX_FRAME` delivers the first. -/
theorem peek_label_misled : ∃ u, (wifiMachine meshConfig).exec WifiState.init.resetState
      (bootSession ++ spi ([0x10, 1, 0x30, 1, 1, 0, 0x30, 1, 18] ++ List.replicate 18 7)) = some u ∧
    u.mode = .command ∧ u.fwReady = true ∧ ¬ PeekAgrees meshConfig u :=
  not_peekAgrees_of_exec (by decide +kernel)

end HibanaPico.Cyw43439
