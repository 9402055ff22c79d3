import HibanaPico.Rp2w.Interleaving

/-!
# Rp2w — Cancel

`cancel_send` forgets the pending frame, but the words already pushed stay in the FIFO, and the
far accumulator takes what follows for the rest of the frame.

* `WellFramed`: the far accumulator made no error, decoded the frames answered `Ok` and no other,
  and waits for none.
* `wellFramed_iff`: when nothing is on its way, the stream is well framed if and only if no send
  was cancelled with words out.
* `cancel_misframes`: a cut frame takes the next one's words for its own.
-/

namespace HibanaPico.Rp2w
open HibanaPico.Support
open HibanaPico.Transport
open HibanaPico.Sio

/-- The far accumulator has made of the words of core `c` the frames answered `Ok`. -/
structure WellFramed (s : SioState) (c : Core) : Prop where
  noError : errorsOf (s.stream c).answers = []
  decoded : decodedOf (s.stream c).answers = (s.stream c).completed.map Subtype.val
  whole : (s.st.accum c.peer).isPartial = false

variable {s : SioState} {c : Core}

/-- Nothing left behind: the stream is of whole frames. -/
theorem wellFramed_of_noneLeft (hflow : Flow s c) (hwords : Words s c) (hleft : NoneLeft c s)
    (hfifo : s.st.fifo c = []) (hsending : s.sending c = []) : WellFramed s c := by
  have hexact := streamExact_of_words hflow hwords hleft
  have hidle := (wordFraming.feed_images (s.stream c).completed
    SioRxAccumulator.idle_empty).1
  rw [← popped_of_drained hflow hwords hleft hfifo hsending, hflow.taken] at hidle
  exact ⟨hexact.noError, hexact.drained hfifo hsending, by
    rw [SioRxAccumulator.isPartial, hidle.wordCount]; rfl⟩

/-- A well framed stream has no words left over: the accumulator accounts for every word. -/
theorem noneLeft_of_wellFramed (hflow : Flow s c) (hwords : Words s c) (h : WellFramed s c)
    (hfifo : s.st.fifo c = []) (hsending : s.sending c = []) : NoneLeft c s := by
  have hpopped : (s.stream c).pushed = (s.stream c).popped := by
    rw [hflow.pushed, hfifo, List.append_nil]
  have hout := hwords.out_prefix.1
  rw [hsending, List.flatMap_nil, List.prefix_nil] at hout
  have hcounted := hwords.counted
  rw [hpopped, hout, List.length_nil, Nat.add_zero] at hcounted
  -- the words popped are those of the frames decoded
  have htaken := hflow.taken
  have hwords' := feed_count SioRxAccumulator.idle_empty.sound (s.stream c).popped
    (by rw [htaken]; exact h.noError)
  have hwhole : (s.st.accum c.peer).wordCount = 0 := by
    have := h.whole
    unfold SioRxAccumulator.isPartial at this
    simpa using this
  rw [htaken, h.decoded, List.map_map, hwhole] at hwords'
  have hsum : (s.stream c).cancelled.sum = 0 := by
    have hempty : SioRxAccumulator.empty.wordCount = 0 := rfl
    have hsame : ((s.stream c).completed.map (frameWords ∘ Subtype.val)).sum =
        ((s.stream c).completed.map fun f => frameWords f.1).sum := rfl
    omega
  exact List.sum_eq_zero_iff_forall_eq_nat.mp hsum

/-- **Cancelled sends and the frames after them.**  When the words of a core are pushed frame by
frame, and nothing is on its way, the far accumulator has decoded the frames answered `Ok` and
nothing else, without an error and with no frame begun, if and only if every cancel found none of
its frame's words out. -/
theorem wellFramed_iff (depth : ℕ) (c : Core) (as : List SioAction) (s : SioState)
    (hrun : (sioMachine depth).exec .init as = some s)
    (hrepolls : (sioMachine depth).Along Repolls .init as)
    (hexclusive : (sioMachine depth).Along (Exclusive depth c) .init as)
    (hfifo : s.st.fifo c = []) (hsending : s.sending c = []) :
    WellFramed s c ↔ (sioMachine depth).Along (CancelsNothingOut c) .init as := by
  obtain ⟨hflow, hwords⟩ := words_exec hrun hrepolls hexclusive
  rw [← noneLeft_exec hrun]
  exact ⟨fun h => noneLeft_of_wellFramed (hflow c) hwords h hfifo hsending,
    fun h => wellFramed_of_noneLeft (hflow c) hwords h hfifo hsending⟩

/-- Port 0 fills the FIFO, and port 1 is cancelled with no word out. -/
def cancelledEarly : List SioAction :=
  threePorts ++ sendTurns 0 5 5 ++ sendTurns 1 6 1 ++ [.cancelSend 1] ++ recvTurns 5 ++
    sendTurns 0 5 2 ++ recvTurns 1

/-- Port 0 is cancelled with four of five words out; port 1 sends a frame after it. -/
def cancelledLate : List SioAction :=
  threePorts ++ sendTurns 0 5 5 ++ [.cancelSend 0] ++ recvTurns 5 ++ sendTurns 1 6 5 ++
    recvTurns 1 ++ recvTurns 1 ++ recvTurns 1 ++ recvTurns 1 ++ sendTurns 1 6 2 ++ recvTurns 1

theorem wellFramed_iff_cancelledEarly :
    ∃ s, (sioMachine 4).exec .init cancelledEarly = some s ∧
      (s.stream .core0).cancelled = [0] ∧
      (WellFramed s .core0 ↔
        (sioMachine 4).Along (CancelsNothingOut .core0) .init cancelledEarly) := by
  have hsome : ((sioMachine 4).exec .init cancelledEarly).map
      (fun s => ((s.stream .core0).cancelled, s.st.fifo .core0, s.sending .core0)) =
        some ([0], [], []) := by decide +kernel
  obtain ⟨s, hrun, hend⟩ := Option.map_eq_some_iff.mp hsome
  obtain ⟨hcancelled, hrest⟩ := Prod.mk.inj hend
  obtain ⟨hfifo, hsending⟩ := Prod.mk.inj hrest
  exact ⟨s, hrun, hcancelled, wellFramed_iff 4 .core0 cancelledEarly s hrun (by decide +kernel)
    (by decide +kernel) hfifo hsending⟩

/-- **A cut frame.**  The frame after it is answered `Ok` and never decoded: its first word ends
the cut frame, which is decoded though its send was cancelled, and the rest are errors. -/
theorem cancel_misframes :
    ∃ s, (sioMachine 4).exec .init cancelledLate = some s ∧
      (sioMachine 4).Along Repolls .init cancelledLate ∧
      (sioMachine 4).Along (Exclusive 4 .core0) .init cancelledLate ∧
      s.st.fifo .core0 = [] ∧ s.sending .core0 = [] ∧
      (s.stream .core0).completed.map (fun f => f.1.frameLabel) = [6] ∧
      (decodedOf (s.stream .core0).answers).map (fun f => f.frameLabel) = [5] ∧
      ¬ WellFramed s .core0 := by
  have hsome : ((sioMachine 4).exec .init cancelledLate).map
      (fun s => ((s.st.fifo .core0, s.sending .core0),
        (s.stream .core0).completed.map (fun f => f.1.frameLabel),
        (decodedOf (s.stream .core0).answers).map (fun f => f.frameLabel))) =
          some (([], []), [6], [5]) := by decide +kernel
  obtain ⟨s, hrun, hend⟩ := Option.map_eq_some_iff.mp hsome
  obtain ⟨hrest, hframes⟩ := Prod.mk.inj hend
  obtain ⟨hfifo, hsending⟩ := Prod.mk.inj hrest
  obtain ⟨hcompleted, hdecoded⟩ := Prod.mk.inj hframes
  refine ⟨s, hrun, by decide +kernel, by decide +kernel, hfifo, hsending, hcompleted, hdecoded,
    fun h => ?_⟩
  have hlabels := congrArg (List.map fun f => f.frameLabel) h.decoded
  rw [hdecoded, List.map_map] at hlabels
  exact absurd (hlabels.trans hcompleted) (by decide)

end HibanaPico.Rp2w
