import HibanaPico.Support.Ring
import HibanaPico.Support.Runs
import HibanaPico.UnoQ.SingleByte

/-!
# Uno Q — Two UARTs, one parser

The M33 kernel moves the bytes of USART1 and LPUART1 into one ring, from which `drain_uart` reads
them into one parser.  The ring keeps where a byte came from; the parser does not look at it.

* `RxRing`: the ring, `push_rx_ring` and `pop_rx_ring`.
* `m33Machine`: arrivals on both UARTs, the pump, and the reads of `drain_uart`, in any order.
* `M33State.Inv`: what was moved out of the UARTs went through the parser in that order, or waits.
* `two_uarts_iff`: every frame of both streams is emitted once when the bytes were moved frame by
  frame, and then only.
-/

namespace HibanaPico.UnoQ
open HibanaPico.Support
open HibanaPico.Transport

def rxRingCap : ℕ := 256

/-- `RX_RING`, `RX_RING_HEAD` and `RX_RING_TAIL`. -/
structure RxRing where
  cells : Cells (BitVec 16)
  head : ℕ
  tail : ℕ

/-- A word of the ring: a byte and its source. -/
def rxRingWord (byte : U8) (source : U32) : BitVec 16 :=
  (source.setWidth 16 <<< 8) ||| byte.setWidth 16

namespace RxRing

def empty : RxRing := ⟨fun _ => 0, 0, 0⟩

def full (r : RxRing) : Prop := (r.head + 1) % rxRingCap = r.tail

instance (r : RxRing) : Decidable r.full := inferInstanceAs (Decidable (_ = _))

/-- `push_rx_ring`. -/
def push (r : RxRing) (byte : U8) (source : U32) : RxRing :=
  if r.full then r
  else { r with
    cells := Function.update r.cells r.head (rxRingWord byte source)
    head := (r.head + 1) % rxRingCap }

/-- `pop_rx_ring`. -/
def pop (r : RxRing) : Option ((U8 × U32) × RxRing) :=
  if r.tail = r.head then none
  else
    let word := r.cells r.tail
    some (((word &&& 0xff).setWidth 8, (word >>> 8).setWidth 32),
      { r with tail := (r.tail + 1) % rxRingCap })

/-- The ring holds the words, oldest first. -/
structure Holds (r : RxRing) (words : List (BitVec 16)) : Prop where
  tail_lt : r.tail < rxRingCap
  length_lt : words.length < rxRingCap
  head_eq : r.head = Ring.slot rxRingCap r.tail words.length
  window_eq : Ring.window r.cells rxRingCap r.tail words.length = words

theorem holds_empty : empty.Holds [] := ⟨by decide, by decide, rfl, rfl⟩

/-- A byte pushed waits behind the others. -/
theorem Holds.push {r : RxRing} {words : List (BitVec 16)} (h : r.Holds words) (hfull : ¬ r.full)
    (byte : U8) (source : U32) :
    (r.push byte source).Holds (words ++ [rxRingWord byte source]) := by
  have hslot : (r.head + 1) % rxRingCap = Ring.slot rxRingCap r.tail (words.length + 1) := by
    rw [h.head_eq, Ring.slot_succ]
  -- the ring is full when only one cell is left
  have hroom : words.length + 1 < rxRingCap := by
    rcases Nat.lt_or_eq_of_le h.length_lt with hlt | heq
    · exact hlt
    · refine absurd ?_ hfull
      rw [full, hslot]
      show Ring.slot rxRingCap r.tail (words.length.succ) = r.tail
      rw [heq, Ring.slot, Nat.add_mod_right, Nat.mod_eq_of_lt h.tail_lt]
  unfold RxRing.push
  rw [if_neg hfull]
  refine ⟨h.tail_lt, by simpa using hroom, by simpa using hslot, ?_⟩
  rw [List.length_append, List.length_singleton, h.head_eq,
    Ring.window_write_tail _ _ h.tail_lt h.length_lt, h.window_eq]

theorem Holds.pop_nil {r : RxRing} (h : r.Holds []) : r.pop = none := by
  unfold RxRing.pop
  rw [if_pos]
  rw [h.head_eq, List.length_nil, Ring.slot_zero h.tail_lt]

/-- The oldest word is popped. -/
theorem Holds.pop_cons {r : RxRing} {word : BitVec 16} {words : List (BitVec 16)}
    (h : r.Holds (word :: words)) :
    ∃ r', r.pop = some (((word &&& 0xff).setWidth 8, (word >>> 8).setWidth 32), r') ∧
      r'.Holds words := by
  have hlt := h.length_lt
  rw [List.length_cons] at hlt
  have hne : r.tail ≠ r.head := by
    intro heq
    have hzero : Ring.slot rxRingCap r.tail 0 = Ring.slot rxRingCap r.tail (words.length + 1) := by
      rw [Ring.slot_zero h.tail_lt, ← List.length_cons (a := word), ← h.head_eq, heq]
    have := Ring.slot_inj h.tail_lt (by decide) hlt hzero
    omega
  have hwindow := h.window_eq
  rw [List.length_cons, Ring.window_uncons _ h.tail_lt] at hwindow
  obtain ⟨hword, hrest⟩ := List.cons.inj hwindow
  refine ⟨{ r with tail := (r.tail + 1) % rxRingCap }, ?_, ?_, by omega, ?_, hrest⟩
  · unfold RxRing.pop
    rw [if_neg hne, hword]
  · exact Nat.mod_lt _ (by decide)
  · show r.head = Ring.slot rxRingCap ((r.tail + 1) % rxRingCap) words.length
    rw [h.head_eq, List.length_cons, Ring.slot, Ring.slot, Nat.mod_add_mod, Nat.add_assoc,
      Nat.add_comm 1]

end RxRing

/-- The byte of a word of the ring. -/
theorem byte_rxRingWord (byte : U8) (source : U32) :
    (rxRingWord byte source &&& 0xff).setWidth 8 = byte := by
  have hmask : ∀ i < 8, (0xff : BitVec 16).getLsbD i = true := by decide
  ext i hi
  simp only [rxRingWord, BitVec.getElem_setWidth, BitVec.getLsbD_and, BitVec.getLsbD_or,
    BitVec.getLsbD_shiftLeft, BitVec.getLsbD_setWidth, hmask i hi, Bool.and_true]
  simp [hi, BitVec.getLsbD_eq_getElem, show i < 16 by omega]

/-! ### The machine -/

inductive Uart where
  | usart1
  | lpuart1
  deriving DecidableEq, Repr

/-- The source the ring records. -/
def Uart.source : Uart → U32
  | .usart1 => 1
  | .lpuart1 => 2

structure M33State where
  /-- The receive data register of each UART, full when RXNE is set. -/
  rdr : Uart → Option U8
  ring : RxRing
  parser : UartFrameParser
  /-- The bytes that have arrived on each UART. -/
  arrived : Uart → List U8
  /-- The bytes moved out of the UARTs, in order. -/
  moved : List (Uart × U8)
  emitted : List UartCarrierFrame

def M33State.init : M33State := ⟨fun _ => none, .empty, .new, fun _ => [], [], []⟩

inductive M33Action where
  | arrive (uart : Uart) (byte : U8)
  /-- Half a turn of `pump_rx_ring_once`: `read_usart_direct` and `push_rx_ring`, on one UART. -/
  | pump (uart : Uart)
  /-- `drain_uart` reads a byte of the ring, if there is one. -/
  | read
  deriving DecidableEq, Repr

def M33State.next (s : M33State) : M33Action → Option M33State
  | .arrive uart byte =>
      -- a byte that finds the register full is lost
      some { s with
        rdr := Function.update s.rdr uart (some ((s.rdr uart).getD byte))
        arrived := Function.update s.arrived uart (s.arrived uart ++ [byte]) }
  | .pump uart =>
      match s.rdr uart with
      | none => some s
      | some byte => some { s with
          rdr := Function.update s.rdr uart none
          ring := s.ring.push byte uart.source
          moved := s.moved ++ [(uart, byte)] }
  | .read =>
      match s.ring.pop with
      | none => some s
      | some ((byte, _), ring) => some { s with
          ring := ring
          parser := (s.parser.push byte).1
          emitted := s.emitted ++ (s.parser.push byte).2.toList }

def m33Machine : Machine M33State M33Action := ⟨M33State.next⟩

/-- No overrun on a UART, and no full ring. -/
def Clear (s : M33State) : M33Action → Prop
  | .arrive uart _ => s.rdr uart = none
  | .pump uart => s.rdr uart ≠ none → ¬ s.ring.full
  | .read => True

instance : ∀ (s : M33State) (a : M33Action), Decidable (Clear s a)
  | s, .arrive uart _ => inferInstanceAs (Decidable (s.rdr uart = none))
  | s, .pump uart => inferInstanceAs (Decidable (s.rdr uart ≠ none → ¬ s.ring.full))
  | _, .read => isTrue trivial

/-- Every byte that arrived has been read. -/
def M33State.Drained (s : M33State) : Prop :=
  s.rdr .usart1 = none ∧ s.rdr .lpuart1 = none ∧ s.ring.pop.isNone = true

instance (s : M33State) : Decidable s.Drained := inferInstanceAs (Decidable (_ ∧ _ ∧ _))

/-- The bytes of one UART. -/
def bytesOf (uart : Uart) (moved : List (Uart × U8)) : List U8 :=
  (moved.filter (·.1 = uart)).map Prod.snd

theorem bytesOf_append (uart : Uart) (xs ys : List (Uart × U8)) :
    bytesOf uart (xs ++ ys) = bytesOf uart xs ++ bytesOf uart ys := by
  unfold bytesOf
  rw [List.filter_append, List.map_append]

theorem bytesOf_concat (uart : Uart) (xs : List (Uart × U8)) (from' : Uart) (byte : U8) :
    bytesOf uart (xs ++ [(from', byte)]) =
      bytesOf uart xs ++ if from' = uart then [byte] else [] := by
  rw [bytesOf_append]
  congr 1
  unfold bytesOf
  by_cases h : from' = uart
  · simp [h]
  · simp [h]

/-- Every byte moved is of one of the UARTs. -/
theorem length_bytesOf (moved : List (Uart × U8)) :
    (bytesOf .usart1 moved).length + (bytesOf .lpuart1 moved).length = moved.length := by
  induction moved with
  | nil => rfl
  | cons x moved ih =>
      rw [← List.singleton_append, bytesOf_append, bytesOf_append, List.length_append,
        List.length_append, List.length_append, ← ih]
      obtain ⟨uart, byte⟩ := x
      cases uart
      · show 1 + _ + (0 + _) = 1 + _
        omega
      · show 0 + _ + (1 + _) = 1 + _
        omega

/-! ### The invariant -/

/-- The words of bytes moved from the UARTs. -/
def wordsOf (moved : List (Uart × U8)) : List (BitVec 16) :=
  moved.map fun x => rxRingWord x.2 x.1.source

/-- The bytes moved have gone through the parser, in the order they were moved, but for those that
wait in the ring; and nothing that arrived is missing. -/
structure M33State.Inv (s : M33State) : Prop where
  queued : ∃ popped waiting, s.moved = popped ++ waiting ∧ s.ring.Holds (wordsOf waiting) ∧
    s.parser = (uartDecoder.feed .new (popped.map Prod.snd)).1 ∧
    s.emitted = HibanaPico.UnoQ.emitted (popped.map Prod.snd)
  arrived : ∀ uart, s.arrived uart = bytesOf uart s.moved ++ (s.rdr uart).toList

theorem M33State.inv_init : M33State.init.Inv where
  queued := ⟨[], [], rfl, RxRing.holds_empty, rfl, rfl⟩
  arrived := fun _ => rfl

theorem reduceOption_singleton (o : Option UartCarrierFrame) : [o].reduceOption = o.toList := by
  cases o with
  | none => rfl
  | some f => rfl

theorem emitted_concat (xs : List U8) (byte : U8) :
    emitted (xs ++ [byte]) =
      emitted xs ++ ((uartDecoder.feed .new xs).1.push byte).2.toList := by
  unfold emitted
  rw [Decoder.feed_append, List.reduceOption_append]
  exact congrArg _ (reduceOption_singleton _)

theorem M33State.Inv.step {s t : M33State} {a : M33Action} (I : s.Inv) (hclear : Clear s a)
    (h : m33Machine.next s a = some t) : t.Inv := by
  obtain ⟨popped, waiting, hmoved, hring, hparser, hemitted⟩ := I.queued
  cases a with
  | arrive uart byte =>
      cases h
      have hempty : s.rdr uart = none := hclear
      refine ⟨I.queued, fun other => ?_⟩
      have hother := I.arrived other
      by_cases heq : other = uart
      · subst heq
        rw [hempty] at hother
        simp only [Function.update_self, hother, hempty, Option.toList_none, List.append_nil,
          Option.getD_none, Option.toList_some]
      · simp only [Function.update_of_ne heq, hother]
  | pump uart =>
      simp only [m33Machine, M33State.next] at h
      cases hbyte : s.rdr uart with
      | none => rw [hbyte] at h; cases h; exact I
      | some byte =>
          rw [hbyte] at h
          cases h
          have hroom : ¬ s.ring.full := hclear (by rw [hbyte]; exact Option.some_ne_none _)
          refine ⟨⟨popped, waiting ++ [(uart, byte)], ?_, ?_, hparser, hemitted⟩, fun other => ?_⟩
          · show s.moved ++ [(uart, byte)] = popped ++ (waiting ++ [(uart, byte)])
            rw [hmoved, List.append_assoc]
          · rw [wordsOf, List.map_append]
            exact hring.push hroom byte uart.source
          · have hother := I.arrived other
            rw [bytesOf_concat]
            by_cases heq : other = uart
            · subst heq
              rw [hbyte] at hother
              simp only [Function.update_self, hother, if_true, Option.toList_none,
                List.append_nil, Option.toList_some]
            · simp only [Function.update_of_ne heq, if_neg (Ne.symm heq), List.append_nil, hother]
  | read =>
      simp only [m33Machine, M33State.next] at h
      cases waiting with
      | nil => rw [RxRing.Holds.pop_nil hring] at h; cases h; exact I
      | cons x waiting =>
          obtain ⟨ring, hpop, hholds⟩ := hring.pop_cons
          rw [hpop] at h
          cases h
          refine ⟨⟨popped ++ [x], waiting, ?_, hholds, ?_, ?_⟩, I.arrived⟩
          · show s.moved = popped ++ [x] ++ waiting
            rw [hmoved, List.append_assoc]
            rfl
          · show (s.parser.push _).1 = _
            rw [byte_rxRingWord, List.map_append, Decoder.feed_append, ← hparser]
            rfl
          · show s.emitted ++ (s.parser.push _).2.toList = _
            rw [byte_rxRingWord, List.map_append, hemitted, hparser]
            exact (emitted_concat _ _).symm

/-- Once everything is read, the parser has seen the bytes in the order they were moved. -/
theorem M33State.Inv.emitted_eq {s : M33State} (I : s.Inv) (h : s.Drained) :
    s.emitted = HibanaPico.UnoQ.emitted (s.moved.map Prod.snd) := by
  obtain ⟨popped, waiting, hmoved, hring, -, hemitted⟩ := I.queued
  cases waiting with
  | nil => rw [hemitted, hmoved, List.append_nil]
  | cons x waiting =>
      obtain ⟨ring, hpop, -⟩ := hring.pop_cons
      have hnone := h.2.2
      rw [hpop] at hnone
      cases hnone

/-- Once everything is read, as many bytes were moved as arrived. -/
theorem M33State.Inv.length_moved {s : M33State} (I : s.Inv) (h : s.Drained) :
    (s.arrived .usart1).length + (s.arrived .lpuart1).length = s.moved.length := by
  rw [I.arrived, I.arrived, h.1, h.2.1, Option.toList_none, List.append_nil, List.append_nil,
    length_bytesOf]

/-! ### Frames of both streams -/

/-- Frames emitted that are as long as the stream are the stream. -/
theorem stream_of_emitted {xs : List U8}
    (h : ((emitted xs).flatMap UartCarrierFrame.image).length = xs.length) :
    xs = (emitted xs).flatMap UartCarrierFrame.image :=
  (scattered_emitted rfl xs).eq_of_length h

/-- Fewer bytes than a frame complete none. -/
theorem feed_short {p : UartFrameParser} {xs : List U8} (h : p.len + xs.length < 14) :
    (uartDecoder.feed p xs).2.reduceOption = [] := by
  induction xs generalizing p with
  | nil => rfl
  | cons x xs ih =>
      rw [List.length_cons] at h
      obtain ⟨hlen, hemit⟩ := push_bounds p x
      rw [Decoder.feed_cons]
      cases hout : (uartDecoder.push p x).2 with
      | none =>
          rw [List.reduceOption_cons_of_none]
          exact ih (Nat.lt_of_le_of_lt (Nat.add_le_add_right hlen _) (by omega))
      | some f =>
          have := hemit f hout
          omega

/-- Failed attempts at the magic complete no frame. -/
theorem feed_broken {xs : List U8} (h : Broken xs) :
    ∀ p : UartFrameParser, p.len = 0 → (uartDecoder.feed p xs).2.reduceOption = [] := by
  induction h with
  | nil => exact fun _ _ => rfl
  | @attempt k byte rest hk hb _ ih =>
      intro p hp
      have hattempt : Broken (uartCarrierMagic.take k ++ [byte]) := .attempt hk hb .nil
      have hshort : p.len + (uartCarrierMagic.take k ++ [byte]).length < 14 := by
        rw [hp, List.length_append, List.length_take, List.length_singleton]
        omega
      rw [← List.singleton_append, ← List.append_assoc, Decoder.feed_append,
        List.reduceOption_append, feed_short hshort, ih _ (hattempt.feed p hp)]
      rfl

/-- Frames with failed attempts at the magic between them are emitted. -/
theorem feed_pieces (pieces : List (List U8 × UartCarrierFrame))
    (hbroken : ∀ x ∈ pieces, Broken x.1) {p : UartFrameParser} (hp : p.len = 0) :
    (uartDecoder.feed p (pieces.flatMap fun x => x.1 ++ x.2.image)).2.reduceOption =
      pieces.map Prod.snd := by
  induction pieces generalizing p with
  | nil => rfl
  | cons x pieces ih =>
      obtain ⟨hnoise, hrest⟩ := List.forall_mem_cons.mp hbroken
      have hidle := hnoise.feed p hp
      obtain ⟨hidle', hframe⟩ := feed_frames hidle [x.2]
      rw [List.flatMap_singleton] at hidle' hframe
      rw [List.flatMap_cons, List.append_assoc, Decoder.feed_append, Decoder.feed_append,
        List.reduceOption_append, List.reduceOption_append, feed_broken hnoise p hp, hframe,
        ih hrest hidle']
      rfl

/-- **Two UARTs.**  In every run without overrun and with the ring never full, once everything
that arrived is read: of two streams of complete frames, each frame is emitted exactly once exactly
if the bytes were moved out of the UARTs frame by frame; and frames with nothing but failed
attempts at the magic between them are emitted, whatever UART those came from. -/
theorem two_uarts_iff {actions : List M33Action} {t : M33State}
    (h : m33Machine.exec .init actions = some t) (hclear : m33Machine.Along Clear .init actions)
    (hdrained : t.Drained) :
    (∀ fs gs, t.arrived .usart1 = fs.flatMap UartCarrierFrame.image →
      t.arrived .lpuart1 = gs.flatMap UartCarrierFrame.image →
      (t.emitted.Perm (fs ++ gs) ↔ ∃ hs : List UartCarrierFrame, hs.Perm (fs ++ gs) ∧
        t.moved.map Prod.snd = hs.flatMap UartCarrierFrame.image)) ∧
    ∀ pieces : List (List U8 × UartCarrierFrame), (∀ x ∈ pieces, Broken x.1) →
      t.moved.map Prod.snd = pieces.flatMap (fun x => x.1 ++ x.2.image) →
      t.emitted = pieces.map Prod.snd := by
  have I : t.Inv := Machine.exec_invariant (fun _ _ _ I hc => I.step hc) M33State.inv_init hclear h
  rw [I.emitted_eq hdrained]
  refine ⟨fun fs gs hfs hgs => ⟨fun hperm => ⟨_, hperm, stream_of_emitted ?_⟩, ?_⟩,
    fun pieces hbroken hpieces => ?_⟩
  · have hlen := I.length_moved hdrained
    rw [hfs, hgs, ← List.length_append, ← List.flatMap_append] at hlen
    rw [(hperm.flatMap_right UartCarrierFrame.image).length_eq, hlen, List.length_map]
  · rintro ⟨hs, hperm, hmoved⟩
    rw [hmoved, emitted, (feed_frames rfl hs).2]
    exact hperm
  · rw [hpieces, emitted, feed_pieces pieces hbroken rfl]

/-- The image of one frame on each UART, byte by byte in turn, and then read. -/
def inTurn : List M33Action :=
  (shortFrame.image.flatMap fun byte =>
    [.arrive .usart1 byte, .arrive .lpuart1 byte, .pump .usart1, .pump .lpuart1]) ++
      List.replicate 28 .read

/-- The image of one frame on USART1, and then of one on LPUART1. -/
def oneByOne : List M33Action :=
  (shortFrame.image.flatMap fun byte => [.arrive .usart1 byte, .pump .usart1]) ++
    (shortFrame.image.flatMap fun byte => [.arrive .lpuart1 byte, .pump .lpuart1, .read]) ++
      List.replicate 14 .read

theorem two_uarts_iff_oneByOne : ∃ t, m33Machine.exec .init oneByOne = some t ∧
    t.emitted.Perm ([shortFrame] ++ [shortFrame]) := by
  have hrun : ((m33Machine.exec .init oneByOne).map fun t =>
      (decide t.Drained, t.arrived .usart1, t.arrived .lpuart1, t.moved.map Prod.snd)) =
        some (true, shortFrame.image, shortFrame.image, shortFrame.image ++ shortFrame.image) := by
    decide +kernel
  obtain ⟨t, ht, hfields⟩ := Option.map_eq_some_iff.mp hrun
  simp only [Prod.mk.injEq, decide_eq_true_eq] at hfields
  obtain ⟨hdrained, husart, hlpuart, hmoved⟩ := hfields
  refine ⟨t, ht, ((two_uarts_iff ht (by decide +kernel) hdrained).1 [shortFrame] [shortFrame]
    (by rw [husart]; rfl) (by rw [hlpuart]; rfl)).mpr ⟨[shortFrame, shortFrame], .refl _, ?_⟩⟩
  rw [hmoved]
  rfl

/-- Two frames whose bytes come in turn: neither is emitted. -/
theorem two_uarts_inTurn :
    ¬ ∀ actions t, m33Machine.exec .init actions = some t → m33Machine.Along Clear .init actions →
      t.Drained → ∀ fs gs, t.arrived .usart1 = fs.flatMap UartCarrierFrame.image →
        t.arrived .lpuart1 = gs.flatMap UartCarrierFrame.image → t.emitted.Perm (fs ++ gs) := by
  intro H
  have hrun : ((m33Machine.exec .init inTurn).map fun t =>
      (decide t.Drained, t.arrived .usart1, t.arrived .lpuart1, t.emitted)) =
        some (true, shortFrame.image, shortFrame.image, []) := by decide +kernel
  obtain ⟨t, ht, hfields⟩ := Option.map_eq_some_iff.mp hrun
  simp only [Prod.mk.injEq, decide_eq_true_eq] at hfields
  obtain ⟨hdrained, husart, hlpuart, hemitted⟩ := hfields
  have hperm := H inTurn t ht (by decide +kernel) hdrained [shortFrame] [shortFrame]
    (by rw [husart]; rfl) (by rw [hlpuart]; rfl)
  rw [hemitted] at hperm
  exact absurd hperm.length_eq (by decide)

end HibanaPico.UnoQ
