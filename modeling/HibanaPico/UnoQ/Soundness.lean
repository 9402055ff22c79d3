import HibanaPico.Support.Scanning
import HibanaPico.UnoQ.Resync

/-!
# Uno Q — Soundness of the UART parser

Whatever bytes come, `UartFrameParser::push` emits only frames that were read: the bytes it holds
are the last ones read, and a frame it emits is the one those bytes encode.

* `UartFrameParser.Inv`: the parser holds less than a buffer, begun by the magic, and no more of a
  frame than its length byte declares.
* `uartScanner`: the parser as a scanner.
* `UartFrameParser.touched`: the cells of the buffer a byte makes `push` read or write;
  `UartFrameParser.push_reads` and `UartFrameParser.push_writes` say that it touches no others.
* `uart_sound`: frames emitted lie in the stream, apart; no access is out of bounds; what was in
  the buffer before does not matter.
-/

namespace HibanaPico.UnoQ
open HibanaPico.Support
open HibanaPico.Transport

/-- Between two bytes: less than a buffer is held, what is held begins like the magic, and the
frame it declares is not complete. -/
structure UartFrameParser.Inv (p : UartFrameParser) : Prop where
  len_lt : p.len < uartCarrierFrameBytes
  magic : ∀ i < p.len, i < 4 → uartCarrierMagic[i]? = some (p.buffer i)
  declared : 13 ≤ p.len →
    (p.buffer 12).toNat ≤ proofCarrierFrameBytes ∧ p.len < 14 + (p.buffer 12).toNat

theorem UartFrameParser.inv_new : UartFrameParser.new.Inv where
  len_lt := by decide
  magic := fun i hi => absurd hi (Nat.not_lt_zero i)
  declared := fun h => absurd h (by decide)

/-! ### What a byte does -/

theorem toLeBytes_fromLeBytes (b₀ b₁ b₂ b₃ : U8) :
    toLeBytes (fromLeBytes b₀ b₁ b₂ b₃) = [b₀, b₁, b₂, b₃] := by
  unfold toLeBytes fromLeBytes
  simp only [List.cons.injEq, and_true]
  refine ⟨?_, ?_, ?_, ?_⟩
  all_goals
    ext i hi
    simp only [BitVec.getElem_extractLsb', BitVec.getLsbD_append]
    rw [← BitVec.getLsbD_eq_getElem]
    split_ifs
    all_goals first | omega | (congr 1; omega)

/-- The frame in the buffer, encoded again. -/
theorem UartCarrierFrame.body_read {b : Cells U8} {n : ℕ} (h : ¬ n > proofCarrierFrameBytes)
    (h12 : (b 12).toNat = n) : (UartCarrierFrame.read b n h).body = b.slice 4 (9 + n) := by
  have hlen : BitVec.ofNat 8 n = b 12 := by rw [← h12, BitVec.ofNat_toNat, BitVec.setWidth_eq]
  unfold body read
  simp only [Cells.length_slice, hlen]
  rw [toLeBytes_fromLeBytes, show 9 + n = 4 + (5 + n) by omega, Cells.slice_add, Cells.slice_add]
  rfl

/-- A buffer that begins with the magic, read as a frame whose checksum agrees. -/
theorem UartCarrierFrame.image_read {b : Cells U8} {n : ℕ} (h : ¬ n > proofCarrierFrameBytes)
    (h12 : (b 12).toNat = n) (hmagic : b.slice 0 4 = uartCarrierMagic)
    (hsum : b (13 + n) = uartFrameChecksum (b.slice 4 (9 + n))) :
    (UartCarrierFrame.read b n h).image = b.slice 0 (14 + n) := by
  have hslice : b.slice 0 (14 + n) = b.slice 0 4 ++ (b.slice 4 (9 + n) ++ [b (13 + n)]) := by
    rw [show 14 + n = 4 + ((9 + n) + 1) by omega, Cells.slice_add, Nat.zero_add,
      Cells.slice_snoc b 4 (9 + n), show 4 + (9 + n) = 13 + n by omega]
  rw [image_eq, body_read h h12, ← hsum, hslice, hmagic]

/-- What `push` does with a byte: it drops what it holds, keeps the byte, or emits the frame. -/
theorem UartFrameParser.push_cases {p : UartFrameParser} (I : p.Inv) (byte : U8) :
    ((p.push byte).2 = none ∧ (p.push byte).1.len = 0) ∨
      ((p.push byte).2 = none ∧
        (p.push byte).1 = ⟨Function.update p.buffer p.len byte, p.len + 1⟩ ∧
        (p.push byte).1.Inv) ∨
      ∃ f, (p.push byte).2 = some f ∧ (p.push byte).1.len = 0 ∧
        f.image = Cells.slice (Function.update p.buffer p.len byte) 0 (p.len + 1) := by
  unfold push
  by_cases hbreak : p.len < uartCarrierMagic.length ∧ uartCarrierMagic[p.len]? ≠ some byte
  · rw [if_pos hbreak]
    exact .inl ⟨rfl, rfl⟩
  rw [if_neg hbreak, if_neg (Nat.ne_of_lt I.len_lt)]
  obtain ⟨b, hb⟩ : ∃ b : Cells U8, Function.update p.buffer p.len byte = b := ⟨_, rfl⟩
  rw [hb]
  have hold : ∀ i < p.len, b i = p.buffer i := fun i hi => by
    rw [← hb, Function.update_of_ne (Nat.ne_of_lt hi)]
  have hnew : b p.len = byte := by rw [← hb, Function.update_self]
  have hmagic : ∀ i < p.len + 1, i < 4 → uartCarrierMagic[i]? = some (b i) := fun i hi h4 => by
    rcases Nat.lt_or_eq_of_le (Nat.le_of_lt_succ hi) with hlt | rfl
    · rw [hold i hlt]
      exact I.magic i hlt h4
    · rw [hnew]
      exact not_not.mp fun hne => hbreak ⟨h4, hne⟩
  have hlt := I.len_lt
  unfold uartCarrierFrameBytes uartCarrierHeaderBytes proofCarrierFrameBytes at hlt
  unfold settle uartCarrierHeaderBytes
  by_cases hhead : p.len + 1 < 13
  · rw [if_pos hhead]
    refine .inr (.inl ⟨rfl, rfl, ?_, hmagic, fun h => absurd hhead (Nat.not_lt.mpr h)⟩)
    show p.len + 1 < 142
    omega
  rw [if_neg hhead]
  by_cases hcap : (b 12).toNat > proofCarrierFrameBytes
  · rw [dif_pos hcap]
    exact .inl ⟨rfl, rfl⟩
  rw [dif_neg hcap]
  have hcap' : (b 12).toNat ≤ 128 := Nat.not_lt.mp hcap
  by_cases hshort : p.len + 1 < 13 + (b 12).toNat + 1
  · rw [if_pos hshort]
    refine .inr (.inl ⟨rfl, rfl, ?_, hmagic, fun _ => ⟨hcap', ?_⟩⟩)
    · show p.len + 1 < 142
      omega
    · show p.len + 1 < 14 + (b 12).toNat
      omega
  rw [if_neg hshort]
  -- the frame is complete with this byte, not before
  have hfull : p.len + 1 = 14 + (b 12).toNat := by
    by_cases h13 : 13 ≤ p.len
    · have hdeclared := (I.declared h13).2
      rw [← hold 12 (by omega)] at hdeclared
      omega
    · omega
  by_cases hsum : b (13 + (b 12).toNat) = uartFrameChecksum (b.slice 4 (13 + (b 12).toNat - 4))
  · rw [if_neg (not_not.mpr hsum)]
    refine .inr (.inr ⟨_, rfl, rfl, ?_⟩)
    rw [show 13 + (b 12).toNat - 4 = 9 + (b 12).toNat by omega] at hsum
    have hstart : b.slice 0 4 = uartCarrierMagic := by
      have h0 := hmagic 0 (by omega) (by omega)
      have h1 := hmagic 1 (by omega) (by omega)
      have h2 := hmagic 2 (by omega) (by omega)
      have h3 := hmagic 3 (by omega) (by omega)
      simp only [uartCarrierMagic, List.getElem?_cons_zero, List.getElem?_cons_succ,
        Option.some.injEq] at h0 h1 h2 h3
      simp only [Cells.slice_succ, Cells.slice_zero, uartCarrierMagic, ← h0, ← h1, ← h2, ← h3]
    rw [hfull]
    exact UartCarrierFrame.image_read hcap rfl hstart hsum
  · rw [if_pos hsum]
    exact .inl ⟨rfl, rfl⟩

theorem UartFrameParser.inv_of_len_zero {p : UartFrameParser} (h : p.len = 0) : p.Inv where
  len_lt := by rw [h]; decide
  magic := fun i hi => by rw [h] at hi; exact absurd hi (Nat.not_lt_zero i)
  declared := fun h13 => by rw [h] at h13; exact absurd h13 (by decide)

theorem UartFrameParser.Inv.push {p : UartFrameParser} (I : p.Inv) (byte : U8) :
    (p.push byte).1.Inv := by
  rcases UartFrameParser.push_cases I byte with ⟨-, h⟩ | ⟨-, -, h⟩ | ⟨f, -, h, -⟩
  · exact inv_of_len_zero h
  · exact h
  · exact inv_of_len_zero h

/-- The parser, as a scanner: it holds `buffer[..len]`. -/
def uartScanner : Scanner uartDecoder UartCarrierFrame.image where
  Inv := UartFrameParser.Inv
  held p := p.buffer.slice 0 p.len
  inv_push _ byte I := I.push byte
  push_none p byte I _ := by
    rcases UartFrameParser.push_cases I byte with ⟨-, h⟩ | ⟨-, h, -⟩ | ⟨f, h, -, -⟩
    · exact .inr (by rw [show (uartDecoder.push p byte).1.len = 0 from h, Cells.slice_zero])
    · refine .inl ?_
      rw [show (uartDecoder.push p byte).1 = _ from h]
      simp only
      rw [Cells.slice_snoc, Cells.slice_update_of_outside _ (by omega), Nat.zero_add,
        Function.update_self]
    · rename_i hnone
      exact absurd (hnone.symm.trans h) (by simp)
  push_some p byte f I hf := by
    rcases UartFrameParser.push_cases I byte with ⟨h, -⟩ | ⟨h, -, -⟩ | ⟨g, h, hlen, himage⟩
    · exact absurd (hf.symm.trans h) (by simp)
    · exact absurd (hf.symm.trans h) (by simp)
    · obtain rfl : f = g := Option.some.inj (hf.symm.trans h)
      rw [Cells.slice_snoc, Cells.slice_update_of_outside _ (by omega), Nat.zero_add,
        Function.update_self] at himage
      exact ⟨himage.symm, by rw [show (uartDecoder.push p byte).1.len = 0 from hlen,
        Cells.slice_zero]⟩

/-! ### The cells of the buffer -/

/-- The cells of the buffer that `push` reads or writes for a byte, in the order of the source. -/
def UartFrameParser.touched (p : UartFrameParser) (byte : U8) : List ℕ :=
  if p.len < uartCarrierMagic.length ∧ uartCarrierMagic[p.len]? ≠ some byte then []
  else if p.len = uartCarrierFrameBytes then []
  else
    let buffer : Cells U8 := Function.update p.buffer p.len byte
    p.len :: if p.len + 1 < uartCarrierHeaderBytes then []
    else 12 :: (
      let payloadLen := (buffer 12).toNat
      if payloadLen > proofCarrierFrameBytes then []
      else if p.len + 1 < uartCarrierHeaderBytes + payloadLen + 1 then []
      else List.range' 4 (uartCarrierHeaderBytes + payloadLen - 4) ++
        (uartCarrierHeaderBytes + payloadLen) ::
          (if buffer (uartCarrierHeaderBytes + payloadLen) ≠ uartFrameChecksum
              (buffer.slice 4 (uartCarrierHeaderBytes + payloadLen - 4)) then []
          else List.range' uartCarrierHeaderBytes payloadLen ++ [4, 5, 6, 7, 8, 9, 10, 11]))

/-- The byte goes in last: nothing touched lies past it. -/
theorem UartFrameParser.touched_le (p : UartFrameParser) (byte : U8) {k : ℕ}
    (h : k ∈ p.touched byte) : k ≤ p.len := by
  unfold touched uartCarrierHeaderBytes at h
  split at h
  · cases h
  split at h
  · cases h
  rcases List.mem_cons.mp h with rfl | h
  · exact Nat.le_refl _
  split at h
  · cases h
  rcases List.mem_cons.mp h with rfl | h
  · omega
  dsimp only at h
  split at h
  · cases h
  split at h
  · cases h
  rcases List.mem_append.mp h with h | h
  · obtain ⟨-, hk⟩ := List.mem_range'_1.mp h
    omega
  rcases List.mem_cons.mp h with rfl | h
  · omega
  split at h
  · cases h
  rcases List.mem_append.mp h with h | h
  · obtain ⟨-, hk⟩ := List.mem_range'_1.mp h
    omega
  · have hk : k ≤ 11 := by
      simp only [List.mem_cons, List.not_mem_nil, or_false] at h
      omega
    omega

/-- No access is out of bounds. -/
theorem UartFrameParser.Inv.touched_lt {p : UartFrameParser} (I : p.Inv) (byte : U8) {k : ℕ}
    (h : k ∈ p.touched byte) : k < uartCarrierFrameBytes :=
  Nat.lt_of_le_of_lt (p.touched_le byte h) I.len_lt

/-- Once the byte is in, the buffer stays, and no more counts as held than was put in. -/
theorem UartFrameParser.settle_writes (buffer : Cells U8) (len : ℕ) :
    (settle buffer len).1.buffer = buffer ∧ (settle buffer len).1.len ≤ len := by
  unfold settle
  split
  · exact ⟨rfl, Nat.le_refl _⟩
  dsimp only
  split
  · exact ⟨rfl, Nat.zero_le _⟩
  split
  · exact ⟨rfl, Nat.le_refl _⟩
  split
  · exact ⟨rfl, Nat.zero_le _⟩
  · exact ⟨rfl, Nat.zero_le _⟩

theorem UartCarrierFrame.read_congr {b c : Cells U8} {n : ℕ} (h : ¬ n > proofCarrierFrameBytes)
    (hbc : ∀ k ∈ List.range' uartCarrierHeaderBytes n ++ [4, 5, 6, 7, 8, 9, 10, 11], b k = c k) :
    UartCarrierFrame.read b n h = UartCarrierFrame.read c n h := by
  have hfield : ∀ k ∈ [4, 5, 6, 7, 8, 9, 10, 11], b k = c k := fun k hk =>
    hbc k (List.mem_append_right _ hk)
  refine UartCarrierFrame.ext ?_ ?_ ?_ ?_ ?_ (Subtype.ext ?_)
  · show fromLeBytes (b 4) (b 5) (b 6) (b 7) = fromLeBytes (c 4) (c 5) (c 6) (c 7)
    rw [hfield 4 (by decide), hfield 5 (by decide), hfield 6 (by decide), hfield 7 (by decide)]
  · exact hfield 8 (by decide)
  · exact hfield 9 (by decide)
  · exact hfield 10 (by decide)
  · exact hfield 11 (by decide)
  · exact Cells.slice_congr fun i hi hlt =>
      hbc i (List.mem_append_left _ (List.mem_range'_1.mpr ⟨hi, hlt⟩))

/-- **What `push` reads.**  Parsers with the same length that hold the same in the cells touched
answer the same, and hold as much afterwards. -/
theorem UartFrameParser.push_reads {p q : UartFrameParser} {byte : U8} (hlen : q.len = p.len)
    (h : ∀ k ∈ p.touched byte, k ≠ p.len → q.buffer k = p.buffer k) :
    (q.push byte).2 = (p.push byte).2 ∧ (q.push byte).1.len = (p.push byte).1.len := by
  have hbc : ∀ k ∈ p.touched byte,
      Function.update q.buffer p.len byte k = Function.update p.buffer p.len byte k :=
    fun k hk => Cells.update_congr byte (h k hk)
  unfold push
  rw [hlen]
  unfold touched at hbc
  by_cases hmagic : p.len < uartCarrierMagic.length ∧ uartCarrierMagic[p.len]? ≠ some byte
  · rw [if_pos hmagic, if_pos hmagic]
    exact ⟨rfl, rfl⟩
  rw [if_neg hmagic, if_neg hmagic]
  rw [if_neg hmagic] at hbc
  by_cases hfull : p.len = uartCarrierFrameBytes
  · rw [if_pos hfull, if_pos hfull]
    exact ⟨rfl, rfl⟩
  rw [if_neg hfull, if_neg hfull]
  rw [if_neg hfull] at hbc
  dsimp only at hbc
  obtain ⟨c, hc⟩ : ∃ c : Cells U8, Function.update q.buffer p.len byte = c := ⟨_, rfl⟩
  obtain ⟨b, hb⟩ : ∃ b : Cells U8, Function.update p.buffer p.len byte = b := ⟨_, rfl⟩
  rw [hc, hb] at hbc
  rw [hc, hb]
  unfold settle
  by_cases hhead : p.len + 1 < uartCarrierHeaderBytes
  · rw [if_pos hhead, if_pos hhead]
    exact ⟨rfl, rfl⟩
  rw [if_neg hhead, if_neg hhead]
  rw [if_neg hhead] at hbc
  -- the length byte
  have h12 : c 12 = b 12 := hbc 12 (List.mem_cons_of_mem _ List.mem_cons_self)
  dsimp only
  rw [h12]
  by_cases hcap : (b 12).toNat > proofCarrierFrameBytes
  · rw [dif_pos hcap, dif_pos hcap]
    exact ⟨rfl, rfl⟩
  rw [dif_neg hcap, dif_neg hcap]
  rw [if_neg hcap] at hbc
  by_cases hshort : p.len + 1 < uartCarrierHeaderBytes + (b 12).toNat + 1
  · rw [if_pos hshort, if_pos hshort]
    exact ⟨rfl, rfl⟩
  rw [if_neg hshort, if_neg hshort]
  rw [if_neg hshort] at hbc
  -- the checksum, and what it is over
  have hrest := fun k hk => hbc k (List.mem_cons_of_mem _ (List.mem_cons_of_mem _ hk))
  have hslice : c.slice 4 (uartCarrierHeaderBytes + (b 12).toNat - 4) =
      b.slice 4 (uartCarrierHeaderBytes + (b 12).toNat - 4) :=
    Cells.slice_congr fun i hi hlt =>
      hrest i (List.mem_append_left _ (List.mem_range'_1.mpr ⟨hi, hlt⟩))
  have hcheck := hrest _ (List.mem_append_right _ List.mem_cons_self)
  rw [hslice, hcheck]
  by_cases hsum : b (uartCarrierHeaderBytes + (b 12).toNat) ≠
      uartFrameChecksum (b.slice 4 (uartCarrierHeaderBytes + (b 12).toNat - 4))
  · rw [if_pos hsum, if_pos hsum]
    exact ⟨rfl, rfl⟩
  rw [if_neg hsum, if_neg hsum]
  rw [if_neg hsum] at hrest
  exact ⟨congrArg some (UartCarrierFrame.read_congr hcap fun k hk =>
    hrest k (List.mem_append_right _ (List.mem_cons_of_mem _ hk))), rfl⟩

/-- **What `push` writes**: nothing, or the byte, to a cell touched. -/
theorem UartFrameParser.push_writes (p : UartFrameParser) (byte : U8) :
    (p.push byte).1.buffer = p.buffer ∧ (p.push byte).1.len = 0 ∨
      p.len ∈ p.touched byte ∧ (p.push byte).1.buffer = Function.update p.buffer p.len byte ∧
        (p.push byte).1.len ≤ p.len + 1 := by
  unfold push touched
  split
  · exact .inl ⟨rfl, rfl⟩
  split
  · exact .inl ⟨rfl, rfl⟩
  · exact .inr ⟨List.mem_cons_self, settle_writes _ _⟩

/-! ### Stale bytes -/

/-- Two parsers that hold the same bytes. -/
def UartFrameParser.Agree (p q : UartFrameParser) : Prop :=
  p.len = q.len ∧ ∀ i < p.len, p.buffer i = q.buffer i

theorem UartFrameParser.Agree.push {p q : UartFrameParser} (h : p.Agree q) (byte : U8) :
    (p.push byte).2 = (q.push byte).2 ∧ (p.push byte).1.Agree (q.push byte).1 := by
  obtain ⟨hlen, hbuf⟩ := h
  have hheld : ∀ k ∈ p.touched byte, k ≠ p.len → q.buffer k = p.buffer k := fun k hk hne =>
    (hbuf k (Nat.lt_of_le_of_ne (p.touched_le byte hk) hne)).symm
  obtain ⟨hout, hafter⟩ := push_reads hlen.symm hheld
  refine ⟨hout.symm, hafter.symm, fun i hi => ?_⟩
  rcases p.push_writes byte with ⟨-, hzero⟩ | ⟨-, hp, hle⟩
  · exact absurd (hzero ▸ hi) (Nat.not_lt_zero i)
  rcases q.push_writes byte with ⟨-, hzero⟩ | ⟨-, hq, -⟩
  · exact absurd (hafter.symm.trans hzero ▸ hi) (Nat.not_lt_zero i)
  rw [hp, hq, ← hlen]
  have hle : i ≤ p.len := Nat.le_of_lt_succ (Nat.lt_of_lt_of_le hi hle)
  exact Cells.update_congr byte fun hne => hbuf i (Nat.lt_of_le_of_ne hle hne)

/-- Parsers that hold the same bytes answer the same. -/
theorem UartFrameParser.Agree.feed {p q : UartFrameParser} (h : p.Agree q) (xs : List U8) :
    (uartDecoder.feed p xs).2 = (uartDecoder.feed q xs).2 := by
  induction xs generalizing p q with
  | nil => rfl
  | cons x xs ih =>
      obtain ⟨hout, hagree⟩ := h.push x
      rw [Decoder.feed_cons, Decoder.feed_cons]
      exact congrArg₂ List.cons hout (ih hagree)

/-! ### Soundness -/

/-- **Soundness.**  Whatever bytes a fresh parser is fed: a frame emitted at byte `i` is the one
whose image ends there; frames emitted do not overlap; at all times the parser holds less than a
buffer, so that its full-buffer branch is never taken, and touches no cell outside the buffer; and
the answers do not depend on what the buffer held before. -/
theorem uart_sound (xs : List U8) :
    (∀ i f, (uartDecoder.feed .new xs).2[i]? = some (some f) →
      f.image.length ≤ i + 1 ∧
        (xs.take (i + 1)).drop (i + 1 - f.image.length) = f.image) ∧
    (∀ i j f g, i < j → (uartDecoder.feed .new xs).2[i]? = some (some f) →
      (uartDecoder.feed .new xs).2[j]? = some (some g) → i + 1 ≤ j + 1 - g.image.length) ∧
    (∀ n, (uartDecoder.feed .new (xs.take n)).1.len < uartCarrierFrameBytes ∧
      ∀ byte, ∀ k ∈ (uartDecoder.feed .new (xs.take n)).1.touched byte,
        k < uartCarrierFrameBytes) ∧
    ∀ buffer, (uartDecoder.feed ⟨buffer, 0⟩ xs).2 = (uartDecoder.feed .new xs).2 := by
  have I := UartFrameParser.inv_new
  refine ⟨fun i f h => ?_, fun i j f g hij hf hg => ?_, fun n => ?_, fun buffer => ?_⟩
  · have hsuffix := uartScanner.answer_image I h
    rw [show uartScanner.held .new = [] from rfl, List.nil_append] at hsuffix
    have hlen := (Scanner.answer_at h).1
    have hle := hsuffix.length_le
    rw [List.length_take, Nat.min_eq_left hlen] at hle
    refine ⟨hle, ?_⟩
    obtain ⟨pre, hpre⟩ := hsuffix
    have hprelen := congrArg List.length hpre
    rw [List.length_append, List.length_take, Nat.min_eq_left hlen] at hprelen
    rw [← hpre, show i + 1 - f.image.length = pre.length by omega, List.drop_left]
  · have happart := uartScanner.answers_apart I hij hf hg
    omega
  · have hinv := uartScanner.inv_feed I (xs.take n)
    exact ⟨hinv.len_lt, fun byte k hk => hinv.touched_lt byte hk⟩
  · have hagree : UartFrameParser.Agree ⟨buffer, 0⟩ .new :=
      ⟨rfl, fun i hi => absurd hi (Nat.not_lt_zero i)⟩
    exact hagree.feed xs

/-- The frames emitted lie in the stream, in order. -/
theorem scattered_emitted {p : UartFrameParser} (hp : p.len = 0) (xs : List U8) :
    Scattered UartCarrierFrame.image (uartDecoder.feed p xs).2.reduceOption xs := by
  have h := uartScanner.scattered_feed (UartFrameParser.inv_of_len_zero hp) xs
  rwa [show uartScanner.held p = [] by
    show p.buffer.slice 0 p.len = []
    rw [hp, Cells.slice_zero], List.nil_append] at h

end HibanaPico.UnoQ
