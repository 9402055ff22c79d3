import HibanaPico.Rp2w.Words

/-!
# Rp2w — Accumulator

The two ends of the word stream: `PendingTxFrame`, which makes the words of a frame, and
`SioRxAccumulator`, which takes them.

* `SioRxAccumulator`: once it knows how many words to expect, the header it holds is a frame's.
* `pushWord_at`: one word of a frame, pushed after those before it.
* `wordFraming`: the words of a frame, as a framing of the accumulator.
* `word_round_trip`: frames back to back come out as they went in.
-/

namespace HibanaPico.Rp2w
open HibanaPico.Support
open HibanaPico.Transport
open HibanaPico.Sio

/-! ### The words of a frame -/

structure PendingTxFrame where
  peerRole : U8
  frameLabel : U8
  lane : U8
  wordIndex : ℕ
  bytes : FrameBytes sioFrameBytes
  deriving DecidableEq, Repr

namespace PendingTxFrame

/-- `PendingTxFrame::new`, of bytes that fit; `poll_send` refuses others before. -/
def new (peerRole frameLabel lane : U8) (bytes : FrameBytes sioFrameBytes) : PendingTxFrame :=
  { peerRole, frameLabel, lane, wordIndex := 0, bytes }

/-- `total_words`. -/
def totalWords (p : PendingTxFrame) : ℕ := sioFrameHeaderWords + payloadWordCount p.bytes.1.length

/-- `word`. -/
def word (p : PendingTxFrame) (sessionId : U32) (localRole : U8) : ℕ → U32
  | 0 => sioFrameMagic
  | 1 => sessionId
  | 2 => encodeMeta localRole p.peerRole p.frameLabel p.bytes.1.length
  | 3 => p.lane.setWidth 32
  | index => packPayloadWord p.bytes.1 ((index - sioFrameHeaderWords) * 4)

/-- The frame a Tx of this session and role sends with it. -/
def frame (p : PendingTxFrame) (sessionId : U32) (localRole : U8) : DecodedSioFrame :=
  { sessionId, senderRole := localRole, peerRole := p.peerRole, frameLabel := p.frameLabel,
    lane := p.lane, payload := p.bytes }

end PendingTxFrame

/-- A frame, pending with none of its words pushed. -/
def toPending (f : DecodedSioFrame) : PendingTxFrame :=
  .new f.peerRole f.frameLabel f.lane f.payload

/-- Word `index` of a frame. -/
def frameWord (f : DecodedSioFrame) (index : ℕ) : U32 :=
  (toPending f).word f.sessionId f.senderRole index

/-- How many words a frame has. -/
def frameWords (f : DecodedSioFrame) : ℕ := (toPending f).totalWords

/-- The words of a frame, `word(i)` for `i` in `0..total_words()`. -/
def frameImage (f : DecodedSioFrame) : List U32 := (List.range (frameWords f)).map (frameWord f)

@[simp] theorem length_frameImage (f : DecodedSioFrame) :
    (frameImage f).length = frameWords f := by simp [frameImage]

theorem frameWords_eq (f : DecodedSioFrame) :
    frameWords f = sioFrameHeaderWords + payloadWordCount f.payload.1.length := rfl

theorem frameWords_pos (f : DecodedSioFrame) : sioFrameHeaderWords ≤ frameWords f :=
  Nat.le_add_right _ _

theorem frameWords_le (f : DecodedSioFrame) : frameWords f ≤ sioFrameWords := by
  have := f.payload.2
  unfold sioFrameBytes at this
  simp only [frameWords_eq, sioFrameWords, sioFramePayloadWords, payloadWordCount, sioFrameBytes]
  omega

theorem getElem_frameImage (f : DecodedSioFrame) {k : ℕ} (hk : k < (frameImage f).length) :
    (frameImage f)[k] = frameWord f k := by simp [frameImage]

/-- The words a pending frame pushes are those of its frame. -/
theorem frameWord_frame (p : PendingTxFrame) (sessionId : U32) (localRole : U8) (index : ℕ) :
    frameWord (p.frame sessionId localRole) index = p.word sessionId localRole index := by
  unfold frameWord PendingTxFrame.word
  split <;> rfl

theorem frameWord_payload (f : DecodedSioFrame) (w : ℕ) :
    frameWord f (sioFrameHeaderWords + w) = packPayloadWord f.payload.1 (4 * w) := by
  rw [Nat.mul_comm, show sioFrameHeaderWords + w = w + 4 from Nat.add_comm _ _]
  exact congrArg (fun n => packPayloadWord f.payload.1 (n * 4)) (Nat.add_sub_cancel w 4)

/-! ### The accumulator -/

structure SioRxAccumulator where
  words : Cells U32
  wordCount : ℕ
  expectedWords : ℕ
  /-- Once a length is expected, the header is in, and its length is a frame's. -/
  header : expectedWords ≠ 0 → sioFrameHeaderWords ≤ wordCount ∧
    (decodeMeta (words 2)).2.2.2 ≤ sioFrameBytes

namespace SioRxAccumulator

/-- `SioRxAccumulator::EMPTY`. -/
def empty : SioRxAccumulator :=
  { words := fun _ => 0, wordCount := 0, expectedWords := 0, header := fun h => absurd rfl h }

/-- `reset`, of an accumulator with these words. -/
def reset (words : Cells U32) : SioRxAccumulator :=
  { words, wordCount := 0, expectedWords := 0, header := fun h => absurd rfl h }

/-- `is_partial`. -/
def isPartial (acc : SioRxAccumulator) : Bool := acc.wordCount ≠ 0

/-- The frame `push_word` decodes at its last word. -/
def frame (acc : SioRxAccumulator) (h : acc.expectedWords ≠ 0) : DecodedSioFrame :=
  let fields := decodeMeta (acc.words 2)
  { sessionId := acc.words 1, senderRole := fields.1, peerRole := fields.2.1,
    frameLabel := fields.2.2.1, lane := (acc.words 3).setWidth 8,
    payload := ⟨unpackPayload acc.words fields.2.2.2, by
      rw [length_unpackPayload]; exact (acc.header h).2⟩ }

/-- What `push_word` answers. -/
abbrev Answer := Except TransportError (Option DecodedSioFrame)

/-- The end of `push_word`, with the word and the length in. -/
def settle (acc : SioRxAccumulator) : SioRxAccumulator × Answer :=
  if h : acc.expectedWords = 0 ∨ acc.wordCount < acc.expectedWords then (acc, .ok none)
  else (reset acc.words, .ok (some (acc.frame fun e => h (.inl e))))

/-- `push_word` once the header is complete: the length is checked, and expected. -/
def pushHeader (words : Cells U32) : SioRxAccumulator × Answer :=
  let fields := decodeMeta (words 2)
  if h : fields.2.2.2 > sioFrameBytes then (reset words, .error .capacity)
  else if fields.2.1 = fields.1 then (reset words, .error .failed)
  else
    settle
      { words, wordCount := sioFrameHeaderWords,
        expectedWords := sioFrameHeaderWords + payloadWordCount fields.2.2.2,
        header := fun _ => ⟨Nat.le_refl _, Nat.not_lt.mp h⟩ }

/-- `push_word`. -/
def pushWord (acc : SioRxAccumulator) (word : U32) : SioRxAccumulator × Answer :=
  if acc.wordCount ≥ sioFrameWords then (reset acc.words, .error .capacity)
  else
    let words := Function.update acc.words acc.wordCount word
    if acc.wordCount + 1 = 1 ∧ word ≠ sioFrameMagic then (reset words, .error .failed)
    else if acc.wordCount + 1 = sioFrameHeaderWords then pushHeader words
    else
      settle
        { words, wordCount := acc.wordCount + 1, expectedWords := acc.expectedWords,
          header := fun h => by
            obtain ⟨hcount, hlen⟩ := acc.header h
            unfold sioFrameHeaderWords at hcount ⊢
            have hkept : words 2 = acc.words 2 := Function.update_of_ne (by omega) _ _
            rw [hkept]
            exact ⟨by omega, hlen⟩ }

/-- The accumulator has taken exactly the first `k` words of `f`. -/
structure At (f : DecodedSioFrame) (k : ℕ) (acc : SioRxAccumulator) : Prop where
  wordCount : acc.wordCount = k
  words : ∀ i < k, acc.words i = frameWord f i
  expectedWords : acc.expectedWords = if k < sioFrameHeaderWords then 0 else frameWords f

/-- Between frames. -/
structure Idle (acc : SioRxAccumulator) : Prop where
  wordCount : acc.wordCount = 0
  expectedWords : acc.expectedWords = 0

theorem idle_empty : Idle empty := ⟨rfl, rfl⟩

theorem idle_reset (words : Cells U32) : Idle (reset words) := ⟨rfl, rfl⟩

theorem words_update {f : DecodedSioFrame} {words : Cells U32} {k : ℕ}
    (h : ∀ i < k, words i = frameWord f i) :
    ∀ i < k + 1, Function.update words k (frameWord f k) i = frameWord f i := by
  intro i hi
  by_cases hik : i = k
  · rw [hik, Function.update_self]
  · rw [Function.update_of_ne hik]
    exact h i (by omega)

theorem decodeMeta_of_words {f : DecodedSioFrame} {words : Cells U32} {k : ℕ} (hk : 2 < k)
    (h : ∀ i < k, words i = frameWord f i) : decodeMeta (words 2) =
      (f.senderRole, f.peerRole, f.frameLabel, f.payload.1.length) := by
  have hle : f.payload.1.length ≤ 128 := f.payload.2
  rw [h 2 hk]
  exact decodeMeta_encodeMeta _ _ _ (show f.payload.1.length < 256 by omega)

/-- The frame read back from all its words. -/
theorem frame_of_words {f : DecodedSioFrame} {acc : SioRxAccumulator}
    (hwords : ∀ i < frameWords f, acc.words i = frameWord f i) (h : acc.expectedWords ≠ 0) :
    acc.frame h = f := by
  have hheader := frameWords_pos f
  unfold sioFrameHeaderWords at hheader
  have hmeta := decodeMeta_of_words (show 2 < frameWords f by omega) hwords
  have hsession : acc.words 1 = f.sessionId := hwords 1 (by omega)
  have hlane : (acc.words 3).setWidth 8 = f.lane := by
    rw [hwords 3 (by omega)]
    exact BitVec.setWidth_setWidth_of_le _ (by decide)
  have hpayload : unpackPayload acc.words f.payload.1.length = f.payload.1 :=
    unpackPayload_of_words fun w hw => by
      rw [hwords _ (by rw [frameWords_eq]; omega), frameWord_payload]
  obtain ⟨session, sender, peer, label, lane, payload⟩ := f
  simp only [frame, DecodedSioFrame.mk.injEq]
  refine ⟨hsession, ?_, ?_, ?_, hlane, Subtype.ext ?_⟩
  · rw [hmeta]
  · rw [hmeta]
  · rw [hmeta]
  · dsimp only
    rw [hmeta]
    exact hpayload

/-- `settle` within a frame answers nothing, and at its last word the frame. -/
theorem settle_at {f : DecodedSioFrame} {k : ℕ} {acc : SioRxAccumulator} (h : At f k acc) :
    (k < frameWords f → settle acc = (acc, .ok none)) ∧
      (k = frameWords f → settle acc = (reset acc.words, .ok (some f))) := by
  have hpos := frameWords_pos f
  unfold sioFrameHeaderWords at hpos
  refine ⟨fun hlt => dif_pos ?_, fun heq => ?_⟩
  · rw [h.expectedWords, h.wordCount]
    split
    · exact .inl rfl
    · exact .inr hlt
  · have hexpected : acc.expectedWords = frameWords f := by
      rw [h.expectedWords, if_neg (by unfold sioFrameHeaderWords; omega)]
    have hdone : ¬ (acc.expectedWords = 0 ∨ acc.wordCount < acc.expectedWords) := by
      rw [hexpected, h.wordCount]; omega
    rw [settle, dif_neg hdone, frame_of_words (heq ▸ h.words)]

/-- **One word of a frame**, pushed after those before it: the accumulator stands one word further
and answers nothing, or, at the last word, is idle and answers the frame. -/
theorem pushWord_at {f : DecodedSioFrame} (hf : f.senderRole ≠ f.peerRole) {k : ℕ}
    {acc : SioRxAccumulator} (h : At f k acc) (hk : k < frameWords f) :
    (k + 1 < frameWords f →
      At f (k + 1) (acc.pushWord (frameWord f k)).1 ∧
        (acc.pushWord (frameWord f k)).2 = .ok none) ∧
    (k + 1 = frameWords f →
      Idle (acc.pushWord (frameWord f k)).1 ∧
        (acc.pushWord (frameWord f k)).2 = .ok (some f)) := by
  suffices H : ∃ acc', At f (k + 1) acc' ∧ acc.pushWord (frameWord f k) = settle acc' by
    obtain ⟨acc', hat, hpush⟩ := H
    obtain ⟨hmid, hlast⟩ := settle_at hat
    rw [hpush]
    refine ⟨fun hlt => ?_, fun heq => ?_⟩
    · rw [hmid hlt]; exact ⟨hat, rfl⟩
    · rw [hlast heq]; exact ⟨idle_reset _, rfl⟩
  obtain ⟨hcount, hold, hexpected⟩ := h
  subst hcount
  have hroom : ¬ acc.wordCount ≥ sioFrameWords := by
    have := frameWords_le f; omega
  -- only a first word is compared with the magic, and `f`'s is the magic
  have hmagic : ¬ (acc.wordCount + 1 = 1 ∧ frameWord f acc.wordCount ≠ sioFrameMagic) := by
    rintro ⟨hone, hne⟩
    rw [show acc.wordCount = 0 by omega] at hne
    exact hne rfl
  have hwords := words_update hold
  unfold pushWord
  rw [if_neg hroom]
  dsimp only
  rw [if_neg hmagic]
  by_cases hheader : acc.wordCount + 1 = sioFrameHeaderWords
  · -- the header is complete: it is that of `f`, whose length and roles pass
    rw [if_pos hheader, pushHeader]
    have hfields := decodeMeta_of_words
      (show 2 < acc.wordCount + 1 by unfold sioFrameHeaderWords at hheader; omega) hwords
    rw [dif_neg (by rw [hfields]; exact Nat.not_lt.mpr f.payload.2),
      if_neg (by rw [hfields]; exact Ne.symm hf)]
    refine ⟨_, ⟨hheader.symm, hwords, ?_⟩, rfl⟩
    rw [if_neg (by omega), frameWords_eq]
    dsimp only
    rw [hfields]
  · rw [if_neg hheader]
    refine ⟨_, ⟨rfl, hwords, ?_⟩, rfl⟩
    rw [hexpected]
    -- past the header the expected length stands, and before it there is none
    by_cases hlt : acc.wordCount < sioFrameHeaderWords
    · rw [if_pos hlt, if_pos (by omega)]
    · rw [if_neg hlt, if_neg (by omega)]

end SioRxAccumulator

/-- A frame that is not to its own sender. -/
abbrev WordFrame := { f : DecodedSioFrame // f.senderRole ≠ f.peerRole }

/-- The accumulator, as a decoder of words. -/
def wordDecoder : Decoder SioRxAccumulator U32 SioRxAccumulator.Answer :=
  ⟨SioRxAccumulator.pushWord⟩

/-- The words of a frame, as a framing of the accumulator. -/
def wordFraming : Framing wordDecoder WordFrame where
  image f := frameImage f.1
  quiet := .ok none
  emit f := .ok (some f.1)
  Idle := SioRxAccumulator.Idle
  At f k acc := SioRxAccumulator.At f.1 k acc
  image_pos f := by
    have := frameWords_pos f.1
    unfold sioFrameHeaderWords at this
    rw [length_frameImage]; omega
  start f acc h := ⟨h.wordCount, fun _ hi => absurd hi (Nat.not_lt_zero _), h.expectedWords⟩
  step f k acc hk h := by
    rw [getElem_frameImage]
    rw [length_frameImage] at hk
    exact (SioRxAccumulator.pushWord_at f.2 h (by omega)).1 hk
  last f k acc hk h := by
    rw [getElem_frameImage]
    rw [length_frameImage] at hk
    exact (SioRxAccumulator.pushWord_at f.2 h (by omega)).2 hk

/-- **The round trip.**  Fed the words of any list of frames back to back, an empty accumulator
answers each frame at its last word and nothing at every other, and is not partial afterwards. -/
theorem word_round_trip (fs : List WordFrame) :
    (wordDecoder.feed .empty (fs.flatMap fun f => frameImage f.1)).2 =
        fs.flatMap (fun f => List.replicate (frameWords f.1 - 1) (.ok none) ++ [.ok (some f.1)]) ∧
      (wordDecoder.feed .empty (fs.flatMap fun f => frameImage f.1)).1.isPartial = false := by
  obtain ⟨hidle, hanswers⟩ := wordFraming.feed_images fs SioRxAccumulator.idle_empty
  have hanswer : wordFraming.answers =
      fun f => List.replicate (frameWords f.1 - 1) (.ok none) ++ [.ok (some f.1)] := by
    funext f
    rw [Framing.answers]
    simp [wordFraming]
  refine ⟨hanswers.trans (by rw [hanswer]), ?_⟩
  have hcount : (wordDecoder.feed .empty (fs.flatMap fun f => frameImage f.1)).1.wordCount = 0 :=
    hidle.wordCount
  rw [SioRxAccumulator.isPartial, hcount]
  rfl

/-! ### Counting words -/

namespace SioRxAccumulator

/-- Between two words: the header is not in and nothing is expected, or a whole frame is. -/
def Sound (acc : SioRxAccumulator) : Prop :=
  (acc.expectedWords = 0 ∧ acc.wordCount < sioFrameHeaderWords) ∨
    (acc.expectedWords = sioFrameHeaderWords + payloadWordCount (decodeMeta (acc.words 2)).2.2.2 ∧
      acc.wordCount < acc.expectedWords)

theorem Idle.sound {acc : SioRxAccumulator} (h : acc.Idle) : acc.Sound :=
  .inl ⟨h.expectedWords, by rw [h.wordCount]; decide⟩

theorem frameWords_frame (acc : SioRxAccumulator) (h : acc.expectedWords ≠ 0) :
    frameWords (acc.frame h) =
      sioFrameHeaderWords + payloadWordCount (decodeMeta (acc.words 2)).2.2.2 := by
  rw [frameWords_eq]
  simp only [frame, length_unpackPayload]

/-- Every word pushed is held, or is of the frame answered, or was dropped with an error. -/
structure Counts (count : ℕ) (r : SioRxAccumulator × Answer) : Prop where
  sound : r.1.Sound
  held : r.2 = .ok none → r.1.wordCount = count
  framed : ∀ f, r.2 = .ok (some f) → r.1.wordCount = 0 ∧ frameWords f = count

theorem counts_reset (count : ℕ) (words : Cells U32) (e : TransportError) :
    Counts count (reset words, .error e) where
  sound := (idle_reset words).sound
  held h := by cases h
  framed _ h := by cases h

theorem counts_settle {acc : SioRxAccumulator} {count : ℕ} (hcount : acc.wordCount = count)
    (h : (acc.expectedWords = 0 ∧ acc.wordCount < sioFrameHeaderWords) ∨
      (acc.expectedWords = sioFrameHeaderWords + payloadWordCount (decodeMeta (acc.words 2)).2.2.2 ∧
        acc.wordCount ≤ acc.expectedWords)) : Counts count (settle acc) := by
  subst hcount
  unfold settle
  split
  · rename_i hmore
    refine ⟨?_, fun _ => rfl, fun _ h => by cases h⟩
    rcases h with h | ⟨hexpected, -⟩
    · exact .inl h
    · have : acc.expectedWords ≠ 0 := by rw [hexpected]; unfold sioFrameHeaderWords; omega
      exact .inr ⟨hexpected, hmore.resolve_left this⟩
  · rename_i hdone
    obtain ⟨hexpected, hcount⟩ := not_or.mp hdone
    refine ⟨(idle_reset _).sound, (fun h => by cases h), fun f hf => ⟨rfl, ?_⟩⟩
    obtain rfl := Option.some.inj (Except.ok.inj hf)
    rw [frameWords_frame]
    rcases h with ⟨hzero, -⟩ | ⟨heq, hle⟩
    · exact absurd hzero hexpected
    · omega

/-- **One word, whatever it is.** -/
theorem counts_pushWord {acc : SioRxAccumulator} (h : acc.Sound) (word : U32) :
    Counts (acc.wordCount + 1) (acc.pushWord word) := by
  unfold pushWord
  split
  · exact counts_reset _ _ _
  dsimp only
  split
  · exact counts_reset _ _ _
  split
  · rename_i hheader
    rw [hheader, pushHeader]
    split
    · exact counts_reset _ _ _
    split
    · exact counts_reset _ _ _
    · exact counts_settle rfl (.inr ⟨rfl, Nat.le_add_right _ _⟩)
  · rename_i hheader
    refine counts_settle rfl ?_
    dsimp only
    rcases h with ⟨hexpected, hcount⟩ | ⟨hexpected, hcount⟩
    · exact .inl ⟨hexpected, by omega⟩
    · -- the header was in, so its word is not the one written
      have hin : sioFrameHeaderWords ≤ acc.wordCount :=
        (acc.header (by rw [hexpected]; unfold sioFrameHeaderWords; omega)).1
      unfold sioFrameHeaderWords at hin
      refine .inr ⟨?_, by omega⟩
      rw [Function.update_of_ne (show (2 : ℕ) ≠ acc.wordCount by omega)]
      exact hexpected

end SioRxAccumulator

/-- The frames a list of answers yields. -/
def decodedOf (answers : List SioRxAccumulator.Answer) : List DecodedSioFrame :=
  answers.filterMap fun | .ok frame => frame | .error _ => none

/-- The errors among a list of answers. -/
def errorsOf (answers : List SioRxAccumulator.Answer) : List TransportError :=
  answers.filterMap fun | .ok _ => none | .error e => some e

/-- **Every word is counted.**  Words that made no error are held or are of the frames decoded. -/
theorem feed_count {acc : SioRxAccumulator} (h : acc.Sound) (words : List U32)
    (hok : errorsOf (wordDecoder.feed acc words).2 = []) :
    words.length + acc.wordCount =
      ((decodedOf (wordDecoder.feed acc words).2).map frameWords).sum +
        (wordDecoder.feed acc words).1.wordCount := by
  induction words generalizing acc with
  | nil => simp [decodedOf]
  | cons word words ih =>
      obtain ⟨hsound, hheld, hframed⟩ := SioRxAccumulator.counts_pushWord h word
      rw [Decoder.feed_cons] at hok ⊢
      cases hanswer : (wordDecoder.push acc word).2 with
      | error e =>
          rw [hanswer] at hok
          cases hok
      | ok answer =>
          rw [hanswer] at hok
          have hrest := ih hsound hok
          cases answer with
          | none =>
              have hcount := hheld hanswer
              dsimp only at hrest ⊢
              simp only [decodedOf, List.filterMap_cons, List.length_cons] at hrest ⊢
              unfold wordDecoder at hrest ⊢
              dsimp only at hrest ⊢
              omega
          | some f =>
              obtain ⟨hcount, hwords⟩ := hframed f hanswer
              dsimp only at hrest ⊢
              simp only [decodedOf, List.filterMap_cons, List.length_cons, List.map_cons,
                List.sum_cons] at hrest ⊢
              unfold wordDecoder at hrest ⊢
              dsimp only at hrest ⊢
              omega

/-- Answers to whole frames yield them, and no error. -/
theorem decodedOf_answers (fs : List WordFrame) (k : ℕ) :
    decodedOf (fs.flatMap wordFraming.answers ++ List.replicate k (.ok none)) =
        fs.map Subtype.val ∧
      errorsOf (fs.flatMap wordFraming.answers ++ List.replicate k (.ok none)) = [] := by
  have hquiet : ∀ n, decodedOf (List.replicate n (.ok none)) = [] ∧
      errorsOf (List.replicate n (.ok none)) = [] := fun n => by
    induction n with
    | zero => exact ⟨rfl, rfl⟩
    | succ n ih => exact ih
  induction fs with
  | nil => exact hquiet k
  | cons f fs ih =>
      obtain ⟨hdecoded, herrors⟩ := hquiet ((wordFraming.image f).length - 1)
      simp only [decodedOf, errorsOf, List.flatMap_cons, Framing.answers, List.filterMap_append,
        List.map_cons] at ih hdecoded herrors ⊢
      constructor
      · rw [List.append_assoc, ih.1]
        exact congrArg (· ++ _) (congrArg (· ++ [f.1]) hdecoded)
      · rw [List.append_assoc, ih.2]
        exact congrArg (· ++ _) (congrArg (· ++ []) herrors)

end HibanaPico.Rp2w
