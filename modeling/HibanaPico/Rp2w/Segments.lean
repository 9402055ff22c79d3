import HibanaPico.Support.Scanning
import HibanaPico.Rp2w.Accumulator

/-!
# Rp2w — The accumulator on any words

Whatever words are pushed, `SioRxAccumulator::push_word` holds the last of them, begun by the magic,
and a frame it answers is the one that those words, and the last, spell.

* `SioRxAccumulator.Inv`: between two words.
* `ReadFrom`: a frame read from a segment of words; `ReadFrom.unique`.
* `pushWord_cases`: what a word does.
* `segmentScanner`: the accumulator as a scanner of segments.
* `SioRxAccumulator.touched`: the words of the buffer that a push reads or writes, and the bytes of
  the payload it writes; `pushWord_reads`, `pushWord_writes` and `touched_payload` say that it
  touches no others.
* `accumulator_sound`: on any words, from `EMPTY`.
-/

namespace HibanaPico.Rp2w
open HibanaPico.Support
open HibanaPico.Transport
open HibanaPico.Sio

/-- The frame that a segment of words spells. -/
structure ReadFrom (segment : List U32) (f : DecodedSioFrame) : Prop where
  length_eq : segment.length = sioFrameHeaderWords + payloadWordCount f.payload.1.length
  magic : segment[0]? = some sioFrameMagic
  session : segment[1]? = some f.sessionId
  fields : segment[2]?.map decodeMeta =
    some (f.senderRole, f.peerRole, f.frameLabel, f.payload.1.length)
  roles : f.senderRole ≠ f.peerRole
  lane : segment[3]?.map (BitVec.setWidth 8) = some f.lane
  payload : ∀ i < f.payload.1.length, f.payload.1[i]? =
    segment[sioFrameHeaderWords + i / 4]?.map fun word => wordByte word (i % 4)

/-- A segment spells one frame at most. -/
theorem ReadFrom.unique {segment : List U32} {f g : DecodedSioFrame} (hf : ReadFrom segment f)
    (hg : ReadFrom segment g) : f = g := by
  have hsession := Option.some.inj (hf.session.symm.trans hg.session)
  have hlane := Option.some.inj (hf.lane.symm.trans hg.lane)
  have hfields := Option.some.inj (hf.fields.symm.trans hg.fields)
  simp only [Prod.mk.injEq] at hfields
  obtain ⟨hsender, hpeer, hlabel, hlen⟩ := hfields
  have hpayload : f.payload.1 = g.payload.1 := List.ext_getElem? fun i => by
    by_cases hi : i < f.payload.1.length
    · rw [hf.payload i hi, hg.payload i (hlen ▸ hi)]
    · rw [List.getElem?_eq_none (Nat.not_lt.mp hi),
        List.getElem?_eq_none (hlen ▸ Nat.not_lt.mp hi)]
  obtain ⟨session, sender, peer, label, lane, payload⟩ := f
  obtain ⟨session', sender', peer', label', lane', payload'⟩ := g
  simp only [DecodedSioFrame.mk.injEq]
  exact ⟨hsession, hsender, hpeer, hlabel, hlane, Subtype.ext hpayload⟩

namespace SioRxAccumulator

/-- Between two words: what is held begins with the magic, and a header that is in is a frame's. -/
structure Inv (acc : SioRxAccumulator) : Prop where
  sound : acc.Sound
  magic : 0 < acc.wordCount → acc.words 0 = sioFrameMagic
  roles : acc.expectedWords ≠ 0 → (decodeMeta (acc.words 2)).1 ≠ (decodeMeta (acc.words 2)).2.1

theorem Idle.inv {acc : SioRxAccumulator} (h : acc.Idle) : acc.Inv where
  sound := h.sound
  magic hpos := absurd h.wordCount (Nat.ne_of_gt hpos)
  roles hne := absurd h.expectedWords hne

/-- Never more than a whole frame is held. -/
theorem Sound.wordCount_lt {acc : SioRxAccumulator} (h : acc.Sound) :
    acc.wordCount < sioFrameWords := by
  rcases h with ⟨-, hlt⟩ | ⟨hexpected, hlt⟩
  · exact Nat.lt_of_lt_of_le hlt (by decide)
  · have hlen := (acc.header (by rw [hexpected]; unfold sioFrameHeaderWords; omega)).2
    unfold sioFrameWords sioFrameHeaderWords sioFramePayloadWords payloadWordCount at *
    unfold sioFrameBytes at *
    omega

/-- What the accumulator holds. -/
def held (acc : SioRxAccumulator) : List U32 := acc.words.slice 0 acc.wordCount

/-- What is held with one more word. -/
theorem held_append (acc : SioRxAccumulator) (word : U32) :
    acc.held ++ [word] =
      Cells.slice (Function.update acc.words acc.wordCount word) 0 (acc.wordCount + 1) := by
  unfold held
  rw [Cells.slice_snoc, Cells.slice_update_of_outside _ (by omega), Nat.zero_add,
    Function.update_self]

/-- The frame of a buffer that holds it whole. -/
theorem readFrom_slice {acc : SioRxAccumulator} (hmagic : acc.words 0 = sioFrameMagic)
    (hroles : (decodeMeta (acc.words 2)).1 ≠ (decodeMeta (acc.words 2)).2.1)
    (hcount : acc.wordCount =
      sioFrameHeaderWords + payloadWordCount (decodeMeta (acc.words 2)).2.2.2)
    (h : acc.expectedWords ≠ 0) : ReadFrom (acc.words.slice 0 acc.wordCount) (acc.frame h) := by
  have hget : ∀ i < acc.wordCount, (acc.words.slice 0 acc.wordCount)[i]? = some (acc.words i) := by
    intro i hi
    rw [Cells.getElem?_slice _ _ hi, Nat.zero_add]
  have hlen : (acc.frame h).payload.1.length = (decodeMeta (acc.words 2)).2.2.2 :=
    length_unpackPayload _ _
  unfold sioFrameHeaderWords at hcount
  refine ⟨?_, ?_, ?_, ?_, hroles, ?_, ?_⟩
  · rw [Cells.length_slice, hlen, hcount]
    rfl
  · rw [hget 0 (by omega), hmagic]
  · exact hget 1 (by omega)
  · rw [hget 2 (by omega), hlen]
    rfl
  · rw [hget 3 (by omega)]
    rfl
  · intro i hi
    rw [hlen] at hi
    have hword : i / 4 < payloadWordCount (decodeMeta (acc.words 2)).2.2.2 := by
      unfold payloadWordCount
      omega
    rw [hget _ (by unfold sioFrameHeaderWords; omega)]
    exact (unpackPayload_isPrefix acc.words _ _).2 i hi hword

/-! ### What a word does -/

/-- What `push_word` leaves and answers, the word and what was held before it being `read`: an
error, and nothing is held; or they are held; or they are a frame, which is answered. -/
def Handled (read : List U32) (r : SioRxAccumulator × Answer) : Prop :=
  (∃ e, r.2 = .error e ∧ r.1.Idle) ∨
    (r.2 = .ok none ∧ r.1.Inv ∧ r.1.held = read) ∨
    ∃ f, r.2 = .ok (some f) ∧ r.1.Idle ∧ ReadFrom read f

theorem handled_reset (read : List U32) (words : Cells U32) (e : TransportError) :
    Handled read (reset words, .error e) := .inl ⟨e, rfl, idle_reset words⟩

theorem handled_settle (acc : SioRxAccumulator) (hmagic : acc.words 0 = sioFrameMagic)
    (hroles : acc.expectedWords ≠ 0 →
      (decodeMeta (acc.words 2)).1 ≠ (decodeMeta (acc.words 2)).2.1)
    (h : (acc.expectedWords = 0 ∧ acc.wordCount < sioFrameHeaderWords) ∨
      (acc.expectedWords = sioFrameHeaderWords + payloadWordCount (decodeMeta (acc.words 2)).2.2.2 ∧
        acc.wordCount ≤ acc.expectedWords)) : Handled acc.held (settle acc) := by
  unfold settle
  split
  · rename_i hmore
    refine .inr (.inl ⟨rfl, ⟨?_, fun _ => hmagic, hroles⟩, rfl⟩)
    rcases h with h | ⟨hexpected, -⟩
    · exact .inl h
    · have hne : acc.expectedWords ≠ 0 := by
        rw [hexpected]
        unfold sioFrameHeaderWords
        omega
      exact .inr ⟨hexpected, hmore.resolve_left hne⟩
  · rename_i hdone
    obtain ⟨hexpected, hcount⟩ := not_or.mp hdone
    refine .inr (.inr ⟨_, rfl, idle_reset _, readFrom_slice hmagic (hroles hexpected) ?_ hexpected⟩)
    rcases h with ⟨hzero, -⟩ | ⟨heq, hle⟩
    · exact absurd hzero hexpected
    · omega

theorem handled_pushHeader {words : Cells U32} (hmagic : words 0 = sioFrameMagic) :
    Handled (words.slice 0 sioFrameHeaderWords) (pushHeader words) := by
  unfold pushHeader
  dsimp only
  split
  · exact handled_reset _ _ _
  split
  · exact handled_reset _ _ _
  · rename_i hroles
    exact handled_settle ⟨words, sioFrameHeaderWords, _, _⟩ hmagic
      (fun _ => Ne.symm hroles) (.inr ⟨rfl, Nat.le_add_right _ _⟩)

/-- **What a word does.** -/
theorem handled_pushWord {acc : SioRxAccumulator} (I : acc.Inv) (word : U32) :
    Handled (acc.held ++ [word]) (acc.pushWord word) := by
  rw [held_append]
  unfold pushWord
  rw [if_neg (Nat.not_le.mpr I.sound.wordCount_lt)]
  dsimp only
  split
  · exact handled_reset _ _ _
  rename_i hstart
  have hmagic : Function.update acc.words acc.wordCount word 0 = sioFrameMagic := by
    rcases Nat.eq_zero_or_pos acc.wordCount with hzero | hpos
    · rw [hzero, Function.update_self]
      exact not_not.mp fun hne => hstart ⟨by rw [hzero], hne⟩
    · rw [Function.update_of_ne (Nat.ne_of_lt hpos), I.magic hpos]
  split
  · rename_i hheader
    rw [hheader]
    exact handled_pushHeader hmagic
  · rename_i hheader
    -- past the header, the word that holds the roles and the length stands
    have hkept : acc.expectedWords ≠ 0 →
        Function.update acc.words acc.wordCount word 2 = acc.words 2 := fun hne => by
      have hin := (acc.header hne).1
      unfold sioFrameHeaderWords at hin
      exact Function.update_of_ne (by omega) _ _
    refine handled_settle ⟨Function.update acc.words acc.wordCount word,
      acc.wordCount + 1, acc.expectedWords, _⟩ hmagic ?_ ?_
    · intro hne
      dsimp only at hne ⊢
      rw [hkept hne]
      exact I.roles hne
    dsimp only
    rcases I.sound with ⟨hexpected, hcount⟩ | ⟨hexpected, hcount⟩
    · exact .inl ⟨hexpected, Nat.lt_of_le_of_ne hcount hheader⟩
    · refine .inr ⟨?_, hcount⟩
      rw [hkept (by rw [hexpected]; unfold sioFrameHeaderWords; omega)]
      exact hexpected

theorem Inv.push {acc : SioRxAccumulator} (I : acc.Inv) (word : U32) :
    (acc.pushWord word).1.Inv := by
  rcases handled_pushWord I word with ⟨e, -, h⟩ | ⟨-, h, -⟩ | ⟨f, -, h, -⟩
  · exact h.inv
  · exact h
  · exact h.inv

theorem Idle.held_eq {acc : SioRxAccumulator} (h : acc.Idle) : acc.held = [] := by
  rw [held, h.wordCount, Cells.slice_zero]

/-! ### The cells of the buffers -/

/-- The words of the buffer that the end of `push_word` reads, and the bytes of the payload that it
writes. -/
def unpacked (words : Cells U32) (wordCount expectedWords : ℕ) : List ℕ × List ℕ :=
  if expectedWords = 0 ∨ wordCount < expectedWords then ([], [])
  else
    let len := (decodeMeta (words 2)).2.2.2
    ([1, 2, 3] ++ (List.range (payloadWordCount len)).map (sioFrameHeaderWords + ·),
      List.range len)

/-- The words of the buffer that `push_word` reads or writes, in the order of the source, and the
bytes of the payload that it writes. -/
def touched (acc : SioRxAccumulator) (word : U32) : List ℕ × List ℕ :=
  if acc.wordCount ≥ sioFrameWords then ([], [])
  else
    let words : Cells U32 := Function.update acc.words acc.wordCount word
    let rest :=
      if acc.wordCount + 1 = 1 ∧ word ≠ sioFrameMagic then ([], [])
      else if acc.wordCount + 1 = sioFrameHeaderWords then
        let fields := decodeMeta (words 2)
        let rest :=
          if fields.2.1 = fields.1 ∨ fields.2.2.2 > sioFrameBytes then ([], [])
          else unpacked words (acc.wordCount + 1)
            (sioFrameHeaderWords + payloadWordCount fields.2.2.2)
        (2 :: rest.1, rest.2)
      else unpacked words (acc.wordCount + 1) acc.expectedWords
    (acc.wordCount :: rest.1, rest.2)

/-- The cells lie in the word buffer, and in the payload. -/
def InBounds (touched : List ℕ × List ℕ) : Prop :=
  (∀ k ∈ touched.1, k < sioFrameWords) ∧ ∀ k ∈ touched.2, k < sioFrameBytes

/-- Answers that are alike, of accumulators that hold as many words, and expect as many. -/
def Alike (r r' : SioRxAccumulator × Answer) : Prop :=
  r.2 = r'.2 ∧ r.1.wordCount = r'.1.wordCount ∧ r.1.expectedWords = r'.1.expectedWords

theorem alike_reset (words words' : Cells U32) (answer : Answer) :
    Alike (reset words, answer) (reset words', answer) := ⟨rfl, rfl, rfl⟩

/-- The payload unpacked depends on its words only. -/
theorem unpackPayload_congr {words words' : Cells U32} {len : ℕ}
    (h : ∀ w < payloadWordCount len,
      words (sioFrameHeaderWords + w) = words' (sioFrameHeaderWords + w)) :
    unpackPayload words len = unpackPayload words' len := by
  refine List.ext_getElem? fun i => ?_
  by_cases hi : i < len
  · have hword : i / 4 < payloadWordCount len := by
      unfold payloadWordCount
      omega
    rw [unpackPayload, (unpackPayload_isPrefix words _ _).2 i hi hword, unpackPayload,
      (unpackPayload_isPrefix words' _ _).2 i hi hword, h _ hword]
  · rw [List.getElem?_eq_none (by rw [length_unpackPayload]; omega),
      List.getElem?_eq_none (by rw [length_unpackPayload]; omega)]

theorem alike_settle {acc acc' : SioRxAccumulator} (hcount : acc.wordCount = acc'.wordCount)
    (hexpected : acc.expectedWords = acc'.expectedWords)
    (h : ∀ k ∈ (unpacked acc.words acc.wordCount acc.expectedWords).1,
      acc.words k = acc'.words k) : Alike (settle acc) (settle acc') := by
  unfold settle
  unfold unpacked at h
  by_cases hmore : acc.expectedWords = 0 ∨ acc.wordCount < acc.expectedWords
  · rw [dif_pos hmore, dif_pos (by rw [← hexpected, ← hcount]; exact hmore)]
    exact ⟨rfl, hcount, hexpected⟩
  rw [dif_neg hmore, dif_neg (by rw [← hexpected, ← hcount]; exact hmore)]
  rw [if_neg hmore] at h
  have hfield : ∀ k ∈ [1, 2, 3], acc.words k = acc'.words k := fun k hk =>
    h k (List.mem_append_left _ hk)
  have h2 := hfield 2 (by decide)
  have hpayload : unpackPayload acc.words (decodeMeta (acc.words 2)).2.2.2 =
      unpackPayload acc'.words (decodeMeta (acc'.words 2)).2.2.2 := by
    rw [← h2]
    exact unpackPayload_congr fun w hw =>
      h _ (List.mem_append_right _ (List.mem_map_of_mem (List.mem_range.mpr hw)))
  have hne := (not_or.mp hmore).1
  have hframe : acc.frame hne = acc'.frame (hexpected ▸ hne) := by
    simp only [frame, DecodedSioFrame.mk.injEq]
    exact ⟨hfield 1 (by decide), by rw [h2], by rw [h2], by rw [h2],
      by rw [hfield 3 (by decide)], Subtype.ext hpayload⟩
  rw [hframe]
  exact alike_reset _ _ _

/-- **What `push_word` reads.**  Accumulators that hold as many words and expect as many, and hold
the same in the words touched, answer alike. -/
theorem pushWord_reads {acc acc' : SioRxAccumulator} {word : U32}
    (hcount : acc.wordCount = acc'.wordCount) (hexpected : acc.expectedWords = acc'.expectedWords)
    (h : ∀ k ∈ (acc.touched word).1, k ≠ acc.wordCount → acc.words k = acc'.words k) :
    Alike (acc.pushWord word) (acc'.pushWord word) := by
  obtain ⟨words', wordCount', expectedWords', header'⟩ := acc'
  dsimp only at hcount hexpected h
  subst hcount hexpected
  have hwords : ∀ k ∈ (acc.touched word).1, Function.update acc.words acc.wordCount word k =
      Function.update words' acc.wordCount word k :=
    fun k hk => Cells.update_congr word (h k hk)
  unfold touched at hwords
  unfold pushWord
  by_cases hfull : acc.wordCount ≥ sioFrameWords
  · rw [if_pos hfull, if_pos hfull]
    exact alike_reset _ _ _
  rw [if_neg hfull, if_neg hfull]
  rw [if_neg hfull] at hwords
  dsimp only at hwords ⊢
  by_cases hmagic : acc.wordCount + 1 = 1 ∧ word ≠ sioFrameMagic
  · rw [if_pos hmagic, if_pos hmagic]
    exact alike_reset _ _ _
  rw [if_neg hmagic, if_neg hmagic]
  rw [if_neg hmagic] at hwords
  have hrest := fun k hk => hwords k (List.mem_cons_of_mem _ hk)
  by_cases hheader : acc.wordCount + 1 = sioFrameHeaderWords
  · rw [if_pos hheader, if_pos hheader]
    rw [if_pos hheader] at hrest
    have h2 := hrest 2 List.mem_cons_self
    have hpayload := fun k hk => hrest k (List.mem_cons_of_mem _ hk)
    unfold pushHeader
    dsimp only
    by_cases hcap : (decodeMeta (Function.update acc.words acc.wordCount word 2)).2.2.2 >
        sioFrameBytes
    · rw [dif_pos hcap, dif_pos (h2 ▸ hcap)]
      exact alike_reset _ _ _
    rw [dif_neg hcap, dif_neg (h2 ▸ hcap)]
    by_cases hroles : (decodeMeta (Function.update acc.words acc.wordCount word 2)).2.1 =
        (decodeMeta (Function.update acc.words acc.wordCount word 2)).1
    · rw [if_pos hroles, if_pos (h2 ▸ hroles)]
      exact alike_reset _ _ _
    rw [if_neg hroles, if_neg (h2 ▸ hroles)]
    rw [if_neg (not_or.mpr ⟨hroles, hcap⟩), hheader] at hpayload
    exact alike_settle rfl (congrArg (fun word =>
      sioFrameHeaderWords + payloadWordCount (decodeMeta word).2.2.2) h2) hpayload
  · rw [if_neg hheader, if_neg hheader]
    rw [if_neg hheader] at hrest
    exact alike_settle rfl rfl hrest

/-- Once the word is in, the words stay, and no more count as held than were put in. -/
theorem settle_writes (acc : SioRxAccumulator) :
    (settle acc).1.words = acc.words ∧ (settle acc).1.wordCount ≤ acc.wordCount := by
  unfold settle
  split
  · exact ⟨rfl, Nat.le_refl _⟩
  · exact ⟨rfl, Nat.zero_le _⟩

/-- **What `push_word` writes**: nothing, or the word, to a cell touched. -/
theorem pushWord_writes (acc : SioRxAccumulator) (word : U32) :
    (acc.pushWord word).1.words = acc.words ∧ (acc.pushWord word).1.wordCount = 0 ∨
      acc.wordCount ∈ (acc.touched word).1 ∧
        (acc.pushWord word).1.words = Function.update acc.words acc.wordCount word ∧
          (acc.pushWord word).1.wordCount ≤ acc.wordCount + 1 := by
  unfold pushWord touched
  split
  · exact .inl ⟨rfl, rfl⟩
  refine .inr ⟨List.mem_cons_self, ?_⟩
  dsimp only
  split
  · exact ⟨rfl, Nat.zero_le _⟩
  split
  · rename_i hheader
    rw [hheader]
    unfold pushHeader
    dsimp only
    split
    · exact ⟨rfl, Nat.zero_le _⟩
    split
    · exact ⟨rfl, Nat.zero_le _⟩
    · exact settle_writes _
  · exact settle_writes _

/-- The bytes of the payload behind an answer. -/
def payloadBytes : Answer → List ℕ
  | .ok (some f) => List.range f.payload.1.length
  | _ => []

theorem unpacked_payload {words : Cells U32} {wordCount expectedWords : ℕ}
    (header : expectedWords ≠ 0 → sioFrameHeaderWords ≤ wordCount ∧
      (decodeMeta (words 2)).2.2.2 ≤ sioFrameBytes) :
    (unpacked words wordCount expectedWords).2 =
      payloadBytes (settle ⟨words, wordCount, expectedWords, header⟩).2 := by
  unfold unpacked settle
  by_cases hmore : expectedWords = 0 ∨ wordCount < expectedWords
  · rw [if_pos hmore, dif_pos hmore]
    rfl
  · rw [if_neg hmore, dif_neg hmore]
    exact congrArg List.range (length_unpackPayload _ _).symm

/-- The bytes of the payload that are written are those of the frame answered. -/
theorem touched_payload (acc : SioRxAccumulator) (word : U32) :
    (acc.touched word).2 = payloadBytes (acc.pushWord word).2 := by
  unfold touched pushWord
  split
  · rfl
  dsimp only
  split
  · rfl
  split
  · rename_i hheader
    unfold pushHeader
    dsimp only
    split
    · rename_i hfields
      split
      · rfl
      rename_i hcap
      rw [if_pos (hfields.resolve_right hcap)]
      rfl
    · rename_i hfields
      obtain ⟨hroles, hcap⟩ := not_or.mp hfields
      rw [dif_neg hcap, if_neg hroles, hheader]
      exact unpacked_payload _
  · exact unpacked_payload _

/-- The end of `push_word` reads no word past those counted as held. -/
theorem unpacked_lt {words : Cells U32} {wordCount expectedWords k : ℕ}
    (hexpected : expectedWords ≠ 0 →
      expectedWords = sioFrameHeaderWords + payloadWordCount (decodeMeta (words 2)).2.2.2)
    (h : k ∈ (unpacked words wordCount expectedWords).1) : k < wordCount := by
  unfold unpacked at h
  split at h
  · cases h
  rename_i hmore
  obtain ⟨hne, hle⟩ := not_or.mp hmore
  have heq := hexpected hne
  unfold sioFrameHeaderWords at heq h
  rcases List.mem_append.mp h with h | h
  · have hk : k ≤ 3 := by
      simp only [List.mem_cons, List.not_mem_nil, or_false] at h
      omega
    omega
  · obtain ⟨w, hw, rfl⟩ := List.mem_map.mp h
    have hlt := List.mem_range.mp hw
    omega

/-- The word goes in last: nothing touched lies past it. -/
theorem Sound.touched_le {acc : SioRxAccumulator} (hs : acc.Sound) (word : U32) {k : ℕ}
    (h : k ∈ (acc.touched word).1) : k ≤ acc.wordCount := by
  unfold touched at h
  split at h
  · cases h
  rcases List.mem_cons.mp h with rfl | h
  · exact Nat.le_refl _
  split at h
  · cases h
  split at h
  · rename_i hheader
    unfold sioFrameHeaderWords at hheader
    rcases List.mem_cons.mp h with rfl | h
    · omega
    split at h
    · cases h
    · exact Nat.le_of_lt_succ (unpacked_lt (fun _ => rfl) h)
  · refine Nat.le_of_lt_succ (unpacked_lt (fun hne => ?_) h)
    -- past the header, the word that holds the length stands
    have hin := (acc.header hne).1
    unfold sioFrameHeaderWords at hin
    rw [Function.update_of_ne (show (2 : ℕ) ≠ acc.wordCount by omega)]
    rcases hs with ⟨hzero, -⟩ | ⟨hexpected, -⟩
    · exact absurd hzero hne
    · exact hexpected

/-- No access is out of bounds. -/
theorem Sound.inBounds_touched {acc : SioRxAccumulator} (h : acc.Sound) (word : U32) :
    InBounds (acc.touched word) := by
  refine ⟨fun k hk => Nat.lt_of_le_of_lt (h.touched_le word hk) h.wordCount_lt, fun k hk => ?_⟩
  rw [touched_payload] at hk
  unfold payloadBytes at hk
  split at hk
  · rename_i f _
    exact Nat.lt_of_lt_of_le (List.mem_range.mp hk) f.payload.2
  · cases hk

/-! ### Stale words -/

/-- Two accumulators that hold the same words, and expect as many. -/
structure Agree (acc acc' : SioRxAccumulator) : Prop where
  wordCount : acc.wordCount = acc'.wordCount
  expectedWords : acc.expectedWords = acc'.expectedWords
  words : ∀ i < acc.wordCount, acc.words i = acc'.words i

theorem Idle.agree {acc acc' : SioRxAccumulator} (h : acc.Idle) (h' : acc'.Idle) :
    acc.Agree acc' where
  wordCount := h.wordCount.trans h'.wordCount.symm
  expectedWords := h.expectedWords.trans h'.expectedWords.symm
  words i hi := absurd (h.wordCount ▸ hi) (Nat.not_lt_zero i)

theorem Agree.push {acc acc' : SioRxAccumulator} (h : acc.Agree acc') (hs : acc.Sound)
    (word : U32) : (acc.pushWord word).2 = (acc'.pushWord word).2 ∧
      (acc.pushWord word).1.Agree (acc'.pushWord word).1 := by
  have hheld : ∀ k ∈ (acc.touched word).1, k ≠ acc.wordCount → acc.words k = acc'.words k :=
    fun k hk hne => h.words k (Nat.lt_of_le_of_ne (hs.touched_le word hk) hne)
  obtain ⟨hanswer, hcount, hexpected⟩ := pushWord_reads h.wordCount h.expectedWords hheld
  refine ⟨hanswer, hcount, hexpected, fun i hi => ?_⟩
  rcases acc.pushWord_writes word with ⟨-, hzero⟩ | ⟨-, hwords, hle⟩
  · exact absurd (hzero ▸ hi) (Nat.not_lt_zero i)
  rcases acc'.pushWord_writes word with ⟨-, hzero⟩ | ⟨-, hwords', -⟩
  · exact absurd (hcount.trans hzero ▸ hi) (Nat.not_lt_zero i)
  rw [hwords, hwords', ← h.wordCount]
  have hle : i ≤ acc.wordCount := Nat.le_of_lt_succ (Nat.lt_of_lt_of_le hi hle)
  exact Cells.update_congr word fun hne => h.words i (Nat.lt_of_le_of_ne hle hne)

end SioRxAccumulator

open SioRxAccumulator

/-- Accumulators that agree answer the same to whatever comes. -/
theorem SioRxAccumulator.Agree.feed {acc acc' : SioRxAccumulator} (h : acc.Agree acc')
    (I : acc.Inv) (words : List U32) :
    (wordDecoder.feed acc words).2 = (wordDecoder.feed acc' words).2 := by
  induction words generalizing acc acc' with
  | nil => rfl
  | cons word words ih =>
      obtain ⟨hanswer, hagree⟩ := h.push I.sound word
      rw [Decoder.feed_cons, Decoder.feed_cons]
      exact congrArg₂ List.cons hanswer (ih hagree (I.push word))

/-! ### The segments of a stream -/

/-- A frame answered, with the words it was read from. -/
def segmentOf (acc : SioRxAccumulator) (word : U32) :
    Answer → Option (List U32 × DecodedSioFrame)
  | .ok (some f) => some (acc.held ++ [word], f)
  | _ => none

/-- The accumulator, as a scanner of segments. -/
def segmentScanner : Scanner (wordDecoder.observe segmentOf) Prod.fst where
  Inv := Inv
  held := held
  inv_push _ word I := I.push word
  push_none acc word I h := by
    rcases handled_pushWord I word with ⟨e, -, hidle⟩ | ⟨-, -, hheld⟩ | ⟨f, hanswer, -, -⟩
    · exact .inr hidle.held_eq
    · exact .inl hheld
    · change segmentOf acc word (acc.pushWord word).2 = none at h
      rw [hanswer] at h
      cases h
  push_some acc word r I h := by
    change segmentOf acc word (acc.pushWord word).2 = some r at h
    rcases handled_pushWord I word with ⟨e, hanswer, -⟩ | ⟨hanswer, -, -⟩ | ⟨f, hanswer, hidle, -⟩
    · rw [hanswer] at h
      cases h
    · rw [hanswer] at h
      cases h
    · rw [hanswer] at h
      cases h
      exact ⟨rfl, hidle.held_eq⟩

/-- The accumulator after a word answered with an error. -/
theorem idle_of_error {acc : SioRxAccumulator} (I : acc.Inv) {word : U32} {e : TransportError}
    (h : (acc.pushWord word).2 = .error e) : (acc.pushWord word).1.Idle := by
  rcases handled_pushWord I word with ⟨-, -, hidle⟩ | ⟨hanswer, -, -⟩ | ⟨f, hanswer, -, -⟩
  · exact hidle
  · rw [h] at hanswer
    cases hanswer
  · rw [h] at hanswer
    cases hanswer

/-- The answer to a word of a stream, and the accumulator behind it. -/
theorem feed_at {acc : SioRxAccumulator} {xs : List U32} {i : ℕ} {answer : Answer}
    (h : (wordDecoder.feed acc xs).2[i]? = some answer) : ∃ (hi : i < xs.length),
      ((wordDecoder.feed acc (xs.take i)).1.pushWord xs[i]).2 = answer ∧
        (wordDecoder.feed acc (xs.take (i + 1))).1 =
          ((wordDecoder.feed acc (xs.take i)).1.pushWord xs[i]).1 := by
  obtain ⟨hi, hnote⟩ := wordDecoder.answer_observe (fun _ _ answer => some answer) h
  obtain ⟨_, hpush⟩ := Scanner.answer_at hnote
  rw [wordDecoder.feed_observe] at hpush
  refine ⟨hi, Option.some.inj hpush, ?_⟩
  rw [List.take_succ_eq_append_getElem hi, Decoder.feed_append]
  rfl

/-- The words that a frame answered was read from. -/
theorem segment_at {xs : List U32} {i : ℕ} {f : DecodedSioFrame}
    (h : (wordDecoder.feed .empty xs).2[i]? = some (.ok (some f))) : ∃ segment,
      ((wordDecoder.observe segmentOf).feed .empty xs).2[i]? = some (some (segment, f)) ∧
        ReadFrom segment f := by
  obtain ⟨hi, hnote⟩ := wordDecoder.answer_observe segmentOf h
  refine ⟨_, hnote, ?_⟩
  obtain ⟨_, hpush, -⟩ := feed_at h
  have I : (wordDecoder.feed .empty (xs.take i)).1.Inv := by
    have hinv := segmentScanner.inv_feed idle_empty.inv (xs.take i)
    rwa [wordDecoder.feed_observe] at hinv
  rcases handled_pushWord I xs[i] with ⟨e, hanswer, -⟩ | ⟨hanswer, -, -⟩ | ⟨g, hanswer, -, hread⟩
  · rw [hpush] at hanswer
    cases hanswer
  · rw [hpush] at hanswer
    cases hanswer
  · rw [hpush] at hanswer
    cases hanswer
    exact hread

/-- **The accumulator on any words**, from `EMPTY`: it holds no more than a frame, and touches no
cell outside its buffers; after an error it answers as `EMPTY` does, so that a whole frame pushed
next is answered; a frame it answers is the one that the last words spell, and no other; and frames
answered do not overlap. -/
theorem accumulator_sound (xs : List U32) :
    (∀ n, (wordDecoder.feed .empty (xs.take n)).1.wordCount ≤ sioFrameWords ∧
      ∀ word, InBounds ((wordDecoder.feed .empty (xs.take n)).1.touched word)) ∧
    (∀ i e, (wordDecoder.feed .empty xs).2[i]? = some (.error e) →
      (∀ ys, (wordDecoder.feed (wordDecoder.feed .empty (xs.take (i + 1))).1 ys).2 =
        (wordDecoder.feed .empty ys).2) ∧
      ∀ f : WordFrame,
        (wordDecoder.feed (wordDecoder.feed .empty (xs.take (i + 1))).1 (frameImage f.1)).2 =
          List.replicate (frameWords f.1 - 1) (.ok none) ++ [.ok (some f.1)]) ∧
    (∀ i f, (wordDecoder.feed .empty xs).2[i]? = some (.ok (some f)) →
      f.payload.1.length ≤ sioFrameBytes ∧ frameWords f ≤ i + 1 ∧
        ReadFrom ((xs.take (i + 1)).drop (i + 1 - frameWords f)) f) ∧
    (∀ segment f g, ReadFrom segment f → ReadFrom segment g → f = g) ∧
    ∀ i j f g, i < j → (wordDecoder.feed .empty xs).2[i]? = some (.ok (some f)) →
      (wordDecoder.feed .empty xs).2[j]? = some (.ok (some g)) → i + 1 ≤ j + 1 - frameWords g := by
  have hinv : ∀ ys, (wordDecoder.feed .empty ys).1.Inv := fun ys => by
    have h := segmentScanner.inv_feed idle_empty.inv ys
    rwa [wordDecoder.feed_observe] at h
  refine ⟨fun n => ?_, fun i e h => ?_, fun i f h => ?_, fun _ _ _ => ReadFrom.unique,
    fun i j f g hij hf hg => ?_⟩
  · have hsound := (hinv (xs.take n)).sound
    exact ⟨Nat.le_of_lt hsound.wordCount_lt, hsound.inBounds_touched⟩
  · obtain ⟨hi, hpush, hstate⟩ := feed_at h
    have hidle := hstate ▸ idle_of_error (hinv (xs.take i)) hpush
    refine ⟨(hidle.agree idle_empty).feed hidle.inv, fun f => ?_⟩
    have himage := (wordFraming.feed_image f hidle).2
    rw [Framing.answers] at himage
    exact himage.trans (by simp [wordFraming])
  · obtain ⟨segment, hsegment, hread⟩ := segment_at h
    obtain ⟨pre, hpre⟩ := segmentScanner.answer_image idle_empty.inv hsegment
    have hlen : segment.length = frameWords f := hread.length_eq
    have htotal := congrArg List.length hpre
    have hi := (feed_at h).1
    rw [show segmentScanner.held .empty = [] from rfl, List.nil_append] at hpre htotal
    rw [List.length_append, List.length_take, Nat.min_eq_left hi] at htotal
    dsimp only at hpre htotal
    refine ⟨f.payload.2, by omega, ?_⟩
    rw [← hpre, show i + 1 - frameWords f = pre.length by omega, List.drop_left]
    exact hread
  · obtain ⟨_, hsegment, -⟩ := segment_at hf
    obtain ⟨segment, hsegment', hread⟩ := segment_at hg
    have happart := segmentScanner.answers_apart idle_empty.inv hij hsegment hsegment'
    have hlen : segment.length = frameWords g := hread.length_eq
    dsimp only at happart
    omega

end HibanaPico.Rp2w
