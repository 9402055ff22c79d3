import HibanaPico.Support.Splitting
import HibanaPico.UnoQ.JsonString

/-!
# Uno Q — The content of the response

`local_llm_json_string_field` does not parse the response of the server.  It looks for the name of
the field between quotation marks, goes on behind the next colon, and reads the string that stands
there.

* `localLlmJsonStringField_eq_iff`: the string that is read.
* `json_field_iff`: it is the value of the field exactly when the colon is the one of the member and
  the string is written without surrogates, but for a string elsewhere that reads the same.
* `json_field_misled`: a string that says the name of the field, and a pair of surrogates.
-/

namespace HibanaPico.UnoQ
open HibanaPico.Json
open HibanaPico.Splitting

/-- The field between quotation marks. -/
def needleOf (field : List Char) : List Char := '"' :: field ++ ['"']

/-- The outer `none` is a panic, or a loop without end. -/
def localLlmJsonStringField (input field : List Char) : Option (Option (List Char)) :=
  match splitOnce (needleOf field) input with
  | none => some none
  | some (_, rest) =>
      match splitOnce [':'] rest with
      | none => some none
      | some (_, rest) => localLlmDecodeJsonString (rest.dropWhile isWhitespace)

/-- What `chat_complete` and `complete` return of the response of the server. -/
def responseContent (response : List Char) : Option (Option (List Char)) :=
  if "HTTP/1.1 200".toList.isPrefixOf response ∨ "HTTP/1.0 200".toList.isPrefixOf response then
    let body := ((splitOnce "\r\n\r\n".toList response).map Prod.snd).getD response
    localLlmJsonStringField body "content".toList
  else some none

variable {text before field value : List Char}

/-! ### The field -/

/-- The string `l` stands behind the first colon behind the first quoted name. -/
def StandsAt (field text : List Char) (l : Literal) : Prop :=
  ∃ before skip space rest,
    FirstSplit (needleOf field) text before (skip ++ ':' :: (space ++ (l.token ++ rest))) ∧
      ':' ∉ skip ∧ ∀ ch ∈ space, isWhitespace ch

theorem dropWhile_token {space : List Char} (blank : ∀ ch ∈ space, isWhitespace ch)
    (l : Literal) (rest : List Char) :
    (space ++ (l.token ++ rest)).dropWhile isWhitespace = l.token ++ rest := by
  rw [List.dropWhile_append_of_pos blank, Literal.token_append]
  exact List.dropWhile_cons_of_neg (by decide)

theorem localLlmJsonStringField_total (input field : List Char) :
    ∃ result, localLlmJsonStringField input field = some result := by
  rw [localLlmJsonStringField]
  split
  next => exact ⟨none, rfl⟩
  next =>
    split
    next => exact ⟨none, rfl⟩
    next _ rest _ =>
      obtain ⟨result, returned, -⟩ := localLlmDecodeJsonString_spec (rest.dropWhile isWhitespace)
      exact ⟨result, returned⟩

theorem responseContent_total (response : List Char) :
    ∃ result, responseContent response = some result := by
  rw [responseContent]
  split
  next => exact localLlmJsonStringField_total _ _
  next => exact ⟨none, rfl⟩

/-- What is read behind a name and a colon. -/
theorem localLlmJsonStringField_at {skip rest : List Char}
    (h : FirstSplit (needleOf field) text before (skip ++ ':' :: rest)) (noColon : ':' ∉ skip) :
    localLlmJsonStringField text field =
      localLlmDecodeJsonString (rest.dropWhile isWhitespace) := by
  rw [localLlmJsonStringField, splitOnce_eq_iff.mpr h]
  show (match splitOnce [':'] (skip ++ ':' :: rest) with
    | none => some none
    | some (_, rest) => localLlmDecodeJsonString (rest.dropWhile isWhitespace)) = _
  rw [splitOnce_eq_iff.mpr (firstSplit_singleton noColon)]

theorem localLlmJsonStringField_eq_iff :
    localLlmJsonStringField text field = some (some value) ↔
      ∃ l, StandsAt field text l ∧ l.alone = value := by
  constructor
  · intro h
    rw [localLlmJsonStringField] at h
    split at h
    next => cases h
    next before behind found =>
      split at h
      next => cases h
      next skip rest colon =>
        obtain ⟨l, more, token, rfl⟩ := localLlmDecodeJsonString_eq_iff.mp h
        have first := splitOnce_eq_iff.mp found
        have split := splitOnce_eq_iff.mp colon
        have parts : rest = rest.takeWhile isWhitespace ++ (l.token ++ more) := by
          rw [← token, List.takeWhile_append_dropWhile]
        refine ⟨l, ⟨before, skip, rest.takeWhile isWhitespace, more, ?_,
          not_mem_of_firstSplit split, fun ch mem => ?_⟩, rfl⟩
        · rw [← parts]
          exact split.text_eq ▸ first
        · exact List.mem_takeWhile_imp mem
  · rintro ⟨l, ⟨before, skip, space, rest, first, noColon, blank⟩, rfl⟩
    rw [localLlmJsonStringField_at first noColon, dropWhile_token blank,
      localLlmDecodeJsonString_eq_iff]
    exact ⟨l, rest, rfl, rfl⟩

/-- A response in which just one member, at any depth, has the name of the field, and its value is
a string. -/
structure Response (field : List Char) where
  document : Document
  member : Site
  only : document.named field = [member]
  literal : Literal
  isString : member.value = .string literal
  value : List Char
  isValue : literal.value = some value

namespace Response

variable (r : Response field)

/-- The first colon behind the first quoted name is the colon of the member. -/
def FindsMember : Prop :=
  ∃ before skip, FirstSplit (needleOf field) r.member.upToColon before skip ∧ ':' ∉ skip

theorem render_eq : r.document.render =
    r.member.upToColon ++ ':' :: (blanks r.member.lead ++ (r.literal.token ++ r.member.after)) := by
  have mem : r.member ∈ r.document.sites := by
    have named : r.member ∈ r.document.named field := r.only ▸ List.mem_singleton_self _
    exact List.mem_of_mem_filter named
  rw [← Document.text_of_mem_sites mem, Site.text, r.isString, Value.render]

theorem field_of_findsMember (h : r.FindsMember) :
    localLlmJsonStringField r.document.render field = some (some r.literal.alone) := by
  obtain ⟨before, skip, first, noColon⟩ := h
  have blank : ∀ ch ∈ blanks r.member.lead, isWhitespace ch := by
    intro ch mem
    obtain ⟨b, -, rfl⟩ := List.mem_map.mp mem
    cases b <;> decide
  rw [r.render_eq, localLlmJsonStringField_at (first.append _) noColon, dropWhile_token blank,
    localLlmDecodeJsonString_eq_iff]
  exact ⟨r.literal, r.member.after, rfl, rfl⟩

/-- What holds of the field exactly when it is read right. -/
def ReadsRight : Prop :=
  (r.FindsMember ∧ ∀ c ∈ r.literal, ¬ c.IsSurrogate) ∨
    ¬ r.FindsMember ∧ ∃ other, StandsAt field r.document.render other ∧ other.alone = r.value

theorem field_iff :
    localLlmJsonStringField r.document.render field = some (some r.value) ↔ r.ReadsRight := by
  by_cases finds : r.FindsMember
  · rw [r.field_of_findsMember finds, Option.some_inj, Option.some_inj, alone_eq_iff r.isValue]
    constructor
    · intro none
      exact .inl ⟨finds, none⟩
    · rintro (⟨-, none⟩ | ⟨missed, -⟩)
      · exact none
      · exact absurd finds missed
  · rw [localLlmJsonStringField_eq_iff]
    constructor
    · intro other
      exact .inr ⟨finds, other⟩
    · rintro (⟨found, -⟩ | ⟨-, other⟩)
      · exact absurd found finds
      · exact other

end Response

/-- **The field of a response.**  The search for a field comes to its end on every text, within the
bounds of the text, and so does what reads the content of a response.  Of a response in which just
one member has the name and a string, the string is returned exactly when the first colon behind the
first quoted name is the member's and the string is written without surrogates, or another string
stands behind that colon that reads the same. -/
theorem json_field_iff (field : List Char) (r : Response field) :
    (∀ input name, ∃ result, localLlmJsonStringField input name = some result) ∧
      (∀ response, ∃ result, responseContent response = some result) ∧
      (localLlmJsonStringField r.document.render field = some (some r.value) ↔ r.ReadsRight) :=
  ⟨localLlmJsonStringField_total, responseContent_total, r.field_iff⟩

example : localLlmJsonStringField
    "\x7b\"index\": 0, \"content\": \" echo a > /face/frame\\n\", \"tokens\":5\x7d".toList
      "content".toList = some (some " echo a > /face/frame\n".toList) := by decide +kernel

/-- `{"a":"content","b":"x","content":"y"}`. -/
def namedInText : Response "content".toList where
  document := ⟨[], .object (moreMember "a" (.string (nameOf "content")) (moreMember "b"
    (.string (nameOf "x")) (lastMember "content" (.string (nameOf "y"))))), []⟩
  member := ⟨"\x7b\"a\":\"content\",\"b\":\"x\",".toList, nameOf "content", [], [],
    .string (nameOf "y"), "\x7d".toList⟩
  only := by
    simp only [Document.named, Document.sites, moreMember, lastMember, Value.sites, Members.sites,
      List.filter_cons, List.filter_append, List.filter_nil, value_nameOf_iff, String.reduceEq]
    rfl
  literal := nameOf "y"
  isString := rfl
  value := "y".toList
  isValue := value_literalOf _

/-- The escapes `\ud83d` and `\ude00`. -/
def surrogates : Literal := [.unicode (codeUnitOf 0xd83d), .unicode (codeUnitOf 0xde00)]

/-- `{"content":"\ud83d\ude00"}`. -/
def pairOfSurrogates : Response "content".toList where
  document := ⟨[], .object (lastMember "content" (.string surrogates)), []⟩
  member := ⟨['{'], nameOf "content", [], [], .string surrogates, ['}']⟩
  only := by
    simp only [Document.named, Document.sites, lastMember, Value.sites, Members.sites,
      List.filter_cons, List.filter_nil, value_nameOf_iff]
    rfl
  literal := surrogates
  isString := rfl
  value := [Char.ofNat 0x1f600]
  isValue := by decide +kernel

/-- The name in another string misleads the search, and of a pair of surrogates each is read by
itself. -/
theorem json_field_misled :
    (∃ r : Response "content".toList, (∀ c ∈ r.literal, ¬ c.IsSurrogate) ∧
      localLlmJsonStringField r.document.render "content".toList ≠ some (some r.value)) ∧
    ∃ r : Response "content".toList, r.FindsMember ∧
      localLlmJsonStringField r.document.render "content".toList ≠ some (some r.value) := by
  have finds : pairOfSurrogates.FindsMember :=
    ⟨['{'], [], splitOnce_eq_iff.mp (by decide +kernel), List.not_mem_nil⟩
  exact ⟨⟨namedInText, not_isSurrogate_literalOf _, by decide +kernel⟩,
    pairOfSurrogates, finds, by decide +kernel⟩

end HibanaPico.UnoQ
