import Mathlib.Data.List.Basic
import Mathlib.Data.List.DropRight
import Mathlib.Data.List.Flatten
import Mathlib.Data.List.Induction

/-!
# Support — Lists

What a list of parties contributes to one stream, when all contributions but one are empty, and
what a stream holds since the last mark in it.

* `flatMap_eq_of_others`: the one contribution is the whole.
* `length_flatMap_set`: replacing a party trades its contribution for the other's.
* `map_toList_at`: what is seen at a place of the entry that one place has.
* `append_inj_of_all`: two lists cut where a property ends.
* `zipIdx_take_drop`, `not_zipIdx_of_twice`: a list with the places of its entries.
* `foldlM_range`: what every turn of a counted loop brings one further, the loop brings to its end.
* `rtake_rtake_append`: a window on the last entries is moved on by those that come next.
* `Obeys`: a law of every entry and of those before it, kept entry by entry.
* `since`, `OpenSince`: what comes after the last mark, unless another mark has ended it.
-/

namespace HibanaPico.Support

variable {α β : Type*}

/-- All but the entry at `i` contribute nothing. -/
def OnlyAt (f : α → List β) (l : List α) (i : ℕ) : Prop :=
  ∀ j x, j ≠ i → l[j]? = some x → f x = []

/-- An entry of a list with one more is an entry of the list, or that one. -/
theorem getElem?_concat_cases {l : List α} {x y : α} {k : ℕ} (h : (l ++ [x])[k]? = some y) :
    l[k]? = some y ∨ k = l.length ∧ y = x := by
  rcases Nat.lt_trichotomy k l.length with hlt | heq | hgt
  · exact .inl (List.getElem?_append_left hlt ▸ h)
  · rw [heq, List.getElem?_concat_length] at h
    exact .inr ⟨heq, (Option.some.inj h).symm⟩
  · rw [List.getElem?_eq_none (by rw [List.length_append, List.length_singleton]; omega)] at h
    cases h

theorem flatMap_eq_nil_of_getElem? {f : α → List β} {l : List α}
    (h : ∀ (j : ℕ) x, l[j]? = some x → f x = []) : l.flatMap f = [] :=
  List.flatMap_eq_nil_iff.mpr fun x hx => by
    obtain ⟨j, hj, rfl⟩ := List.mem_iff_getElem.mp hx
    exact h j _ (List.getElem?_eq_getElem hj)

theorem flatMap_eq_of_others {f : α → List β} {l : List α} {i : ℕ} {x : α} (hx : l[i]? = some x)
    (h : OnlyAt f l i) : l.flatMap f = f x := by
  induction l generalizing i with
  | nil => cases hx
  | cons y l ih =>
      cases i with
      | zero =>
          cases hx
          have hrest : l.flatMap f = [] := flatMap_eq_nil_of_getElem? fun j z hz =>
            h (j + 1) z (Nat.succ_ne_zero j) hz
          rw [List.flatMap_cons, hrest, List.append_nil]
      | succ i =>
          have hy : f y = [] := h 0 y (Nat.zero_ne_add_one i) rfl
          rw [List.flatMap_cons, hy, List.nil_append]
          exact ih hx fun j z hj hz => h (j + 1) z (by omega) hz

theorem OnlyAt.flatMap {f : α → List β} {l : List α} {i : ℕ} (h : OnlyAt f l i) :
    l.flatMap f = (l[i]?).toList.flatMap f := by
  cases hx : l[i]? with
  | none =>
      refine flatMap_eq_nil_of_getElem? fun j x hj => h j x ?_ hj
      rintro rfl
      rw [hx] at hj
      cases hj
  | some x => rw [flatMap_eq_of_others hx h, Option.toList_some, List.flatMap_singleton]

theorem OnlyAt.set {f : α → List β} {l : List α} {i j : ℕ} {y : α} (h : OnlyAt f l i)
    (hy : j ≠ i → f y = []) : OnlyAt f (l.set j y) i := fun k x hk hx => by
  by_cases hkj : k = j
  · subst hkj
    obtain ⟨hlt, hget⟩ := List.getElem?_eq_some_iff.mp hx
    rw [List.getElem_set_self] at hget
    exact hget ▸ hy hk
  · rw [List.getElem?_set_ne (Ne.symm hkj)] at hx
    exact h k x hk hx

theorem getElem?_set_self_of_some {l : List α} {i : ℕ} {x : α} (hx : l[i]? = some x) (y : α) :
    (l.set i y)[i]? = some y := by
  obtain ⟨hi, -⟩ := List.getElem?_eq_some_iff.mp hx
  simp [hi]

/-- A property of every entry, after one was replaced. -/
theorem forall_set {P : ℕ → α → Prop} {l : List α} {i : ℕ} {y : α}
    (h : ∀ (j : ℕ) x, j ≠ i → l[j]? = some x → P j x) (hy : P i y) :
    ∀ (j : ℕ) x, (l.set i y)[j]? = some x → P j x := by
  intro j x hx
  by_cases hj : j = i
  · subst hj
    obtain ⟨hlt, hget⟩ := List.getElem?_eq_some_iff.mp hx
    rw [List.getElem_set_self] at hget
    exact hget ▸ hy
  · rw [List.getElem?_set_ne (Ne.symm hj)] at hx
    exact h j x hj hx

theorem flatMap_set_of_eq {f : α → List β} {l : List α} {i : ℕ} {x y : α} (hx : l[i]? = some x)
    (hy : f y = f x) : (l.set i y).flatMap f = l.flatMap f := by
  induction l generalizing i with
  | nil => cases hx
  | cons z l ih =>
      cases i with
      | zero => cases hx; rw [List.set_cons_zero, List.flatMap_cons, List.flatMap_cons, hy]
      | succ i => rw [List.set_cons_succ, List.flatMap_cons, List.flatMap_cons, ih hx]

theorem length_flatMap_set (f : α → List β) {l : List α} {i : ℕ} {x : α} (hx : l[i]? = some x)
    (y : α) : ((l.set i y).flatMap f).length + (f x).length =
      (l.flatMap f).length + (f y).length := by
  induction l generalizing i with
  | nil => cases hx
  | cons z l ih =>
      cases i with
      | zero =>
          cases hx
          simp only [List.set_cons_zero, List.flatMap_cons, List.length_append]
          omega
      | succ i =>
          have := ih hx
          simp only [List.set_cons_succ, List.flatMap_cons, List.length_append]
          omega

/-- Two lists cut where a property ends are equal part by part. -/
theorem append_inj_of_all {p : α → Prop} [DecidablePred p] {xs ys xs' ys' : List α}
    (hxs : ∀ x ∈ xs, p x) (hys : ∀ y ∈ ys, ¬ p y) (hxs' : ∀ x ∈ xs', p x)
    (hys' : ∀ y ∈ ys', ¬ p y) (h : xs ++ ys = xs' ++ ys') : xs = xs' ∧ ys = ys' := by
  have hfirst : ∀ us vs : List α, (∀ u ∈ us, p u) → (∀ v ∈ vs, ¬ p v) →
      (us ++ vs).filter (fun x => p x) = us := by
    intro us vs hus hvs
    rw [List.filter_append, List.filter_eq_self.mpr (by simpa using hus),
      List.filter_eq_nil_iff.mpr (by simpa using hvs), List.append_nil]
  have hxx : xs = xs' := by rw [← hfirst xs ys hxs hys, h, hfirst xs' ys' hxs' hys']
  subst hxx
  exact ⟨rfl, List.append_cancel_left h⟩

/-- What the entry at one place is seen as, at another. -/
theorem map_toList_at {ι : Type*} [DecidableEq ι] {entry : ι → Option α} {p i : ι} {x : α}
    (h : entry p = some x) (f : α → β) :
    (if p = i then (entry i).toList.map f else []) = if p = i then [f x] else [] := by
  split
  next same => rw [← same, h]; rfl
  next => rfl

/-! ### Cuts and places -/

/-- Cutting to a length as a list grows is cutting it once. -/
theorem take_append_take (xs ys : List α) (n : ℕ) :
    (xs.take n ++ ys).take n = (xs ++ ys).take n := by
  have hroom : n - (xs.take n).length = n - xs.length := by
    rw [List.length_take]
    omega
  rw [List.take_append, List.take_take, Nat.min_self, hroom, List.take_append]

/-- A list with the places of its entries, cut in two. -/
theorem zipIdx_take_drop (xs : List α) (n : ℕ) {k : ℕ} (hk : k ≤ xs.length) :
    (xs.take k).zipIdx n ++ (xs.drop k).zipIdx (n + k) = xs.zipIdx n := by
  have hlength : (xs.take k).length = k := List.length_take_of_le hk
  conv_rhs => rw [← List.take_append_drop k xs, List.zipIdx_append, hlength]

/-- **Counted loops.**  A loop whose every turn can be taken, and brings the invariant one
further. -/
theorem foldlM_range {σ : Type*} {f : σ → ℕ → Option σ} {I : ℕ → σ → Prop} {n : ℕ}
    (step : ∀ k s, k < n → I k s → ∃ t, f s k = some t ∧ I (k + 1) t) {s : σ} (h : I 0 s) :
    ∃ t, (List.range n).foldlM f s = some t ∧ I n t := by
  induction n with
  | zero => exact ⟨s, rfl, h⟩
  | succ n ih =>
      obtain ⟨t, ht, hI⟩ := ih fun k s hk => step k s (Nat.lt_succ_of_lt hk)
      obtain ⟨u, hu, hI'⟩ := step n t (Nat.lt_succ_self n) hI
      refine ⟨u, ?_, hI'⟩
      rw [List.range_succ, List.foldlM_append, ht]
      exact (Option.bind_some ..).trans (by rw [List.foldlM_cons, hu]; rfl)

/-- No list with the places of its entries has a place twice. -/
theorem not_zipIdx_of_twice {xs : List (α × ℕ)} {ys zs ws : List α} {n : ℕ} (hys : ys ≠ [])
    (hzs : zs ≠ []) : xs ++ ys.zipIdx n ++ zs.zipIdx n ≠ ws.zipIdx := by
  intro h
  have hnodup : ((xs ++ ys.zipIdx n ++ zs.zipIdx n).map Prod.snd).Nodup := by
    rw [h, List.zipIdx_map_snd]
    exact List.nodup_range'
  rw [List.map_append, List.map_append, List.zipIdx_map_snd, List.zipIdx_map_snd] at hnodup
  have hy : n ∈ List.map Prod.snd xs ++ List.range' n ys.length :=
    List.mem_append_right _ (List.mem_range'_1.mpr ⟨Nat.le_refl _, by
      have := List.length_pos_iff.mpr hys
      omega⟩)
  have hz : n ∈ List.range' n zs.length := List.mem_range'_1.mpr ⟨Nat.le_refl _, by
    have := List.length_pos_iff.mpr hzs
    omega⟩
  exact (List.nodup_append.mp hnodup).2.2 n hy n hz rfl

/-! ### Since a mark -/

/-- What comes after the last entry that opens, unless an entry that closes has come since. -/
def since (opens closes : α → Bool) (l : List α) : Option (List α) :=
  l.foldl (fun after x =>
    if opens x then some [] else if closes x then none else after.map (· ++ [x])) none

@[simp] theorem since_nil (opens closes : α → Bool) : since opens closes [] = none := rfl

theorem since_snoc (opens closes : α → Bool) (l : List α) (x : α) :
    since opens closes (l ++ [x]) =
      if opens x then some [] else if closes x then none
      else (since opens closes l).map (· ++ [x]) := by
  rw [since, List.foldl_append]
  rfl

/-- An entry that opens has come, and none that closes since. -/
def OpenSince (opens closes : α → Bool) (l : List α) : Prop :=
  ∃ before x after, l = before ++ x :: after ∧ opens x = true ∧ ∀ y ∈ after, closes y = false

theorem not_openSince_nil (opens closes : α → Bool) : ¬ OpenSince opens closes [] := by
  rintro ⟨before, x, after, h, -⟩
  exact List.append_ne_nil_of_right_ne_nil before (List.cons_ne_nil x after) h.symm

/-- One entry more. -/
theorem openSince_snoc (opens closes : α → Bool) (l : List α) (x : α) :
    OpenSince opens closes (l ++ [x]) ↔
      opens x = true ∨ closes x = false ∧ OpenSince opens closes l := by
  constructor
  · rintro ⟨before, y, after, h, hopens, hafter⟩
    induction after using List.reverseRecOn with
    | nil =>
        obtain ⟨-, hxy⟩ := List.append_inj' h rfl
        rw [List.singleton_inj] at hxy
        exact .inl (hxy ▸ hopens)
    | append_singleton after z _ =>
        rw [← List.cons_append, ← List.append_assoc] at h
        obtain ⟨hl, hxz⟩ := List.append_inj' h rfl
        rw [List.singleton_inj] at hxz
        subst hxz
        exact .inr ⟨hafter x (List.mem_append_right _ (List.mem_singleton_self x)), before, y,
          after, hl, hopens, fun w hw => hafter w (List.mem_append_left _ hw)⟩
  · rintro (hopens | ⟨hcloses, before, y, after, rfl, hopens, hafter⟩)
    · exact ⟨l, x, [], rfl, hopens, fun _ h => by cases h⟩
    · refine ⟨before, y, after ++ [x], by simp, hopens, fun w hw => ?_⟩
      rcases List.mem_append.mp hw with hw | hw
      · exact hafter w hw
      · rw [List.mem_singleton.mp hw]
        exact hcloses

/-! ### The last entries -/

theorem length_rtake (xs : List α) (n : ℕ) : (xs.rtake n).length = min xs.length n := by
  rw [List.rtake, List.length_drop]
  omega

theorem rtake_of_length_le {xs : List α} {n : ℕ} (h : xs.length ≤ n) : xs.rtake n = xs := by
  rw [List.rtake, Nat.sub_eq_zero_of_le h, List.drop_zero]

/-- The window on what was there, moved on by what comes next. -/
theorem rtake_rtake_append (xs ys : List α) (n : ℕ) :
    (xs.rtake n ++ ys).rtake n = (xs ++ ys).rtake n := by
  rcases le_total xs.length n with short | long
  · rw [rtake_of_length_le short]
  · have split : xs ++ ys = xs.take (xs.length - n) ++ (xs.rtake n ++ ys) := by
      rw [← List.append_assoc, List.rtake, List.take_append_drop]
    have total : (xs ++ ys).length - n =
        (xs.take (xs.length - n)).length + ((xs.rtake n ++ ys).length - n) := by
      rw [List.length_append, List.length_append, length_rtake, List.length_take]
      omega
    calc (xs.rtake n ++ ys).rtake n
        _ = (xs.rtake n ++ ys).drop ((xs.rtake n ++ ys).length - n) := rfl
        _ = (xs ++ ys).drop ((xs ++ ys).length - n) := by
          rw [total, split, List.drop_length_add_append]

/-! ### A law of each entry -/

/-- Every entry obeys the law, given those before it. -/
def Obeys (law : List α → α → Prop) (l : List α) : Prop :=
  ∀ before x, before ++ [x] <+: l → law before x

theorem obeys_nil (law : List α → α → Prop) : Obeys law [] := fun _ _ h =>
  absurd (List.prefix_nil.mp h) (List.append_ne_nil_of_right_ne_nil _ (List.cons_ne_nil _ _))

/-- One entry more. -/
theorem obeys_snoc {law : List α → α → Prop} {l : List α} {x : α} :
    Obeys law (l ++ [x]) ↔ Obeys law l ∧ law l x := by
  constructor
  · intro h
    exact ⟨fun before y earlier => h before y (earlier.trans (List.prefix_append _ _)),
      h l x List.prefix_rfl⟩
  · rintro ⟨earlier, last⟩ before y h
    rcases List.prefix_concat_iff.mp h with same | h
    · obtain ⟨rfl, tail⟩ := List.append_inj' same rfl
      cases tail
      exact last
    · exact earlier before y h

end HibanaPico.Support
