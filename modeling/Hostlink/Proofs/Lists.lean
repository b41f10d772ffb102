import Mathlib.Data.List.Nodup
import Mathlib.Data.List.Pairwise

/-!
# Lists whose elements are told apart

Tables are lists in which no key stands twice, or in which the images of elements are distinct.

* `lookup_cons_ite`, `lookup_of_nodup` — what is found under a key;
* `putInOrder` — one more key of a table that is in the order of its keys;
* `split_of_keys` — what a change of the element of a key makes of a list;
* `ne_of_nodup_filterMap`, `filterMap_filter_of` — images of the elements, and of all but one;
* `filter_mergeSort` — some elements of a list that is sorted.
-/

namespace Hostlink

variable {α β κ : Type}

/-- The first pair of a key is found. -/
theorem lookup_cons_ite [DecidableEq κ] (key k : κ) (v : β) (l : List (κ × β)) :
    ((k, v) :: l).lookup key = if key = k then some v else l.lookup key := by
  rw [List.lookup_cons]
  by_cases h : key = k
  · rw [if_pos h, beq_iff_eq.mpr h]
  · rw [if_neg h, beq_eq_false_iff_ne.mpr h]

/-- Where keys do not repeat, each is found. -/
theorem lookup_of_nodup [DecidableEq κ] {l : List (κ × β)} (hnodup : (l.map (·.1)).Nodup) {key : κ} {v : β}
    (h : (key, v) ∈ l) : l.lookup key = some v := by
  induction l with
  | nil => cases h
  | cons m l ih =>
    obtain ⟨hfresh, hrest⟩ := List.nodup_cons.mp hnodup
    rw [lookup_cons_ite]
    rcases List.mem_cons.mp h with rfl | h
    · exact if_pos rfl
    · have hne : key ≠ m.1 := fun heq => hfresh (List.mem_map.mpr ⟨(key, v), h, heq⟩)
      rw [if_neg hne, ih hrest h]

/-! ## Tables in the order of their keys -/

/-- Puts a value under a key, in place of any value there. -/
def putInOrder (key : String) (v : β) : List (String × β) → List (String × β)
  | [] => [(key, v)]
  | (k, w) :: l =>
    if key < k then (key, v) :: (k, w) :: l
    else if key = k then (key, v) :: l
    else (k, w) :: putInOrder key v l

/-- What is found after one more key, whether or not the table was in order. -/
theorem lookup_putInOrder (key : String) (v : β) (l : List (String × β)) (k : String) :
    (putInOrder key v l).lookup k = if k = key then some v else l.lookup k := by
  induction l with
  | nil => rw [putInOrder, lookup_cons_ite]
  | cons p l ih =>
    obtain ⟨k', w⟩ := p
    rw [putInOrder]
    split
    · rw [lookup_cons_ite, lookup_cons_ite]
    · split
      · next heq =>
        rw [lookup_cons_ite, lookup_cons_ite, ← heq]
        split <;> rfl
      · next hne =>
        rw [lookup_cons_ite, ih, lookup_cons_ite]
        by_cases hk : k = key
        · rw [if_pos hk, if_pos hk, if_neg (hk ▸ hne)]
        · rw [if_neg hk, if_neg hk]

theorem mem_putInOrder {key : String} {v : β} {l : List (String × β)} {p : String × β}
    (hp : p ∈ putInOrder key v l) : p = (key, v) ∨ p ∈ l := by
  induction l with
  | nil => exact .inl (List.mem_singleton.mp hp)
  | cons q l ih =>
    obtain ⟨k, w⟩ := q
    rw [putInOrder] at hp
    split at hp
    · rcases List.mem_cons.mp hp with rfl | hp
      · exact .inl rfl
      · exact .inr hp
    · split at hp
      · rcases List.mem_cons.mp hp with rfl | hp
        · exact .inl rfl
        · exact .inr (List.mem_cons_of_mem _ hp)
      · rcases List.mem_cons.mp hp with rfl | hp
        · exact .inr List.mem_cons_self
        · exact (ih hp).imp_right (List.mem_cons_of_mem _)

/-- One key more, unless it was there. -/
theorem mem_keys_putInOrder {key : String} {v : β} {l : List (String × β)} {k : String} :
    k ∈ (putInOrder key v l).map (·.1) ↔ k = key ∨ k ∈ l.map (·.1) := by
  induction l with
  | nil => simp [putInOrder]
  | cons p l ih =>
    obtain ⟨k', w⟩ := p
    rw [putInOrder]
    split
    · simp
    · split
      · next heq => simp [heq]
      · rw [List.map_cons, List.map_cons, List.mem_cons, List.mem_cons, ih]
        exact or_left_comm

/-- A table stays in order. -/
theorem pairwise_putInOrder {l : List (String × β)} (h : l.Pairwise (·.1 < ·.1)) (key : String) (v : β) :
    (putInOrder key v l).Pairwise (·.1 < ·.1) := by
  induction l with
  | nil => exact List.pairwise_singleton _ _
  | cons p l ih =>
    obtain ⟨k, w⟩ := p
    obtain ⟨hk, hl⟩ := List.pairwise_cons.mp h
    rw [putInOrder]
    split
    · next hlt =>
      refine List.pairwise_cons.mpr ⟨fun q hq => ?_, h⟩
      rcases List.mem_cons.mp hq with rfl | hq
      · exact hlt
      · exact Std.lt_trans hlt (hk q hq)
    · next hge =>
      split
      · next heq => exact List.pairwise_cons.mpr ⟨fun q hq => heq ▸ hk q hq, hl⟩
      · next hne =>
        refine List.pairwise_cons.mpr ⟨fun q hq => ?_, ih hl⟩
        rcases mem_putInOrder hq with rfl | hq
        · exact Std.lt_of_le_of_ne (Std.not_lt.mp hge) (Ne.symm hne)
        · exact hk q hq

/-! ## Elements and their images -/

/-- One element at most is the first and the last. -/
theorem head?_eq_getLast? {l : List α} (h : l.length ≤ 1) : l.head? = l.getLast? := by
  match l, h with
  | [], _ => rfl
  | [_], _ => rfl

/-- The element of a key stands between those of other keys. -/
theorem split_of_keys [DecidableEq κ] {key : α → κ} {l : List α} (hkeys : (l.map key).Nodup) {a : α} (ha : a ∈ l) :
    ∃ front back, l = front ++ a :: back ∧ l.filter (key · ≠ key a) = front ++ back ∧
      ∀ f : α → α, l.map (fun x => if key x = key a then f x else x) = front ++ f a :: back := by
  obtain ⟨front, back, rfl⟩ := List.append_of_mem ha
  rw [List.map_append, List.map_cons, List.nodup_middle, List.nodup_cons, ← List.map_append] at hkeys
  have hother : ∀ x ∈ front ++ back, key x ≠ key a := fun x hx heq => hkeys.1 (heq ▸ List.mem_map_of_mem hx)
  have hfront : ∀ x ∈ front, key x ≠ key a := fun x hx => hother x (List.mem_append_left _ hx)
  have hback : ∀ x ∈ back, key x ≠ key a := fun x hx => hother x (List.mem_append_right _ hx)
  have hfilter : ∀ m : List α, (∀ x ∈ m, key x ≠ key a) → m.filter (key · ≠ key a) = m :=
    fun m hm => List.filter_eq_self.mpr fun x hx => decide_eq_true (hm x hx)
  have hmap : ∀ (f : α → α) (m : List α), (∀ x ∈ m, key x ≠ key a) →
      m.map (fun x => if key x = key a then f x else x) = m :=
    fun f m hm => (List.map_congr_left fun x hx => if_neg (hm x hx)).trans (List.map_id' m)
  refine ⟨front, back, rfl, ?_, fun f => ?_⟩
  · rw [List.filter_append, List.filter_cons_of_neg (by simp), hfilter _ hfront, hfilter _ hback]
  · rw [List.map_append, List.map_cons, hmap f _ hfront, hmap f _ hback, if_pos rfl]

/-- Where images are distinct, different elements have different ones. -/
theorem ne_of_nodup_filterMap {f : α → Option β} {l : List α} (hn : (l.filterMap f).Nodup)
    {x x' : α} (hx : x ∈ l) (hx' : x' ∈ l) (hne : x ≠ x') {z z' : β} (hz : f x = some z)
    (hz' : f x' = some z') : z ≠ z' := by
  let R : α → α → Prop := fun x x' => ∀ z, f x = some z → ∀ z', f x' = some z' → z ≠ z'
  have hpair : l.Pairwise R := List.pairwise_filterMap.mp hn
  have : Std.Symm R := ⟨fun _ _ h z hz z' hz' => (h z' hz' z hz).symm⟩
  exact hpair.forall hx hx' hne z hz z' hz'

/-- Taking one element out of a list takes its image out, if no other has that. -/
theorem filterMap_filter_of [DecidableEq β] {f : α → Option β} {l : List α} {a : α} {y : β}
    (ha : a ∈ l) (hn : (l.filterMap f).Nodup) (hf : f a = some y) {p : α → Bool}
    (hp : ∀ x ∈ l, p x = true ↔ x ≠ a) :
    (l.filter p).filterMap f = (l.filterMap f).filter (· ≠ y) := by
  rw [List.filterMap_filter, List.filter_filterMap]
  refine List.filterMap_congr fun x hx => ?_
  by_cases hxa : x = a
  · have hpx : p x = false := by
      by_contra h
      exact (hp x hx).mp (by simpa using h) hxa
    rw [hpx, hxa, hf]
    simp [Option.filter]
  · rw [if_pos ((hp x hx).mpr hxa)]
    cases hfx : f x with
    | none => rfl
    | some z =>
      have hz : z ≠ y := ne_of_nodup_filterMap hn hx ha hxa hfx hf
      simp [Option.filter, hz]

/-- Taking out an element without an image changes no images. -/
theorem filterMap_filter_of_none {f : α → Option β} {l : List α} {a : α}
    (hf : f a = none) {p : α → Bool} (hp : ∀ x ∈ l, p x = true ↔ x ≠ a) :
    (l.filter p).filterMap f = l.filterMap f := by
  rw [List.filterMap_filter]
  refine List.filterMap_congr fun x hx => ?_
  by_cases hxa : x = a
  · rw [hxa, hf]
    split <;> rfl
  · rw [if_pos ((hp x hx).mpr hxa)]

/-! ## Lists that are sorted -/

/-- A list is split in one way between what comes before an element and what does not. -/
theorem split_before {p : α → Bool} {l₁ l₂ m₁ m₂ : List α} (h : l₁ ++ l₂ = m₁ ++ m₂) (hl₁ : ∀ x ∈ l₁, p x = true)
    (hl₂ : ∀ x ∈ l₂, p x = false) (hm₁ : ∀ x ∈ m₁, p x = true) (hm₂ : ∀ x ∈ m₂, p x = false) : l₁ = m₁ ∧ l₂ = m₂ := by
  have hfilter : ∀ {a b : List α}, (∀ x ∈ a, p x = true) → (∀ x ∈ b, p x = false) →
      (a ++ b).filter p = a := by
    intro a b ha hb
    rw [List.filter_append, List.filter_eq_self.mpr ha, List.filter_eq_nil_iff.mpr fun x hx => by simp [hb x hx],
      List.append_nil]
  have h₁ : l₁ = m₁ := by rw [← hfilter hl₁ hl₂, h, hfilter hm₁ hm₂]
  subst h₁
  exact ⟨rfl, List.append_cancel_left h⟩

/-- To sort a list and then leave out some elements is to leave them out before. -/
theorem filter_mergeSort {le : α → α → Bool} (trans : ∀ a b c, le a b = true → le b c = true → le a c = true)
    (total : ∀ a b, (le a b || le b a) = true) (p : α → Bool) (l : List α) :
    (l.filter p).mergeSort le = (l.mergeSort le).filter p := by
  induction l with
  | nil => rw [List.filter_nil, List.mergeSort_nil, List.filter_nil]
  | cons a l ih =>
    obtain ⟨l₁, l₂, hsort, hrest, hbefore⟩ := List.mergeSort_cons trans total a l
    have hsorted : (l₁ ++ a :: l₂).Pairwise (le · ·) := hsort ▸ List.pairwise_mergeSort trans total (a :: l)
    rw [hsort, List.filter_append]
    by_cases ha : p a
    · obtain ⟨m₁, m₂, hsort', hrest', hbefore'⟩ := List.mergeSort_cons trans total a (l.filter p)
      have hsorted' : (m₁ ++ a :: m₂).Pairwise (le · ·) :=
        hsort' ▸ List.pairwise_mergeSort trans total (a :: l.filter p)
      have hsame : m₁ ++ m₂ = l₁.filter p ++ l₂.filter p := by rw [← hrest', ih, hrest, List.filter_append]
      -- what comes before the new element is smaller in both, and nothing behind it is
      have hbehind : ∀ x ∈ l₂, le a x = true :=
        (List.pairwise_cons.mp (List.pairwise_append.mp hsorted).2.1).1
      have hbehind' : ∀ x ∈ m₂, le a x = true :=
        (List.pairwise_cons.mp (List.pairwise_append.mp hsorted').2.1).1
      obtain ⟨rfl, rfl⟩ := split_before (p := fun x => ! le a x) hsame (fun x hx => by simpa using hbefore' x hx)
        (fun x hx => by simp [hbehind' x hx]) (fun x hx => by simpa using hbefore x (List.mem_filter.mp hx).1)
        fun x hx => by simp [hbehind x (List.mem_filter.mp hx).1]
      rw [List.filter_cons_of_pos ha, List.filter_cons_of_pos ha, hsort']
    · rw [List.filter_cons_of_neg ha, List.filter_cons_of_neg ha, ih, hrest, List.filter_append]

end Hostlink
