import Hostlink.Text.Parts

/-!
# Taking texts apart and putting them together

* `Text.splitWhere_intercalate` — the parts of a list that was put together are the ones it was put
  together from;
* `Text.intercalate_splitWhere` — and the other way around;
* `Text.mem_intercalate`, `Text.intercalate_append` — what a list holds that was put together;
* `Text.holds_intercalate` — a pattern without separators occurs in the whole if it occurs in a part;
* `Text.toString_inj` — a number is told by its decimal text.
-/

namespace Hostlink.Text

variable {α : Type} {p : α → Bool}

theorem splitWhere_ne_nil (l : List α) : splitWhere p l ≠ [] := by
  cases l with
  | nil => exact List.cons_ne_nil _ _
  | cons a l =>
    rw [splitWhere]
    split
    · exact List.cons_ne_nil _ _
    · split <;> exact List.cons_ne_nil _ _

/-- A list without separators has one part. -/
theorem splitWhere_of_none {part : List α} (h : ∀ a ∈ part, p a = false) : splitWhere p part = [part] := by
  induction part with
  | nil => rfl
  | cons a part ih =>
    have ha := h a List.mem_cons_self
    simp only [splitWhere, ha, ih fun a ha => h a (List.mem_cons_of_mem _ ha)]
    rfl

/-- What stands before the first separator is the first part. -/
theorem splitWhere_append_cons {part : List α} (h : ∀ a ∈ part, p a = false) {sep : α} (hsep : p sep = true)
    (rest : List α) : splitWhere p (part ++ sep :: rest) = part :: splitWhere p rest := by
  induction part with
  | nil => simp [splitWhere, hsep]
  | cons a part ih =>
    have ha := h a List.mem_cons_self
    simp only [List.cons_append, splitWhere, ha, ih fun a ha => h a (List.mem_cons_of_mem _ ha)]
    rfl

/-- Parts that hold no separator are found again. -/
theorem splitWhere_intercalate {sep : α} (hsep : p sep = true) {parts : List (List α)} (hne : parts ≠ [])
    (h : ∀ part ∈ parts, ∀ a ∈ part, p a = false) : splitWhere p (List.intercalate [sep] parts) = parts := by
  induction parts with
  | nil => exact absurd rfl hne
  | cons part parts ih =>
    have hpart := h part List.mem_cons_self
    cases parts with
    | nil => rw [List.intercalate_singleton, splitWhere_of_none hpart]
    | cons next parts =>
      rw [List.intercalate_cons_cons, List.append_assoc, List.singleton_append,
        splitWhere_append_cons hpart hsep,
        ih (List.cons_ne_nil _ _) fun part hp => h part (List.mem_cons_of_mem _ hp)]

/-- Parts put together again are the whole. -/
theorem intercalate_splitWhere [DecidableEq α] (sep : α) (l : List α) :
    List.intercalate [sep] (splitWhere (· = sep) l) = l := by
  induction l with
  | nil => rfl
  | cons a l ih =>
    by_cases ha : a = sep
    · simp only [splitWhere, ha, decide_true, if_true]
      rw [List.intercalate_cons_of_ne_nil (splitWhere_ne_nil l), ih]
      rfl
    · simp only [splitWhere, ha, decide_false, Bool.false_eq_true, if_false]
      rcases hl : splitWhere (fun x => decide (x = sep)) l with _ | ⟨part, parts⟩
      · exact absurd hl (splitWhere_ne_nil l)
      · rw [hl] at ih
        rw [List.intercalate_cons_cons_left, ih]

theorem mem_intercalate {sep a : α} {parts : List (List α)} (h : a ∈ List.intercalate [sep] parts) :
    a = sep ∨ ∃ part ∈ parts, a ∈ part := by
  induction parts with
  | nil => cases h
  | cons part parts ih =>
    cases parts with
    | nil =>
      rw [List.intercalate_singleton] at h
      exact .inr ⟨part, List.mem_cons_self, h⟩
    | cons next parts =>
      rw [List.intercalate_cons_cons, List.append_assoc, List.singleton_append] at h
      rcases List.mem_append.mp h with hpart | h
      · exact .inr ⟨part, List.mem_cons_self, hpart⟩
      · rcases List.mem_cons.mp h with rfl | h
        · exact .inl rfl
        · rcases ih h with ha | ⟨part, hpart, ha⟩
          · exact .inl ha
          · exact .inr ⟨part, List.mem_cons_of_mem _ hpart, ha⟩

/-- A separator stands between the parts before and the parts behind. -/
theorem intercalate_append (sep : α) {parts more : List (List α)} (hparts : parts ≠ []) (hmore : more ≠ []) :
    List.intercalate [sep] (parts ++ more) = List.intercalate [sep] parts ++ sep :: List.intercalate [sep] more := by
  induction parts with
  | nil => exact absurd rfl hparts
  | cons part parts ih =>
    cases parts with
    | nil =>
      rw [List.singleton_append, List.intercalate_cons_of_ne_nil hmore, List.intercalate_singleton, List.append_assoc]
      rfl
    | cons next parts =>
      show List.intercalate [sep] (part :: next :: (parts ++ more)) = _
      rw [List.intercalate_cons_cons, List.intercalate_cons_cons, List.append_assoc _ _ (sep :: _)]
      congr 1
      exact ih (List.cons_ne_nil _ _)

/-- A separator comes before the parts behind, if there are any. -/
theorem intercalate_append_if [DecidableEq α] (sep : α) {parts more : List (List α)} (hparts : parts ≠ [])
    (hmore : ∀ part ∈ more, part ≠ []) :
    (List.intercalate [sep] parts ++
      if List.intercalate [sep] more = [] then [] else sep :: List.intercalate [sep] more) =
        List.intercalate [sep] (parts ++ more) := by
  cases more with
  | nil =>
    have hnil : List.intercalate [sep] ([] : List (List α)) = [] := rfl
    rw [if_pos hnil, List.append_nil, List.append_nil]
  | cons part more =>
    obtain ⟨x, xs, rfl⟩ := List.exists_cons_of_ne_nil (hmore part List.mem_cons_self)
    have hne : List.intercalate [sep] ((x :: xs) :: more) ≠ [] := by
      rw [List.intercalate_cons_cons_left]
      exact List.cons_ne_nil _ _
    rw [if_neg hne, intercalate_append sep hparts (List.cons_ne_nil _ _)]

/-! ## What occurs in a text -/

section

variable [BEq α] [LawfulBEq α] {pattern : List α} {sep : α}

omit [LawfulBEq α] in
theorem holds_cons (pattern : List α) (a : α) (l : List α) :
    holds pattern (a :: l) = (pattern.isPrefixOf (a :: l) || holds pattern l) := rfl

/-- A pattern without the separator does not reach beyond it. -/
theorem isPrefixOf_append_cons (hsep : sep ∉ pattern) (l m : List α) :
    pattern.isPrefixOf (l ++ sep :: m) = pattern.isPrefixOf l := by
  induction pattern generalizing l with
  | nil => rw [List.isPrefixOf_nil_left, List.isPrefixOf_nil_left]
  | cons a pattern ih =>
    have hne : a ≠ sep := fun h => hsep (h ▸ List.mem_cons_self)
    have hrest : sep ∉ pattern := fun h => hsep (List.mem_cons_of_mem _ h)
    cases l with
    | nil =>
      have hbeq : (a == sep) = false := beq_false_of_ne hne
      show (a == sep && pattern.isPrefixOf m) = false
      rw [hbeq, Bool.false_and]
    | cons b l => rw [List.cons_append, List.isPrefixOf, List.isPrefixOf, ih hrest]

/-- It occurs before the separator, or behind it. -/
theorem holds_append_cons (hsep : sep ∉ pattern) (hne : pattern ≠ []) (l m : List α) :
    holds pattern (l ++ sep :: m) = (holds pattern l || holds pattern m) := by
  induction l with
  | nil =>
    have h := isPrefixOf_append_cons hsep [] m
    rw [List.nil_append] at h
    rw [List.nil_append, holds_cons, h]
    cases pattern with
    | nil => exact absurd rfl hne
    | cons a pattern => rfl
  | cons b l ih =>
    have h := isPrefixOf_append_cons hsep (b :: l) m
    rw [List.cons_append] at h
    rw [List.cons_append, holds_cons, ih, h, holds_cons, Bool.or_assoc]

/-- It occurs in a part. -/
theorem holds_intercalate (hsep : sep ∉ pattern) (hne : pattern ≠ []) (parts : List (List α)) :
    holds pattern (List.intercalate [sep] parts) = parts.any (holds pattern) := by
  induction parts with
  | nil =>
    cases pattern with
    | nil => exact absurd rfl hne
    | cons a pattern => rfl
  | cons part parts ih =>
    by_cases hparts : parts = []
    · rw [hparts, List.intercalate_singleton, List.any_cons, List.any_nil, Bool.or_false]
    · rw [List.intercalate_cons_of_ne_nil hparts, List.append_assoc, List.singleton_append,
        holds_append_cons hsep hne, ih, List.any_cons]

end

/-! ## Numbers -/

/-- The decimal text of a number tells the number. -/
theorem toString_inj {m n : Nat} : toString m = toString n ↔ m = n := by
  refine ⟨fun h => ?_, fun h => h ▸ rfl⟩
  have h1 : Nat.toDigits 10 m = Nat.toDigits 10 n := by
    rw [← Nat.toList_repr, ← Nat.toList_repr]
    exact congrArg String.toList h
  have h2 := congrArg (Nat.ofDigitChars 10 · 0) h1
  simpa using h2

end Hostlink.Text
