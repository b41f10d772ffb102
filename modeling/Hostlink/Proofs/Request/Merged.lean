import Hostlink.Proofs.Request.Pairs

/-!
# Parts that run together

In a URL that has been put together `?&` becomes `?`, wherever it stands. A part of a query that ends in `?`
so loses the separator behind it, and takes the next part in.

* `Request.merged` — the parts after that;
* `Request.dropEmptyPair_intercalate` — they are what the URL holds;
* `Request.merged_eq` — parts stay apart if none before the last one ends in `?`;
* `Request.length_merged_lt` — and there are fewer of them otherwise;
* `Request.merged_concat` — what becomes of one more part.
-/

namespace Hostlink.Request

/-- A part that ends in `?`. -/
def EndsInMark (part : List Char) : Prop := part.getLast? = some '?'

instance (part : List Char) : Decidable (EndsInMark part) := inferInstanceAs (Decidable (_ = _))

/-- A part before others: it takes in the next one if it ends in `?`. -/
def before (part : List Char) : List (List Char) → List (List Char)
  | [] => [part]
  | next :: others => if EndsInMark part then (part ++ next) :: others else part :: next :: others

/-- The parts of a query after `?&` has become `?`. -/
def merged : List (List Char) → List (List Char)
  | [] => []
  | part :: rest => before part (merged rest)

theorem not_endsInMark {part : List Char} (h : '?' ∉ part) : ¬ EndsInMark part := fun hend =>
  h (List.mem_of_getLast? hend)

/-! ## What the URL holds -/

/-- Nothing is dropped where no separator stands. -/
theorem dropEmptyPair_of_whole {part : List Char} (h : '&' ∉ part) : dropEmptyPair part = part := by
  induction part with
  | nil => rfl
  | cons x part ih =>
    have hrest : '&' ∉ part := fun hx => h (List.mem_cons_of_mem _ hx)
    rw [dropEmptyPair_cons (.inr fun hx => hrest (List.mem_of_mem_head? hx)), ih hrest]

/-- The separator behind a part is dropped if the part ends in `?`. -/
theorem dropEmptyPair_part {part : List Char} (h : '&' ∉ part) (rest : List Char) :
    dropEmptyPair (part ++ '&' :: rest) =
      part ++ ((if EndsInMark part then [] else ['&']) ++ dropEmptyPair rest) := by
  have hsep : dropEmptyPair ('&' :: rest) = '&' :: dropEmptyPair rest := dropEmptyPair_cons (.inl (by decide))
  induction part with
  | nil => exact hsep
  | cons x part ih =>
    have hpart := ih fun hx => h (List.mem_cons_of_mem _ hx)
    -- the last character of the part decides, and it is the last one of what follows if there is more
    cases part with
    | nil =>
      by_cases hx : x = '?'
      · rw [hx]
        rfl
      · have hend : ¬ EndsInMark [x] := fun hend => hx (Option.some.inj hend)
        rw [if_neg hend, List.singleton_append, dropEmptyPair_cons (.inl hx), hsep]
        rfl
    | cons y part =>
      have hend : EndsInMark (x :: y :: part) ↔ EndsInMark (y :: part) := by
        rw [EndsInMark, EndsInMark, List.getLast?_cons_cons]
      have hy : (y :: part ++ '&' :: rest).head? ≠ some '&' := fun hy =>
        h (List.mem_cons_of_mem _ (Option.some.inj hy ▸ List.mem_cons_self))
      rw [List.cons_append, dropEmptyPair_cons (.inr hy), hpart]
      simp only [hend]
      rfl

/-- Parts with separators between them, and one before the first. -/
theorem intercalate_before (part : List Char) {ps : List (List Char)} (hne : ps ≠ []) :
    List.intercalate ['&'] (before part ps) =
      part ++ ((if EndsInMark part then [] else ['&']) ++ List.intercalate ['&'] ps) := by
  cases ps with
  | nil => exact absurd rfl hne
  | cons next others =>
    by_cases hend : EndsInMark part
    · rw [before, if_pos hend, if_pos hend, List.nil_append]
      cases others with
      | nil => rw [List.intercalate_singleton, List.intercalate_singleton]
      | cons => rw [List.intercalate_cons_cons, List.intercalate_cons_cons, List.append_assoc, List.append_assoc,
          List.append_assoc]
    · rw [before, if_neg hend, if_neg hend, List.intercalate_cons_of_ne_nil hne, List.append_assoc]

theorem before_ne_nil (part : List Char) (ps : List (List Char)) : before part ps ≠ [] := by
  cases ps with
  | nil => exact List.cons_ne_nil _ _
  | cons next others =>
    rw [before]
    split <;> exact List.cons_ne_nil _ _

theorem merged_ne_nil {ps : List (List Char)} (h : ps ≠ []) : merged ps ≠ [] := by
  cases ps with
  | nil => exact absurd rfl h
  | cons part ps => exact before_ne_nil part _

/-- **What a URL holds of parts that have been put together.** -/
theorem dropEmptyPair_intercalate {ps : List (List Char)} (hps : ∀ part ∈ ps, '&' ∉ part) :
    dropEmptyPair (List.intercalate ['&'] ps) = List.intercalate ['&'] (merged ps) := by
  induction ps with
  | nil => rfl
  | cons part ps ih =>
    have hpart := hps part List.mem_cons_self
    have hrest := ih fun part hp => hps part (List.mem_cons_of_mem _ hp)
    by_cases hne : ps = []
    · rw [hne, List.intercalate_singleton, dropEmptyPair_of_whole hpart]
      exact (List.intercalate_singleton ..).symm
    · rw [List.intercalate_cons_of_ne_nil hne, List.append_assoc, List.singleton_append, dropEmptyPair_part hpart,
        hrest, merged, intercalate_before part (merged_ne_nil hne)]

/-- What has run together holds no separator, and is not empty, if this holds of its parts. -/
theorem segment_merged {ps : List (List Char)} (hps : ∀ part ∈ ps, Segment part) :
    ∀ part ∈ merged ps, Segment part := by
  induction ps with
  | nil => exact fun _ h => (by cases h)
  | cons first ps ih =>
    have hfirst := hps first List.mem_cons_self
    have hrest := ih fun part hp => hps part (List.mem_cons_of_mem _ hp)
    intro part hpart
    rw [merged] at hpart
    cases hmerged : merged ps with
    | nil =>
      rw [hmerged] at hpart
      exact List.mem_singleton.mp hpart ▸ hfirst
    | cons next others =>
      rw [hmerged] at hpart hrest
      have hnext := hrest next List.mem_cons_self
      rw [before] at hpart
      split at hpart
      · -- what has run together begins and ends as its two parts do
        rcases List.mem_cons.mp hpart with rfl | hpart
        · refine ⟨List.append_ne_nil_of_left_ne_nil hfirst.ne_nil _, fun hx => ?_⟩
          exact (List.mem_append.mp hx).elim hfirst.whole hnext.whole
        · exact hrest part (List.mem_cons_of_mem _ hpart)
      · rcases List.mem_cons.mp hpart with rfl | hpart
        · exact hfirst
        · exact hrest part hpart

/-! ## How many parts there are -/

/-- Parts stay apart if none of them before the last one ends in `?`. -/
theorem merged_eq {ps : List (List Char)} (h : ∀ part ∈ ps.dropLast, ¬ EndsInMark part) : merged ps = ps := by
  induction ps with
  | nil => rfl
  | cons part ps ih =>
    cases ps with
    | nil => rfl
    | cons next ps =>
      have hrest := ih fun part hp => h part (List.mem_cons_of_mem _ hp)
      rw [merged, hrest]
      exact if_neg (h part List.mem_cons_self)

theorem length_before_le (part : List Char) (ps : List (List Char)) : (before part ps).length ≤ ps.length + 1 := by
  cases ps with
  | nil => exact Nat.le_refl _
  | cons next others =>
    rw [before]
    split
    · exact Nat.le_succ _
    · exact Nat.le_refl _

theorem length_merged_le (ps : List (List Char)) : (merged ps).length ≤ ps.length := by
  induction ps with
  | nil => exact Nat.le_refl _
  | cons part ps ih => exact (length_before_le part _).trans (Nat.succ_le_succ ih)

/-- Where a part before the last one ends in `?`, there are fewer parts than there were. -/
theorem length_merged_lt {ps : List (List Char)} {part : List Char} (hpart : part ∈ ps.dropLast)
    (hend : EndsInMark part) : (merged ps).length < ps.length := by
  induction ps with
  | nil => cases hpart
  | cons first ps ih =>
    cases ps with
    | nil => cases hpart
    | cons next ps =>
      rcases List.mem_cons.mp hpart with rfl | hpart
      · obtain ⟨m, ms, hmerged⟩ := List.exists_cons_of_ne_nil (merged_ne_nil (List.cons_ne_nil next ps))
        have hle := length_merged_le (next :: ps)
        rw [merged, hmerged, before, if_pos hend]
        rw [hmerged] at hle
        exact Nat.lt_succ_of_le hle
      · exact (length_before_le first _).trans_lt (Nat.succ_lt_succ (ih hpart))

/-! ## The last part -/

/-- What becomes of one more part: the part before takes it in, or it stays apart. -/
theorem merged_concat (ps : List (List Char)) (part last : List Char) :
    ∃ front whole, part <:+ whole ∧ merged (ps ++ [part]) = front ++ [whole] ∧
      merged (ps ++ [part, last]) =
        if EndsInMark part then front ++ [whole ++ last] else front ++ [whole, last] := by
  induction ps with
  | nil => exact ⟨[], part, List.suffix_refl _, rfl, rfl⟩
  | cons first ps ih =>
    obtain ⟨front, whole, hsuffix, hmerged, hlast⟩ := ih
    rw [List.cons_append, List.cons_append, merged, merged, hmerged, hlast]
    -- a first part that ends in a mark joins the next one, which is the last if there is nothing between
    cases front with
    | cons next front =>
      by_cases hfirst : EndsInMark first
      · refine ⟨(first ++ next) :: front, whole, hsuffix, if_pos hfirst, ?_⟩
        split <;> exact if_pos hfirst
      · refine ⟨first :: next :: front, whole, hsuffix, if_neg hfirst, ?_⟩
        split <;> exact if_neg hfirst
    | nil =>
      by_cases hfirst : EndsInMark first
      · refine ⟨[], first ++ whole, hsuffix.trans (List.suffix_append _ _), ?_, ?_⟩
        · exact if_pos hfirst
        · split <;> simp [before, hfirst]
      · refine ⟨[first], whole, hsuffix, if_neg hfirst, ?_⟩
        split <;> simp [before, hfirst]

end Hostlink.Request
