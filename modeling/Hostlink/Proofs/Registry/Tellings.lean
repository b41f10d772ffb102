import Hostlink.Proofs.Registry.Desk

/-!
# Two tellings of one story

Histories may differ in what comes too late, or is about others, and still tell the same of a request.

* `History.Late` — an event that ends no request that waits;
* `History.Agree` — two histories tell the same endings, and what is told in addition may come too late;
* `History.aside`, `History.ending?_aside` — a history without what is aimed at one id.
-/

namespace Hostlink.Registry.History

variable {stem : String} {h k : History} {e : Event}

/-! ## Events that come too late -/

/-- An event that registers nothing and ends no request that waits. -/
structure Late (stem : String) (h : History) (e : Event) : Prop where
  opens_eq : e.opens = false
  ending_eq : ∀ n < h.opened, h.ending? stem n = none → e.endingOf? (idOf stem n) = none

theorem late_read (stem : String) (h : History) (n : Nat) : Late stem h (.read n) := ⟨rfl, fun _ _ _ => rfl⟩

theorem late_dropped (stem : String) (h : History) (n : Nat) : Late stem h (.dropped n) := ⟨rfl, fun _ _ _ => rfl⟩

/-- What is aimed at an id comes too late if nobody waits under it. -/
theorem late_aimed {id : String} (hid : ¬ Waits stem h id) (en : Ending) : Late stem h (.aimed id en) := by
  refine ⟨rfl, fun n hn hnone => ?_⟩
  rw [Event.endingOf?, if_neg]
  rintro rfl
  exact hid ⟨n, hn, rfl, hnone⟩

theorem Late.opened (he : Late stem h e) : (h ++ [e]).opened = h.opened := by
  rw [opened_concat, he.opens_eq]
  rfl

theorem Late.ending? (he : Late stem h e) (n : Nat) : (h ++ [e]).ending? stem n = h.ending? stem n := by
  rcases Nat.lt_or_ge n h.opened with hn | hn
  · rw [ending?_concat hn]
    cases hend : h.ending? stem n with
    | none => exact he.ending_eq n hn hend
    | some en => rfl
  · rw [ending?_of_opened_le hn, ending?_of_opened_le (he.opened ▸ hn)]

/-- What comes too late does so also after another event that does. -/
theorem Late.concat {f : Event} (he : Late stem h e) (hf : Late stem h f) : Late stem (h ++ [f]) e :=
  ⟨he.opens_eq, fun n hn hnone => he.ending_eq n (hf.opened ▸ hn) (hf.ending? n ▸ hnone)⟩

/-! ## Histories that agree -/

/-- Two histories register as many requests, and tell the same ending of each. -/
structure Agree (stem : String) (h k : History) : Prop where
  opened_eq : h.opened = k.opened
  ending_eq : ∀ n, h.ending? stem n = k.ending? stem n

theorem Agree.refl (stem : String) (h : History) : Agree stem h h := ⟨rfl, fun _ => rfl⟩

theorem Agree.symm (ha : Agree stem h k) : Agree stem k h := ⟨ha.opened_eq.symm, fun n => (ha.ending_eq n).symm⟩

/-- The same ids wait. -/
theorem Agree.waits_iff (ha : Agree stem h k) (id : String) : h.Waits stem id ↔ k.Waits stem id := by
  simp only [Waits, ha.opened_eq, ha.ending_eq]

theorem Agree.late (ha : Agree stem h k) (he : Late stem h e) : Late stem k e :=
  ⟨he.opens_eq, fun n hn hnone => he.ending_eq n (ha.opened_eq ▸ hn) ((ha.ending_eq n).trans hnone)⟩

/-- The same event goes on with both. -/
theorem Agree.concat (ha : Agree stem h k) (e : Event) : Agree stem (h ++ [e]) (k ++ [e]) := by
  refine ⟨by rw [opened_concat, opened_concat, ha.opened_eq], fun n => ?_⟩
  rcases Nat.lt_trichotomy n h.opened with hn | hn | hn
  · rw [ending?_concat hn, ending?_concat (ha.opened_eq ▸ hn), ha.ending_eq]
  · -- the request that this event may register
    cases he : e.opens with
    | true => rw [hn, ending?_concat_opened he, ha.opened_eq, ending?_concat_opened he]
    | false =>
      have hh : (h ++ [e]).opened ≤ n := by rw [opened_concat, he, hn]; simp
      have hk : (k ++ [e]).opened ≤ n := by rw [opened_concat, he, hn, ha.opened_eq]; simp
      rw [ending?_of_opened_le hh, ending?_of_opened_le hk]
  · have hle : ∀ l : History, l.opened = h.opened → (l ++ [e]).opened ≤ n := by
      intro l hl
      rw [opened_concat, hl]
      split <;> omega
    rw [ending?_of_opened_le (hle h rfl), ending?_of_opened_le (hle k ha.opened_eq.symm)]

theorem Agree.append (ha : Agree stem h k) (t : History) : Agree stem (h ++ t) (k ++ t) := by
  induction t generalizing h k with
  | nil => simpa using ha
  | cons e t ih => simpa using ih (ha.concat e)

/-- One of them may tell what comes too late. -/
theorem Agree.late_left (ha : Agree stem h k) (he : Late stem h e) : Agree stem (h ++ [e]) k :=
  ⟨he.opened.trans ha.opened_eq, fun n => (he.ending? n).trans (ha.ending_eq n)⟩

theorem Agree.late_right (ha : Agree stem h k) (he : Late stem h e) : Agree stem h (k ++ [e]) :=
  (ha.symm.late_left (ha.late he)).symm

theorem Agree.all_late_right {t : History} (ha : Agree stem h k) (ht : ∀ e ∈ t, Late stem h e) :
    Agree stem h (k ++ t) := by
  induction t generalizing k with
  | nil => simpa using ha
  | cons e t ih =>
    have hrest := ih (ha.late_right (ht e List.mem_cons_self)) fun f hf => ht f (List.mem_cons_of_mem _ hf)
    simpa using hrest

theorem Agree.all_late_left {t : History} (ha : Agree stem h k) (ht : ∀ e ∈ t, Late stem h e) :
    Agree stem (h ++ t) k :=
  (ha.symm.all_late_right fun e he => ha.late (ht e he)).symm

/-- If one of two histories that agree goes on with what comes too late only, so does the other. -/
theorem Agree.late_of_append {t u : History} (ha : Agree stem h k) (hau : Agree stem (h ++ t) (k ++ u))
    (hu : ∀ e ∈ u, Late stem k e) : ∀ e ∈ t, Late stem h e := by
  have hsame : Agree stem (h ++ t) h := by
    have hback := (Agree.refl stem k).all_late_left hu
    exact ⟨hau.opened_eq.trans (hback.opened_eq.trans ha.opened_eq.symm),
      fun n => (hau.ending_eq n).trans ((hback.ending_eq n).trans (ha.ending_eq n).symm)⟩
  intro e he
  refine ⟨?_, fun n hn hnone => ?_⟩
  · have hcount := hsame.opened_eq
    rw [opened, opened, List.countP_append] at hcount
    have hzero : List.countP Event.opens t = 0 := by omega
    simpa using List.countP_eq_zero.mp hzero e he
  · have hend := hsame.ending_eq n
    rw [ending?_append_eq hn, hnone, Option.none_or] at hend
    exact List.findSome?_eq_none_iff.mp hend e he

/-! ## What is about others -/

/-- A history without what is aimed at an id. -/
def aside (id : String) (h : History) : History := h.filter fun e => (e.endingOf? id).isNone

theorem aside_append (id : String) (h k : History) : aside id (h ++ k) = aside id h ++ aside id k :=
  List.filter_append h k

theorem since_aside (id : String) (n : Nat) (h : History) : since n (aside id h) = (since n h).map (aside id) := by
  induction h generalizing n with
  | nil => rfl
  | cons e h ih =>
    cases he : e.endingOf? id with
    | none =>
      have hkept : aside id (e :: h) = e :: aside id h := List.filter_cons_of_pos (by rw [he]; rfl)
      rw [hkept]
      simp only [since]
      split
      · cases n with
        | zero => rfl
        | succ n => exact ih n
      · exact ih n
    | some en =>
      obtain rfl := Event.eq_aimed_of_endingOf? he
      have hleft : aside id (.aimed id en :: h) = aside id h := List.filter_cons_of_neg (by rw [he]; simp)
      rw [hleft, ih]
      rfl

/-- What is aimed at one id does not end the requests of others. -/
theorem ending?_aside {id : String} {n : Nat} (hid : id ≠ idOf stem n) (h : History) :
    (aside id h).ending? stem n = h.ending? stem n := by
  have hfind : ∀ t : History, (aside id t).findSome? (Event.endingOf? (idOf stem n)) =
      t.findSome? (Event.endingOf? (idOf stem n)) := by
    intro t
    induction t with
    | nil => rfl
    | cons e t ih =>
      cases he : e.endingOf? id with
      | none =>
        have hkept : aside id (e :: t) = e :: aside id t := List.filter_cons_of_pos (by rw [he]; rfl)
        rw [hkept, List.findSome?_cons, List.findSome?_cons, ih]
      | some en =>
        obtain rfl := Event.eq_aimed_of_endingOf? he
        have hleft : aside id (.aimed id en :: t) = aside id t := List.filter_cons_of_neg (by rw [he]; simp)
        have hother : Event.endingOf? (idOf stem n) (.aimed id en) = none := if_neg hid
        rw [hleft, List.findSome?_cons, hother, ih]
  rw [ending?, ending?, since_aside]
  cases since n h with
  | none => rfl
  | some t => exact hfind t

end Hostlink.Registry.History
