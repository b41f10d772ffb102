import Hostlink.Proofs.Text.Parts
import Hostlink.Registry
import Mathlib.Data.List.Nodup

/-!
# The slots of a registry

Ids are numbered, so that no two requests share one, and the slots of a registry are in order.

* `Registry.idOf_inj` — an id tells the number of its request;
* `Registry.Sound` — slots are numbered in order, below the count, and carry their own ids;
* `Registry.Sound.register`, `Registry.Sound.erase`, `Registry.Sound.update` — every operation keeps
  this;
* `Registry.numbers` — the numbers of the requests that wait, oldest first.
-/

namespace Hostlink.Registry

variable {γ τ : Type}

/-! ## Ids -/

theorem idOf_inj {stem : String} {m n : Nat} : idOf stem m = idOf stem n ↔ m = n := by
  rw [idOf, idOf, String.append_right_inj, Text.toString_inj]
  omega

/-! ## Sound registries -/

/-- Slots stand in the order of their numbers, which are below the count, and carry the ids of
their numbers. -/
structure Sound (r : Registry γ τ) : Prop where
  id_eq : ∀ s ∈ r.slots, s.id = idOf r.stem s.number
  number_lt : ∀ s ∈ r.slots, s.number < r.count
  ordered : r.slots.Pairwise (·.number < ·.number)

theorem sound_new (stem : String) : (new stem : Registry γ τ).Sound :=
  ⟨by simp [new], by simp [new], by simp [new]⟩

/-! ## Which requests wait -/

/-- The numbers of the requests that wait, oldest first. -/
def numbers (r : Registry γ τ) : List Nat := r.slots.map (·.number)

@[simp] theorem numbers_new (stem : String) : (new stem : Registry γ τ).numbers = [] := rfl

@[simp] theorem length_numbers (r : Registry γ τ) : r.numbers.length = r.size := List.length_map _

@[simp] theorem numbers_register (r : Registry γ τ) (path : String) (now : Nat) :
    (r.register path now).2.numbers = r.numbers ++ [r.count] := by
  simp [register, numbers]

@[simp] theorem numbers_update (r : Registry γ τ) (id : String) (f : Slot γ τ → Slot γ τ)
    (hf : ∀ s, (f s).number = s.number) : (r.update id f).numbers = r.numbers := by
  simp only [update, numbers, List.map_map]
  refine List.map_congr_left fun s _ => ?_
  simp only [Function.comp_apply]
  split <;> simp [hf]

theorem find?_eq_none {r : Registry γ τ} {id : String} :
    r.find? id = none ↔ ∀ s ∈ r.slots, s.id ≠ id := by
  simp [find?, List.find?_eq_none]

theorem find?_erase (r : Registry γ τ) (id other : String) :
    (r.erase id).find? other = if other = id then none else r.find? other := by
  by_cases hother : other = id
  · rw [if_pos hother, find?_eq_none]
    intro s hs
    have hid : s.id ≠ id := by simpa using (List.mem_filter.mp hs).2
    exact hother ▸ hid
  · rw [if_neg hother, find?, find?, erase, List.find?_filter]
    congr 1
    funext s
    by_cases hs : s.id = other
    · simp [hs, hother]
    · simp [hs]

theorem find?_update (r : Registry γ τ) (id other : String) {f : Slot γ τ → Slot γ τ} (hf : ∀ s, (f s).id = s.id) :
    (r.update id f).find? other = (r.find? other).map fun s => if s.id = id then f s else s := by
  have hid : ∀ s : Slot γ τ, (if s.id = id then f s else s).id = s.id := by
    intro s
    split
    · exact hf s
    · rfl
  rw [find?, update, List.find?_map]
  simp only [Function.comp_def, hid]
  rfl

theorem isPending_iff {r : Registry γ τ} {id : String} :
    r.isPending id ↔ ∃ s ∈ r.slots, s.id = id := by
  rw [isPending, find?, List.find?_isSome]
  simp

theorem isPending_erase (r : Registry γ τ) (id other : String) :
    (r.erase id).isPending other = (! decide (other = id) && r.isPending other) := by
  rw [isPending, find?_erase]
  by_cases hother : other = id <;> simp [hother, isPending]

theorem isPending_update (r : Registry γ τ) (id other : String) {f : Slot γ τ → Slot γ τ} (hf : ∀ s, (f s).id = s.id) :
    (r.update id f).isPending other = r.isPending other := by
  rw [isPending, find?_update r id other hf, Option.isSome_map, isPending]

namespace Sound

variable {r : Registry γ τ} (h : r.Sound)
include h

theorem numbers_nodup : r.numbers.Nodup :=
  List.pairwise_map.mpr (h.ordered.imp fun hlt => Nat.ne_of_lt hlt)

theorem eq_of_id {s t : Slot γ τ} (hs : s ∈ r.slots) (ht : t ∈ r.slots) (hid : s.id = t.id) :
    s = t := by
  rw [h.id_eq s hs, h.id_eq t ht, idOf_inj] at hid
  exact List.inj_on_of_nodup_map h.numbers_nodup hs ht hid

theorem find?_eq_some {id : String} {s : Slot γ τ} :
    r.find? id = some s ↔ s ∈ r.slots ∧ s.id = id := by
  constructor
  · intro hf
    exact ⟨List.mem_of_find?_eq_some hf, by simpa using List.find?_some hf⟩
  · rintro ⟨hs, rfl⟩
    cases hf : r.find? s.id with
    | none => exact absurd rfl (find?_eq_none.mp hf s hs)
    | some t =>
      have ht : t.id = s.id := by simpa using List.find?_some hf
      rw [h.eq_of_id (List.mem_of_find?_eq_some hf) hs ht]

/-- The slot of a request has its number. -/
theorem number_of_find? {n : Nat} {s : Slot γ τ} (hs : r.find? (idOf r.stem n) = some s) : s.number = n := by
  obtain ⟨hmem, hid⟩ := h.find?_eq_some.mp hs
  rw [h.id_eq s hmem] at hid
  exact idOf_inj.mp hid

/-- An id waits if it is that of a number that waits. -/
theorem isPending_iff_numbers {id : String} :
    r.isPending id ↔ ∃ n ∈ r.numbers, idOf r.stem n = id := by
  rw [isPending_iff]
  constructor
  · rintro ⟨s, hs, rfl⟩
    exact ⟨s.number, List.mem_map_of_mem hs, (h.id_eq s hs).symm⟩
  · rintro ⟨n, hn, rfl⟩
    obtain ⟨s, hs, rfl⟩ := List.mem_map.mp hn
    exact ⟨s, hs, h.id_eq s hs⟩

/-- Taking away an id takes away its number. -/
theorem numbers_erase {n : Nat} : (r.erase (idOf r.stem n)).numbers = r.numbers.filter (· ≠ n) := by
  simp only [erase, numbers, List.filter_map]
  congr 1
  refine List.filter_congr fun s hs => ?_
  simp [h.id_eq s hs, idOf_inj]

/-! ## The newest slot -/

section

variable {olds : List (Slot γ τ)} {slot : Slot γ τ} (hslots : r.slots = olds ++ [slot])
include hslots

/-- No older slot has the id of the newest. -/
theorem id_ne_last : ∀ s ∈ olds, s.id ≠ slot.id := by
  intro s hs hid
  have hlt : s.number < slot.number :=
    (List.pairwise_append.mp (hslots ▸ h.ordered)).2.2 s hs slot (List.mem_singleton_self _)
  have heq := h.eq_of_id (hslots ▸ List.mem_append_left _ hs)
    (hslots ▸ List.mem_append_right _ (List.mem_singleton_self _)) hid
  exact Nat.lt_irrefl _ (heq ▸ hlt)

theorem find?_last : r.find? slot.id = some slot :=
  h.find?_eq_some.mpr ⟨hslots ▸ List.mem_append_right _ (List.mem_singleton_self _), rfl⟩

/-- A change of the newest slot changes no other. -/
theorem update_last (f : Slot γ τ → Slot γ τ) : r.update slot.id f = { r with slots := olds ++ [f slot] } := by
  have holds : olds.map (fun s => if s.id = slot.id then f s else s) = olds :=
    (List.map_congr_left fun s hs => if_neg (h.id_ne_last hslots s hs)).trans (List.map_id' olds)
  rw [Registry.update, hslots, List.map_append, holds]
  simp

/-- The newest slot goes, and no other. -/
theorem erase_last : r.erase slot.id = { r with slots := olds } := by
  have holds : olds.filter (·.id ≠ slot.id) = olds :=
    List.filter_eq_self.mpr fun s hs => decide_eq_true (h.id_ne_last hslots s hs)
  rw [Registry.erase, hslots, List.filter_append, holds]
  simp

end

/-! ## Every operation keeps slots sound -/

theorem register (path : String) (now : Nat) : (r.register path now).2.Sound := by
  refine ⟨fun s hs => ?_, fun s hs => ?_, ?_⟩
  · rcases List.mem_append.mp hs with hs | hs
    · exact h.id_eq s hs
    · rw [List.mem_singleton.mp hs]; rfl
  · rcases List.mem_append.mp hs with hs | hs
    · exact Nat.lt_succ_of_lt (h.number_lt s hs)
    · rw [List.mem_singleton.mp hs]; exact Nat.lt_succ_self _
  · refine List.pairwise_append.mpr ⟨h.ordered, List.pairwise_singleton _ _, fun s hs t ht => ?_⟩
    rw [List.mem_singleton.mp ht]
    exact h.number_lt s hs

theorem erase (id : String) : (r.erase id).Sound :=
  ⟨fun s hs => h.id_eq s ((List.mem_filter.mp hs).1),
    fun s hs => h.number_lt s ((List.mem_filter.mp hs).1),
    h.ordered.filter _⟩

theorem update (id : String) (f : Slot γ τ → Slot γ τ) (hid : ∀ s, (f s).id = s.id)
    (hf : ∀ s, (f s).number = s.number) : (r.update id f).Sound := by
  have key : ∀ s, ((if s.id = id then f s else s).id = s.id) ∧
      (if s.id = id then f s else s).number = s.number := by
    intro s
    split <;> simp [hid, hf]
  refine ⟨fun s hs => ?_, fun s hs => ?_, ?_⟩
  · obtain ⟨t, ht, rfl⟩ := List.mem_map.mp hs
    rw [(key t).1, (key t).2]
    exact h.id_eq t ht
  · obtain ⟨t, ht, rfl⟩ := List.mem_map.mp hs
    rw [(key t).2]
    exact h.number_lt t ht
  · refine List.pairwise_map.mpr (h.ordered.imp fun {s t} hlt => ?_)
    rw [(key s).2, (key t).2]
    exact hlt

end Sound

end Hostlink.Registry
