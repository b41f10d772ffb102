import Hostlink.Handlers
import Hostlink.Proofs.Inbox
import Mathlib.Data.List.Pairwise

/-!
# What happens to handlers

Tokens grow from registration to registration, and one handler at most waits under a name. So the
handler of a name is known by its token, and a registration takes out none but its own.

* `Handlers.Sound` — tokens grow, and names do not repeat; every operation keeps this;
* `Handlers.mem_erase`, `Handlers.find?_erase` — who waits when a name was taken out;
* `Handlers.peek_told` — what inboxes hold when the handler of a name was told;
* `Handlers.takeOwn_eq` — a handler is taken out only by its own registration.
-/

namespace Hostlink.Handlers

variable (h : Handlers) (name : String)

/-! ## Looking up a name -/

theorem find?_eq_some {h : Handlers} {name : String} {x : Handler} (hx : h.find? name = some x) :
    x ∈ h.waiting ∧ x.name = name :=
  ⟨List.mem_of_find?_eq_some hx, by simpa using List.find?_some hx⟩

theorem find?_eq_none {h : Handlers} {name : String} :
    h.find? name = none ↔ ∀ x ∈ h.waiting, x.name ≠ name := by
  simp [find?, List.find?_eq_none]

theorem mem_erase {x : Handler} : x ∈ (h.erase name).waiting ↔ x ∈ h.waiting ∧ x.name ≠ name := by
  simp [erase]

theorem erase_of_find?_eq_none {h : Handlers} {name : String} (hnone : h.find? name = none) :
    h.erase name = h := by
  have hall : h.waiting.filter (·.name ≠ name) = h.waiting := by
    refine List.filter_eq_self.mpr fun x hx => ?_
    simpa using find?_eq_none.mp hnone x hx
  rw [erase, hall]

theorem find?_erase (other : String) :
    (h.erase name).find? other = if other = name then none else h.find? other := by
  by_cases hother : other = name
  · rw [if_pos hother, find?_eq_none]
    intro x hx
    exact hother ▸ ((mem_erase h name).mp hx).2
  · rw [if_neg hother, find?, find?, erase, List.find?_filter]
    congr 1
    funext x
    by_cases hx : x.name = other
    · simp [hx, hother]
    · simp [hx]

/-- The inboxes when the handler of a name was told, if there is one. -/
def told (v : Settlement) (boxes : Inboxes) : Inboxes :=
  match h.find? name with
  | some x => boxes.deliver x.token v
  | none => boxes

theorem peek_told (v : Settlement) (boxes : Inboxes) (n : Nat) :
    (h.told name v boxes).peek n =
      if h.find? name = some ⟨name, n⟩ then (boxes.peek n).deliver v else boxes.peek n := by
  unfold told
  cases hx : h.find? name with
  | none => simp
  | some x =>
    obtain ⟨xname, xtoken⟩ := x
    obtain ⟨-, rfl⟩ := find?_eq_some hx
    simp [Inboxes.peek_deliver]

/-- A registration takes a handler out only if it is its own. -/
theorem takeOwn_eq (token : Nat) :
    h.takeOwn name token =
      if h.find? name = some ⟨name, token⟩ then (true, h.erase name) else (false, h) := by
  unfold takeOwn
  cases hf : h.find? name with
  | none => simp
  | some x =>
    obtain ⟨xname, xtoken⟩ := x
    obtain ⟨-, rfl⟩ := find?_eq_some hf
    simp

/-! ## Tokens grow -/

/-- Tokens are given out in order, and no name waits twice. -/
structure Sound (h : Handlers) : Prop where
  token_lt : ∀ x ∈ h.waiting, x.token < h.count
  ordered : h.waiting.Pairwise (·.token < ·.token)
  apart : h.waiting.Pairwise (·.name ≠ ·.name)

theorem sound_new : new.Sound := ⟨by simp [new], .nil, .nil⟩

namespace Sound

variable {h : Handlers} (hs : h.Sound)
include hs

theorem erase : (h.erase name).Sound :=
  ⟨fun x hx => hs.token_lt x ((mem_erase h name).mp hx).1, hs.ordered.filter _, hs.apart.filter _⟩

theorem takeOwn (token : Nat) : (h.takeOwn name token).2.Sound := by
  rw [takeOwn_eq]
  split
  · exact hs.erase name
  · exact hs

theorem register : (h.register name).2.2.Sound where
  token_lt x hx := by
    rcases List.mem_append.mp hx with hx | hx
    · exact Nat.lt_succ_of_lt ((hs.erase name).token_lt x hx)
    · rw [List.mem_singleton.mp hx]
      exact Nat.lt_succ_self _
  ordered := by
    refine List.pairwise_append.mpr ⟨(hs.erase name).ordered, List.pairwise_singleton _ _, ?_⟩
    intro x hx y hy
    rw [List.mem_singleton.mp hy]
    exact (hs.erase name).token_lt x hx
  apart := by
    refine List.pairwise_append.mpr ⟨(hs.erase name).apart, List.pairwise_singleton _ _, ?_⟩
    intro x hx y hy
    rw [List.mem_singleton.mp hy]
    exact ((mem_erase h name).mp hx).2

/-- Handlers that wait with the same token are the same. -/
theorem eq_of_token {x y : Handler} (hx : x ∈ h.waiting) (hy : y ∈ h.waiting)
    (htoken : x.token = y.token) : x = y := by
  have hne : h.waiting.Pairwise (·.token ≠ ·.token) := hs.ordered.imp fun hlt => Nat.ne_of_lt hlt
  have : Std.Symm fun x y : Handler => x.token ≠ y.token := ⟨fun _ _ hne => hne.symm⟩
  by_contra hxy
  exact hne.forall hx hy hxy htoken

/-- Handlers that wait under the same name are the same. -/
theorem eq_of_name {x y : Handler} (hx : x ∈ h.waiting) (hy : y ∈ h.waiting)
    (hname : x.name = y.name) : x = y := by
  have : Std.Symm fun x y : Handler => x.name ≠ y.name := ⟨fun _ _ hne => hne.symm⟩
  by_contra hne
  exact hs.apart.forall hx hy hne hname

/-- A handler that waits is found under its name. -/
theorem find?_eq_some_iff {x : Handler} : h.find? name = some x ↔ x ∈ h.waiting ∧ x.name = name := by
  refine ⟨find?_eq_some, fun ⟨hx, hname⟩ => ?_⟩
  cases hf : h.find? name with
  | none => exact absurd hname (find?_eq_none.mp hf x hx)
  | some y =>
    obtain ⟨hy, hyname⟩ := find?_eq_some hf
    rw [hs.eq_of_name hy hx (hyname.trans hname.symm)]

end Sound

end Hostlink.Handlers
