import Hostlink.Proofs.Registry.Desk

/-!
# A registry at its desk

Timers, guards and paths of slots are of no account for who waits and what inboxes hold: with them
left out, every operation of a registry, and the effects that it asks for, is one event of its desk.

* `Registry.desk` — the desk of a registry and its inboxes;
* `Sound.desk_settle`, `Sound.desk_forget`, `desk_register` — each operation is an event;
* `desk_attachTimer`, `desk_attachGuard` — or none.
-/

namespace Hostlink.Registry

variable {γ τ : Type}

/-- What callers see of a registry and the inboxes of its requests. -/
def desk (r : Registry γ τ) (boxes : Inboxes) : Desk := ⟨r.stem, r.count, r.numbers, boxes⟩

/-- What an effect does to inboxes. -/
def onInboxes (boxes : Inboxes) : Effect γ τ → Inboxes
  | .deliver n s => boxes.deliver n s
  | .hangUp n => boxes.hangUp n
  | _ => boxes

/-- What effects do to inboxes, one after another. -/
def deliverAll (boxes : Inboxes) (effects : List (Effect γ τ)) : Inboxes :=
  effects.foldl onInboxes boxes

theorem deliverAll_cleanup (boxes : Inboxes) (s : Slot γ τ) (effects : List (Effect γ τ)) :
    deliverAll boxes (cleanup s ++ effects) = deliverAll boxes effects := by
  have h : deliverAll boxes (cleanup s) = boxes := by
    unfold cleanup
    cases s.timer <;> cases s.guard <;> rfl
  rw [deliverAll, List.foldl_append]
  exact congrArg (fun b => deliverAll b effects) h

/-! ## What operations answer -/

theorem settle_of_not_pending {r : Registry γ τ} {id : String} (h : ¬ r.isPending id) (now : Nat)
    (v : Settlement) : r.settle now id v = (false, [], r) := by
  have hf : r.find? id = none := by simpa [isPending] using h
  simp [settle, hf]

theorem forget_of_not_pending {r : Registry γ τ} {id : String} (h : ¬ r.isPending id) (now : Nat) :
    r.forget now id = (false, [], r) := by
  have hf : r.find? id = none := by simpa [isPending] using h
  simp [forget, hf]

/-- What has been settled does not wait any more. -/
theorem not_isPending_settle (r : Registry γ τ) (now : Nat) (id : String) (v : Settlement) :
    (r.settle now id v).2.2.isPending id = false := by
  rw [settle]
  cases hf : r.find? id with
  | none => simp [isPending, hf]
  | some slot => simp [isPending_erase]

theorem settle_fst (r : Registry γ τ) (now : Nat) (id : String) (v : Settlement) :
    (r.settle now id v).1 = r.isPending id := by
  simp only [settle, isPending]
  split <;> simp [*]

theorem forget_fst (r : Registry γ τ) (now : Nat) (id : String) :
    (r.forget now id).1 = r.isPending id := by
  simp only [forget, isPending]
  split <;> simp [*]

/-! ## Every operation is an event -/

theorem desk_register (r : Registry γ τ) (boxes : Inboxes) (path : String) (now : Nat) :
    (r.register path now).2.desk boxes.opened = (r.desk boxes).step .opened := by
  simp [desk, Desk.step, register, numbers]

theorem desk_update (r : Registry γ τ) (boxes : Inboxes) (id : String) (f : Slot γ τ → Slot γ τ)
    (hf : ∀ s, (f s).number = s.number) : (r.update id f).desk boxes = r.desk boxes := by
  simp only [desk, numbers_update r id f hf]
  rfl

theorem desk_attachTimer (r : Registry γ τ) (boxes : Inboxes) (id : String) (t : τ) :
    (r.attachTimer id t).2.desk (deliverAll boxes (r.attachTimer id t).1) = r.desk boxes := by
  unfold attachTimer
  split
  · exact desk_update r boxes id _ fun _ => rfl
  · rfl

theorem desk_attachGuard (r : Registry γ τ) (boxes : Inboxes) (id : String) (g : γ) :
    (r.attachGuard id g).2.desk (deliverAll boxes (r.attachGuard id g).1) = r.desk boxes := by
  unfold attachGuard
  split
  · next slot _ =>
    have h : deliverAll boxes (slot.guard.map (Effect.release (τ := τ))).toList = boxes := by
      cases slot.guard <;> rfl
    rw [h]
    exact desk_update r boxes id _ fun _ => rfl
  · rfl

namespace Sound

variable {r : Registry γ τ} (h : r.Sound)
include h

theorem attachTimer (id : String) (t : τ) : (r.attachTimer id t).2.Sound := by
  unfold Registry.attachTimer
  split
  · exact h.update id _ (fun _ => rfl) fun _ => rfl
  · exact h

theorem attachGuard (id : String) (g : γ) : (r.attachGuard id g).2.Sound := by
  unfold Registry.attachGuard
  split
  · exact h.update id _ (fun _ => rfl) fun _ => rfl
  · exact h

theorem settle (now : Nat) (id : String) (v : Settlement) : (r.settle now id v).2.2.Sound := by
  unfold Registry.settle
  split
  · exact h
  · exact h.erase id

theorem forget (now : Nat) (id : String) : (r.forget now id).2.2.Sound := by
  unfold Registry.forget
  split
  · exact h
  · exact h.erase id

/-- The desk finds the number of the slot. -/
theorem desk_find? (boxes : Inboxes) (id : String) :
    (r.desk boxes).find? id = (r.find? id).map (·.number) := by
  cases hf : r.find? id with
  | none =>
    refine Desk.find?_eq_none.mpr fun n hn => ?_
    obtain ⟨s, hs, rfl⟩ := List.mem_map.mp hn
    have hid : s.id = idOf r.stem s.number := h.id_eq s hs
    exact fun he => find?_eq_none.mp hf s hs (hid.trans he)
  | some s =>
    obtain ⟨hs, rfl⟩ := h.find?_eq_some.mp hf
    rw [h.id_eq s hs]
    exact Desk.find?_idOf (d := r.desk boxes) (List.mem_map_of_mem hs)

/-- An id waits if it was given out, and nothing was aimed at it since. -/
theorem isPending_iff_waits {boxes : Inboxes} {hist : History} (hf : (r.desk boxes).Follows hist) (id : String) :
    r.isPending id = true ↔ hist.Waits r.stem id := by
  rw [h.isPending_iff_numbers]
  constructor
  · rintro ⟨n, hn, hid⟩
    obtain ⟨hlt, hnone⟩ := hf.mem_waiting.mp hn
    exact ⟨n, hlt, hid, hnone⟩
  · rintro ⟨n, hlt, hid, hnone⟩
    exact ⟨n, hf.mem_waiting.mpr ⟨hlt, hnone⟩, hid⟩

/-- The desk after a slot has been taken away, if the effects end its request. -/
theorem desk_erase (boxes : Inboxes) {id : String} {s : Slot γ τ} (hf : r.find? id = some s)
    (e : Ending) :
    (r.erase id).desk (boxes.modify s.number e.act) = (r.desk boxes).step (.aimed id e) := by
  have hd : (r.desk boxes).find? id = some s.number := by rw [h.desk_find?, hf]; rfl
  obtain ⟨hs, rfl⟩ := h.find?_eq_some.mp hf
  simp only [Desk.step, Desk.aim, hd]
  have hn : (r.erase s.id).numbers = r.numbers.filter (· ≠ s.number) := by
    rw [h.id_eq s hs]
    exact h.numbers_erase
  simp only [desk, hn]
  rfl

theorem desk_settle (boxes : Inboxes) (now : Nat) (id : String) (v : Settlement) :
    (r.settle now id v).2.2.desk (deliverAll boxes (r.settle now id v).2.1) =
      (r.desk boxes).step (.aimed id (.settled v)) := by
  cases hf : r.find? id with
  | none =>
    have hd : (r.desk boxes).find? id = none := by rw [h.desk_find?, hf]; rfl
    simp [Registry.settle, hf, Desk.step, Desk.aim, hd, deliverAll]
  | some s =>
    rw [← h.desk_erase boxes hf]
    simp only [Registry.settle, hf, deliverAll_cleanup]
    rfl

theorem desk_forget (boxes : Inboxes) (now : Nat) (id : String) :
    (r.forget now id).2.2.desk (deliverAll boxes (r.forget now id).2.1) =
      (r.desk boxes).step (.aimed id .forgotten) := by
  cases hf : r.find? id with
  | none =>
    have hd : (r.desk boxes).find? id = none := by rw [h.desk_find?, hf]; rfl
    simp [Registry.forget, hf, Desk.step, Desk.aim, hd, deliverAll]
  | some s =>
    rw [← h.desk_erase boxes hf]
    simp only [Registry.forget, hf, deliverAll_cleanup]
    rfl

end Sound

end Hostlink.Registry
