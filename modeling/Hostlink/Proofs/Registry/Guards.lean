import Hostlink.Proofs.Lists
import Hostlink.Proofs.Registry.Simulation
import Mathlib.Data.List.Induction

/-!
# What becomes of guards

A slot holds the guard that was attached to it last. Guards are released when their slot goes, when another takes
their place, or at once if there is no slot for them. So none is forgotten, and none is released twice.

* `Registry.Move` — what can be done to a registry; `Registry.effects`, `Registry.after` — what several moves ask
  for, in order, and the registry that they lead to;
* `Sound.guards_move` — **a move loses no guard and doubles none**;
* `Registry.LastGuard` — a guard is the last that was attached to a request that waits;
* `Registry.guards_released_once` — **all guards but the last ones are released once**, and before anybody can see
  that a request was settled.
-/

namespace Hostlink.Registry

variable {γ τ : Type}

/-! ## Moves -/

/-- What can be done to a registry. -/
inductive Move (γ τ : Type) where
  | register (path : String) (now : Nat)
  | settle (now : Nat) (id : String) (v : Settlement)
  | forget (now : Nat) (id : String)
  | attachGuard (id : String) (guard : γ)
  | attachTimer (id : String) (timer : τ)

/-- What a move asks for, and the registry after it. -/
def move (r : Registry γ τ) : Move γ τ → List (Effect γ τ) × Registry γ τ
  | .register path now => ([], (r.register path now).2)
  | .settle now id v => (r.settle now id v).2
  | .forget now id => (r.forget now id).2
  | .attachGuard id guard => r.attachGuard id guard
  | .attachTimer id timer => r.attachTimer id timer

/-- Several moves on a fresh registry. -/
def moves (stem : String) (ms : List (Move γ τ)) : List (Effect γ τ) × Registry γ τ :=
  ms.foldl (fun s m => (s.1 ++ (s.2.move m).1, (s.2.move m).2)) ([], new stem)

/-- What several moves ask for, in order. -/
def effects (stem : String) (ms : List (Move γ τ)) : List (Effect γ τ) := (moves stem ms).1

/-- The registry after several moves. -/
def after (stem : String) (ms : List (Move γ τ)) : Registry γ τ := (moves stem ms).2

theorem moves_concat (stem : String) (ms : List (Move γ τ)) (m : Move γ τ) :
    moves stem (ms ++ [m]) = (effects stem ms ++ ((after stem ms).move m).1, ((after stem ms).move m).2) :=
  List.foldl_append

theorem effects_concat (stem : String) (ms : List (Move γ τ)) (m : Move γ τ) :
    effects stem (ms ++ [m]) = effects stem ms ++ ((after stem ms).move m).1 := by
  rw [effects, moves_concat]

theorem after_concat (stem : String) (ms : List (Move γ τ)) (m : Move γ τ) :
    after stem (ms ++ [m]) = ((after stem ms).move m).2 := by
  rw [after, moves_concat]

/-! ## Where guards are -/

/-- The guards that are released. -/
def released (es : List (Effect γ τ)) : List γ :=
  es.filterMap fun
    | .release g => some g
    | _ => none

/-- The guards of the slots that wait. -/
def held (r : Registry γ τ) : List γ := r.slots.filterMap (·.guard)

/-- The guards that come with moves. -/
def attached (ms : List (Move γ τ)) : List γ :=
  ms.filterMap fun
    | .attachGuard _ g => some g
    | _ => none

theorem released_append (es es' : List (Effect γ τ)) : released (es ++ es') = released es ++ released es' :=
  List.filterMap_append

theorem attached_append (ms ms' : List (Move γ τ)) : attached (ms ++ ms') = attached ms ++ attached ms' :=
  List.filterMap_append

theorem released_map_release (guard : Option γ) :
    released (guard.map (Effect.release (τ := τ))).toList = guard.toList := by
  cases guard <;> rfl

theorem released_cleanup (slot : Slot γ τ) : released (cleanup slot) = slot.guard.toList := by
  rw [cleanup, released_append]
  cases slot.timer <;> cases slot.guard <;> rfl

theorem mem_attached {ms : List (Move γ τ)} {g : γ} : g ∈ attached ms ↔ ∃ id, .attachGuard id g ∈ ms := by
  rw [attached, List.mem_filterMap]
  constructor
  · rintro ⟨m, hm, hg⟩
    cases m with
    | attachGuard id guard => exact ⟨id, Option.some.inj hg ▸ hm⟩
    | _ => cases hg
  · rintro ⟨id, hm⟩
    exact ⟨_, hm, rfl⟩

theorem perm_guards_middle (slot : Slot γ τ) (front back : List (Slot γ τ)) :
    ((front ++ slot :: back).filterMap (·.guard)).Perm
      (slot.guard.toList ++ (front ++ back).filterMap (·.guard)) := by
  rw [List.filterMap_append, List.filterMap_append, List.filterMap_cons]
  cases slot.guard with
  | none => exact .refl _
  | some g => exact List.perm_middle

namespace Sound

variable {r : Registry γ τ} (h : r.Sound)
include h

theorem ids_nodup : (r.slots.map (·.id)).Nodup :=
  List.pairwise_map.mpr <| h.ordered.imp_of_mem fun hs ht hlt hid =>
    Nat.ne_of_lt hlt (congrArg Slot.number (h.eq_of_id hs ht hid))

/-- The slot of an id stands between those of other ids. -/
theorem split {id : String} {slot : Slot γ τ} (hf : r.find? id = some slot) :
    ∃ front back, r.slots = front ++ slot :: back ∧ (r.erase id).slots = front ++ back ∧
      ∀ f, (r.update id f).slots = front ++ f slot :: back := by
  obtain ⟨hmem, rfl⟩ := h.find?_eq_some.mp hf
  obtain ⟨front, back, hslots, herase, hupdate⟩ := split_of_keys h.ids_nodup hmem
  exact ⟨front, back, hslots, herase, hupdate⟩

theorem move (m : Move γ τ) : (r.move m).2.Sound := by
  cases m with
  | register path now => exact h.register path now
  | settle now id v => exact h.settle now id v
  | forget now id => exact h.forget now id
  | attachGuard id guard => exact h.attachGuard id guard
  | attachTimer id timer => exact h.attachTimer id timer

/-- The guards of a registry are those of one slot and of the others. -/
theorem held_erase {id : String} {slot : Slot γ τ} (hf : r.find? id = some slot) :
    r.held.Perm (slot.guard.toList ++ (r.erase id).held) := by
  obtain ⟨front, back, hslots, herase, -⟩ := h.split hf
  rw [held, hslots, held, herase]
  exact perm_guards_middle slot front back

theorem held_update {id : String} {slot : Slot γ τ} (hf : r.find? id = some slot) (f : Slot γ τ → Slot γ τ) :
    (r.update id f).held.Perm ((f slot).guard.toList ++ (r.erase id).held) := by
  obtain ⟨front, back, -, herase, hupdate⟩ := h.split hf
  rw [held, hupdate f, held, herase]
  exact perm_guards_middle (f slot) front back

/-- A slot that goes releases its guard, whatever else has to be done. -/
theorem guards_taken {id : String} {slot : Slot γ τ} (hf : r.find? id = some slot) {rest : List (Effect γ τ)}
    (hrest : released rest = []) : (released (cleanup slot ++ rest) ++ (r.erase id).held).Perm (r.held ++ []) := by
  rw [released_append, released_cleanup, hrest, List.append_nil, List.append_nil]
  exact (h.held_erase hf).symm

/-- A guard takes the place of another, which is released. -/
theorem guards_replaced {id : String} {slot : Slot γ τ} (hf : r.find? id = some slot) (g : γ) :
    (slot.guard.toList ++ (r.update id fun s => { s with guard := some g }).held).Perm (r.held ++ [g]) :=
  calc
    (slot.guard.toList ++ (r.update id fun s => { s with guard := some g }).held).Perm
        (slot.guard.toList ++ g :: (r.erase id).held) := (h.held_update hf _).append_left _
    (slot.guard.toList ++ g :: (r.erase id).held).Perm (g :: (slot.guard.toList ++ (r.erase id).held)) :=
      List.perm_middle
    (g :: (slot.guard.toList ++ (r.erase id).held)).Perm (g :: r.held) := (h.held_erase hf).symm.cons g
    (g :: r.held).Perm (r.held ++ [g]) := (List.perm_append_singleton g r.held).symm

/-- **A move loses no guard and doubles none.** -/
theorem guards_move (m : Move γ τ) :
    (released (r.move m).1 ++ (r.move m).2.held).Perm (r.held ++ attached [m]) := by
  cases m with
  | register path now =>
    rw [Registry.move, Registry.register, held, List.filterMap_append]
    exact .refl _
  | settle now id v =>
    rw [Registry.move, Registry.settle]
    cases hf : r.find? id with
    | none => exact .of_eq (List.append_nil _).symm
    | some slot => exact h.guards_taken hf rfl
  | forget now id =>
    rw [Registry.move, Registry.forget]
    cases hf : r.find? id with
    | none => exact .of_eq (List.append_nil _).symm
    | some slot => exact h.guards_taken hf rfl
  | attachGuard id guard =>
    rw [Registry.move, Registry.attachGuard]
    cases hf : r.find? id with
    | none => exact (List.perm_append_singleton guard r.held).symm
    | some slot =>
      dsimp only
      rw [released_map_release]
      exact h.guards_replaced hf guard
  | attachTimer id timer =>
    rw [Registry.move, Registry.attachTimer]
    split
    · -- a timer leaves the guards of all slots alone
      have hsame : (r.update id fun s => { s with timer := some timer }).held = r.held := by
        rw [held, Registry.update, List.filterMap_map]
        refine List.filterMap_congr fun s _ => ?_
        rw [Function.comp_apply]
        split <;> rfl
      exact .of_eq (hsame.trans (List.append_nil _).symm)
    · exact .of_eq (List.append_nil _).symm

end Sound

/-- Ids begin as they did, and none is given out again. -/
theorem stem_count_move (r : Registry γ τ) (m : Move γ τ) :
    (r.move m).2.stem = r.stem ∧ r.count ≤ (r.move m).2.count := by
  cases m with
  | register path now => exact ⟨rfl, Nat.le_succ _⟩
  | settle now id v =>
    rw [move, settle]
    split <;> exact ⟨rfl, Nat.le_refl _⟩
  | forget now id =>
    rw [move, forget]
    split <;> exact ⟨rfl, Nat.le_refl _⟩
  | attachGuard id guard =>
    rw [move, attachGuard]
    split <;> exact ⟨rfl, Nat.le_refl _⟩
  | attachTimer id timer =>
    rw [move, attachTimer]
    split <;> exact ⟨rfl, Nat.le_refl _⟩

/-- A slot after a move was there before, perhaps with another timer, and has another guard only if that was attached; or
it is the one that was registered. -/
theorem slot_move {r : Registry γ τ} {m : Move γ τ} {s : Slot γ τ} (hs : s ∈ (r.move m).2.slots) :
    (∃ old ∈ r.slots, s = { old with guard := s.guard, timer := s.timer } ∧ ∀ g, s.guard = some g ↔
        m = .attachGuard s.id g ∨ (old.guard = some g ∧ ∀ g', m ≠ .attachGuard s.id g')) ∨
      (s.number = r.count ∧ s.id = idOf r.stem r.count ∧ s.guard = none ∧ m = .register s.path s.since) := by
  have hsame : s ∈ r.slots → (∀ id g, m ≠ .attachGuard id g) → ∃ old ∈ r.slots,
      s = { old with guard := s.guard, timer := s.timer } ∧ ∀ g, s.guard = some g ↔
        m = .attachGuard s.id g ∨ (old.guard = some g ∧ ∀ g', m ≠ .attachGuard s.id g') :=
    fun hold hm => ⟨s, hold, rfl, fun g => by simp [hm]⟩
  cases m with
  | register path now =>
    rcases List.mem_append.mp hs with hs | hs
    · exact .inl (hsame hs (by simp))
    · rw [List.mem_singleton.mp hs]
      exact .inr ⟨rfl, rfl, rfl, rfl⟩
  | settle now id v =>
    refine .inl (hsame ?_ (by simp))
    rw [move, settle] at hs
    split at hs
    · exact hs
    · exact (List.mem_filter.mp hs).1
  | forget now id =>
    refine .inl (hsame ?_ (by simp))
    rw [move, forget] at hs
    split at hs
    · exact hs
    · exact (List.mem_filter.mp hs).1
  | attachGuard id guard =>
    rw [move, attachGuard] at hs
    split at hs
    · obtain ⟨old, hold, rfl⟩ := List.mem_map.mp hs
      -- the guard of this slot is the new one, and that of any other is what it was
      refine .inl ⟨old, hold, ?_⟩
      by_cases hid : old.id = id
      · simp [hid]
      · simp [hid, Ne.symm hid]
    · next hnone =>
      -- nobody waits under the id, so that no slot has it
      have hid : s.id ≠ id := find?_eq_none.mp hnone s hs
      exact .inl ⟨s, hs, rfl, by simp [hid.symm]⟩
  | attachTimer id timer =>
    rw [move, attachTimer] at hs
    split at hs
    · obtain ⟨old, hold, rfl⟩ := List.mem_map.mp hs
      refine .inl ⟨old, hold, ?_⟩
      split <;> simp
    · exact .inl (hsame hs (by simp))

/-! ## Runs -/

variable (stem : String) (ms : List (Move γ τ))

theorem sound_after : (after stem ms).Sound := by
  induction ms using List.reverseRecOn with
  | nil => exact sound_new stem
  | append_singleton ms m ih =>
    rw [after_concat]
    exact ih.move m

theorem stem_after : (after stem ms).stem = stem := by
  induction ms using List.reverseRecOn with
  | nil => rfl
  | append_singleton ms m ih =>
    rw [after_concat]
    exact (stem_count_move _ m).1.trans ih

theorem count_after_le (later : List (Move γ τ)) : (after stem ms).count ≤ (after stem (ms ++ later)).count := by
  induction later using List.reverseRecOn with
  | nil => rw [List.append_nil]
  | append_singleton later m ih =>
    rw [← List.append_assoc, after_concat]
    exact ih.trans (stem_count_move _ m).2

/-- Every guard that was attached is released, or a slot holds it. -/
theorem guards_after : (released (effects stem ms) ++ (after stem ms).held).Perm (attached ms) := by
  induction ms using List.reverseRecOn with
  | nil => exact .refl _
  | append_singleton ms m ih =>
    rw [effects_concat, after_concat, released_append, attached_append, List.append_assoc]
    have hmove := (sound_after stem ms).guards_move m
    refine (hmove.append_left _).trans ?_
    rw [← List.append_assoc]
    exact ih.append_right _

/-! ## The guard of a slot -/

/-- A guard was attached to a request that waited, and no other was attached to that since. -/
def Given (id : String) (g : γ) : Prop :=
  ∃ before later, ms = before ++ .attachGuard id g :: later ∧ (after stem before).isPending id ∧
    ∀ g', .attachGuard id g' ∉ later

theorem Given.mem {stem : String} {ms : List (Move γ τ)} {id : String} {g : γ} (h : Given stem ms id g) :
    .attachGuard id g ∈ ms := by
  obtain ⟨before, later, rfl, -⟩ := h
  simp

/-- A guard is the last that was attached to a request that waits. -/
def LastGuard (id : String) (g : γ) : Prop := (after stem ms).isPending id ∧ Given stem ms id g

variable {stem ms} {id : String} {g : γ}

theorem given_concat {m : Move γ τ} :
    Given stem (ms ++ [m]) id g ↔
      (m = .attachGuard id g ∧ (after stem ms).isPending id) ∨
        (Given stem ms id g ∧ ∀ g', m ≠ .attachGuard id g') := by
  constructor
  · rintro ⟨before, later, hsplit, hpending, hlast⟩
    -- the guard came last of all, or one more move came after it
    rcases List.eq_nil_or_concat later with rfl | ⟨later, m', rfl⟩
    · obtain ⟨rfl, hm⟩ := List.append_inj' hsplit rfl
      exact .inl ⟨List.singleton_inj.mp hm, hpending⟩
    · have hsplit' : ms ++ [m] = (before ++ .attachGuard id g :: later) ++ [m'] := by simpa using hsplit
      obtain ⟨rfl, hm⟩ := List.append_inj' hsplit' rfl
      obtain rfl := List.singleton_inj.mp hm
      refine .inr ⟨⟨before, later, rfl, hpending, fun g' hg' => hlast g' ?_⟩, fun g' hg' => hlast g' ?_⟩
      · simp [hg']
      · simp [hg']
  · rintro (⟨rfl, hpending⟩ | ⟨⟨before, later, rfl, hpending, hlast⟩, hm⟩)
    · exact ⟨ms, [], rfl, hpending, fun _ => List.not_mem_nil⟩
    · refine ⟨before, later ++ [m], by simp, hpending, fun g' hg' => ?_⟩
      rcases List.mem_append.mp hg' with hg' | hg'
      · exact hlast g' hg'
      · exact hm g' (List.mem_singleton.mp hg').symm

/-- Nothing was attached to a request that is not there yet. -/
theorem not_given_new : ¬ Given stem ms (idOf stem (after stem ms).count) g := by
  rintro ⟨before, later, hsplit, hpending, -⟩
  obtain ⟨s, hs, hid⟩ := isPending_iff.mp hpending
  have hsound := sound_after stem before
  rw [hsound.id_eq s hs, stem_after, idOf_inj] at hid
  have hlt : s.number < (after stem before).count := hsound.number_lt s hs
  have hle : (after stem before).count ≤ (after stem ms).count := hsplit ▸ count_after_le stem before _
  omega

/-- **A slot holds the guard that was attached to it last.** -/
theorem guard_eq_some_iff {s : Slot γ τ} (hs : s ∈ (after stem ms).slots) :
    s.guard = some g ↔ Given stem ms s.id g := by
  induction ms using List.reverseRecOn generalizing s with
  | nil => exact absurd hs List.not_mem_nil
  | append_singleton ms m ih =>
    rw [after_concat] at hs
    rw [given_concat]
    rcases slot_move hs with ⟨old, hold, hsame, hguard⟩ | ⟨-, hid, hnone, hm⟩
    · -- a slot that was there has waited, so that what the move attaches to its id counts
      have hid : s.id = old.id := by rw [hsame]
      have hpending : (after stem ms).isPending s.id := isPending_iff.mpr ⟨old, hold, hid.symm⟩
      rw [hguard, ih hold, hid]
      simp [← hid, hpending]
    · -- a new slot has no guard, though one may have come for its id before
      rw [hid, stem_after, hnone, hm]
      simp [not_given_new]

theorem mem_held : g ∈ (after stem ms).held ↔ ∃ id, LastGuard stem ms id g := by
  rw [held, List.mem_filterMap]
  constructor
  · rintro ⟨s, hs, hguard⟩
    exact ⟨s.id, isPending_iff.mpr ⟨s, hs, rfl⟩, (guard_eq_some_iff hs).mp hguard⟩
  · rintro ⟨id, hpending, hgiven⟩
    obtain ⟨s, hs, rfl⟩ := isPending_iff.mp hpending
    exact ⟨s, hs, (guard_eq_some_iff hs).mpr hgiven⟩

/-! ## When guards are released -/

/-- A guard that was attached is released, or still with its request. -/
theorem released_or_given (hapart : (attached ms).Nodup) (hm : .attachGuard id g ∈ ms) :
    g ∈ released (effects stem ms) ∨ LastGuard stem ms id g := by
  have hg : g ∈ released (effects stem ms) ++ (after stem ms).held :=
    (guards_after stem ms).mem_iff.mpr (mem_attached.mpr ⟨id, hm⟩)
  refine (List.mem_append.mp hg).imp_right fun hheld => ?_
  obtain ⟨id', hlast⟩ := mem_held.mp hheld
  obtain rfl : id = id' := by
    by_contra hne
    exact ne_of_nodup_filterMap hapart hm hlast.2.mem (by simpa using hne) rfl rfl rfl
  exact hlast

theorem deliver_not_mem_cleanup (slot : Slot γ τ) (n : Nat) (v : Settlement) : .deliver n v ∉ cleanup slot := by
  simp [cleanup]

/-- Only settling a request delivers to its inbox, and that comes last. -/
theorem deliver_move {r : Registry γ τ} (h : r.Sound) {m : Move γ τ} {n : Nat} {v : Settlement}
    (hmem : .deliver n v ∈ (r.move m).1) :
    ∃ slot line, r.find? (idOf r.stem n) = some slot ∧ (r.move m).1 = cleanup slot ++ [line] ++ [.deliver n v] ∧
      .deliver n v ∉ cleanup slot ++ [line] := by
  cases m with
  | register path now => exact absurd hmem List.not_mem_nil
  | settle now id w =>
    rw [move, settle] at hmem ⊢
    cases hf : r.find? id with
    | none =>
      rw [hf] at hmem
      exact absurd hmem List.not_mem_nil
    | some slot =>
      rw [hf] at hmem
      obtain ⟨hslot, rfl⟩ := h.find?_eq_some.mp hf
      -- the line and the clean-up are no deliveries, so that the delivery is the last effect
      have hlast : n = slot.number ∧ v = w := by
        simpa [deliver_not_mem_cleanup] using hmem
      obtain ⟨rfl, rfl⟩ := hlast
      refine ⟨slot, .record slot.id slot.path (label v) (now - slot.since), h.id_eq slot hslot ▸ hf, ?_, ?_⟩
      · simp
      · simp [deliver_not_mem_cleanup]
  | forget now id =>
    rw [move, forget] at hmem
    split at hmem
    · exact absurd hmem List.not_mem_nil
    · simp [deliver_not_mem_cleanup] at hmem
  | attachGuard id guard =>
    rw [move, attachGuard] at hmem
    split at hmem
    · simp at hmem
    · simp at hmem
  | attachTimer id timer =>
    rw [move, attachTimer] at hmem
    split at hmem
    · exact absurd hmem List.not_mem_nil
    · simp at hmem

/-- **All guards but the last ones are released once.** Guards are told apart, and are attached to requests that wait,
to others that do not any more, and to ids that nobody knows. After any moves, no guard has been released twice, and
those that were released are all but the last of each request that waits. And at any moment of the next move, a
settlement is in the inbox of a request only if all guards of that have been released. -/
theorem guards_released_once (stem : String) {ms : List (Move γ τ)} (hapart : (attached ms).Nodup) :
    (released (effects stem ms)).Nodup ∧
      (∀ g, g ∈ released (effects stem ms) ↔ g ∈ attached ms ∧ ∀ id, ¬ LastGuard stem ms id g) ∧
      ∀ m done n v, done <+: ((after stem ms).move m).1 → .deliver n v ∈ done →
        ∀ g, .attachGuard (idOf stem n) g ∈ ms → g ∈ released (effects stem ms ++ done) := by
  have hperm := guards_after stem ms
  have hnodup : (released (effects stem ms) ++ (after stem ms).held).Nodup := hperm.nodup_iff.mpr hapart
  obtain ⟨hreleased, -, hdisjoint⟩ := List.nodup_append.mp hnodup
  refine ⟨hreleased, fun g => ?_, fun m done n v hdone hmem g hg => ?_⟩
  · rw [← hperm.mem_iff, List.mem_append, ← not_exists, ← mem_held]
    constructor
    · exact fun hg => ⟨.inl hg, fun hheld => hdisjoint g hg g hheld rfl⟩
    · exact fun ⟨hg, hnot⟩ => hg.resolve_right hnot
  · rw [released_append]
    rcases released_or_given hapart hg with hgone | ⟨hpending, hgiven⟩
    · exact List.mem_append_left _ hgone
    · refine List.mem_append_right _ ?_
      obtain ⟨slot, line, hf, heffects, hnot⟩ := deliver_move (sound_after stem ms) (hdone.subset hmem)
      obtain ⟨hslot, hid⟩ := (sound_after stem ms).find?_eq_some.mp hf
      rw [stem_after] at hid
      have hguard : slot.guard = some g := (guard_eq_some_iff hslot).mpr (hid ▸ hgiven)
      -- the settlement comes last, so all that the move asks for is done
      have hall : done = cleanup slot ++ [line] ++ [.deliver n v] := by
        rw [heffects] at hdone
        exact (List.prefix_concat_iff.mp hdone).resolve_right fun hearly => hnot (hearly.subset hmem)
      rw [hall, released_append, released_append, released_cleanup, hguard]
      exact List.mem_append_left _ (List.mem_append_left _ (List.mem_singleton_self g))

/-- A guard is replaced, and another comes for nobody; the last one goes before the settlement comes. -/
theorem guards_released_once_replaced :
    let ms : List (Move String Nat) :=
      [.register "/a" 0, .attachGuard "r1" "a", .attachGuard "r1" "b", .attachGuard "r9" "c"]
    let done := ((after "r" ms).move (.settle 0 "r1" (.ok .null))).1
    (attached ms).Nodup ∧ released (effects "r" ms) = ["a", "c"] ∧
      LastGuard "r" ms "r1" "b" ∧ "b" ∉ released (effects "r" ms) ∧
      "b" ∈ released (effects "r" ms ++ done) := by
  intro ms done
  have hapart : (attached ms).Nodup := by decide
  obtain ⟨-, hiff, hbefore⟩ := guards_released_once "r" hapart
  have hlast : LastGuard "r" ms "r1" "b" :=
    ⟨rfl, [.register "/a" 0, .attachGuard "r1" "a"], [.attachGuard "r9" "c"], rfl, rfl, by simp⟩
  have hdeliver : .deliver 0 (.ok .null) ∈ done := .tail _ (.tail _ (.head _))
  exact ⟨hapart, rfl, hlast, fun hb => ((hiff "b").mp hb).2 "r1" hlast,
    hbefore _ done 0 _ (List.prefix_refl _) hdeliver "b" (.tail _ (.tail _ (.head _)))⟩

end Hostlink.Registry
