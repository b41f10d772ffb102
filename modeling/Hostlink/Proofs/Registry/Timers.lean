import Hostlink.Proofs.Registry.Guards

/-!
# What becomes of timers

A timer is attached to a slot as a guard is, and is stopped when the slot goes, or at once if there is no slot for it.
Only the timer of a slot that gets another one is let go: nobody stops it any more, while a guard in its place would
be released.

* `Registry.swap` — timers and guards change places, `Registry.move_swap`: slots hold both alike;
* `Registry.timers_after` — every timer is stopped, or a slot holds it, or another took its place;
* `Registry.tended` — the timer of a request that waits is the slot's until it is stopped or loses its place;
* `Registry.timers_stopped` — **all timers of a request that does not wait are stopped, but for those that lost their
  place**.
-/

namespace Hostlink

variable {γ τ : Type}

/-- A slot with its timer for a guard, and its guard for a timer. -/
def Slot.swap (s : Slot γ τ) : Slot τ γ := ⟨s.id, s.number, s.path, s.guard, s.timer, s.since⟩

namespace Registry

/-! ## Timers for guards -/

/-- The registry whose guards are timers, and whose timers are guards. -/
def swap (r : Registry γ τ) : Registry τ γ := ⟨r.stem, r.count, r.slots.map Slot.swap⟩

/-- The move that attaches a timer where this one attaches a guard, and a guard where this one attaches a timer. -/
def Move.swap : Move γ τ → Move τ γ
  | .register path now => .register path now
  | .settle now id v => .settle now id v
  | .forget now id => .forget now id
  | .attachGuard id guard => .attachTimer id guard
  | .attachTimer id timer => .attachGuard id timer

theorem find?_swap (r : Registry γ τ) (id : String) : r.swap.find? id = (r.find? id).map Slot.swap :=
  List.find?_map

theorem erase_swap (r : Registry γ τ) (id : String) : r.swap.erase id = (r.erase id).swap := by
  rw [erase, erase, swap, swap, List.filter_map]
  rfl

theorem update_swap (r : Registry γ τ) (id : String) {f : Slot γ τ → Slot γ τ} {g : Slot τ γ → Slot τ γ}
    (hfg : ∀ s, g s.swap = (f s).swap) : r.swap.update id g = (r.update id f).swap := by
  have hslot : ∀ s : Slot γ τ, (if s.swap.id = id then g s.swap else s.swap) =
      (if s.id = id then f s else s).swap := by
    intro s
    rw [hfg, apply_ite Slot.swap]
    rfl
  simp only [update, swap, List.map_map, Function.comp_def, hslot]

section

variable {r : Registry γ τ} {id : String} {slot : Slot γ τ}

theorem attachGuard_of_none (hf : r.find? id = none) (g : γ) : r.attachGuard id g = ([.release g], r) := by
  rw [attachGuard, hf]

theorem attachGuard_of_some (hf : r.find? id = some slot) (g : γ) :
    r.attachGuard id g = ((slot.guard.map .release).toList, r.update id fun s => { s with guard := some g }) := by
  rw [attachGuard, hf]

theorem attachTimer_of_none (hf : r.find? id = none) (t : τ) : r.attachTimer id t = ([.abort t], r) :=
  if_neg (by simp [isPending, hf])

theorem attachTimer_of_some (hf : r.find? id = some slot) (t : τ) :
    r.attachTimer id t = ([], r.update id fun s => { s with timer := some t }) :=
  if_pos (by simp [isPending, hf])

theorem find?_swap_of_none (hf : r.find? id = none) : r.swap.find? id = none := by
  rw [find?_swap, hf, Option.map_none]

theorem find?_swap_of_some (hf : r.find? id = some slot) : r.swap.find? id = some slot.swap := by
  rw [find?_swap, hf, Option.map_some]

end

/-- **Slots hold timers as they hold guards.** -/
theorem move_swap (r : Registry γ τ) (m : Move γ τ) : (r.swap.move m.swap).2 = (r.move m).2.swap := by
  cases m with
  | register path now =>
    simp only [Move.swap, move, register, swap, List.map_append]
    rfl
  | settle now id v =>
    simp only [Move.swap, move, settle, find?_swap]
    cases r.find? id with
    | none => rfl
    | some slot => exact r.erase_swap id
  | forget now id =>
    simp only [Move.swap, move, forget, find?_swap]
    cases r.find? id with
    | none => rfl
    | some slot => exact r.erase_swap id
  | attachGuard id guard =>
    simp only [Move.swap, move]
    -- guards and timers have changed places, so the other operation is done
    cases hf : r.find? id with
    | none => rw [attachTimer_of_none (find?_swap_of_none hf), attachGuard_of_none hf]
    | some slot =>
      rw [attachTimer_of_some (find?_swap_of_some hf), attachGuard_of_some hf]
      exact r.update_swap id fun _ => rfl
  | attachTimer id timer =>
    simp only [Move.swap, move]
    cases hf : r.find? id with
    | none => rw [attachGuard_of_none (find?_swap_of_none hf), attachTimer_of_none hf]
    | some slot =>
      rw [attachGuard_of_some (find?_swap_of_some hf), attachTimer_of_some hf]
      exact r.update_swap id fun _ => rfl

theorem Sound.swap {r : Registry γ τ} (h : r.Sound) : r.swap.Sound := by
  refine ⟨fun s hs => ?_, fun s hs => ?_, List.pairwise_map.mpr h.ordered⟩
  · obtain ⟨old, hold, rfl⟩ := List.mem_map.mp hs
    exact h.id_eq old hold
  · obtain ⟨old, hold, rfl⟩ := List.mem_map.mp hs
    exact h.number_lt old hold

/-! ## Where timers are -/

/-- The timers that are stopped. -/
def stopped (es : List (Effect γ τ)) : List τ :=
  es.filterMap fun
    | .abort t => some t
    | _ => none

/-- The timers of the slots that wait. -/
def running (r : Registry γ τ) : List τ := r.slots.filterMap (·.timer)

/-- The timers that come with moves. -/
def armed (ms : List (Move γ τ)) : List τ :=
  ms.filterMap fun
    | .attachTimer _ t => some t
    | _ => none

/-- The timer of the request that waits under an id. -/
def timer? (r : Registry γ τ) (id : String) : Option τ := (r.find? id).bind (·.timer)

/-- The timer that loses its place by a move. -/
def displaced? (r : Registry γ τ) : Move γ τ → Option τ
  | .attachTimer id _ => r.timer? id
  | _ => none

theorem stopped_append (es es' : List (Effect γ τ)) : stopped (es ++ es') = stopped es ++ stopped es' :=
  List.filterMap_append

theorem stopped_cleanup (slot : Slot γ τ) : stopped (cleanup slot) = slot.timer.toList := by
  rw [cleanup, stopped_append]
  cases slot.timer <;> cases slot.guard <;> rfl

theorem held_swap (r : Registry γ τ) : r.swap.held = r.running := List.filterMap_map

theorem attached_swap (ms : List (Move γ τ)) : attached (ms.map Move.swap) = armed ms := by
  rw [attached, List.filterMap_map]
  refine List.filterMap_congr fun m _ => ?_
  cases m <;> rfl

/-- If timers were guards, those that are stopped would be released, and so would be the one that loses its place. -/
theorem released_swap (r : Registry γ τ) (m : Move γ τ) :
    released (r.swap.move m.swap).1 = stopped (r.move m).1 ++ (r.displaced? m).toList := by
  -- a slot that goes has stopped its timer, and the slot in the mirror has released it
  have htaken : ∀ (slot : Slot γ τ) {es : List (Effect τ γ)} {es' : List (Effect γ τ)}, released es = [] →
      stopped es' = [] → released (cleanup slot.swap ++ es) = stopped (cleanup slot ++ es') ++ [] := by
    intro slot es es' hes hes'
    rw [released_append, released_cleanup, hes, stopped_append, stopped_cleanup, hes', List.append_nil, List.append_nil,
      List.append_nil]
    rfl
  cases m with
  | register path now => rfl
  | settle now id v =>
    simp only [Move.swap, move, settle, find?_swap]
    cases r.find? id with
    | none => rfl
    | some slot => exact htaken slot rfl rfl
  | forget now id =>
    simp only [Move.swap, move, forget, find?_swap]
    cases r.find? id with
    | none => rfl
    | some slot => exact htaken slot rfl rfl
  | attachGuard id guard =>
    simp only [Move.swap, move]
    cases hf : r.find? id with
    | none =>
      rw [attachTimer_of_none (find?_swap_of_none hf), attachGuard_of_none hf]
      rfl
    | some slot =>
      rw [attachTimer_of_some (find?_swap_of_some hf), attachGuard_of_some hf]
      cases slot.guard <;> rfl
  | attachTimer id timer =>
    simp only [Move.swap, move, displaced?, timer?]
    cases hf : r.find? id with
    | none =>
      rw [attachGuard_of_none (find?_swap_of_none hf), attachTimer_of_none hf]
      rfl
    | some slot =>
      rw [attachGuard_of_some (find?_swap_of_some hf), attachTimer_of_some hf]
      exact released_map_release slot.timer

/-- **A move loses no timer, and doubles none**: what it does not stop, slots hold, or it has lost its place. -/
theorem Sound.timers_move {r : Registry γ τ} (h : r.Sound) (m : Move γ τ) :
    (stopped (r.move m).1 ++ (r.displaced? m).toList ++ (r.move m).2.running).Perm (r.running ++ armed [m]) := by
  have hguards := h.swap.guards_move m.swap
  rw [released_swap, move_swap, held_swap, held_swap] at hguards
  rw [← attached_swap]
  exact hguards

/-! ## Runs -/

/-- A timer was that of a request that waited, when another came and took its place. -/
def Displaced (stem : String) (ms : List (Move γ τ)) (id : String) (t : τ) : Prop :=
  ∃ before t' later, ms = before ++ .attachTimer id t' :: later ∧
    (after stem before).timer? id = some t

variable {stem : String} {ms : List (Move γ τ)} {id : String} {t : τ}

theorem not_displaced_nil : ¬ Displaced stem ([] : List (Move γ τ)) id t := by
  rintro ⟨before, t', later, hsplit, -⟩
  exact List.cons_ne_nil _ _ (List.append_eq_nil_iff.mp hsplit.symm).2

/-- One more move displaces the timer whose place it takes. -/
theorem displaced_concat {m : Move γ τ} :
    Displaced stem (ms ++ [m]) id t ↔
      Displaced stem ms id t ∨ (∃ t', m = .attachTimer id t') ∧ (after stem ms).timer? id = some t := by
  constructor
  · rintro ⟨before, t', later, hsplit, htimer⟩
    rcases List.eq_nil_or_concat later with rfl | ⟨later, m', rfl⟩
    · obtain ⟨rfl, hm⟩ := List.append_inj' hsplit rfl
      exact .inr ⟨⟨t', List.singleton_inj.mp hm⟩, htimer⟩
    · have hsplit' : ms ++ [m] = (before ++ .attachTimer id t' :: later) ++ [m'] := by simpa using hsplit
      obtain ⟨rfl, -⟩ := List.append_inj' hsplit' rfl
      exact .inl ⟨before, t', later, rfl, htimer⟩
  · rintro (⟨before, t', later, rfl, htimer⟩ | ⟨⟨t', rfl⟩, htimer⟩)
    · exact ⟨before, t', later ++ [m], by simp, htimer⟩
    · exact ⟨ms, t', [], rfl, htimer⟩

theorem displaced?_eq_some_iff {r : Registry γ τ} {m : Move γ τ} :
    r.displaced? m = some t ↔ ∃ id, (∃ t', m = .attachTimer id t') ∧ r.timer? id = some t := by
  cases m <;> simp [displaced?]

/-- Every timer that was attached is stopped, or a slot holds it, or it has lost its place. -/
theorem timers_after (stem : String) (ms : List (Move γ τ)) :
    ∃ gone, (stopped (effects stem ms) ++ (gone ++ (after stem ms).running)).Perm (armed ms) ∧
      ∀ t, t ∈ gone ↔ ∃ id, Displaced stem ms id t := by
  induction ms using List.reverseRecOn with
  | nil => exact ⟨[], .refl _, fun t => by simp [not_displaced_nil]⟩
  -- what the run has done and what the move does are told apart, and both kinds of loss go together
  | append_singleton ms m ih =>
    obtain ⟨gone, hperm, hgone⟩ := ih
    refine ⟨gone ++ ((after stem ms).displaced? m).toList, ?_, fun t => ?_⟩
    · have hmove := (sound_after stem ms).timers_move m
      have harmed : armed (ms ++ [m]) = armed ms ++ armed [m] := List.filterMap_append
      rw [effects_concat, after_concat, stopped_append, harmed]
      generalize stopped (effects stem ms) = old at hperm ⊢
      generalize stopped ((after stem ms).move m).1 = new at hmove ⊢
      generalize ((after stem ms).displaced? m).toList = lost at hmove ⊢
      generalize ((after stem ms).move m).2.running = left at hmove ⊢
      calc
        (old ++ new ++ (gone ++ lost ++ left)).Perm (old ++ (gone ++ (new ++ lost ++ left))) := by
          simp only [List.append_assoc]
          exact (List.perm_append_comm_assoc new gone _).append_left old
        (old ++ (gone ++ (new ++ lost ++ left))).Perm (old ++ (gone ++ ((after stem ms).running ++ armed [m]))) :=
          (hmove.append_left gone).append_left old
        (old ++ (gone ++ ((after stem ms).running ++ armed [m]))).Perm (armed ms ++ armed [m]) := by
          simpa only [List.append_assoc] using hperm.append_right (armed [m])
    · simp only [List.mem_append, hgone, Option.mem_toList, displaced?_eq_some_iff, displaced_concat, exists_or]

/-! ## One timer -/

theorem timer?_erase (r : Registry γ τ) {id other : String} (h : id ≠ other) :
    (r.erase other).timer? id = r.timer? id := by
  rw [timer?, find?_erase, if_neg h]
  rfl

theorem timer?_withGuard (r : Registry γ τ) (id other : String) (guard : γ) :
    (r.update other fun s => { s with guard := some guard }).timer? id = r.timer? id := by
  rw [timer?, find?_update r other id (f := fun s => { s with guard := some guard }) fun _ => rfl, timer?]
  cases r.find? id with
  | none => rfl
  | some slot =>
    rw [Option.map_some, Option.bind_some, Option.bind_some]
    split <;> rfl

/-- A slot has the timer that came last. -/
theorem timer?_withTimer (r : Registry γ τ) (id other : String) (timer : τ) :
    (r.update other fun s => { s with timer := some timer }).timer? id =
      if id = other ∧ r.isPending id then some timer else r.timer? id := by
  rw [timer?, find?_update r other id (f := fun s => { s with timer := some timer }) fun _ => rfl, timer?, isPending]
  cases hf : r.find? id with
  | none => simp
  | some slot =>
    have hid : slot.id = id := by simpa using List.find?_some hf
    rw [Option.map_some, Option.bind_some, Option.bind_some, hid]
    by_cases hother : id = other <;> simp [hother]

/-- The timer of a request is stopped by a move, or another comes, or it stays. -/
theorem timer_move {r : Registry γ τ} (htimer : r.timer? id = some t) (m : Move γ τ) :
    t ∈ stopped (r.move m).1 ∨ (∃ t', m = .attachTimer id t') ∨ (r.move m).2.timer? id = some t := by
  obtain ⟨slot, hf, ht⟩ := Option.bind_eq_some_iff.mp htimer
  have hcleanup : ∀ rest : List (Effect γ τ), t ∈ stopped (cleanup slot ++ rest) := fun rest => by
    simp [stopped_append, stopped_cleanup, ht]
  cases m with
  -- a slot that is new goes last, and hides no other
  | register path now =>
    refine .inr (.inr ?_)
    rw [move, register, timer?, find?, List.find?_append]
    rw [find?] at hf
    rw [hf]
    exact ht
  | settle now other v =>
    by_cases hother : id = other
    · rw [move, settle, ← hother, hf]
      exact .inl (hcleanup _)
    · refine .inr (.inr ?_)
      rw [move, settle]
      split
      · exact htimer
      · exact (r.timer?_erase hother).trans htimer
  | forget now other =>
    by_cases hother : id = other
    · rw [move, forget, ← hother, hf]
      exact .inl (hcleanup _)
    · refine .inr (.inr ?_)
      rw [move, forget]
      split
      · exact htimer
      · exact (r.timer?_erase hother).trans htimer
  | attachGuard other guard =>
    refine .inr (.inr ?_)
    rw [move, attachGuard]
    split
    · exact (r.timer?_withGuard id other guard).trans htimer
    · exact htimer
  | attachTimer other timer =>
    by_cases hother : id = other
    · exact .inr (.inl ⟨timer, hother ▸ rfl⟩)
    · refine .inr (.inr ?_)
      rw [move, attachTimer]
      split
      · exact (r.timer?_withTimer id other timer).trans ((if_neg fun h => hother h.1).trans htimer)
      · exact htimer

/-- **A timer is looked after.** Once it was attached to a request that waits, it is stopped, or it has lost its place,
or it is still that of the request. -/
theorem tended {before : List (Move γ τ)} (hpending : (after stem before).isPending id) (later : List (Move γ τ)) :
    let ms := before ++ .attachTimer id t :: later
    t ∈ stopped (effects stem ms) ∨ Displaced stem ms id t ∨ (after stem ms).timer? id = some t := by
  induction later using List.reverseRecOn with
  | nil =>
    refine .inr (.inr ?_)
    rw [after_concat, move, attachTimer, if_pos hpending]
    exact (timer?_withTimer _ id id t).trans (if_pos ⟨rfl, hpending⟩)
  | append_singleton later m ih =>
    have hsplit : before ++ .attachTimer id t :: (later ++ [m]) = (before ++ .attachTimer id t :: later) ++ [m] := by
      simp
    dsimp only
    rw [hsplit, effects_concat, stopped_append, displaced_concat, after_concat]
    rcases ih with hstopped | hdisplaced | htimer
    · exact .inl (List.mem_append_left _ hstopped)
    · exact .inr (.inl (.inl hdisplaced))
    · rcases timer_move htimer m with hstopped | hnext | hstays
      · exact .inl (List.mem_append_right _ hstopped)
      · exact .inr (.inl (.inr ⟨hnext, htimer⟩))
      · exact .inr (.inr hstays)

/-- A timer that comes for a request that does not wait is stopped at once. -/
theorem stopped_of_not_pending {before : List (Move γ τ)} (hpending : ¬ (after stem before).isPending id)
    (later : List (Move γ τ)) : t ∈ stopped (effects stem (before ++ .attachTimer id t :: later)) := by
  induction later using List.reverseRecOn with
  | nil =>
    rw [effects_concat, move, attachTimer, if_neg hpending, stopped_append]
    exact List.mem_append_right _ (List.mem_singleton_self t)
  | append_singleton later m ih =>
    have hsplit : before ++ .attachTimer id t :: (later ++ [m]) = (before ++ .attachTimer id t :: later) ++ [m] := by
      simp
    rw [hsplit, effects_concat, stopped_append]
    exact List.mem_append_left _ ih

/-- **The timers of a request that does not wait are stopped, but for those that lost their place.** Timers come for
requests that wait, as often as may be, and for others. After any moves, a timer that was attached to an id is stopped
if the id does not wait, unless it was the timer of that request when another one came. A timer that lost its place so
is never stopped, if no timer is attached twice. -/
theorem timers_stopped (stem : String) (ms : List (Move γ τ)) :
    (∀ id t, .attachTimer id t ∈ ms → ¬ (after stem ms).isPending id → ¬ Displaced stem ms id t →
      t ∈ stopped (effects stem ms)) ∧
    ((armed ms).Nodup → ∀ id t, Displaced stem ms id t → t ∉ stopped (effects stem ms)) := by
  constructor
  · intro id t hm hgone hkept
    obtain ⟨before, later, rfl⟩ := List.append_of_mem hm
    by_cases hpending : (after stem before).isPending id
    · rcases tended (t := t) hpending later with hstopped | hdisplaced | htimer
      · exact hstopped
      · exact absurd hdisplaced hkept
      · obtain ⟨slot, hf, -⟩ := Option.bind_eq_some_iff.mp htimer
        exact absurd (Option.isSome_of_mem hf) hgone
    · exact stopped_of_not_pending hpending later
  · intro hapart id t hdisplaced hstopped
    obtain ⟨gone, hperm, hgone⟩ := timers_after stem ms
    have hnodup := hperm.nodup_iff.mpr hapart
    have hlost : t ∈ gone ++ (after stem ms).running := List.mem_append_left _ ((hgone t).mpr ⟨id, hdisplaced⟩)
    exact (List.nodup_append.mp hnodup).2.2 t hstopped t hlost rfl

/-- A timer comes in the place of another, one for a request that is gone, and one for nobody. -/
theorem timers_stopped_second :
    let ms : List (Move String Nat) := [.register "/a" 0, .attachTimer "r1" 0, .attachTimer "r1" 1,
      .settle 0 "r1" (.ok .null), .attachTimer "r1" 2, .attachTimer "r9" 3]
    (armed ms).Nodup ∧ ¬ (after "r" ms).isPending "r1" ∧
      (Displaced "r" ms "r1" 0 ∧ 0 ∉ stopped (effects "r" ms)) ∧
      (¬ Displaced "r" ms "r1" 1 ∧ 1 ∈ stopped (effects "r" ms)) := by
  intro ms
  obtain ⟨hstopped, hlost⟩ := timers_stopped "r" ms
  have hapart : (armed ms).Nodup := by decide
  have hgone : ¬ (after "r" ms).isPending "r1" := by decide
  have hdisplaced : Displaced "r" ms "r1" 0 :=
    ⟨[.register "/a" 0, .attachTimer "r1" 0], 1, _, rfl, rfl⟩
  have hkept : ¬ Displaced "r" ([] ++ [.register "/a" 0] ++ [.attachTimer "r1" 0] ++ [.attachTimer "r1" 1] ++
      [.settle 0 "r1" (.ok .null)] ++ [.attachTimer "r1" 2] ++ [.attachTimer "r9" 3] : List (Move String Nat)) "r1" 1 := by
    simp only [displaced_concat, not_displaced_nil, reduceCtorEq, exists_false, false_and, or_false, false_or]
    rintro (((h | h) | h) | h) <;> exact absurd h.2 (by decide)
  exact ⟨hapart, hgone, ⟨hdisplaced, hlost hapart "r1" 0 hdisplaced⟩,
    hkept, hstopped "r1" 1 (.tail _ (.tail _ (.head _))) hgone hkept⟩

/-- A timer outlives its request: the first of two that came while it waited is not stopped when it is settled. -/
theorem timer_outlives_request :
    let ms : List (Move String Nat) :=
      [.register "/a" 0, .attachTimer "r1" 0, .attachTimer "r1" 1, .settle 0 "r1" (.ok .null)]
    .attachTimer "r1" 0 ∈ ms ∧ ¬ (after "r" ms).isPending "r1" ∧ 0 ∉ stopped (effects "r" ms) :=
  ⟨.tail _ (.head _), by decide, by decide⟩

end Registry

end Hostlink
