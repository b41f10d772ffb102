import Hostlink.Proofs.Bridge.Delivery

/-!
# Timers

A request that has a limit is given a timer with its deadline. The timer is ready to run or sleeps until the
deadline as long as the request waits, and not longer.

* `Bridge.Ticks` — a timer has neither run out nor been stopped;
* `Bridge.Timed` — timers belong to requests that wait, and have their deadlines;
* `Timed.runReady`, `Timed.tick`, `Timed.advance`, `Timed.call` — whatever happens keeps this;
* `Bridge.ready_tick` — a tick leaves no work;
* `Session.dues`, `Session.timed_run` — **timers and deadlines after a run**.
-/

namespace Hostlink.Bridge

variable {σ : Type}

/-! ## Stopping timers -/

/-- A timer is ready to run, or sleeps. -/
def Ticks (b : Bridge σ) (m : Nat) : Prop := .timer m ∈ b.ready ∨ m ∈ b.sleepers

theorem mem_sleepers_after (b : Bridge σ) (effects : List (Effect Artefact Nat)) (r : Registry Artefact Nat) {m : Nat} :
    m ∈ (b.after effects r).sleepers ↔ m ∈ b.sleepers ∧ ∀ e ∈ effects, stops e ≠ some (.timer m) := by
  rw [sleepers_after, List.mem_filter, not_stopped]

theorem ticks_after (b : Bridge σ) (effects : List (Effect Artefact Nat)) (r : Registry Artefact Nat) {m : Nat} :
    (b.after effects r).Ticks m ↔ b.Ticks m ∧ ∀ e ∈ effects, stops e ≠ some (.timer m) := by
  rw [Ticks, mem_ready_after_iff, mem_sleepers_after, ← or_and_right]
  rfl

theorem stops_release (g : Artefact) (m : Nat) : stops (.release g) ≠ some (.timer m) := by
  cases g <;> simp [stops]

/-- The end of a request stops its own timer, and no other. -/
theorem stops_cleanup {slot : Slot Artefact Nat} {rest : List (Effect Artefact Nat)} (m : Nat)
    (hrest : ∀ e ∈ rest, stops e = none) :
    (∀ e ∈ Registry.cleanup slot ++ rest, stops e ≠ some (.timer m)) ↔ slot.timer ≠ some m := by
  have howns : stopped (Registry.cleanup slot ++ rest) (.timer m) = true ↔ slot.timer = some m :=
    stopped_cleanup hrest (.timer m)
  rw [← not_stopped, Bool.not_eq_true', ← Bool.not_eq_true, howns]

/-! ## Bridges that do not differ in timers -/

/-- A request as far as its timer goes. -/
def timing (s : Slot Artefact Nat) : String × Nat × Option Nat := (s.id, s.number, s.timer)

/-- The same requests wait with the same timers, and time is the same. -/
structure Alike (b c : Bridge σ) : Prop where
  sound : b.registry.Sound → c.registry.Sound
  stem : c.registry.stem = b.registry.stem
  count : c.registry.count = b.registry.count
  slots : c.registry.slots.map timing = b.registry.slots.map timing
  times : c.times = b.times
  sleepers : ∀ m, m ∈ c.sleepers ↔ m ∈ b.sleepers
  ready : ∀ m, .timer m ∈ c.ready ↔ .timer m ∈ b.ready

theorem mem_of_map_timing {l l' : List (Slot Artefact Nat)} (h : l.map timing = l'.map timing) {s : Slot Artefact Nat}
    (hs : s ∈ l) : ∃ s' ∈ l', s'.id = s.id ∧ s'.number = s.number ∧ s'.timer = s.timer := by
  have hmem : timing s ∈ l'.map timing := h ▸ List.mem_map_of_mem hs
  obtain ⟨s', hs', heq⟩ := List.mem_map.mp hmem
  obtain ⟨hid, hrest⟩ := Prod.mk.inj heq
  exact ⟨s', hs', hid, Prod.mk.inj hrest⟩

theorem Alike.trans {b c d : Bridge σ} (hc : b.Alike c) (hd : c.Alike d) : b.Alike d :=
  ⟨fun h => hd.sound (hc.sound h), hd.stem.trans hc.stem, hd.count.trans hc.count, hd.slots.trans hc.slots,
    hd.times.trans hc.times, fun m => (hd.sleepers m).trans (hc.sleepers m), fun m => (hd.ready m).trans (hc.ready m)⟩

theorem Alike.of_eq {b c : Bridge σ} (hreg : c.registry = b.registry) (htimes : c.times = b.times)
    (hsleepers : c.sleepers = b.sleepers) (hready : ∀ m, .timer m ∈ c.ready ↔ .timer m ∈ b.ready) : b.Alike c :=
  ⟨fun h => hreg ▸ h, by rw [hreg], by rw [hreg], by rw [hreg], htimes, fun m => by rw [hsleepers], hready⟩

/-- A new guard is no matter of time. -/
theorem alike_attachGuard (b : Bridge σ) (id : String) (g : Artefact) : b.Alike (b.attachGuard id g) := by
  have hreg : (b.attachGuard id g).registry = (b.registry.attachGuard id g).2 := registry_after ..
  have hstops : ∀ m, ∀ e ∈ (b.registry.attachGuard id g).1, stops e ≠ some (.timer m) := by
    intro m e he
    unfold Registry.attachGuard at he
    split at he
    · obtain ⟨g', -, rfl⟩ := Option.map_eq_some_iff.mp (Option.mem_toList.mp he)
      exact stops_release g' m
    · rw [List.mem_singleton.mp he]
      exact stops_release g m
  refine ⟨fun hs => hreg ▸ hs.attachGuard id g, ?_, ?_, ?_, times_after .., fun m => ?_, fun m => ?_⟩
  · rw [hreg]
    unfold Registry.attachGuard
    split <;> rfl
  · rw [hreg]
    unfold Registry.attachGuard
    split <;> rfl
  · rw [hreg]
    unfold Registry.attachGuard
    split
    · dsimp only [Registry.update]
      rw [List.map_map]
      refine List.map_congr_left fun s _ => ?_
      dsimp only [Function.comp_apply]
      split <;> rfl
    · rfl
  · rw [attachGuard, mem_sleepers_after]
    exact and_iff_left (hstops m)
  · rw [attachGuard, mem_ready_after_iff]
    exact and_iff_left (hstops m)

/-- A URL that is handed over is no matter of time, either. -/
theorem alike_trigger {b c : Bridge σ} {id url : String} (h : b.trigger id url = .ok c) : b.Alike c := by
  have hready : ∀ {t : Task}, (∀ m, t ≠ .timer m) → ∀ m, .timer m ∈ b.ready ++ [t] ↔ .timer m ∈ b.ready := by
    intro t ht m
    simp [(ht m).symm]
  rcases trigger_ok h with ⟨-, rfl⟩ | ⟨-, e, page, -, rfl⟩
  · have hasked : b.Alike (b.asked id url) :=
      .of_eq rfl rfl rfl (hready fun m => by simp)
    exact hasked.trans (alike_attachGuard _ _ _)
  · have hshown : b.Alike (b.shown page) := by
      unfold shown wakeServer
      split
      · exact .of_eq rfl rfl rfl (hready fun m => by simp)
      · exact .of_eq rfl rfl rfl fun _ => .rfl
    exact hshown.trans (alike_attachGuard _ _ _)

/-- So is one that is not. -/
theorem alike_missed (b : Bridge σ) (url : String) : b.Alike (b.missed url) := by
  obtain ⟨page, hmissed⟩ := missed_eq b url
  rw [hmissed]
  exact .of_eq rfl rfl rfl fun _ => .rfl

theorem Issued.limited {b c : Bridge σ} {id id' : String} {limit : Option Nat} (h : b.Issued id)
    (hl : b.Limited id' limit c) : c.Issued id := by
  cases limit with
  | none =>
    obtain rfl : c = b := hl
    exact h
  | some ms => exact h.armTimer hl

/-! ## Timers of requests -/

/-- What timers there are, where `dues` are the deadlines of all requests that were made. A request that is new
has no timer yet. -/
structure Timed (dues : List (Option Nat)) (new : Option String) (b : Bridge σ) : Prop where
  sound : b.registry.Sound
  traced : b.Traced
  count_eq : b.registry.count = dues.length
  /-- A timer has the deadline of its request. -/
  dated : ∀ t ∈ b.timers, ∃ n, t.id = b.idOf n ∧ dues[n]? = some (some t.deadline)
  /-- A request with a deadline has a timer. -/
  armed : ∀ s ∈ b.registry.slots, s.timer = none → some s.id = new ∨ dues[s.number]? = some none
  /-- While the request waits, its timer sleeps until the deadline, or is ready to run. -/
  awake : ∀ s ∈ b.registry.slots, ∀ m, s.timer = some m → .timer m ∈ b.ready ∨ m ∈ b.sleepers ∧ b.clock < b.deadline m
  /-- When the request has ended, its timer is stopped. -/
  owned : ∀ m, b.Ticks m → ∃ s ∈ b.registry.slots, s.timer = some m

namespace Timed

variable {dues : List (Option Nat)} {new : Option String} {b c : Bridge σ}

section

variable (h : b.Timed dues new)
include h

theorem congr (hc : b.Alike c) (htraced : c.Traced) : c.Timed dues new := by
  obtain ⟨htimers, hclock⟩ := Prod.mk.inj hc.times
  have hid : ∀ n, c.idOf n = b.idOf n := fun n => by rw [idOf, idOf, hc.stem]
  have hdeadline : ∀ m, c.deadline m = b.deadline m := fun m => by rw [deadline, deadline, htimers]
  refine ⟨hc.sound h.sound, htraced, hc.count.trans h.count_eq, fun t ht => ?_, fun s hs htimer => ?_,
    fun s hs m htimer => ?_, fun m hticks => ?_⟩
  · obtain ⟨n, hn, hdue⟩ := h.dated t (htimers ▸ ht)
    exact ⟨n, hn.trans (hid n).symm, hdue⟩
  · obtain ⟨s', hs', hid', hnumber, htimer'⟩ := mem_of_map_timing hc.slots hs
    rw [← hid', ← hnumber]
    exact h.armed s' hs' (htimer'.trans htimer)
  · obtain ⟨s', hs', -, -, htimer'⟩ := mem_of_map_timing hc.slots hs
    rw [hc.ready, hc.sleepers, hclock, hdeadline]
    exact h.awake s' hs' m (htimer'.trans htimer)
  · rw [Ticks, hc.ready, hc.sleepers] at hticks
    obtain ⟨s, hs, htimer⟩ := h.owned m hticks
    obtain ⟨s', hs', -, -, htimer'⟩ := mem_of_map_timing hc.slots.symm hs
    exact ⟨s', hs', htimer'.trans htimer⟩

/-- The timer of a request that waits has its deadline. -/
theorem timer_of_slot {s : Slot Artefact Nat} (hs : s ∈ b.registry.slots) {m : Nat} (htimer : s.timer = some m) :
    ∃ t, b.timers[m]? = some t ∧ t.id = s.id ∧ dues[s.number]? = some (some t.deadline) ∧
      b.deadline m = t.deadline := by
  have hown := h.traced.timed s hs m htimer
  rw [timerIds, List.getElem?_map] at hown
  obtain ⟨t, ht, hid⟩ := Option.map_eq_some_iff.mp hown
  obtain ⟨n, hn, hdue⟩ := h.dated t (List.mem_of_getElem? ht)
  have hnumber : s.number = n := by
    rw [hid, h.sound.id_eq s hs] at hn
    exact Registry.idOf_inj.mp hn
  refine ⟨t, ht, hid, hnumber ▸ hdue, ?_⟩
  rw [deadline, ht]
  rfl

/-- No two requests share a timer. -/
theorem timer_inj {s s' : Slot Artefact Nat} (hs : s ∈ b.registry.slots) (hs' : s' ∈ b.registry.slots) {m : Nat}
    (htimer : s.timer = some m) (htimer' : s'.timer = some m) : s = s' := by
  have hid := h.traced.timed s hs m htimer
  rw [h.traced.timed s' hs' m htimer'] at hid
  exact h.sound.eq_of_id hs hs' (Option.some.inj hid).symm

/-! ## The end of requests -/

/-- A request that ends takes its timer along. -/
theorem release {new' : Option String} {slot : Slot Artefact Nat} (hslot : slot ∈ b.registry.slots)
    (hnew : new' = new ∨ new = some slot.id) {rest : List (Effect Artefact Nat)} (hrest : ∀ e ∈ rest, stops e = none) :
    (b.after (Registry.cleanup slot ++ rest) (b.registry.erase slot.id)).Timed dues new' := by
  let d := b.after (Registry.cleanup slot ++ rest) (b.registry.erase slot.id)
  have hreg : d.registry = b.registry.erase slot.id := registry_after ..
  obtain ⟨htimers, hclock⟩ := Prod.mk.inj (times_after b (Registry.cleanup slot ++ rest) (b.registry.erase slot.id))
  have hmem : ∀ s, s ∈ d.registry.slots ↔ s ∈ b.registry.slots ∧ s.id ≠ slot.id := fun s => by
    rw [hreg, Registry.erase, List.mem_filter, decide_eq_true_iff]
  have hsound : d.registry.Sound := hreg ▸ h.sound.erase slot.id
  refine ⟨hsound, h.traced.after _ (.inr rfl), ?_, fun t ht => ?_, fun s hs htimer => ?_,
    fun s hs m htimer => ?_, fun m hticks => ?_⟩
  · rw [hreg]
    exact h.count_eq
  · obtain ⟨n, hn, hdue⟩ := h.dated t (htimers ▸ ht)
    refine ⟨n, hn.trans ?_, hdue⟩
    rw [idOf, idOf, hreg]
    rfl
  · obtain ⟨hold, hne⟩ := (hmem s).mp hs
    refine (h.armed s hold htimer).imp_left fun heq => ?_
    rcases hnew with rfl | hnew
    · exact heq
    · -- the one that is not limited yet has ended
      exact absurd (Option.some.inj (heq.trans hnew)) hne
  · obtain ⟨hold, hne⟩ := (hmem s).mp hs
    -- no other request has its timer, and so none stops that one
    have hother : slot.timer ≠ some m := fun heq => hne (congrArg Slot.id (h.timer_inj hold hslot htimer heq))
    have hkept := (stops_cleanup m hrest).mpr hother
    have hdeadline : d.deadline m = b.deadline m := by rw [deadline, deadline, htimers]
    rw [mem_ready_after_iff, mem_sleepers_after, hclock, hdeadline]
    exact (h.awake s hold m htimer).imp (⟨·, hkept⟩) (And.imp_left (⟨·, hkept⟩))
  · obtain ⟨hold, hkept⟩ := (ticks_after ..).mp hticks
    obtain ⟨s, hs, htimer⟩ := h.owned m hold
    refine ⟨s, (hmem s).mpr ⟨hs, fun hid => ?_⟩, htimer⟩
    obtain rfl := h.sound.eq_of_id hs hslot hid
    exact (stops_cleanup m hrest).mp hkept htimer

theorem settle {new' : Option String} {id : String} (hnew : new' = new ∨ new = some id) (v : Settlement) :
    (b.settle id v).2.Timed dues new' := by
  rw [Bridge.settle, Registry.settle]
  cases hfind : b.registry.find? id with
  | none =>
    refine ⟨h.sound, h.traced, h.count_eq, h.dated, fun s hs htimer => ?_, h.awake, h.owned⟩
    refine (h.armed s hs htimer).imp_left fun heq => ?_
    rcases hnew with rfl | hnew
    · exact heq
    · exact absurd (Option.some.inj (heq.trans hnew)) (Registry.find?_eq_none.mp hfind s hs)
  | some slot =>
    obtain ⟨hslot, rfl⟩ := h.sound.find?_eq_some.mp hfind
    exact h.release hslot hnew (by simp [stops])

theorem forget (id : String) : (b.forget id).Timed dues new := by
  rw [Bridge.forget, Registry.forget]
  cases hfind : b.registry.find? id with
  | none => exact h
  | some slot =>
    obtain ⟨hslot, rfl⟩ := h.sound.find?_eq_some.mp hfind
    exact h.release hslot (.inl rfl) (by simp [stops])

end

/-! ## New requests -/

theorem registered (h : b.Timed dues none) (due : Option Nat) (path : String) :
    (b.registered path).Timed (dues ++ [due]) (some (b.idOf b.registry.count)) := by
  have hold : ∀ {n : Nat} {x : Option Nat}, dues[n]? = some x → (dues ++ [due])[n]? = some x := fun hn => by
    rw [List.getElem?_append_left (List.getElem?_eq_some_iff.mp hn).1, hn]
  refine ⟨h.sound.register path b.clock, h.traced.registered path, ?_, fun t ht => ?_, fun s hs htimer => ?_,
    fun s hs m htimer => ?_, fun m hticks => ?_⟩
  · rw [List.length_append, ← h.count_eq]
    rfl
  · obtain ⟨n, hn, hdue⟩ := h.dated t ht
    exact ⟨n, hn, hold hdue⟩
  · rcases List.mem_append.mp hs with hs | hs
    · rcases h.armed s hs htimer with hnever | hdue
      · cases hnever
      · exact .inr (hold hdue)
    · rw [List.mem_singleton.mp hs]
      exact .inl rfl
  · rcases List.mem_append.mp hs with hs | hs
    · exact h.awake s hs m htimer
    · rw [List.mem_singleton.mp hs] at htimer
      cases htimer
  · obtain ⟨s, hs, htimer⟩ := h.owned m hticks
    exact ⟨s, List.mem_append_left _ hs, htimer⟩

/-- A new request without a limit has all it needs. -/
theorem unlimited {n : Nat} (h : b.Timed dues (some (b.idOf n))) (hdue : dues[n]? = some none) : b.Timed dues none := by
  refine ⟨h.sound, h.traced, h.count_eq, h.dated, fun s hs htimer => .inr ?_, h.awake, h.owned⟩
  rcases h.armed s hs htimer with hid | hnone
  · have hid := Option.some.inj hid
    rw [h.sound.id_eq s hs] at hid
    rw [Registry.idOf_inj.mp hid]
    exact hdue
  · exact hnone

/-- A timer that is set keeps its deadline when another one is set. -/
theorem deadline_armed (b : Bridge σ) (id : String) (ms : Nat) {m : Nat} (hm : m < b.timers.length) :
    (b.armed id ms).deadline m = b.deadline m :=
  congrArg (fun t => (t.map Timer.deadline).getD 0) (List.getElem?_append_left hm)

/-- A new request with a limit is given its timer. -/
theorem armTimer {n ms : Nat} (h : b.Timed dues (some (b.idOf n))) (hdue : dues[n]? = some (some (b.clock + ms)))
    (hnew : ∃ s ∈ b.registry.slots, s.id = b.idOf n ∧ s.timer = none) (harm : b.armTimer (b.idOf n) ms = .ok c) :
    c.Timed dues none := by
  obtain ⟨new, hmem, hid, hnone⟩ := hnew
  have htraced := h.traced.armTimer ⟨n, h.count_eq ▸ (List.getElem?_eq_some_iff.mp hdue).1, rfl⟩ harm
  have hpending : (b.armed (b.idOf n) ms).registry.isPending (b.idOf n) = true :=
    Registry.isPending_iff.mpr ⟨new, hmem, hid⟩
  obtain rfl : c = { b.armed (b.idOf n) ms with
      registry := b.registry.update (b.idOf n) fun s => { s with timer := some b.timers.length } } := by
    rw [armTimer_ok harm, attachTimer_of_isPending hpending]
    rfl
  -- a request that waits is the new one, or one from before
  have hslots : ∀ s ∈ (b.registry.update (b.idOf n) fun s => { s with timer := some b.timers.length }).slots,
      s.timer = some b.timers.length ∨ s ∈ b.registry.slots ∧ s.id ≠ b.idOf n := by
    intro s hs
    obtain ⟨old, hold, rfl⟩ := List.mem_map.mp hs
    by_cases hid : old.id = b.idOf n
    · rw [if_pos hid]
      exact .inl rfl
    · rw [if_neg hid]
      exact .inr ⟨hold, hid⟩
  refine ⟨h.sound.update _ _ (fun _ => rfl) fun _ => rfl, htraced, h.count_eq, fun t ht => ?_, fun s hs htimer => ?_,
    fun s hs m htimer => ?_, fun m hticks => ?_⟩
  · rcases List.mem_append.mp ht with ht | ht
    · exact h.dated t ht
    · rw [List.mem_singleton.mp ht]
      exact ⟨n, rfl, hdue⟩
  · rcases hslots s hs with htimer' | ⟨hold, hne⟩
    · cases htimer.symm.trans htimer'
    · exact .inr ((h.armed s hold htimer).resolve_left fun heq => hne (Option.some.inj heq))
  · rcases hslots s hs with htimer' | ⟨hold, -⟩
    · obtain rfl := Option.some.inj (htimer'.symm.trans htimer)
      exact .inl (List.mem_append_right _ List.mem_cons_self)
    · obtain ⟨t, ht, -⟩ := h.timer_of_slot hold htimer
      refine (h.awake s hold m htimer).imp (List.mem_append_left _) (And.imp_right fun hlt => ?_)
      exact (deadline_armed b (b.idOf n) ms (List.getElem?_eq_some_iff.mp ht).1).symm ▸ hlt
  · have hcases : b.Ticks m ∨ m = b.timers.length := by
      rcases hticks with hready | hsleeps
      · exact (List.mem_append.mp hready).imp .inl fun heq => Task.timer.inj (List.mem_singleton.mp heq)
      · exact .inl (.inr hsleeps)
    rcases hcases with hticks | rfl
    · obtain ⟨s, hs, htimer⟩ := h.owned m hticks
      have hne : s.id ≠ b.idOf n := by
        intro heq
        obtain rfl := h.sound.eq_of_id hs hmem (heq.trans hid.symm)
        cases hnone.symm.trans htimer
      exact ⟨s, List.mem_map.mpr ⟨s, hs, if_neg hne⟩, htimer⟩
    · exact ⟨_, List.mem_map.mpr ⟨new, hmem, if_pos hid⟩, rfl⟩

theorem limited {n : Nat} {limit : Option Nat} (h : b.Timed dues (some (b.idOf n)))
    (hdue : dues[n]? = some (limit.map (b.clock + ·)))
    (hnew : ∃ s ∈ b.registry.slots, s.id = b.idOf n ∧ s.timer = none) (hl : b.Limited (b.idOf n) limit c) :
    c.Timed dues none := by
  cases limit with
  | none =>
    obtain rfl : c = b := hl
    exact h.unlimited hdue
  | some ms => exact h.armTimer hdue hnew hl

/-- **A call gives its request a timer with its deadline**, if it has a limit. -/
theorem call (h : b.Timed dues none) (path : String) (args : Args) (timeout : Option Nat) :
    (b.call path args timeout).2.Timed (dues ++ [(timeout.or b.config.effectiveTimeout).map (b.clock + ·)]) none := by
  let limit := timeout.or b.config.effectiveTimeout
  have hnew := h.registered (limit.map (b.clock + ·)) path
  have hdue : (dues ++ [limit.map (b.clock + ·)])[b.registry.count]? = some (limit.map (b.clock + ·)) := by
    rw [h.count_eq, List.getElem?_concat_length]
  have hslot : ∃ s ∈ (b.registered path).registry.slots, s.id = b.idOf b.registry.count ∧ s.timer = none :=
    ⟨_, List.mem_append_right _ List.mem_cons_self, rfl, rfl⟩
  have hissued : (b.registered path).Issued (b.idOf b.registry.count) := ⟨b.registry.count, Nat.lt_succ_self _, rfl⟩
  rw [call_eq, sent]
  -- whether the call can be sent or not, its timer is set before, and it is the only one of its slot
  have given : ∀ {d : Bridge σ}, (b.registered path).Limited (b.idOf b.registry.count) limit d →
      d.Timed (dues ++ [limit.map (b.clock + ·)]) none :=
    fun hl => limited (b := b.registered path) (n := b.registry.count) hnew hdue hslot hl
  cases hsend : (b.registered path).send (b.idOf b.registry.count) path args timeout with
  | error c =>
    obtain ⟨d, e, rfl, rfl | ⟨d', url, hl, -, rfl⟩⟩ := send_error hsend
    · exact hnew.settle (.inr rfl) _
    · exact ((given hl).congr (alike_missed d' url) ((given hl).traced.missed url)).settle (.inl rfl) _
  | ok c =>
    obtain ⟨url, d, -, hl, htrigger⟩ := send_ok hsend
    exact (given hl).congr (alike_trigger htrigger) ((given hl).traced.trigger (hissued.limited hl) htrigger)

end Timed

/-! ## Tasks -/

section

variable {dues : List (Option Nat)} {b : Bridge σ}

theorem slot_timed (dues : List (Option Nat)) : SlotInvariant (fun b : Bridge σ => b.Timed dues none) where
  settle _ v h := h.settle (.inl rfl) v
  forget id h := h.forget id
  readInbox n h := h.congr (.of_eq rfl rfl rfl fun _ => .rfl) (invariant_traced.readInbox n h.traced)
  dropInbox n h := h.congr (.of_eq rfl rfl rfl fun _ => .rfl) (invariant_traced.dropInbox n h.traced)

/-- Callers and pushes only stop timers, of requests that end. -/
theorem caller_timed (dues : List (Option Nat)) : CallerInvariant (fun b : Bridge σ => b.Timed dues none) where
  toSlotInvariant := slot_timed dues
  pushes _ _ _ _ h := h.congr (.of_eq rfl rfl rfl fun _ => .rfl) (invariant_traced.caller.pushes _ _ _ _ h.traced)

/-- So do answers. -/
theorem answer_timed (dues : List (Option Nat)) : AnswerInvariant (fun b : Bridge σ => b.Timed dues none) where
  toSlotInvariant := slot_timed dues
  answer url h := h.congr (.of_eq rfl rfl rfl fun _ => .rfl) (invariant_traced.answer url h.traced)
  takeLoads left hleft h := h.congr (.of_eq rfl rfl rfl fun _ => .rfl) (invariant_traced.takeLoads left hleft h.traced)
  setPhase n phase h := h.congr (.of_eq rfl rfl rfl fun _ => .rfl) (invariant_traced.setPhase n phase h.traced)
  endAborted h := h.congr (.of_eq rfl rfl rfl fun _ => .rfl) (invariant_traced.endAborted h.traced)

/-- A request that runs out of time need not stop its timer, which is not ready any more. -/
theorem settle_withoutTask (hs : b.registry.Sound) {s : Slot Artefact Nat} (hmem : s ∈ b.registry.slots) {m : Nat}
    (htimer : s.timer = some m) (v : Settlement) : (b.withoutTask (.timer m)).settle s.id v = b.settle s.id v := by
  have hfind : b.registry.find? s.id = some s := hs.find?_eq_some.mpr ⟨hmem, rfl⟩
  have hfind' : (b.withoutTask (.timer m)).registry.find? s.id = some s := hfind
  have habort : ∀ r, ({ b.withoutTask (.timer m) with registry := r } : Bridge σ).perform (.abort m) =
      ({ b with registry := r } : Bridge σ).perform (.abort m) := by
    intro r
    simp [perform, withoutTask, List.filter_filter]
  simp only [settle, Registry.settle, hfind, hfind', Registry.cleanup, htimer, after, Option.map_some,
    Option.toList_some, List.cons_append, List.foldl_cons, habort]
  rfl

namespace Timed

variable (h : b.Timed dues none)
include h

/-- A timer that is ready settles its request, or goes to sleep. -/
theorem runTimer {m : Nat} (hready : .timer m ∈ b.ready) : ((b.withoutTask (.timer m)).runTimer m).Timed dues none := by
  obtain ⟨s, hs, htimer⟩ := h.owned m (.inl hready)
  obtain ⟨t, ht, hid, -, hdeadline⟩ := h.timer_of_slot hs htimer
  have ht' : (b.withoutTask (.timer m)).timers[m]? = some t := ht
  unfold Bridge.runTimer
  rw [ht']
  dsimp only
  split
  · -- the timer has run out, and takes itself along with its request
    rw [hid, settle_withoutTask h.sound hs htimer]
    exact h.settle (.inl rfl) _
  · next hearly =>
    have hkeep : ∀ {m'}, m' ≠ m → Task.timer m' ∈ b.ready → Task.timer m' ∈ (b.withoutTask (.timer m)).ready :=
      fun hne hmem => List.mem_filter.mpr ⟨hmem, decide_eq_true fun heq => hne (Task.timer.inj heq)⟩
    refine ⟨h.sound, h.traced.same rfl rfl rfl, h.count_eq, h.dated, h.armed, fun s' hs' m' htimer' => ?_,
      fun m' hticks => ?_⟩
    · -- it goes to sleep, and its deadline is still to come
      by_cases hm : m' = m
      · subst hm
        refine .inr ⟨List.mem_append_right _ List.mem_cons_self, ?_⟩
        have hlt : b.clock < b.deadline m' := hdeadline ▸ Nat.lt_of_not_le hearly
        exact hlt
      · exact (h.awake s' hs' m' htimer').imp (hkeep hm) (And.imp_left (List.mem_append_left _))
    · rcases hticks with hmem | hmem
      · exact h.owned m' (.inl (List.mem_filter.mp hmem).1)
      · rcases List.mem_append.mp hmem with hmem | hmem
        · exact h.owned m' (.inr hmem)
        · exact ⟨s, hs, List.mem_singleton.mp hmem ▸ htimer⟩

theorem runReady (t : Task) : (b.runReady t).Timed dues none := by
  unfold Bridge.runReady
  split
  · next hready =>
    have hwithout : (∀ m, t ≠ .timer m) → (b.withoutTask t).Timed dues none := fun ht => by
      refine h.congr (.of_eq rfl rfl rfl fun m => ?_) (h.traced.same rfl rfl rfl)
      rw [withoutTask, List.mem_filter, decide_eq_true_iff, and_iff_left]
      exact (ht m).symm
    cases t with
    | timer m => exact h.runTimer hready
    | fetch n => exact (answer_timed dues).runFetch n (hwithout fun m => by simp)
    | serve => exact (answer_timed dues).runServer (hwithout fun m => by simp)
  · exact h

theorem tick : b.tick.Timed dues none := by
  have hran : (b.ready.foldl Bridge.runReady b).Timed dues none :=
    List.foldlRecOn b.ready Bridge.runReady (motive := fun c : Bridge σ => c.Timed dues none) h
      fun c (hc : c.Timed dues none) t _ => hc.runReady t
  exact (answer_timed dues).endAborted ((caller_timed dues).pushes _ _ [] _ hran)

/-- When the clock has moved, sleepers whose deadline has come are ready. -/
theorem later (ms : Nat) : (b.later ms).Timed dues none := by
  refine ⟨h.sound, h.traced.same rfl rfl rfl, h.count_eq, h.dated, h.armed, fun s hs m htimer => ?_, fun m hticks => ?_⟩
  · rcases h.awake s hs m htimer with hready | ⟨hsleeps, -⟩
    · exact .inl (List.mem_append_left _ hready)
    · by_cases hdue : b.deadline m ≤ b.clock + ms
      · refine .inl (List.mem_append_right _ (List.mem_map_of_mem (List.mem_mergeSort.mpr ?_)))
        exact List.mem_filter.mpr ⟨hsleeps, decide_eq_true hdue⟩
      · exact .inr ⟨List.mem_filter.mpr ⟨hsleeps, decide_eq_true (Nat.lt_of_not_le hdue)⟩, Nat.lt_of_not_le hdue⟩
  · refine h.owned m ?_
    rcases hticks with hready | hsleeps
    · rcases List.mem_append.mp hready with hready | hwoken
      · exact .inl hready
      · obtain ⟨m', hm', heq⟩ := List.mem_map.mp hwoken
        obtain rfl := Task.timer.inj heq
        exact .inr (List.mem_filter.mp (List.mem_mergeSort.mp hm')).1
    · exact .inr (List.mem_filter.mp hsleeps).1

theorem advance (ms : Nat) : (b.advance ms).Timed dues none := (h.tick.later ms).tick

theorem reply (n : Nat) (r : FetchReply) : (b.reply n r).2.Timed dues none := by
  refine h.congr ?_ (h.traced.reply n r)
  rcases reply_cases b n r with heq | ⟨f, g, more, -, -, -, hmore, heq⟩ <;> rw [heq]
  · exact .of_eq rfl rfl rfl fun _ => .rfl
  · -- a fetch may be woken, but no timer
    refine .of_eq rfl rfl rfl fun m => ⟨fun hm => ?_, List.mem_append_left _⟩
    exact (List.mem_append.mp hm).resolve_right fun hm => by cases hmore _ hm

end Timed

/-! ## Work that is done -/

/-- Answers make no work. -/
theorem answer_ready (ready : List Task) : AnswerInvariant (fun b : Bridge σ => b.ready ⊆ ready) where
  settle _ _ h := fun _ ht => h ((mem_ready_after_iff ..).mp ht).1
  forget _ h := fun _ ht => h ((mem_ready_after_iff ..).mp ht).1
  readInbox _ h := h
  dropInbox _ h := h
  answer _ h := h
  takeLoads _ _ h := h
  setPhase _ _ h := h
  endAborted h := h

theorem ready_run (b : Bridge σ) (t : Task) : (b.run t).ready ⊆ b.ready := by
  cases t with
  | timer m =>
    rw [run, Bridge.runTimer]
    split
    · exact List.Subset.refl _
    · split
      · exact (answer_ready b.ready).settle _ _ (List.Subset.refl _)
      · exact List.Subset.refl _
  | fetch n => exact (answer_ready b.ready).runFetch n (List.Subset.refl _)
  | serve => exact (answer_ready b.ready).runServer (List.Subset.refl _)

/-- A task that has run is not ready any more, and has made no work. -/
theorem ready_runReady (b : Bridge σ) (t : Task) : (b.runReady t).ready ⊆ b.ready.filter (· ≠ t) := by
  unfold runReady
  split
  · exact ready_run (b.withoutTask t) t
  · next hnot => exact fun x hx => List.mem_filter.mpr ⟨hx, decide_eq_true fun heq => hnot (heq ▸ hx)⟩

/-- **A tick leaves no work.** -/
theorem ready_tick (b : Bridge σ) : b.tick.ready = [] := by
  have hran : ∀ (ts : List Task) (c : Bridge σ), ∀ t ∈ (ts.foldl runReady c).ready, t ∈ c.ready ∧ t ∉ ts := by
    intro ts
    induction ts with
    | nil => exact fun c t ht => ⟨ht, List.not_mem_nil⟩
    | cons x ts ih =>
      intro c t ht
      obtain ⟨hready, hnot⟩ := ih _ t ht
      obtain ⟨hold, hne⟩ := List.mem_filter.mp (ready_runReady c x hready)
      have hne : t ≠ x := by simpa using hne
      exact ⟨hold, fun hmem => (List.mem_cons.mp hmem).elim hne hnot⟩
  refine List.eq_nil_iff_forall_not_mem.mpr fun t ht => ?_
  obtain ⟨hready, hnot⟩ := hran b.ready b t ht
  exact hnot hready

end

/-! ## Runs -/

namespace Session

/-- The deadline of the request of an operation, if it makes one. -/
def due? (s : Session σ) : Op → Option (Option Nat)
  | .call _ _ timeout => some ((timeout.or s.bridge.config.effectiveTimeout).map (s.bridge.clock + ·))
  | .callNamed _ _ _ => some (s.bridge.config.effectiveTimeout.map (s.bridge.clock + ·))
  | _ => none

/-- The deadlines of the requests of operations that are done one after another. -/
def dues (s : Session σ) : List Op → List (Option Nat)
  | [] => []
  | op :: ops => (s.due? op).toList ++ dues (s.step op).2 ops

theorem dues_append (s : Session σ) (ops more : List Op) :
    s.dues (ops ++ more) = s.dues ops ++ (s.run ops).dues more := by
  induction ops generalizing s with
  | nil => rfl
  | cons op ops ih => rw [List.cons_append, dues, ih, dues, List.append_assoc, run_cons]

variable {s : Session σ} {given : List (Option Nat)}

theorem timed_step (h : s.bridge.Timed given none) (op : Op) :
    (s.step op).2.bridge.Timed (given ++ (s.due? op).toList) none := by
  have same : ∀ {c : Bridge σ}, c.Timed given none → c.Timed (given ++ (none : Option (Option Nat)).toList) none :=
    fun hc => (List.append_nil given).symm ▸ hc
  cases op with
  | call path args timeout => exact h.call path args timeout
  | callNamed name path args =>
    exact ((caller_timed given).registerHandler name h).call path args none
  | tick => exact same h.tick
  | advance ms => exact same (h.advance ms)
  | requests =>
    have htaken := (answer_timed given).takeLoads [] (List.nil_subset _) h
    exact same (htaken.congr (.of_eq rfl rfl rfl fun _ => .rfl) (htaken.traced.same rfl rfl rfl))
  | answer url => exact same ((answer_timed given).answerScript url h)
  | answerNext =>
    rcases hl : s.bridge.page.loads with _ | ⟨url, rest⟩
    all_goals simp only [step, takeLoad, hl]
    · exact same h
    · have hleft : rest ⊆ s.bridge.page.loads := hl ▸ List.subset_cons_self url rest
      exact same ((answer_timed given).answerScript url ((answer_timed given).takeLoads rest hleft h))
  | reply n r => exact same (h.reply n r)
  | _ => exact same ((caller_timed given).step rfl h)

/-- **Timers and deadlines**, after every run. -/
theorem timed_run (h : s.bridge.Timed given none) (ops : List Op) :
    (s.run ops).bridge.Timed (given ++ s.dues ops) none := by
  induction ops generalizing s given with
  | nil => exact (List.append_nil given).symm ▸ h
  | cons op ops ih =>
    rw [run_cons, dues, ← List.append_assoc]
    exact ih (timed_step h op)

end Session

theorem timed_new {config : Config} {actual : Transport} {runtime : Bool} {page : Document} {host : Host σ}
    {b : Bridge σ} (hb : Bridge.new config actual runtime page host = .ok b) : b.Timed [] none := by
  have hsound := sound_new hb
  have htraced := traced_new hb
  obtain ⟨-, -, rfl⟩ := new_eq_ok hb
  refine ⟨hsound, htraced, rfl, fun t ht => (by cases ht), fun s hs => (by cases hs), fun s hs => (by cases hs),
    fun m hticks => ?_⟩
  rcases hticks with hready | hsleeps
  · have hready : Task.timer m ∈ if serves config runtime host then [Task.serve] else [] := hready
    split at hready <;> simp at hready
  · cases hsleeps

end Hostlink.Bridge
