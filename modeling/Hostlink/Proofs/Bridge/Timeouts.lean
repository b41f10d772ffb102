import Hostlink.Proofs.Bridge.Settlement
import Hostlink.Proofs.Bridge.Timers

/-!
# Limits of time

A request that has a limit runs out of time when the limit is over, unless it has ended before. It does not
run out of time earlier, nor without a limit.

* `Session.clock_run` — the clock moves as it is told, and not otherwise;
* `Session.overdue_of_timeout` — **a request runs out of time when its deadline has come**, unless the host
  or the fetcher says so;
* `Session.ended_of_due` — **when its deadline has come and all work is done, a request has ended**;
* `Session.stopped_of_ended` — **when a request has ended, its timer is stopped**;
* `Session.timeouts_on_time` — all this as the caller reads it.
-/

namespace Hostlink

/-- The limit of the set-up: the one that is given, or else a limit of its own for script tags. -/
theorem Config.effectiveTimeout_eq (c : Config) :
    c.effectiveTimeout = c.timeout.or (if c.transport = .scriptTag then some 15000 else none) := by
  rw [effectiveTimeout]
  cases c.timeout with
  | some ms => rfl
  | none => cases c.transport <;> rfl

namespace Bridge

open Registry (Ending Event History)

variable {σ : Type}

/-! ## The clock -/

theorem clock_call (b : Bridge σ) (path : String) (args : Args) (timeout : Option Nat) :
    (b.call path args timeout).2.clock = b.clock := by
  have hafter : ∀ (c : Bridge σ) effects r, (c.after effects r).clock = c.clock := fun c effects r =>
    congrArg Prod.snd (times_after c effects r)
  refine call_of (P := fun c => c.clock = b.clock) (fun _ h => h) (fun _ _ h => (hafter _ _ _).trans h)
    (fun id ms harm h => ?_) (fun _ _ htrigger h => (congrArg Prod.snd (alike_trigger htrigger).times).trans h)
    (fun {c} _ url _ _ h => ?_) rfl path args timeout
  · rw [armTimer_ok harm]
    exact (hafter _ _ _).trans h
  · obtain ⟨page, hmissed⟩ := missed_eq c url
    rw [hmissed]
    exact h

/-- The time that passes in an operation. -/
def Op.elapsed : Op → Nat
  | .advance ms => ms
  | _ => 0

namespace Session

theorem clock_step (s : Session σ) (op : Op) : (s.step op).2.bridge.clock = s.bridge.clock + op.elapsed := by
  have hanswer : ∀ (b : Bridge σ) url, (b.answerScript url).2.clock = b.clock := fun b url =>
    congrArg Prod.snd ((answer_times b.times).answerScript url rfl)
  have hcaller : ∀ {op : Op}, op.isLocal = true → (s.step op).2.bridge.clock = s.bridge.clock := fun hop =>
    congrArg Prod.snd ((caller_times s.bridge.times).step hop rfl)
  cases op with
  | call path args timeout => exact clock_call s.bridge path args timeout
  | callNamed name path args => exact clock_call (s.bridge.registerHandler name).2 path args none
  | tick => exact congrArg Prod.snd (times_tick s.bridge)
  | advance ms => exact congrArg Prod.snd (times_advance s.bridge ms)
  | requests => rfl
  | answer url => exact hanswer s.bridge url
  | answerNext =>
    rcases hl : s.bridge.page.loads with _ | ⟨url, rest⟩
    all_goals simp only [step, takeLoad, hl]
    · rfl
    · exact hanswer { s.bridge with page := { s.bridge.page with loads := rest } } url
  | reply n r =>
    have h : (s.bridge.reply n r).2.clock = s.bridge.clock := by
      obtain ⟨fetches, ready, heq⟩ := reply_eq s.bridge n r
      rw [heq]
    exact h
  | _ => exact hcaller rfl

/-- **The clock moves as it is told**, and not otherwise. -/
theorem clock_run (s : Session σ) (ops : List Op) :
    (s.run ops).bridge.clock = s.bridge.clock + ops.foldr (fun op ms => op.elapsed + ms) 0 := by
  induction ops generalizing s with
  | nil => rfl
  | cons op ops ih => rw [run_cons, ih, clock_step, List.foldr_cons, Nat.add_assoc]

/-- When a tick or an advance is over, the work is done. -/
theorem ready_of_getLast? {s : Session σ} {ops : List Op}
    (hlast : ops.getLast? = some .tick ∨ ∃ ms, ops.getLast? = some (.advance ms)) : (s.run ops).bridge.ready = [] := by
  have h : ∃ op, ops.getLast? = some op ∧ ∀ t : Session σ, (t.step op).2.bridge.ready = [] := by
    rcases hlast with h | ⟨ms, h⟩
    · exact ⟨_, h, fun t => ready_tick t.bridge⟩
    · exact ⟨_, h, fun t => ready_tick (t.bridge.tick.later ms)⟩
  obtain ⟨op, hop, hready⟩ := h
  obtain ⟨front, rfl⟩ := List.getLast?_eq_some_iff.mp hop
  rw [run_concat]
  exact hready _

section

variable {config : Config} {actual : Transport} {runtime : Bool} {page : Document} {host : Host σ} {b : Bridge σ}
  (hb : Bridge.new config actual runtime page host = .ok b)
include hb

/-! ## Deadlines -/

/-- How many deadlines there are. -/
theorem length_dues (ops : List Op) : ((new b).dues ops).length = ((new b).run ops).bridge.registry.count := by
  have h : ((new b).run ops).bridge.Timed _ none := timed_run (s := new b) (timed_new hb) ops
  exact h.count_eq.symm

/-- The deadline of a request is the time of its call and its limit. -/
theorem due_of_call (earlier later : List Op) (path : String) (args : Args) (timeout : Option Nat) :
    ((new b).dues (earlier ++ .call path args timeout :: later))[((new b).run earlier).bridge.registry.count]? =
      some ((timeout.or config.effectiveTimeout).map (((new b).run earlier).bridge.clock + ·)) := by
  rw [dues_append, ← length_dues hb, List.getElem?_append_right (Nat.le_refl _), Nat.sub_self, dues, due?,
    (setUp_run hb earlier).1]
  rfl

/-- A request that waits has a slot. -/
theorem slot_of_ending? {ops : List Op} {n : Nat} (hn : n < ((new b).run ops).bridge.registry.count)
    (hnone : ((new b).history ops).ending? config.callbackStem n = none) :
    ∃ s ∈ ((new b).run ops).bridge.registry.slots, s.number = n := by
  have hfollows := follows_history hb ops
  have hlt : n < ((new b).history ops).opened := hfollows.count_eq ▸ hn
  have hstem : ((new b).run ops).bridge.desk.stem = config.callbackStem := stem_run hb ops
  have hwaits : n ∈ ((new b).run ops).bridge.desk.waiting := hfollows.mem_waiting.mpr ⟨hlt, hstem ▸ hnone⟩
  exact List.mem_map.mp hwaits

/-- In a run, a request is told that its time is over if its deadline has come, or if somebody else than the
bridge says so. -/
def Overdue (config : Config) (b : Bridge σ) (ops : List Op) (id : String) : Prop :=
  (∃ n due, Registry.idOf config.callbackStem n = id ∧ ((new b).dues ops)[n]? = some (some due) ∧
      due ≤ ((new b).run ops).bridge.clock) ∨
    .reject id .timeout ∈ ops ∨ (∃ m, .reply m (.error .timeout) ∈ ops) ∨ b.host.conduct = .fixed (.error .timeout)

theorem allows_overdue : (new b).Allows fun ops id v => v = .error .timeout → Overdue config b ops id where
  more {ops id v} more h hv := by
    rcases h hv with ⟨n, due, hid, hdue, hclock⟩ | hreject | ⟨m, hreply⟩ | hfixed
    · refine .inl ⟨n, due, hid, ?_, ?_⟩
      · -- requests that are made later come after it in the list of deadlines
        rw [dues_append, List.getElem?_append_left (List.getElem?_eq_some_iff.mp hdue).1, hdue]
      · rw [run_append, clock_run]
        exact Nat.le_add_right_of_le hclock
    · exact .inr (.inl (List.mem_append_left _ hreject))
    · exact .inr (.inr (.inl ⟨m, List.mem_append_left _ hreply⟩))
    · exact .inr (.inr (.inr hfixed))
  held f hf := by
    obtain ⟨-, -, rfl⟩ := new_eq_ok hb
    cases hf
  made _ _ e _ hne hv := absurd (Except.error.inj hv) hne
  timers ops t ht hdue _ := by
    have h : ((new b).run ops).bridge.Timed _ none := timed_run (s := new b) (timed_new hb) ops
    obtain ⟨n, hid, hn⟩ := h.dated t ht
    refine .inl ⟨n, t.deadline, ?_, hn, hdue⟩
    rw [hid, idOf, stem_run hb ops]
  supplied {ops op id source v} h hv := by
    subst hv
    have hconduct : ((new b).run ops).bridge.host.conduct = b.host.conduct :=
      congrArg (·.2.2.1.1) (frame_run (new b) ops)
    rcases h.by_hand rfl with rfl | ⟨m, rfl⟩ | hfixed
    · exact .inr (.inl (List.mem_append_right _ List.mem_cons_self))
    · exact .inr (.inr (.inl ⟨m, List.mem_append_right _ List.mem_cons_self⟩))
    · exact .inr (.inr (.inr (hconduct ▸ hfixed)))

/-- **A request runs out of time when its deadline has come**, unless the host or the fetcher says so. -/
theorem overdue_of_timeout {ops : List Op} {n : Nat}
    (hend : ((new b).history ops).ending? config.callbackStem n = some (.settled (.error .timeout))) :
    (∃ due, ((new b).dues ops)[n]? = some (some due) ∧ due ≤ ((new b).run ops).bridge.clock) ∨
      .reject (Registry.idOf config.callbackStem n) .timeout ∈ ops ∨ (∃ m, .reply m (.error .timeout) ∈ ops) ∨
        host.conduct = .fixed (.error .timeout) := by
  have hoverdue := (settlesBy_run (allows_overdue hb) ops).2 _ _ (History.mem_of_ending? hend) rfl
  obtain ⟨-, -, hnew⟩ := new_eq_ok hb
  have hhost : b.host = host := by rw [hnew]; rfl
  rw [Overdue, hhost] at hoverdue
  refine hoverdue.imp_left ?_
  rintro ⟨m, due, hid, hdue, hclock⟩
  exact ⟨due, Registry.idOf_inj.mp hid ▸ hdue, hclock⟩

/-- **When its deadline has come and all work is done, a request has ended.** -/
theorem ended_of_due {ops : List Op} {n due : Nat} (hdue : ((new b).dues ops)[n]? = some (some due))
    (hready : ((new b).run ops).bridge.ready = []) (hclock : due ≤ ((new b).run ops).bridge.clock) :
    ((new b).history ops).ending? config.callbackStem n ≠ none := by
  intro hnone
  have h : ((new b).run ops).bridge.Timed ((new b).dues ops) none := timed_run (s := new b) (timed_new hb) ops
  have hlt : n < ((new b).run ops).bridge.registry.count :=
    length_dues hb ops ▸ (List.getElem?_eq_some_iff.mp hdue).1
  obtain ⟨s, hs, rfl⟩ := slot_of_ending? hb hlt hnone
  cases htimer : s.timer with
  | none =>
    -- a request with a deadline has a timer
    have hnever := (h.armed s hs htimer).resolve_left (by simp)
    cases hdue.symm.trans hnever
  | some m =>
    obtain ⟨t, -, -, hown, hdeadline⟩ := h.timer_of_slot hs htimer
    obtain rfl : due = t.deadline := Option.some.inj (Option.some.inj (hdue.symm.trans hown))
    rcases h.awake s hs m htimer with hmem | ⟨-, hlate⟩
    · -- its timer would be ready, or its deadline still to come
      rw [hready] at hmem
      cases hmem
    · exact absurd hclock (Nat.not_le_of_lt (hdeadline ▸ hlate))

/-- **When a request has ended, its timer is stopped.** -/
theorem stopped_of_ended {ops : List Op} {n : Nat} (hend : ((new b).history ops).ending? config.callbackStem n ≠ none)
    {m : Nat} (hticks : ((new b).run ops).bridge.Ticks m) :
    ((new b).run ops).bridge.timerIds[m]? ≠ some (Registry.idOf config.callbackStem n) := by
  intro hown
  have h : ((new b).run ops).bridge.Timed ((new b).dues ops) none := timed_run (s := new b) (timed_new hb) ops
  obtain ⟨s, hs, htimer⟩ := h.owned m hticks
  have hid : s.id = Registry.idOf config.callbackStem n :=
    Option.some.inj ((h.traced.timed s hs m htimer).symm.trans hown)
  rw [h.sound.id_eq s hs, stem_run hb ops, Registry.idOf_inj] at hid
  have hfollows := follows_history hb ops
  have hstem : ((new b).run ops).bridge.desk.stem = config.callbackStem := stem_run hb ops
  -- the slot of a timer that runs waits, and so its request has not ended
  have hwaits : n ∈ ((new b).run ops).bridge.desk.waiting := List.mem_map.mpr ⟨s, hs, hid⟩
  exact hend (hstem ▸ (hfollows.mem_waiting.mp hwaits).2)

/-! ## What the caller reads -/

/-- When work is done after its deadline, a call reads that its time is over, unless something else has ended it. -/
theorem poll_of_due {ops : List Op} {k n due : Nat} (hc : ((new b).run ops).callAt k = some n)
    (hdue : ((new b).dues ops)[n]? = some (some due)) (hready : ((new b).run ops).bridge.ready = [])
    (hclock : due ≤ ((new b).run ops).bridge.clock) (hdrop : .drop k ∉ ops)
    (hother : ∀ ending, ((new b).history ops).ending? config.callbackStem n = some ending →
      ending = .settled (.error .timeout)) :
    (((new b).run ops).poll k).1 = .settled (.error .timeout) := by
  rcases poll_run hb ops hc with ⟨-, hmem⟩ | ⟨-, hnone⟩ | ⟨v, hread, hend⟩
  · exact absurd hmem hdrop
  · exact absurd hnone (ended_of_due hb hdue hready hclock)
  · rw [hread, Ending.settled.inj (hother _ hend)]

/-- **Calls run out of time when their limit is over.** A call reads that its time is over only if it has a
limit, its own or that of the set-up, and that has passed since the call was made, as long as neither host nor
fetcher says so. When the limit has passed and the work is done, it reads so, if nothing else has ended it and
it was not dropped. A call that has ended before has no timer, and reads what it read then. -/
theorem timeouts_on_time (earlier later : List Op) (path : String) (args : Args) (timeout : Option Nat) :
    let issued := (new b).run earlier
    let ops := earlier ++ .call path args timeout :: later
    let s := (new b).run ops
    let ending := ((new b).history ops).ending? config.callbackStem issued.bridge.registry.count
    let id := Registry.idOf config.callbackStem issued.bridge.registry.count
    let k := issued.held.length
    let limit := timeout.or (config.timeout.or (if config.transport = .scriptTag then some 15000 else none))
    (.reject id .timeout ∉ ops → (∀ m, .reply m (.error .timeout) ∉ ops) → host.conduct ≠ .fixed (.error .timeout) →
      (s.poll k).1 = .settled (.error .timeout) →
        ∃ d, limit = some d ∧ issued.bridge.clock + d ≤ s.bridge.clock) ∧
    (∀ d, limit = some d → issued.bridge.clock + d ≤ s.bridge.clock →
      (ops.getLast? = some .tick ∨ ∃ ms, ops.getLast? = some (.advance ms)) →
      (∀ e, ending = some e → e = .settled (.error .timeout)) → .drop k ∉ ops →
        (s.poll k).1 = .settled (.error .timeout)) ∧
    (ending ≠ none → (∀ m, s.bridge.Ticks m → s.bridge.timerIds[m]? ≠ some id) ∧
      ∀ more, .drop k ∉ more → (((new b).run (ops ++ more)).poll k).1 = (s.poll k).1) := by
  intro issued ops s ending id k limit
  have hc : s.callAt k = some issued.bridge.registry.count := by
    rw [show s = issued.run (.call path args timeout :: later) from run_append ..]
    exact callAt_made issued path args timeout later
  have hdue : ((new b).dues ops)[issued.bridge.registry.count]? = some (limit.map (issued.bridge.clock + ·)) := by
    rw [due_of_call hb earlier later, config.effectiveTimeout_eq]
  refine ⟨fun hreject hreply hfixed hread => ?_, fun d hlimit hclock hlast hother hdrop => ?_, fun hend =>
    ⟨fun m hticks => stopped_of_ended hb hend hticks, fun more hdrop => poll_run_ended hb ops more hc hend hdrop⟩⟩
  · -- a request that has timed out was due, or somebody else has said so, which is ruled out
    rcases overdue_of_timeout hb (ending_of_poll_run hb ops hc hread) with ⟨due, hdue', hclock⟩ | h | ⟨m, h⟩ | h
    · obtain ⟨d, hlimit, rfl⟩ := Option.map_eq_some_iff.mp (Option.some.inj (hdue.symm.trans hdue'))
      exact ⟨d, hlimit, hclock⟩
    · exact absurd h hreject
    · exact absurd h (hreply m)
    · exact absurd h hfixed
  · rw [hlimit] at hdue
    exact poll_of_due hb hc hdue (ready_of_getLast? hlast) hclock hdrop hother

end

/-- A call with a limit of five milliseconds has not run out of time after four, and has after seven. One that
was canceled in between reads that it was canceled. -/
theorem timeouts_on_time_five :
    let early : List Op := [.call "/a" .none (some 5), .call "/b" .none (some 7), .cancel 1, .advance 4]
    let late : List Op := [.call "/a" .none (some 5), .call "/b" .none (some 7), .cancel 1, .advance 4, .advance 3]
    Bridge.new .fetch .fetch true .new quiet.host = .ok quiet ∧
      (((new quiet).run early).poll 0).1 ≠ .settled (.error .timeout) ∧
      (((new quiet).run late).poll 0).1 = .settled (.error .timeout) ∧
      (((new quiet).run late).poll 1).1 = .settled (.error .canceled) := by
  intro early late
  have hfixed : quiet.host.conduct ≠ .fixed (.error .timeout) := fun h => by cases h
  have hearly : ((new quiet).run early).bridge.clock = 4 := clock_run (new quiet) early
  have hlate : ((new quiet).run late).bridge.clock = 7 := clock_run (new quiet) late
  have hended : ((new quiet).history late).ending? "__jp" 0 = some (.settled (.error .timeout)) := by
    -- deadlines are sorted by a well-founded recursion
    subst late
    with_unfolding_all rfl
  have hcanceled : ((new quiet).history (early.take 3)).ending? "__jp" 1 = some (.settled (.error .canceled)) := rfl
  refine ⟨rfl, fun hread => ?_, ?_, ?_⟩
  · obtain ⟨d, hlimit, hclock⟩ := (timeouts_on_time new_quiet [] (early.drop 1) "/a" .none (some 5)).1 (by simp [early])
      (by simp [early]) hfixed hread
    obtain rfl := Option.some.inj hlimit
    exact absurd (hclock.trans hearly.le) (by decide)
  · exact (timeouts_on_time new_quiet [] (late.drop 1) "/a" .none (some 5)).2.1 5 rfl
      ((show 5 ≤ 7 by decide).trans hlate.ge) (.inr ⟨3, rfl⟩)
      (fun e he => (Option.some.inj (hended.symm.trans he)).symm) (by simp [late])
  · exact ((timeouts_on_time new_quiet (early.take 1) [.cancel 1] "/b" .none (some 7)).2.2
      fun hnone => by cases hcanceled.symm.trans hnone).2 [.advance 4, .advance 3] (by simp)

end Session

end Bridge

end Hostlink
