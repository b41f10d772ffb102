import Hostlink.Proofs.Bridge.World.StandsIn
import Hostlink.Proofs.Registry.Tellings

/-!
# Ticks of a bridge in its world

What the world does in a tick, the bridge does for the requests that wait. The rest comes too late for anybody.

* `Bridge.Tells` — a bridge stands in its world, and their histories agree;
* `StandsIn.runTimer`, `StandsIn.runFetch`, `StandsIn.runServer` — a task that is done in both;
* `Tells.runAll`, `Tells.tick`, `Tells.advance` — **ticks and time bring the same in both**;
* `StandsIn.reply` — a fetch that is answered by hand.
-/

namespace Hostlink.Bridge

open Registry (Ending Event History Desk)

variable {σ : Type} {b c : Bridge σ} {w v : World σ}

namespace StandsIn

/-! ## Answers -/

/-- The host reads the same in both. -/
theorem read (h : StandsIn b w) (url : String) :
    b.answerEvents url = (w.read url).1 ∧ StandsIn (b.answerScript url).2 (w.read url).2 := by
  rw [answerEvents, World.read, h.host_eq]
  unfold answerScript
  by_cases hconnected : b.host.connected = true
  · rw [if_pos hconnected, if_pos hconnected, if_pos hconnected]
    refine ⟨rfl, ?_⟩
    have hasked : StandsIn { b with host := (b.host.answer url).2 } { w with host := (b.host.answer url).2 } := by
      refine h.same rfl rfl ?_ rfl rfl rfl rfl rfl rfl rfl rfl
      simp only [World.scene, scene, h.config_eq, h.runtime_eq, h.clock_eq, h.loads_eq, h.timers_eq]
    rcases hanswer : b.host.answer url with ⟨e | ⟨r, answer⟩, host⟩
    all_goals rw [hanswer] at hasked
    · exact hasked
    · dsimp only
      cases r.callback with
      | none => exact hasked
      -- the name in the URL is that of a request or of none; what is settled under it is settled at the bridge alone
      | some id => exact hasked.settle id _
  · rw [if_neg hconnected, if_neg hconnected, if_neg hconnected]
    exact ⟨rfl, h⟩

theorem readAll (h : StandsIn b w) (urls : List String) :
    b.answersEvents urls = (w.readAll urls).1 ∧ StandsIn (b.answerScripts urls) (w.readAll urls).2 := by
  induction urls generalizing b w with
  | nil => exact ⟨rfl, h⟩
  | cons url urls ih =>
    obtain ⟨hevents, hread⟩ := h.read url
    obtain ⟨hrest, hstands⟩ := ih hread
    rw [answersEvents, hevents, hrest]
    exact ⟨rfl, hstands⟩

/-- What the page has loaded is taken in both. -/
theorem takeLoads (h : StandsIn b w) (left : List String) :
    StandsIn { b with page := { b.page with loads := left } } { w with loads := left } := by
  refine h.same rfl rfl ?_ rfl rfl rfl rfl rfl rfl rfl rfl
  simp only [World.scene, scene, h.config_eq, h.runtime_eq, h.host_eq, h.clock_eq, h.timers_eq]

/-! ## Tasks -/

/-- A task is taken from both, unless it is the fetch of a request that waits. -/
theorem withoutTask (h : StandsIn b w) {t : Task}
    (ht : ∀ n, t = .fetch n → b.wants w t = false) :
    StandsIn (b.withoutTask t) { w with work := w.work.filter (· ≠ t) } := by
  refine h.change rfl rfl h.scene_eq rfl rfl ?_ h.sleepers_eq (fun x hx => ?_) h.length_eq fun n f id reply hf hreply => ?_
  · rw [Bridge.withoutTask, h.ready_eq, List.filter_comm]
  · exact h.known x (hx.imp_left fun hmem => (List.mem_filter.mp hmem).1)
  · obtain ⟨rfl, hstands⟩ := h.fetches n f id reply hf hreply
    have howner : w.owner? (.fetch n) = some f.id := by rw [World.owner?, hreply]; rfl
    by_cases hn : t = .fetch n
    · -- nobody waits for this fetch, and it does not matter whether it is to run
      have hnot : b.registry.isPending f.id = false := by
        have hwants := ht n hn
        rwa [hn, wants, howner, Option.all_some] at hwants
      exact ⟨rfl, hstands.answered_eq, fun hlive => (by cases hnot.symm.trans hlive), hstands.dead⟩
    · exact ⟨rfl, hstands.congr rfl (by simp [Ne.symm hn])⟩

/-- A fetch that nobody waits for may be gone. -/
theorem setGone (h : StandsIn b w) {n : Nat} (hdead : b.wants w (.fetch n) = false) : StandsIn (b.setPhase n .gone) w := by
  refine h.change rfl rfl h.scene_eq rfl rfl h.ready_eq h.sleepers_eq h.known ?_ fun m f id reply hf hreply => ?_
  · rw [setPhase, List.length_modify, h.length_eq]
  · have hf : (b.fetches.modify n fun f => { f with phase := .gone })[m]? = some f := hf
    rw [List.getElem?_modify] at hf
    obtain ⟨g, hg, rfl⟩ := Option.map_eq_some_iff.mp hf
    obtain ⟨rfl, hstands⟩ := h.fetches m g id reply hg hreply
    by_cases hm : n = m
    · subst hm
      have hnot : b.registry.isPending g.id = false := by
        rw [wants, World.owner?, hreply] at hdead
        exact hdead
      rw [if_pos rfl]
      exact ⟨rfl, hstands.answered_eq, fun hlive => (by cases hnot.symm.trans hlive), fun _ => .inr rfl⟩
    · rw [if_neg hm]
      exact ⟨rfl, hstands.answered_eq, hstands.live, hstands.dead⟩

/-- A timer goes to sleep, in the bridge only if its request waits. -/
theorem sleeps (h : StandsIn b w) {n : Nat} (hknown : (w.owner? (.timer n)).isSome) :
    StandsIn { b with sleepers := b.sleepers ++ [n].filter fun n => b.wants w (.timer n) }
      { w with sleepers := w.sleepers ++ [n] } := by
  refine h.change rfl rfl h.scene_eq rfl rfl h.ready_eq ?_ (fun x hx => ?_) h.length_eq
    fun m f id reply hf hreply => (h.fetches m f id reply hf hreply).imp_right fun hf => hf.congr rfl Iff.rfl
  · rw [List.filter_append, ← h.sleepers_eq]
  · rcases hx with hx | ⟨m, hm, rfl⟩
    · exact h.known x (.inl hx)
    · rcases List.mem_append.mp hm with hm | hm
      · exact h.known _ (.inr ⟨m, hm, rfl⟩)
      · rw [List.mem_singleton.mp hm]
        exact .inr hknown

/-- A timer runs out or goes to sleep in both. -/
theorem runTimer (h : StandsIn b w) {n : Nat} (hwants : b.wants w (.timer n) = true)
    (hknown : (w.owner? (.timer n)).isSome) :
    b.timerEvents n = (w.run (.timer n)).1 ∧ StandsIn (b.runTimer n) (w.run (.timer n)).2 := by
  have htimer : w.timers[n]? = b.timers[n]? := by rw [h.timers_eq]
  rw [timerEvents, World.run, Bridge.runTimer, htimer]
  cases b.timers[n]? with
  | none => exact ⟨rfl, h⟩
  | some t =>
    dsimp only
    have hsame : t.deadline ≤ w.clock ↔ t.deadline ≤ b.clock := by rw [h.clock_eq]
    by_cases hdue : t.deadline ≤ b.clock
    · rw [if_pos hdue, if_pos hdue, if_pos (hsame.mpr hdue)]
      exact ⟨rfl, h.settle t.id _⟩
    · rw [if_neg hdue, if_neg hdue, if_neg (mt hsame.mp hdue)]
      have hlast : [n].filter (fun n => b.wants w (.timer n)) = [n] := List.filter_cons_of_pos hwants
      have hsleeps := h.sleeps hknown
      rw [hlast] at hsleeps
      exact ⟨rfl, hsleeps⟩

end StandsIn

/-- A fetch that has brought its reply is gone, whether or not it was given up before. -/
theorem after_setGone (b : Bridge σ) (n : Nat) (effects : List (Effect Artefact Nat)) (r : Registry Artefact Nat) :
    ((b.withoutTask (.fetch n)).setPhase n .gone).after effects r =
      ((b.after effects r).withoutTask (.fetch n)).setPhase n .gone := by
  -- a fetch that is gone cannot be given up any more, so that it does not matter what comes first
  have hphase : ∀ (fs : List Fetch) m, (fs.modify n fun f => { f with phase := .gone }).modify m Fetch.abort =
      (fs.modify m Fetch.abort).modify n fun f => { f with phase := .gone } := by
    intro fs m
    refine List.ext_getElem? fun i => ?_
    rw [List.getElem?_modify, List.getElem?_modify, List.getElem?_modify, List.getElem?_modify]
    cases fs[i]? with
    | none => rfl
    | some f => by_cases hm : m = i <;> by_cases hn : n = i <;> by_cases hgone : f.phase = .gone <;>
        simp [hm, hn, Fetch.abort, hgone]
  have hone : ∀ (c : Bridge σ) (e : Effect Artefact Nat), ((c.withoutTask (.fetch n)).setPhase n .gone).perform e =
      ((c.perform e).withoutTask (.fetch n)).setPhase n .gone := by
    intro c e
    rcases e with t | (e | m) | _ | _ | _
    case abort => simp only [perform, setPhase, withoutTask, List.filter_comm]
    case release.fetch => simp only [perform, setPhase, withoutTask, hphase, List.filter_comm]
    all_goals rfl
  have key : ∀ c : Bridge σ, effects.foldl perform ((c.withoutTask (.fetch n)).setPhase n .gone) =
      ((effects.foldl perform c).withoutTask (.fetch n)).setPhase n .gone := by
    induction effects with
    | nil => exact fun c => rfl
    | cons e es ih =>
      intro c
      rw [List.foldl_cons, hone, ih, List.foldl_cons]
  exact key { b with registry := r }

namespace StandsIn

/-- The fetch of a request that waits is to wait for its reply. -/
theorem parked (h : StandsIn b w) {n : Nat} {f : Fetch} (hf : b.fetches[n]? = some f)
    (hreply : w.fetches[n]? = some (f.id, none)) (hlive : b.registry.isPending f.id = true) :
    StandsIn ((b.withoutTask (.fetch n)).setPhase n .parked) { w with work := w.work.filter (· ≠ .fetch n) } := by
  refine h.change rfl rfl h.scene_eq rfl rfl ?_ h.sleepers_eq (fun x hx => ?_) ?_ fun m g id reply hg hreply' => ?_
  · exact (congrArg (List.filter _) h.ready_eq).trans (List.filter_comm ..)
  · exact h.known x (hx.imp_left fun hmem => (List.mem_filter.mp hmem).1)
  · rw [setPhase, List.length_modify]
    exact h.length_eq
  · have hg : (b.fetches.modify n fun f => { f with phase := .parked })[m]? = some g := hg
    rw [List.getElem?_modify] at hg
    obtain ⟨g, hold, rfl⟩ := Option.map_eq_some_iff.mp hg
    obtain ⟨rfl, hstands⟩ := h.fetches m g id reply hold hreply'
    by_cases hm : n = m
    · subst hm
      obtain rfl := Option.some.inj (hf.symm.trans hold)
      obtain ⟨-, rfl⟩ := Prod.mk.inj (Option.some.inj (hreply.symm.trans hreply'))
      rw [if_pos rfl]
      have hnot : Task.fetch n ∉ w.work.filter (· ≠ .fetch n) := by simp
      -- its reply is still to come, and it is taken from the work, so that it is parked
      exact ⟨rfl, hstands.answered_eq, fun _ => ⟨(hstands.live hlive).1, (if_neg hnot).symm⟩,
        fun hdead => by cases hlive.symm.trans hdead⟩
    · rw [if_neg hm]
      exact ⟨rfl, hstands.congr rfl (by simp [Ne.symm hm])⟩

/-- A fetch brings its reply or goes on waiting in both. -/
theorem runFetch (h : StandsIn b w) {n : Nat} (hmem : .fetch n ∈ w.work) (hwants : b.wants w (.fetch n) = true) :
    let taken : World σ := { w with work := w.work.filter (· ≠ .fetch n) }
    (b.withoutTask (.fetch n)).fetchEvents n = (taken.run (.fetch n)).1 ∧
      StandsIn ((b.withoutTask (.fetch n)).runFetch n) (taken.run (.fetch n)).2 := by
  intro taken
  have hsome := (h.known _ (.inl hmem)).resolve_left (by simp)
  obtain ⟨⟨id, reply⟩, hreply⟩ : ∃ p, w.fetches[n]? = some p := by
    rw [World.owner?, Option.isSome_map] at hsome
    exact Option.isSome_iff_exists.mp hsome
  have hlt : n < b.fetches.length := h.length_eq ▸ (List.getElem?_eq_some_iff.mp hreply).1
  obtain ⟨f, hf⟩ : ∃ f, b.fetches[n]? = some f := ⟨_, List.getElem?_eq_getElem hlt⟩
  obtain ⟨rfl, hstands⟩ := h.fetches n f id reply hf hreply
  have hlive : b.registry.isPending f.id = true := by
    rwa [wants, World.owner?, hreply] at hwants
  obtain ⟨rfl, -⟩ := hstands.live hlive
  have hfetches : (b.withoutTask (.fetch n)).fetches = b.fetches := rfl
  have htaken : taken.fetches = w.fetches := rfl
  rw [fetchEvents, Bridge.runFetch, World.run, hfetches, htaken, hf, hreply]
  dsimp only
  cases hr : f.reply with
  | none => exact ⟨rfl, h.parked hf (hr ▸ hreply) hlive⟩
  | some r =>
    refine ⟨rfl, ?_⟩
    -- once the request is settled, nobody waits for the fetch
    have hsettled := h.settle f.id (settlementOf r)
    have hdead : (b.settle f.id (settlementOf r)).2.wants w (.fetch n) = false := by
      rw [wants, World.owner?, hreply, Bridge.settle, registry_after]
      exact Registry.not_isPending_settle ..
    have hcomm : (((b.withoutTask (.fetch n)).setPhase n .gone).settle f.id (settlementOf r)).2 =
        ((b.settle f.id (settlementOf r)).2.withoutTask (.fetch n)).setPhase n .gone := after_setGone b n _ _
    dsimp only
    rw [hcomm]
    exact (hsettled.withoutTask (t := .fetch n) fun _ _ => hdead).setGone hdead

/-- The host reads what was loaded in both. -/
theorem runServer (h : StandsIn b w) :
    b.withoutLoads.answersEvents b.page.takeLoads.1 = (w.run .serve).1 ∧ StandsIn b.runServer (w.run .serve).2 := by
  rw [World.run, h.loads_eq]
  exact (h.takeLoads []).readAll b.page.loads

/-- **A task that is to be done is done in both.** -/
theorem runWanted (h : StandsIn b w) {t : Task} (hmem : t ∈ w.work) (hwants : b.wants w t = true) :
    (b.withoutTask t).taskEvents t = (w.runNext t).1 ∧ StandsIn ((b.withoutTask t).run t) (w.runNext t).2 := by
  rw [World.runNext, if_pos hmem]
  cases t with
  | timer n =>
    have hknown := (h.known _ (.inl hmem)).resolve_left (by simp)
    exact (h.withoutTask fun m hm => by cases hm).runTimer hwants hknown
  | fetch n => exact h.runFetch hmem hwants
  | serve => exact (h.withoutTask fun m hm => by cases hm).runServer

/-- A task that nobody waits for is done in the world alone. What it brings is aimed at its owner. -/
theorem runUnwanted (h : StandsIn b w) {t : Task} (hwants : b.wants w t = false) :
    StandsIn b (w.runNext t).2 ∧
      ∀ e ∈ (w.runNext t).1, ∃ id en, e = .aimed id en ∧ b.registry.isPending id = false := by
  -- the bridge has stopped this task already
  have hready : t ∉ b.ready := by
    rw [h.ready_eq]
    intro hmem
    cases hwants.symm.trans (List.mem_filter.mp hmem).2
  rw [World.runNext]
  by_cases hmem : t ∈ w.work
  · rw [if_pos hmem]
    have htaken : StandsIn b { w with work := w.work.filter (· ≠ t) } := by
      have hsame : b.withoutTask t = b := by
        have hall : b.ready.filter (· ≠ t) = b.ready :=
          List.filter_eq_self.mpr fun x hx => decide_eq_true fun heq => hready (heq ▸ hx)
        rw [Bridge.withoutTask, hall]
      exact hsame ▸ h.withoutTask fun _ _ => hwants
    cases t with
    | timer n =>
      have hknown := (h.known _ (.inl hmem)).resolve_left (by simp)
      have hnone : [n].filter (fun n => b.wants w (.timer n)) = [] := List.filter_cons_of_neg (by rw [hwants]; simp)
      -- the timer goes to sleep in the world alone, where it will run out too late
      have hsleeps := htaken.sleeps hknown
      have hstay : b.sleepers ++ [n].filter (fun n => b.wants w (.timer n)) = b.sleepers := by rw [hnone, List.append_nil]
      rw [World.run]
      rw [wants, World.owner?] at hwants
      cases ht : w.timers[n]? with
      | none => exact ⟨htaken, fun e he => absurd he List.not_mem_nil⟩
      | some t =>
        rw [ht] at hwants
        dsimp only
        split
        · exact ⟨htaken, fun e he => ⟨t.id, _, List.mem_singleton.mp he, hwants⟩⟩
        · refine ⟨?_, fun e he => absurd he List.not_mem_nil⟩
          have hsame : { b with sleepers := b.sleepers ++ [n].filter fun n => b.wants w (.timer n) } = b := by rw [hstay]
          exact hsame ▸ hsleeps
    | fetch n =>
      rw [wants, World.owner?] at hwants
      rw [World.run]
      dsimp only
      rcases hreply : w.fetches[n]? with _ | ⟨id, _ | reply⟩
      · exact ⟨htaken, fun e he => absurd he List.not_mem_nil⟩
      · exact ⟨htaken, fun e he => absurd he List.not_mem_nil⟩
      · rw [hreply] at hwants
        -- the reply comes, but its request has ended
        exact ⟨htaken, fun e he => ⟨id, _, List.mem_singleton.mp he, hwants⟩⟩
    | serve => cases hwants
  · rw [if_neg hmem]
    exact ⟨h, fun e he => absurd he List.not_mem_nil⟩

/-! ## Time -/

/-- A fetch has its reply, and is to run if its request waits. -/
theorem answered (h : StandsIn b w) {n : Nat} {f g : Fetch} {r : FetchReply} {ready : List Task}
    (hf : b.fetches[n]? = some f) (hreply : w.fetches[n]? = some (f.id, none)) (hid : g.id = f.id)
    (hanswered : g.answered = true)
    (hlive : b.registry.isPending f.id = true → g.reply = some r ∧ g.phase = .ready)
    (hdead : b.registry.isPending f.id = false → g.phase = f.phase)
    (hready : ready = b.ready ++ if b.registry.isPending f.id ∧ .fetch n ∉ w.work then [.fetch n] else []) :
    StandsIn { b with fetches := b.fetches.set n g, ready := ready } (w.reply n r) := by
  have hlt : n < b.fetches.length := (List.getElem?_eq_some_iff.mp hf).1
  have hlt' : n < w.fetches.length := (List.getElem?_eq_some_iff.mp hreply).1
  have hreplied : w.reply n r = { w with fetches := w.fetches.set n (f.id, some r) }.push (.fetch n) := by
    rw [World.reply, hreply]
  have hwork : ∀ t, t ∈ (w.reply n r).work ↔ t ∈ w.work ∨ t = .fetch n := fun t => by rw [hreplied, World.mem_work_push]
  have hworld := hreplied.trans (World.push_eq _ _)
  have hwants : b.wants w (.fetch n) = b.registry.isPending f.id := by
    rw [wants, World.owner?, hreply]
    rfl
  refine h.change rfl rfl (hworld ▸ h.scene_eq) (by rw [hworld]) (w.owner?_reply n r) ?_ ?_ (fun t ht => ?_) ?_
    fun m f' id reply hf' hreply' => ?_
  · rw [hworld, List.filter_append, ← h.ready_eq]
    refine hready.trans (congrArg (b.ready ++ ·) ?_)
    -- the task is new in both if the request waits, and in the world alone if it does not
    by_cases hmem : .fetch n ∈ w.work
    · simp [hmem]
    · cases hpending : b.registry.isPending f.id <;> simp [hmem, hwants, hpending]
  · rw [hworld]
    exact h.sleepers_eq
  · rcases ht with ht | ht
    · rcases (hwork t).mp ht with ht | rfl
      · exact h.known t (.inl ht)
      · rw [World.owner?, hreply]
        exact .inr rfl
    · rw [hworld] at ht
      exact h.known t (.inr ht)
  · rw [hworld, List.length_set, List.length_set, h.length_eq]
  · have hf' : (b.fetches.set n g)[m]? = some f' := hf'
    rw [hworld] at hreply'
    have hreply' : (w.fetches.set n (f.id, some r))[m]? = some (id, reply) := hreply'
    rw [List.getElem?_set] at hf' hreply'
    by_cases hm : n = m
    · subst hm
      rw [if_pos rfl, if_pos hlt] at hf'
      rw [if_pos rfl, if_pos hlt'] at hreply'
      obtain rfl := Option.some.inj hf'
      obtain ⟨rfl, rfl⟩ := Prod.mk.inj (Option.some.inj hreply')
      have hmem : .fetch n ∈ (w.reply n r).work := (hwork _).mpr (.inr rfl)
      -- the fetch that was answered has its reply in both; it is to run in the world, and here if its request waits
      refine ⟨hid, hanswered, fun hpending => ?_, fun hnot => ?_⟩
      · rw [if_pos hmem]
        exact hlive (hid ▸ hpending)
      · have hnot : b.registry.isPending f.id = false := hid ▸ hnot
        rw [hdead hnot]
        exact (h.fetches n f f.id none hf hreply).2.dead hnot
    · rw [if_neg hm] at hf' hreply'
      obtain ⟨rfl, hstands⟩ := h.fetches m f' id reply hf' hreply'
      exact ⟨rfl, hstands.congr rfl ((hwork _).trans (or_iff_left fun heq => hm (Task.fetch.inj heq).symm))⟩

/-- **A fetch is answered in both.** -/
theorem reply (h : StandsIn b w) (n : Nat) (r : FetchReply) : StandsIn (b.reply n r).2 (w.reply n r) := by
  rw [Bridge.reply]
  cases hf : b.fetches[n]? with
  | none =>
    have hnone : w.fetches[n]? = none := by
      rw [List.getElem?_eq_none_iff] at hf ⊢
      rwa [← h.length_eq]
    rw [World.reply, hnone]
    exact h
  | some f =>
    have hlt : n < w.fetches.length := h.length_eq ▸ (List.getElem?_eq_some_iff.mp hf).1
    obtain ⟨⟨id, reply⟩, hreply⟩ : ∃ p, w.fetches[n]? = some p := ⟨_, List.getElem?_eq_getElem hlt⟩
    obtain ⟨rfl, hstands⟩ := h.fetches n f id reply hf hreply
    dsimp only
    by_cases hanswered : f.answered = true
    · -- a second reply is not taken by either
      obtain ⟨r', rfl⟩ := Option.isSome_iff_exists.mp (hstands.answered_eq.symm.trans hanswered)
      rw [if_pos hanswered, World.reply, hreply]
      exact h
    · obtain rfl : reply = none := by
        rw [hstands.answered_eq, Option.not_isSome_iff_eq_none] at hanswered
        exact hanswered
      rw [if_neg hanswered]
      have hlive : b.registry.isPending f.id = true → f.phase = if Task.fetch n ∈ w.work then .ready else .parked :=
        fun hpending => (hstands.live hpending).2
      cases hpending : b.registry.isPending f.id with
      | false =>
        -- the request has ended, and the reply changes nothing but that there is one
        have hnot : ¬ b.registry.isPending f.id = true := by simp [hpending]
        rcases hstands.dead hpending with hphase | hphase
        all_goals
          simp only [hphase]
          exact h.answered hf hreply rfl rfl (fun hlive => absurd hlive hnot) (fun _ => hphase.symm)
            (by rw [if_neg fun hboth => hnot hboth.1, List.append_nil])
      | true =>
        -- the request waits, so that its fetch is ready or parked, and ready afterwards
        have hdead : ¬ b.registry.isPending f.id = false := by simp [hpending]
        have hphase := hlive hpending
        by_cases hmem : .fetch n ∈ w.work
        · rw [if_pos hmem] at hphase
          simp only [hphase]
          exact h.answered hf hreply rfl rfl (fun _ => ⟨rfl, rfl⟩) (fun hnot => absurd hnot hdead)
            (by rw [if_neg fun hboth => hboth.2 hmem, List.append_nil])
        · rw [if_neg hmem] at hphase
          simp only [hphase]
          exact h.answered hf hreply rfl rfl (fun _ => ⟨rfl, rfl⟩) (fun hnot => absurd hnot hdead)
            (by rw [if_pos ⟨hpending, hmem⟩])

/-- Fetches that were given up may be gone. -/
theorem endAborted (h : StandsIn b w) : StandsIn b.endAborted w := by
  refine h.change rfl rfl h.scene_eq rfl rfl h.ready_eq h.sleepers_eq h.known ?_ fun n f id reply hf hreply => ?_
  · rw [Bridge.endAborted, List.length_map, h.length_eq]
  · have hf : (b.fetches.map fun f => if f.phase = .aborted then { f with phase := .gone } else f)[n]? = some f := hf
    rw [List.getElem?_map] at hf
    obtain ⟨g, hg, rfl⟩ := Option.map_eq_some_iff.mp hf
    obtain ⟨rfl, hstands⟩ := h.fetches n g id reply hg hreply
    by_cases haborted : g.phase = .aborted
    · -- a fetch that was given up is that of a request that does not wait
      have hdead : b.registry.isPending g.id = false := by
        refine Bool.eq_false_iff.mpr fun hlive => ?_
        have hphase := (hstands.live hlive).2
        rw [haborted] at hphase
        split at hphase <;> cases hphase
      rw [if_pos haborted]
      exact ⟨rfl, hstands.answered_eq, fun hlive => (by cases hdead.symm.trans hlive), fun _ => .inr rfl⟩
    · rw [if_neg haborted]
      exact ⟨rfl, hstands.congr rfl Iff.rfl⟩

/-- The same timers are to run when the clock has moved, as far as their requests wait. -/
theorem later (h : StandsIn b w) (ms : Nat) : StandsIn (b.later ms) (w.later ms) := by
  have hdeadline : ∀ n, w.deadline n = b.deadline n := fun n => by rw [World.deadline, deadline, h.timers_eq]
  have hclock : w.clock = b.clock := h.clock_eq
  let le : Nat → Nat → Bool := fun m n => decide (b.deadline m ≤ b.deadline n)
  have htrans : ∀ x y z, le x y = true → le y z = true → le x z = true := fun x y z hxy hyz =>
    decide_eq_true (Nat.le_trans (of_decide_eq_true hxy) (of_decide_eq_true hyz))
  have htotal : ∀ x y, (le x y || le y x) = true := fun x y => by
    rw [Bool.or_eq_true]
    exact (Nat.le_total (b.deadline x) (b.deadline y)).imp decide_eq_true decide_eq_true
  let due : List Nat → List Nat := fun ns => (ns.filter (b.deadline · ≤ b.clock + ms)).mergeSort le
  -- sorting leaves those whose requests wait in their order, so that it does not matter who is left out first
  have hdue : due b.sleepers = (due w.sleepers).filter fun n => b.wants w (.timer n) := by
    rw [← filter_mergeSort htrans htotal, List.filter_comm, ← h.sleepers_eq]
  have hlater : w.later ms = { w with
      clock := b.clock + ms
      sleepers := w.sleepers.filter (b.clock + ms < b.deadline ·)
      work := w.work ++ (due w.sleepers).map .timer } := by
    simp only [World.later, hdeadline, hclock, due, le]
  rw [hlater]
  refine h.change rfl rfl ?_ rfl rfl ?_ ?_ (fun t ht => ?_) h.length_eq fun n f id reply hf hreply => ?_
  · simp only [World.scene, scene, Bridge.later, wakeTimers, h.config_eq, h.runtime_eq, h.host_eq, h.loads_eq, h.timers_eq]
  · rw [List.filter_append, ← h.ready_eq, List.filter_map]
    exact congrArg (fun ns => b.ready ++ ns.map Task.timer) hdue
  · rw [List.filter_comm, ← h.sleepers_eq]
    rfl
  · rcases ht with ht | ⟨n, hn, rfl⟩
    · rcases List.mem_append.mp ht with ht | ht
      · exact h.known t (.inl ht)
      · obtain ⟨n, hn, rfl⟩ := List.mem_map.mp ht
        exact h.known _ (.inr ⟨n, (List.mem_filter.mp (List.mem_mergeSort.mp hn)).1, rfl⟩)
    · exact h.known _ (.inr ⟨n, (List.mem_filter.mp hn).1, rfl⟩)
  · exact (h.fetches n f id reply hf hreply).imp_right fun hstands => hstands.congr rfl (by simp)

end StandsIn

/-! ## What is told of both -/

/-- A bridge stands in its world, and what is told of both agrees. -/
structure Tells (b : Bridge σ) (h : History) (w : World σ) (k : History) : Prop where
  stands : StandsIn b w
  follows : b.desk.Follows h
  agree : History.Agree b.registry.stem h k

namespace Tells

variable {h k t u : History}

theorem stem_of_moves (hm : Moves b t c) : c.registry.stem = b.registry.stem := by
  have hstem := congrArg Desk.stem hm.desk_eq
  rwa [Desk.stem_run] at hstem

/-- Something happens to both, and what is told of it agrees. -/
theorem apart (ht : Tells b h w k) (hm : Moves b t c) (hstands : StandsIn c v)
    (hagree : History.Agree b.registry.stem (h ++ t) (k ++ u)) : Tells c (h ++ t) v (k ++ u) :=
  ⟨hstands, hm.desk_eq ▸ ht.follows.run t, stem_of_moves hm ▸ hagree⟩

/-- The same happens to both. -/
theorem both (ht : Tells b h w k) (hm : Moves b t c) (hstands : StandsIn c v) (heq : t = u) :
    Tells c (h ++ t) v (k ++ u) :=
  ht.apart hm hstands (heq ▸ ht.agree.append t)

/-- Nothing happens to the requests. -/
theorem of_eq (ht : Tells b h w k) (hreg : c.registry = b.registry) (hboxes : c.inboxes = b.inboxes)
    (hstands : StandsIn c v) : Tells c h v k := by
  have hdone := ht.both (.of_eq ht.stands.sound hreg hboxes) hstands rfl
  rwa [List.append_nil, List.append_nil] at hdone

/-- Nobody waits under an id whose request has ended. -/
theorem not_pending_iff (ht : Tells b h w k) (id : String) :
    b.registry.isPending id = false ↔ ¬ h.Waits b.registry.stem id := by
  rw [← ht.stands.sound.isPending_iff_waits ht.follows, Bool.not_eq_true]

/-- What comes too late happens in the world alone. -/
theorem world (ht : Tells b h w k) (hstands : StandsIn b v)
    (hlate : ∀ e ∈ t, ∃ id en, e = .aimed id en ∧ b.registry.isPending id = false) : Tells b h v (k ++ t) := by
  refine ⟨hstands, ht.follows, ht.agree.all_late_right fun e he => ?_⟩
  obtain ⟨id, en, rfl, hdead⟩ := hlate e he
  exact History.late_aimed ((ht.not_pending_iff id).mp hdead) en

/-- A task that is done in both, or in the world alone. -/
theorem runReady (ht : Tells b h w k) (t : Task) :
    Tells (b.runReady t) (h ++ if t ∈ b.ready then (b.withoutTask t).taskEvents t else [])
      (w.runNext t).2 (k ++ (w.runNext t).1) := by
  by_cases hready : t ∈ b.ready
  · obtain ⟨hmem, hwants⟩ := List.mem_filter.mp (ht.stands.ready_eq ▸ hready)
    obtain ⟨hevents, hstands⟩ := ht.stands.runWanted hmem hwants
    have hrun : b.runReady t = (b.withoutTask t).run t := if_pos hready
    have hmoves := moves_runReady ht.stands.sound t
    rw [hrun] at hmoves ⊢
    exact ht.both hmoves hstands ((if_pos hready).trans hevents)
  · have hrun : b.runReady t = b := if_neg hready
    rw [if_neg hready, hrun, List.append_nil]
    by_cases hwants : b.wants w t = true
    · -- a task that is not ready is either not to be done at all, or for a request that does not wait
      have hmem : t ∉ w.work := fun hmem => hready (ht.stands.ready_eq ▸ List.mem_filter.mpr ⟨hmem, hwants⟩)
      rw [World.runNext, if_neg hmem, List.append_nil]
      exact ht
    · obtain ⟨hstands, hlate⟩ := ht.stands.runUnwanted (Bool.eq_false_iff.mpr hwants)
      exact ht.world hstands hlate

/-- Tasks are done one after another. The bridge may leave out those that were not ready at first. -/
theorem runAll (ht : Tells b h w k) (ts : List Task) (p : Task → Bool) (hp : ∀ t ∈ ts, p t = false → t ∉ b.ready) :
    Tells ((ts.filter p).foldl Bridge.runReady b) (h ++ b.readyEvents (ts.filter p)) (w.runAll ts).2
      (k ++ (w.runAll ts).1) := by
  induction ts generalizing b h w k with
  | nil => simpa [readyEvents, World.runAll] using ht
  | cons t ts ih =>
    have hfirst := ht.runReady t
    have hrest := ih hfirst fun x hx hpx hready =>
      hp x (List.mem_cons_of_mem _ hx) hpx (List.mem_filter.mp (ready_runReady b t hready)).1
    rw [World.runAll, ← List.append_assoc]
    by_cases hpt : p t = true
    · -- an earlier task may have stopped this one, which is then done in the world alone
      rw [List.filter_cons_of_pos hpt, List.foldl_cons, readyEvents, ← List.append_assoc]
      exact hrest
    · have hready : t ∉ b.ready := hp t List.mem_cons_self (Bool.eq_false_iff.mpr hpt)
      have hrun : b.runReady t = b := if_neg hready
      rw [List.filter_cons_of_neg hpt]
      rw [hrun, if_neg hready, List.append_nil] at hrest
      exact hrest

/-- **A tick brings the same in both.** -/
theorem tick (ht : Tells b h w k) : Tells b.tick (h ++ b.tickEvents) w.tick.2 (k ++ w.tick.1) := by
  have hready := ht.stands.ready_eq
  have hran := ht.runAll w.work (b.wants w) fun t _ hnot hmem => by
    rw [hready] at hmem
    cases hnot.symm.trans (List.mem_filter.mp hmem).2
  rw [← hready] at hran
  -- what was put off for dialogs is no matter of the world
  have hdelivered : StandsIn (b.ready.foldl Bridge.runReady b).deliverDeferred w.tick.2 :=
    (StandsIn.caller w.tick.2).pushes _ _ _ _ hran.stands
  exact hran.of_eq rfl rfl hdelivered.endAborted

/-- **The clock moves in both.** -/
theorem advance (ht : Tells b h w k) (ms : Nat) :
    Tells (b.advance ms) (h ++ b.advanceEvents ms) (w.advance ms).2 (k ++ (w.advance ms).1) := by
  have hlater : Tells (b.tick.later ms) (h ++ b.tickEvents) (w.tick.2.later ms) (k ++ w.tick.1) :=
    ht.tick.of_eq rfl rfl (ht.tick.stands.later ms)
  have hdone := hlater.tick
  rw [List.append_assoc, List.append_assoc] at hdone
  exact hdone

end Tells

end Hostlink.Bridge
