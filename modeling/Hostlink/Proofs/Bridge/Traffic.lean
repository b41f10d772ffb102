import Hostlink.Proofs.Bridge.Frame

/-!
# What the host reads

A host is asked by fetches, and reads the scripts that the page has loaded, in their order and all at
once. Nothing else asks it.

* `Host.answered` — a host after it has answered several URLs;
* `Bridge.traffic` — the host, and the scripts that it has still to read;
* `Bridge.traffic_answerScripts` — it answers them one after another;
* `Bridge.traffic_run` — other tasks than its own do not ask it;
* `Bridge.times`, `Bridge.times_run` — the timers that are set, and the clock, which no task moves;
* `Bridge.times_tick`, `Bridge.times_advance` — how ticks and time move the clock.
-/

namespace Hostlink

/-- A host after it has answered several URLs. -/
def Host.answered {σ : Type} (h : Host σ) (urls : List String) : Host σ := urls.foldl (fun h url => (h.answer url).2) h

theorem Host.frame_answered {σ : Type} (h : Host σ) (urls : List String) : (h.answered urls).frame = h.frame := by
  induction urls generalizing h with
  | nil => rfl
  | cons url urls ih => exact (ih _).trans (Host.frame_answer h url)

namespace Bridge

variable {σ : Type} {b : Bridge σ}

/-- The host, and the scripts that it has still to read. -/
def traffic (b : Bridge σ) : Host σ × List String := (b.host, b.page.loads)

theorem traffic_after (b : Bridge σ) (effects : List (Effect Artefact Nat)) (r : Registry Artefact Nat) :
    (b.after effects r).traffic = b.traffic := by
  refine foldl_perform_of traffic effects (fun e _ b => ?_) _
  rcases e with _ | (e | _) | _ | _ | _
  case release.script => simp only [traffic, perform, Document.loads_remove]
  all_goals rfl

theorem traffic_settle (b : Bridge σ) (id : String) (v : Settlement) : (b.settle id v).2.traffic = b.traffic :=
  traffic_after b _ _

/-! ## Scripts -/

theorem hostFrame_answerScript (b : Bridge σ) (url : String) :
    (b.answerScript url).2.host.frame = b.host.frame :=
  congrArg (·.2.2.1) ((invariant_frame b.frame).answerScript url rfl)

/-- A host that knows the page answers the script, whether or not a request was waiting for that. -/
theorem traffic_answerScript (hconnected : b.host.connected = true) (url : String) :
    (b.answerScript url).2.traffic = ((b.host.answer url).2, b.page.loads) := by
  rw [answerScript, if_pos hconnected]
  rcases b.host.answer url with ⟨e | ⟨r, a⟩, host⟩
  · rfl
  · dsimp only
    cases r.callback with
    | none => rfl
    | some id => exact traffic_settle _ _ _

theorem host_answerScript (hconnected : b.host.connected = true) (url : String) :
    (b.answerScript url).2.host = (b.host.answer url).2 :=
  congrArg (·.1) (traffic_answerScript hconnected url)

theorem traffic_answerScripts (hconnected : b.host.connected = true) (urls : List String) :
    (b.answerScripts urls).traffic = (b.host.answered urls, b.page.loads) := by
  induction urls generalizing b with
  | nil => rfl
  | cons url urls ih =>
    obtain ⟨hhost, hloads⟩ := Prod.mk.inj (traffic_answerScript hconnected url)
    have hconnected' : (b.answerScript url).2.host.connected = true :=
      (congrArg (·.2.2.2) (hostFrame_answerScript b url)).trans hconnected
    have h := ih hconnected'
    rw [hhost, hloads] at h
    exact h

theorem loads_answerScripts (b : Bridge σ) (urls : List String) : (b.answerScripts urls).page.loads = b.page.loads := by
  by_cases hconnected : b.host.connected = true
  · exact congrArg (·.2) (traffic_answerScripts hconnected urls)
  · -- a host that does not know the page reads nothing
    have hnothing : b.answerScripts urls = b := by
      induction urls with
      | nil => rfl
      | cons url urls ih => rw [answerScripts, List.foldl_cons, answerScript, if_neg hconnected]; exact ih
    rw [hnothing]

/-! ## Tasks -/

/-- Only its own task makes the host read. -/
theorem traffic_run {t : Task} (ht : t ≠ .serve) : (b.run t).traffic = b.traffic := by
  cases t with
  | serve => exact absurd rfl ht
  | timer n =>
    rw [run, runTimer]
    split
    · rfl
    · split
      · exact traffic_settle _ _ _
      · rfl
  | fetch n =>
    rw [run, runFetch]
    split
    · rfl
    · split
      · rfl
      · exact traffic_settle _ _ _

/-- Its own task leaves it nothing to read. -/
theorem loads_run_serve (b : Bridge σ) : (b.run .serve).page.loads = [] :=
  loads_answerScripts b.withoutLoads b.page.loads

theorem traffic_run_serve (hconnected : b.host.connected = true) :
    (b.run .serve).traffic = (b.host.answered b.page.loads, []) :=
  traffic_answerScripts (b := b.withoutLoads) hconnected b.page.loads

/-! ## Time -/

/-- The timers that were set, and the clock. -/
def times (b : Bridge σ) : List Timer × Nat := (b.timers, b.clock)

theorem times_after (b : Bridge σ) (effects : List (Effect Artefact Nat)) (r : Registry Artefact Nat) :
    (b.after effects r).times = b.times :=
  foldl_perform_of times effects (fun e _ b => by rcases e with _ | (_ | _) | _ | _ | _ <;> rfl) _

theorem slot_times (t : List Timer × Nat) : SlotInvariant (fun b : Bridge σ => b.times = t) where
  settle _ _ h := (times_after _ _ _).trans h
  forget _ h := (times_after _ _ _).trans h
  readInbox _ h := h
  dropInbox _ h := h

/-- Answers set no timers and take no time. -/
theorem answer_times (t : List Timer × Nat) : AnswerInvariant (fun b : Bridge σ => b.times = t) where
  toSlotInvariant := slot_times t
  answer _ h := h
  takeLoads _ _ h := h
  setPhase _ _ h := h
  endAborted h := h

/-- Nor do callers and pushes. -/
theorem caller_times (t : List Timer × Nat) : CallerInvariant (fun b : Bridge σ => b.times = t) where
  toSlotInvariant := slot_times t
  pushes _ _ _ _ h := h

/-- No task sets a timer or moves the clock. -/
theorem times_run (b : Bridge σ) (t : Task) : (b.run t).times = b.times := by
  cases t with
  | timer n =>
    rw [run, runTimer]
    split
    · rfl
    · split
      · exact times_after _ _ _
      · rfl
  | fetch n => exact (answer_times b.times).runFetch n rfl
  | serve => exact (answer_times b.times).runServer rfl

theorem times_runReady (b : Bridge σ) (t : Task) : (b.runReady t).times = b.times := by
  unfold runReady
  split
  · exact times_run (b.withoutTask t) t
  · rfl

theorem times_tick (b : Bridge σ) : b.tick.times = b.times := by
  have h : ∀ (ts : List Task) (c : Bridge σ), (ts.foldl runReady c).times = c.times := by
    intro ts
    induction ts with
    | nil => exact fun c => rfl
    | cons t ts ih => exact fun c => (ih _).trans (times_runReady c t)
  exact h b.ready b

/-- The clock moves as it is told. -/
theorem times_advance (b : Bridge σ) (ms : Nat) : (b.advance ms).times = (b.timers, b.clock + ms) := by
  obtain ⟨htimers, hclock⟩ := Prod.mk.inj (times_tick b)
  have hlater : (b.tick.later ms).times = (b.tick.timers, b.tick.clock + ms) := rfl
  rw [advance]
  exact (times_tick (b.tick.later ms)).trans (by rw [hlater, htimers, hclock])

end Bridge

end Hostlink
