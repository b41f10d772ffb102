import Hostlink.Proofs.Bridge.Run

/-!
# Events that come too late

A settlement that is aimed at an id that does not wait changes nothing, and so does an operation
that brings no other events.

* `Bridge.Untouched` — the same requests, inboxes and elements;
* `Session.untouched_step` — **an operation that aims only at ids that do not wait touches nothing**.
-/

namespace Hostlink.Bridge

open Registry (Ending Event History)

variable {σ : Type}

/-- A settlement aimed at an id that does not wait. -/
def Idle (b : Bridge σ) (e : Event) : Prop :=
  ∃ id v, e = .aimed id (.settled v) ∧ b.registry.isPending id = false

/-- The same requests, inboxes and elements. -/
structure Untouched (b c : Bridge σ) : Prop where
  registry : c.registry = b.registry
  inboxes : c.inboxes = b.inboxes
  nodes : c.page.nodes = b.page.nodes

namespace Untouched

variable {b c d : Bridge σ}

theorem refl (b : Bridge σ) : Untouched b b := ⟨rfl, rfl, rfl⟩

theorem trans (h : Untouched b c) (h' : Untouched c d) : Untouched b d :=
  ⟨h'.registry.trans h.registry, h'.inboxes.trans h.inboxes, h'.nodes.trans h.nodes⟩

/-- The same ids wait. -/
theorem idle (h : Untouched b c) {e : Event} (he : b.Idle e) : c.Idle e := by
  obtain ⟨id, v, rfl, hp⟩ := he
  exact ⟨id, v, rfl, h.registry ▸ hp⟩

end Untouched

variable {b : Bridge σ}

theorem settle_of_idle {id : String} {v : Settlement} (h : b.Idle (.aimed id (.settled v))) :
    b.settle id v = (false, b) := by
  obtain ⟨i, w, heq, hp⟩ := h
  obtain ⟨rfl, -⟩ := Event.aimed.inj heq
  exact settle_of_not_pending (by simp [hp]) v

/-- Only the event of a settlement counts. -/
theorem untouched_settle {id : String} {v : Settlement} (h : b.Idle (.aimed id (.settled v))) :
    Untouched b (b.settle id v).2 := by
  rw [settle_of_idle h]
  exact .refl b

/-! ## The host and time -/

theorem untouched_answerScript {url : String} (h : ∀ e ∈ b.answerEvents url, b.Idle e) :
    Untouched b (b.answerScript url).2 := by
  unfold answerEvents at h
  unfold answerScript
  split
  · -- the host answers under the name that it finds in the URL, if there is one
    rename_i hc
    rw [if_pos hc] at h
    rcases hans : b.host.answer url with ⟨e | ⟨r, answer⟩, host⟩
    all_goals rw [hans] at h
    · exact ⟨rfl, rfl, rfl⟩
    · dsimp only at h ⊢
      cases hcb : r.callback with
      | none => exact ⟨rfl, rfl, rfl⟩
      | some id =>
        rw [hcb] at h
        -- what the host remembers may change, which no request can tell
        have hu : Untouched b { b with host := host } := ⟨rfl, rfl, rfl⟩
        exact hu.trans (untouched_settle (hu.idle (h _ List.mem_cons_self)))
  · exact .refl b

theorem untouched_answerScripts {urls : List String} (h : ∀ e ∈ b.answersEvents urls, b.Idle e) :
    Untouched b (b.answerScripts urls) := by
  induction urls generalizing b with
  | nil => exact .refl b
  | cons url urls ih =>
    have h1 := untouched_answerScript fun e he => h e (List.mem_append_left _ he)
    exact h1.trans (ih fun e he => h1.idle (h e (List.mem_append_right _ he)))

theorem untouched_run {t : Task} (h : ∀ e ∈ b.taskEvents t, b.Idle e) : Untouched b (b.run t) := by
  cases t with
  | timer n =>
    simp only [taskEvents, timerEvents] at h
    simp only [run, runTimer]
    cases ht : b.timers[n]? with
    | none => exact .refl b
    | some t =>
      simp only [ht] at h
      dsimp only
      split
      · next hdue =>
        rw [if_pos hdue] at h
        -- the timer has run out, and its request does not wait any more
        exact untouched_settle (h _ List.mem_cons_self)
      · -- it goes to sleep
        exact ⟨rfl, rfl, rfl⟩
  | fetch n =>
    simp only [taskEvents, fetchEvents] at h
    simp only [run, runFetch]
    cases hf : b.fetches[n]? with
    | none => exact .refl b
    | some f =>
      simp only [hf] at h
      dsimp only
      cases hr : f.reply with
      -- a fetch without a reply is parked
      | none => exact ⟨rfl, rfl, rfl⟩
      | some reply =>
        simp only [hr] at h
        have hu : Untouched b (b.setPhase n .gone) := ⟨rfl, rfl, rfl⟩
        -- the fetch is gone, and its reply comes too late
        exact hu.trans (untouched_settle (hu.idle (h _ List.mem_cons_self)))
  | serve =>
    have hu : Untouched b b.withoutLoads := ⟨rfl, rfl, rfl⟩
    exact hu.trans (untouched_answerScripts fun e he => hu.idle (h e he))

theorem untouched_foldl_runReady {ts : List Task} (h : ∀ e ∈ b.readyEvents ts, b.Idle e) :
    Untouched b (ts.foldl runReady b) := by
  induction ts generalizing b with
  | nil => exact .refl b
  | cons t ts ih =>
    have h1 : Untouched b (b.runReady t) := by
      have hfirst : ∀ e ∈ if t ∈ b.ready then (b.withoutTask t).taskEvents t else [], b.Idle e :=
        fun e he => h e (List.mem_append_left _ he)
      unfold runReady
      split
      · next ht =>
        rw [if_pos ht] at hfirst
        -- a task that is not ready any more does nothing
        have hu : Untouched b (b.withoutTask t) := ⟨rfl, rfl, rfl⟩
        exact hu.trans (untouched_run fun e he => hu.idle (hfirst e he))
      · exact .refl b
    exact h1.trans (ih fun e he => h1.idle (h e (List.mem_append_right _ he)))

theorem untouched_tick (h : ∀ e ∈ b.tickEvents, b.Idle e) : Untouched b b.tick := by
  have hu := untouched_foldl_runReady h
  exact ⟨hu.registry, hu.inboxes, hu.nodes⟩

theorem untouched_advance {ms : Nat} (h : ∀ e ∈ b.advanceEvents ms, b.Idle e) :
    Untouched b (b.advance ms) := by
  have h1 := untouched_tick fun e he => h e (List.mem_append_left _ he)
  -- the requests are the same when the clock moves, so that what comes later is idle for the first bridge, too
  have h2 : Untouched b (b.tick.later ms) := ⟨h1.registry, h1.inboxes, h1.nodes⟩
  exact h2.trans (untouched_tick fun e he => h2.idle (h e (List.mem_append_right _ he)))

/-! ## Callers and pushes -/

theorem untouched_takeOwn (d : Dialog) (f : Inboxes → Nat → Inboxes) :
    Untouched b (b.takeOwn d f).2 := by
  unfold takeOwn
  split <;> exact ⟨rfl, rfl, rfl⟩

theorem untouched_cancelDialog {d : Dialog} (h : ∀ e ∈ b.cancelEvents (.dialog d), b.Idle e) :
    Untouched b (b.cancelDialog d).2 := by
  unfold cancelDialog
  simp only [cancelEvents] at h
  cases hd : d.request with
  | none => exact untouched_takeOwn d _
  | some n =>
    rw [hd] at h
    have hu : Untouched b (b.cancel n).2 := untouched_settle (h _ List.mem_cons_self)
    exact hu.trans (untouched_takeOwn d _)

theorem untouched_notify (p : Push) : Untouched b (b.notify p).2 := by
  unfold notify
  rcases b.router.dispatch p with ⟨_ | ⟨name, d⟩, router⟩ <;> exact ⟨rfl, rfl, rfl⟩

theorem untouched_reply (n : Nat) (r : FetchReply) : Untouched b (b.reply n r).2 := by
  obtain ⟨fetches, ready, heq⟩ := reply_eq b n r
  rw [heq]
  exact ⟨rfl, rfl, rfl⟩

/-- **An operation that aims only at ids that do not wait touches nothing.** Looking at a call and
dropping it are the owner's business and left out. -/
theorem Session.untouched_step {s : Session σ} {op : Op} (hop : ∀ k, op ≠ .poll k ∧ op ≠ .drop k)
    (h : ∀ e ∈ s.events op, s.bridge.Idle e) :
    Untouched s.bridge (s.step op).2.bridge ∧ (s.step op).2.held = s.held := by
  -- a call registers a request, and that is no idle event
  have hnew : ∀ path args timeout (b : Bridge σ), ¬ ∀ e ∈ b.callEvents path args timeout, s.bridge.Idle e := by
    intro path args timeout b hall
    obtain ⟨id, v, heq, -⟩ := hall .opened List.mem_cons_self
    cases heq
  cases op with
  | call path args timeout => exact absurd h (hnew path args timeout s.bridge)
  | callNamed name path args => exact absurd h (hnew path args none _)
  | poll k => exact absurd rfl (hop k).1
  | drop k => exact absurd rfl (hop k).2
  | cancel k =>
    rcases cancel_cases s k with ⟨hsame, -⟩ | ⟨n | d, outcome, he, hevents, hcancel⟩
    · -- the call was dropped, so that there is nothing to cancel
      simp only [step, hsame]
      exact ⟨.refl _, trivial⟩
    · -- whoever holds the call cancels its own request only, and that does not wait
      rw [hevents] at h
      simp only [step, hcancel]
      exact ⟨untouched_settle (h _ List.mem_cons_self), trivial⟩
    · -- a dialog also takes out its handler, which is not counted here
      rw [hevents] at h
      simp only [step, hcancel]
      exact ⟨untouched_cancelDialog h, trivial⟩
  | cancelDetached k =>
    rcases hk : s.held[k]?.map Held.handle with _ | (n | d)
    all_goals
      simp only [events, hk] at h
      simp only [step, cancelDetached, hk]
    · exact ⟨.refl _, trivial⟩
    · exact ⟨untouched_settle (h _ List.mem_cons_self), trivial⟩
    · exact ⟨.refl _, trivial⟩
  | invoke id data error => exact ⟨untouched_settle (h _ List.mem_cons_self), rfl⟩
  | reject id e => exact ⟨untouched_settle (h _ List.mem_cons_self), rfl⟩
  | notify p => exact ⟨untouched_notify p, rfl⟩
  | hostNotify p =>
    have hu : Untouched s.bridge (s.bridge.hostNotify p).2 := by
      unfold hostNotify
      split
      · exact untouched_notify p
      · exact .refl _
    exact ⟨hu, rfl⟩
  | tick => exact ⟨untouched_tick h, rfl⟩
  | advance ms => exact ⟨untouched_advance h, rfl⟩
  | answer url => exact ⟨untouched_answerScript h, rfl⟩
  | answerNext =>
    rcases hl : s.bridge.page.loads with _ | ⟨url, rest⟩
    all_goals
      simp only [events, takeLoad, hl] at h
      simp only [step, takeLoad, hl]
    · exact ⟨.refl _, trivial⟩
    · have hu : Untouched s.bridge { s.bridge with page := { s.bridge.page with loads := rest } } :=
        ⟨rfl, rfl, rfl⟩
      exact ⟨hu.trans (untouched_answerScript fun e he => hu.idle (h e he)), trivial⟩
  | reply n r => exact ⟨untouched_reply n r, rfl⟩
  -- pushes and subscribers have nothing to do with requests
  | _ => exact ⟨⟨rfl, rfl, rfl⟩, rfl⟩

end Hostlink.Bridge
