import Hostlink.Bridge.Tick
import Hostlink.Proofs.Registry.Simulation

/-!
# The events of a bridge

Whatever a bridge does to requests and their inboxes is a list of events: replies, timers, fetches,
and callers that cancel or drop all aim at ids. Which events a tick or a call brings about depends
on the bridge, and is said by functions of their own; that they are all of them is proved here.

* `Bridge.Moves` — a bridge goes over to another by a list of events;
* `Bridge.moves_settle`, `Bridge.moves_forget` — the two operations that everything comes down to;
* `Bridge.moves_answerScripts`, `Bridge.moves_tick`, `Bridge.moves_advance` — the host and time.
-/

namespace Hostlink.Bridge

open Registry (Ending Event History Desk)

variable {σ : Type}

/-- What callers see of a bridge. -/
def desk (b : Bridge σ) : Desk := b.registry.desk b.inboxes

/-- A bridge goes over to another by a list of events. -/
structure Moves (b : Bridge σ) (h : History) (b' : Bridge σ) : Prop where
  sound : b'.registry.Sound
  desk_eq : b'.desk = b.desk.run h

theorem Moves.refl {b : Bridge σ} (hs : b.registry.Sound) : Moves b [] b := ⟨hs, rfl⟩

theorem Moves.trans {b c d : Bridge σ} {h k : History} (hb : Moves b h c) (hc : Moves c k d) :
    Moves b (h ++ k) d :=
  ⟨hc.sound, by rw [hc.desk_eq, hb.desk_eq, Desk.run_append]⟩

/-- What changes neither requests nor inboxes brings no events. -/
theorem Moves.of_eq {b b' : Bridge σ} (hs : b.registry.Sound) (hr : b'.registry = b.registry)
    (hi : b'.inboxes = b.inboxes) : Moves b [] b' :=
  ⟨hr ▸ hs, by rw [desk, hr, hi]; rfl⟩

/-- The events are those of a bridge with the same requests and inboxes. -/
theorem Moves.congr {b c b' : Bridge σ} {h : History} (hm : Moves c h b')
    (hr : c.registry = b.registry) (hi : c.inboxes = b.inboxes) : Moves b h b' :=
  ⟨hm.sound, by rw [hm.desk_eq, desk, desk, hr, hi]⟩

/-! ## Effects -/

theorem registry_perform (b : Bridge σ) (e : Effect Artefact Nat) :
    (b.perform e).registry = b.registry := by
  rcases e with _ | (_ | _) | _ | _ | _ <;> rfl

theorem inboxes_perform (b : Bridge σ) (e : Effect Artefact Nat) :
    (b.perform e).inboxes = Registry.onInboxes b.inboxes e := by
  rcases e with _ | (_ | _) | _ | _ | _ <;> rfl

/-- What none of a list of effects changes, the whole list does not change. -/
theorem foldl_perform_of {α : Type} (f : Bridge σ → α) : ∀ (effects : List (Effect Artefact Nat)),
    (∀ e ∈ effects, ∀ b : Bridge σ, f (b.perform e) = f b) →
    ∀ b : Bridge σ, f (effects.foldl perform b) = f b
  | [], _, _ => rfl
  | e :: es, hf, b =>
    (foldl_perform_of f es (fun e' he' => hf e' (List.mem_cons_of_mem _ he')) (b.perform e)).trans
      (hf e List.mem_cons_self b)

section

variable (b : Bridge σ) (effects : List (Effect Artefact Nat)) (r : Registry Artefact Nat)

@[simp] theorem registry_after : (b.after effects r).registry = r :=
  foldl_perform_of (·.registry) effects (fun e _ b => registry_perform b e) _

@[simp] theorem config_after : (b.after effects r).config = b.config :=
  foldl_perform_of (·.config) effects (fun e _ b => by rcases e with _ | (_ | _) | _ | _ | _ <;> rfl) _

@[simp] theorem runtime_after : (b.after effects r).runtime = b.runtime :=
  foldl_perform_of (·.runtime) effects (fun e _ b => by rcases e with _ | (_ | _) | _ | _ | _ <;> rfl) _

@[simp] theorem host_after : (b.after effects r).host = b.host :=
  foldl_perform_of (·.host) effects (fun e _ b => by rcases e with _ | (_ | _) | _ | _ | _ <;> rfl) _

/-- Stopping timers does not change the page. -/
@[simp] theorem page_after_attachTimer (id : String) (t : Nat) :
    (b.after (b.registry.attachTimer id t).1 r).page = b.page := by
  refine foldl_perform_of (·.page) _ (fun e he b => ?_) _
  have : e = .abort t := by
    unfold Registry.attachTimer at he
    split at he
    · exact absurd he (List.not_mem_nil)
    · exact List.mem_singleton.mp he
  rw [this]
  rfl

@[simp] theorem inboxes_after :
    (b.after effects r).inboxes = Registry.deliverAll b.inboxes effects := by
  have h : ∀ (effects : List (Effect Artefact Nat)) (c : Bridge σ),
      (effects.foldl perform c).inboxes = Registry.deliverAll c.inboxes effects := by
    intro effects
    induction effects with
    | nil => exact fun c => rfl
    | cons e es ih =>
      intro c
      have hrest := ih (c.perform e)
      rw [inboxes_perform] at hrest
      exact hrest
  exact h effects _

end

/-! ## Settling and forgetting -/

section

variable {b : Bridge σ} (hs : b.registry.Sound)
include hs

theorem moves_settle (id : String) (v : Settlement) :
    Moves b [.aimed id (.settled v)] (b.settle id v).2 :=
  ⟨by simpa [settle] using hs.settle b.clock id v,
    by simpa [settle, desk] using hs.desk_settle b.inboxes b.clock id v⟩

theorem moves_forget (id : String) : Moves b [.aimed id .forgotten] (b.forget id) :=
  ⟨by simpa [forget] using hs.forget b.clock id,
    by simpa [forget, desk] using hs.desk_forget b.inboxes b.clock id⟩

theorem moves_attachTimer (id : String) (t : Nat) :
    Moves b [] (b.after (b.registry.attachTimer id t).1 (b.registry.attachTimer id t).2) :=
  ⟨by simpa using hs.attachTimer id t,
    by simpa [desk] using Registry.desk_attachTimer b.registry b.inboxes id t⟩

theorem moves_attachGuard (id : String) (g : Artefact) :
    Moves b [] (b.after (b.registry.attachGuard id g).1 (b.registry.attachGuard id g).2) :=
  ⟨by simpa using hs.attachGuard id g,
    by simpa [desk] using Registry.desk_attachGuard b.registry b.inboxes id g⟩

/-! ## Callers -/

theorem moves_poll (n : Nat) : Moves b [.read n] (b.poll n).2 := ⟨hs, rfl⟩

theorem moves_cancel (n : Nat) :
    Moves b [.aimed (b.idOf n) (.settled (.error .canceled))] (b.cancel n).2 :=
  moves_settle hs _ _

theorem moves_drop (n : Nat) : Moves b [.aimed (b.idOf n) .forgotten, .dropped n] (b.drop n) :=
  (moves_forget hs (b.idOf n)).trans ⟨(moves_forget hs (b.idOf n)).sound, rfl⟩

end

/-! ## Settled requests are left alone -/

theorem settle_of_not_pending {b : Bridge σ} {id : String} (h : ¬ b.registry.isPending id)
    (v : Settlement) : b.settle id v = (false, b) := by
  rw [settle, Registry.settle_of_not_pending h]
  rfl

theorem forget_of_not_pending {b : Bridge σ} {id : String} (h : ¬ b.registry.isPending id) :
    b.forget id = b := by
  rw [forget, Registry.forget_of_not_pending h]
  rfl

/-! ## The host answers scripts -/

/-- The events of an answer to a script. -/
def answerEvents (b : Bridge σ) (url : String) : History :=
  if b.host.connected then
    match (b.host.answer url).1 with
    | .error _ => []
    | .ok (r, answer) =>
      (r.callback.map fun id => Event.aimed id (.settled (Host.settlementOf answer))).toList
  else []

/-- The events of answers to several scripts. -/
def answersEvents (b : Bridge σ) : List String → History
  | [] => []
  | url :: urls => b.answerEvents url ++ answersEvents (b.answerScript url).2 urls

theorem moves_answerScript {b : Bridge σ} (hs : b.registry.Sound) (url : String) :
    Moves b (b.answerEvents url) (b.answerScript url).2 := by
  unfold answerEvents answerScript
  split
  · rcases b.host.answer url with ⟨e | ⟨r, answer⟩, host⟩
    · exact .of_eq hs rfl rfl
    · dsimp only
      cases r.callback with
      | none => exact .of_eq hs rfl rfl
      | some id =>
        have hs' : ({ b with host := host } : Bridge σ).registry.Sound := hs
        exact (moves_settle hs' id (Host.settlementOf answer)).congr rfl rfl
  · exact .refl hs

theorem moves_answerScripts {b : Bridge σ} (hs : b.registry.Sound) (urls : List String) :
    Moves b (b.answersEvents urls) (b.answerScripts urls) := by
  induction urls generalizing b with
  | nil => exact .refl hs
  | cons url urls ih =>
    have h1 := moves_answerScript hs url
    exact h1.trans (ih h1.sound)

/-! ## Ticks -/

/-- The events of a timer that runs. -/
def timerEvents (b : Bridge σ) (n : Nat) : History :=
  match b.timers[n]? with
  | none => []
  | some t => if t.deadline ≤ b.clock then [.aimed t.id (.settled (.error .timeout))] else []

/-- The events of a fetch that runs. -/
def fetchEvents (b : Bridge σ) (n : Nat) : History :=
  match b.fetches[n]? with
  | none => []
  | some f =>
    match f.reply with
    | none => []
    | some reply => [.aimed f.id (.settled (settlementOf reply))]

/-- The bridge after the sources that its page has loaded are taken. -/
def withoutLoads (b : Bridge σ) : Bridge σ := { b with page := b.page.takeLoads.2 }

/-- The events of a task. -/
def taskEvents (b : Bridge σ) : Task → History
  | .timer n => b.timerEvents n
  | .fetch n => b.fetchEvents n
  | .serve => b.withoutLoads.answersEvents b.page.takeLoads.1

/-- The bridge after a task has been taken from those that are ready. -/
def withoutTask (b : Bridge σ) (t : Task) : Bridge σ := { b with ready := b.ready.filter (· ≠ t) }

/-- The events of tasks that run if they are still ready. -/
def readyEvents (b : Bridge σ) : List Task → History
  | [] => []
  | t :: ts => (if t ∈ b.ready then (b.withoutTask t).taskEvents t else []) ++
      readyEvents (b.runReady t) ts

/-- The events of a tick. -/
def tickEvents (b : Bridge σ) : History := b.readyEvents b.ready

/-- The bridge when the clock has moved. -/
def later (b : Bridge σ) (ms : Nat) : Bridge σ := { b with clock := b.clock + ms }.wakeTimers

/-- The events while the clock moves. -/
def advanceEvents (b : Bridge σ) (ms : Nat) : History :=
  b.tickEvents ++ (b.tick.later ms).tickEvents

section

variable {b : Bridge σ} (hs : b.registry.Sound)
include hs

theorem moves_runTimer (n : Nat) : Moves b (b.timerEvents n) (b.runTimer n) := by
  unfold timerEvents runTimer
  cases b.timers[n]? with
  | none => exact .refl hs
  | some t =>
    dsimp only
    split
    · exact moves_settle hs t.id _
    · exact .of_eq hs rfl rfl

theorem moves_runFetch (n : Nat) : Moves b (b.fetchEvents n) (b.runFetch n) := by
  unfold fetchEvents runFetch
  cases b.fetches[n]? with
  | none => exact .refl hs
  | some f =>
    dsimp only
    cases f.reply with
    | none => exact .of_eq hs rfl rfl
    | some reply =>
      have hs' : (b.setPhase n .gone).registry.Sound := hs
      exact (moves_settle hs' f.id (settlementOf reply)).congr rfl rfl

theorem moves_run (t : Task) : Moves b (b.taskEvents t) (b.run t) := by
  cases t with
  | timer n => exact moves_runTimer hs n
  | fetch n => exact moves_runFetch hs n
  | serve =>
    have hs' : b.withoutLoads.registry.Sound := hs
    exact (moves_answerScripts hs' b.page.takeLoads.1).congr rfl rfl

theorem moves_runReady (t : Task) :
    Moves b (if t ∈ b.ready then (b.withoutTask t).taskEvents t else []) (b.runReady t) := by
  unfold runReady
  split
  · have hs' : (b.withoutTask t).registry.Sound := hs
    exact (moves_run hs' t).congr rfl rfl
  · exact .refl hs

theorem moves_foldl_runReady (ts : List Task) : Moves b (b.readyEvents ts) (ts.foldl runReady b) := by
  induction ts generalizing b with
  | nil => exact .refl hs
  | cons t ts ih =>
    have h1 := moves_runReady hs t
    exact h1.trans (ih h1.sound)

theorem moves_tick : Moves b b.tickEvents b.tick := by
  have h := moves_foldl_runReady hs b.ready
  exact ⟨h.sound, h.desk_eq⟩

theorem moves_advance (ms : Nat) : Moves b (b.advanceEvents ms) (b.advance ms) := by
  have h1 := moves_tick hs
  have hs' : (b.tick.later ms).registry.Sound := h1.sound
  exact h1.trans ((moves_tick hs').congr rfl rfl)

end

end Hostlink.Bridge
