import Hostlink.Bridge.Session
import Hostlink.Proofs.Bridge.Calls

/-!
# Runs of a bridge as histories

The history of a run lists all events of its operations, so that what becomes of a request can be
said without the bridge.

* `Session.history` — the events of a list of operations;
* `Session.poll_cases`, `Session.cancel_cases`, `Session.drop_cases` — what callers do comes to nothing, or is done to a
  handle that is alive;
* `Session.moves_run` — **a run is its history**;
* `Session.follows_history` — who waits, and what inboxes hold, follows from the history.
-/

namespace Hostlink.Bridge

open Registry (Ending Event History Desk)

variable {σ : Type}

/-! ## Replies by hand -/

/-- A reply by hand is kept for its fetch, and may wake that. Nothing else changes. -/
theorem reply_cases (b : Bridge σ) (n : Nat) (r : FetchReply) :
    (b.reply n r).2 = b ∨ ∃ f g more, b.fetches[n]? = some f ∧ g.id = f.id ∧ (g.reply = f.reply ∨ g.reply = some r) ∧
      (∀ t ∈ more, t = .fetch n) ∧
      (b.reply n r).2 = { b with fetches := b.fetches.set n g, ready := b.ready ++ more } := by
  have hnone : ∀ t ∈ ([] : List Task), t = .fetch n := fun t ht => absurd ht List.not_mem_nil
  unfold reply
  split
  · exact .inl rfl
  · next f hf =>
    split
    · exact .inl rfl
    · dsimp only
      split
      -- a fetch that is gone or aborted keeps no reply, and only one that is parked is woken
      · exact .inr ⟨f, { f with answered := true }, [], hf, rfl, .inl rfl, hnone, by rw [List.append_nil]⟩
      · exact .inr ⟨f, { f with answered := true }, [], hf, rfl, .inl rfl, hnone, by rw [List.append_nil]⟩
      · exact .inr ⟨f, { f with answered := true, reply := some r }, [], hf, rfl, .inr rfl, hnone,
          by rw [List.append_nil]⟩
      · exact .inr ⟨f, { f with answered := true, reply := some r, phase := .ready }, [.fetch n], hf, rfl, .inr rfl,
          fun t ht => List.mem_singleton.mp ht, rfl⟩

theorem reply_eq (b : Bridge σ) (n : Nat) (r : FetchReply) :
    ∃ fetches ready, (b.reply n r).2 = { b with fetches, ready } := by
  rcases reply_cases b n r with heq | ⟨f, g, more, -, -, -, -, heq⟩
  · exact ⟨b.fetches, b.ready, heq⟩
  · exact ⟨_, _, heq⟩

/-! ## The events of an operation -/

/-- The settlement that a look finds. -/
def Poll.settlement? : Poll → Option Settlement
  | .pending => none
  | .ready v => some v

/-- What a caller makes of it. -/
def Poll.finding : Poll → Finding
  | .pending => .pending
  | .ready v => .settled v

/-- Cancels a handle. -/
def cancelHandle (b : Bridge σ) : Handle → Bool × Bridge σ
  | .call n => b.cancel n
  | .dialog d => b.cancelDialog d

/-- The events of a look at a handle. -/
def pollEvents (b : Bridge σ) : Handle → History
  | .call n => [.read n]
  | .dialog d => b.pollDialogEvents d

/-- The events of canceling a handle. -/
def cancelEvents (b : Bridge σ) : Handle → History
  | .call n => [.aimed (b.idOf n) (.settled (.error .canceled))]
  | .dialog d => (d.request.map fun n => Event.aimed (b.idOf n) (.settled (.error .canceled))).toList

/-- The events of dropping a handle. -/
def dropEvents (b : Bridge σ) : Handle → History
  | .call n => [.aimed (b.idOf n) .forgotten, .dropped n]
  | .dialog d => d.request.elim [] fun n => [.aimed (b.idOf n) .forgotten, .dropped n]

namespace Session

/-- The handle of a number, if `p` is true of what is held. -/
def handleIf (s : Session σ) (k : Nat) (p : Held → Bool) : Option Handle :=
  match s.held[k]? with
  | some held => if p held then some held.handle else none
  | none => none

/-- The events of an operation. -/
def events (s : Session σ) : Op → History
  | .call path args timeout => s.bridge.callEvents path args timeout
  | .callNamed name path args => (s.bridge.registerHandler name).2.callEvents path args none
  | .poll k => (s.handleIf k fun held => held.alive && held.outcome.isNone).elim [] s.bridge.pollEvents
  | .cancel k => (s.handleIf k (·.alive)).elim [] s.bridge.cancelEvents
  | .cancelDetached k =>
    match s.held[k]?.map Held.handle with
    | some (.call n) => s.bridge.cancelEvents (.call n)
    | _ => []
  | .drop k => (s.handleIf k (·.alive)).elim [] s.bridge.dropEvents
  | .invoke id data error => [.aimed id (.settled (Reply.settle data error))]
  | .reject id e => [.aimed id (.settled (.error e))]
  | .tick => s.bridge.tickEvents
  | .advance ms => s.bridge.advanceEvents ms
  | .answer url => s.bridge.answerEvents url
  | .answerNext =>
    match s.bridge.takeLoad with
    | (none, _) => []
    | (some url, b) => b.answerEvents url
  | .notify _ | .hostNotify _ | .subscribe | .unsubscribe _ | .drain _ | .requests | .reply _ _ => []

/-- The events of operations that are done one after another. -/
def history (s : Session σ) : List Op → History
  | [] => []
  | op :: ops => s.events op ++ history (s.step op).2 ops

/-! ## What callers do -/

section

variable (s : Session σ) (k : Nat)

/-- A look at a handle that is alive, as long as nothing has been found. -/
theorem poll_live {s : Session σ} {k : Nat} {handle : Handle} (he : s.held[k]? = some ⟨handle, true, none⟩) :
    s.poll k = ((pollHandle s.bridge handle).1.finding, ⟨(pollHandle s.bridge handle).2.2, s.held.set k
      ⟨(pollHandle s.bridge handle).2.1, true, (pollHandle s.bridge handle).1.settlement?⟩⟩) := by
  simp only [poll, he, if_true]
  rcases pollHandle s.bridge handle with ⟨_ | v, handle', b⟩ <;> rfl

/-- A look changes nothing, unless the handle is alive and nothing has been found. -/
theorem poll_cases : ((s.poll k).2 = s ∧ s.events (.poll k) = []) ∨
    ∃ handle, s.held[k]? = some ⟨handle, true, none⟩ ∧ s.events (.poll k) = s.bridge.pollEvents handle := by
  rcases he : s.held[k]? with _ | ⟨handle, _ | _, _ | v⟩
  case some.true.none => exact .inr ⟨handle, rfl, by simp [events, handleIf, he]⟩
  all_goals exact .inl (by simp [poll, events, handleIf, he])

/-- Only a handle that is alive can be canceled. -/
theorem cancel_cases : (s.cancel k = (.dropped, s) ∧ s.events (.cancel k) = []) ∨
    ∃ handle outcome, s.held[k]? = some ⟨handle, true, outcome⟩ ∧
      s.events (.cancel k) = s.bridge.cancelEvents handle ∧
      s.cancel k = (.done (s.bridge.cancelHandle handle).1, { s with bridge := (s.bridge.cancelHandle handle).2 }) := by
  rcases he : s.held[k]? with _ | ⟨handle, _ | _, outcome⟩
  case some.true =>
    refine .inr ⟨handle, outcome, rfl, by simp [events, handleIf, he], ?_⟩
    simp only [cancel, he, if_true]
    cases handle <;> rfl
  all_goals exact .inl (by simp [cancel, events, handleIf, he])

/-- Only a handle that is alive can be dropped. -/
theorem drop_cases : (s.drop k = s ∧ s.events (.drop k) = []) ∨
    ∃ handle outcome, s.held[k]? = some ⟨handle, true, outcome⟩ ∧ s.events (.drop k) = s.bridge.dropEvents handle ∧
      s.drop k = ⟨dropHandle s.bridge handle, s.held.set k ⟨handle, false, outcome⟩⟩ := by
  rcases he : s.held[k]? with _ | ⟨handle, _ | _, outcome⟩
  case some.true => exact .inr ⟨handle, outcome, rfl, by simp [events, handleIf, he], by simp [drop, he]⟩
  all_goals exact .inl (by simp [drop, events, handleIf, he])

end

/-! ## One operation -/

section

variable {b : Bridge σ} (hs : b.registry.Sound)
include hs

theorem moves_pollHandle (handle : Handle) :
    Moves b (b.pollEvents handle) (pollHandle b handle).2.2 := by
  cases handle with
  | call n => exact moves_poll hs n
  | dialog d => exact moves_pollDialog hs d

theorem moves_dropHandle (handle : Handle) : Moves b (b.dropEvents handle) (dropHandle b handle) := by
  cases handle with
  | call n => exact moves_drop hs n
  | dialog d => exact moves_dropDialog hs d

theorem moves_notify (p : Push) : Moves b [] (b.notify p).2 := by
  unfold notify
  rcases b.router.dispatch p with ⟨_ | ⟨name, d⟩, router⟩ <;> exact .of_eq hs rfl rfl

theorem moves_hostNotify (p : Push) : Moves b [] (b.hostNotify p).2 := by
  unfold hostNotify
  split
  · exact moves_notify hs p
  · exact .refl hs

theorem moves_reply (n : Nat) (r : FetchReply) : Moves b [] (b.reply n r).2 := by
  obtain ⟨fetches, ready, heq⟩ := reply_eq b n r
  rw [heq]
  exact .of_eq hs rfl rfl

end

variable {s : Session σ}

theorem moves_pollAt (hs : s.bridge.registry.Sound) (k : Nat) :
    Moves s.bridge (s.events (.poll k)) (s.poll k).2.bridge := by
  rcases poll_cases s k with ⟨hsame, hnone⟩ | ⟨handle, he, hevents⟩
  · rw [hsame, hnone]
    exact .refl hs
  · rw [hevents, poll_live he]
    exact moves_pollHandle hs handle

theorem moves_cancelAt (hs : s.bridge.registry.Sound) (k : Nat) :
    Moves s.bridge (s.events (.cancel k)) (s.cancel k).2.bridge := by
  rcases cancel_cases s k with ⟨hsame, hnone⟩ | ⟨handle, outcome, he, hevents, hcancel⟩
  · rw [hsame, hnone]
    exact .refl hs
  · rw [hevents, hcancel]
    cases handle with
    | call n => exact moves_cancel hs n
    | dialog d => exact moves_cancelDialog hs d

theorem moves_dropAt (hs : s.bridge.registry.Sound) (k : Nat) :
    Moves s.bridge (s.events (.drop k)) (s.drop k).bridge := by
  rcases drop_cases s k with ⟨hsame, hnone⟩ | ⟨handle, outcome, he, hevents, hdrop⟩
  · rw [hsame, hnone]
    exact .refl hs
  · rw [hevents, hdrop]
    exact moves_dropHandle hs handle

/-- An operation is its events. -/
theorem moves_step (hs : s.bridge.registry.Sound) (op : Op) :
    Moves s.bridge (s.events op) (s.step op).2.bridge := by
  cases op with
  | call path args timeout => exact moves_call hs path args timeout
  | callNamed name path args =>
    -- a dialog registers its handler first, which is no matter of the registry
    have h := moves_registerHandler hs name
    exact h.trans (moves_call h.sound path args none)
  | poll k => exact moves_pollAt hs k
  | cancel k => exact moves_cancelAt hs k
  | cancelDetached k =>
    rcases hk : s.held[k]?.map Held.handle with _ | (n | d) <;>
      simp only [events, step, cancelDetached, hk]
    · exact .refl hs
    · exact moves_cancel hs n
    · exact .refl hs
  | drop k => exact moves_dropAt hs k
  | invoke id data error => exact moves_settle hs id _
  | reject id e => exact moves_settle hs id _
  | notify p => exact moves_notify hs p
  | hostNotify p => exact moves_hostNotify hs p
  | subscribe => exact .of_eq hs rfl rfl
  | unsubscribe n => exact .of_eq hs rfl rfl
  | drain n =>
    unfold step
    rcases s.bridge.router.drain n with ⟨ps, router⟩
    exact .of_eq hs rfl rfl
  | tick => exact moves_tick hs
  | advance ms => exact moves_advance hs ms
  | requests => exact .of_eq hs rfl rfl
  | answer url => exact moves_answerScript hs url
  | answerNext =>
    rcases hl : s.bridge.page.loads with _ | ⟨url, rest⟩ <;> simp only [events, step, takeLoad, hl]
    · exact .refl hs
    · let left : Bridge σ := { s.bridge with page := { s.bridge.page with loads := rest } }
      have hs' : left.registry.Sound := hs
      exact (moves_answerScript hs' url).congr rfl rfl
  | reply n r => exact moves_reply hs n r

/-! ## Runs -/

theorem run_cons (s : Session σ) (op : Op) (ops : List Op) :
    s.run (op :: ops) = (s.step op).2.run ops := rfl

theorem run_append (s : Session σ) (ops more : List Op) :
    s.run (ops ++ more) = (s.run ops).run more := List.foldl_append

theorem run_concat (s : Session σ) (ops : List Op) (op : Op) :
    s.run (ops ++ [op]) = ((s.run ops).step op).2 := by
  rw [run_append]
  rfl

theorem history_append (s : Session σ) (ops more : List Op) :
    s.history (ops ++ more) = s.history ops ++ (s.run ops).history more := by
  induction ops generalizing s with
  | nil => rfl
  | cons op ops ih => rw [List.cons_append, history, ih, history, List.append_assoc, run_cons]

theorem history_concat (s : Session σ) (ops : List Op) (op : Op) :
    s.history (ops ++ [op]) = s.history ops ++ (s.run ops).events op := by
  rw [history_append, history, history, List.append_nil]

/-- **A run is its history.** -/
theorem moves_run (hs : s.bridge.registry.Sound) (ops : List Op) :
    Moves s.bridge (s.history ops) (s.run ops).bridge := by
  induction ops generalizing s with
  | nil => exact .refl hs
  | cons op ops ih =>
    have h := moves_step hs op
    exact h.trans (ih h.sound)

end Session

/-! ## Fresh bridges -/

/-- A bridge that nothing has happened to. -/
def fresh (config : Config) (runtime : Bool) (page : Document) (host : Host σ) : Bridge σ := {
  config, runtime, page, host
  clock := 0
  registry := .new config.callbackStem
  inboxes := []
  router := .new config.pushTiming
  dialogs := []
  timers := []
  sleepers := []
  fetches := []
  fetched := []
  ready := if serves config runtime host then [.serve] else []
  deferred := []
  log := .empty }

/-- A fresh bridge to a host that answers nothing by itself. -/
def quiet : Bridge Unit := fresh .fetch true .new ⟨.manual, .empty, (), Config.fetch.codec, true, []⟩

section

variable {config : Config} {actual : Transport} {runtime : Bool} {page : Document} {host : Host σ}
  {b : Bridge σ}

theorem new_eq_ok (hb : Bridge.new config actual runtime page host = .ok b) :
    config.validate = .ok () ∧ actual = config.transport ∧ b = fresh config runtime page host := by
  unfold Bridge.new at hb
  rcases hv : config.validate with e | ⟨⟩
  · rw [hv] at hb; cases hb
  · rw [hv] at hb
    by_cases ha : actual = config.transport
    · rw [ha] at hb
      simp only [ne_eq, not_true, if_false] at hb
      exact ⟨rfl, ha, (Except.ok.inj hb).symm⟩
    · simp only [ne_eq, ha, not_false_eq_true, if_true] at hb
      cases hb

theorem sound_new (hb : Bridge.new config actual runtime page host = .ok b) : b.registry.Sound := by
  rw [(new_eq_ok hb).2.2]
  exact Registry.sound_new _

theorem new_quiet : Bridge.new .fetch .fetch true .new quiet.host = .ok quiet := rfl

theorem desk_new (hb : Bridge.new config actual runtime page host = .ok b) :
    b.desk = .new config.callbackStem := by
  rw [(new_eq_ok hb).2.2]
  rfl

namespace Session

theorem follows_history (hb : Bridge.new config actual runtime page host = .ok b) (ops : List Op) :
    ((new b).run ops).bridge.desk.Follows ((new b).history ops) := by
  have h := (moves_run (s := new b) (sound_new hb) ops).desk_eq
  rw [h]
  exact desk_new hb ▸ Desk.follows_run config.callbackStem _

theorem stem_run (hb : Bridge.new config actual runtime page host = .ok b) (ops : List Op) :
    ((new b).run ops).bridge.registry.stem = config.callbackStem := by
  have h := congrArg Desk.stem (moves_run (s := new b) (sound_new hb) ops).desk_eq
  rw [Desk.stem_run] at h
  exact h.trans (congrArg Desk.stem (desk_new hb))

theorem sound_run (hb : Bridge.new config actual runtime page host = .ok b) (ops : List Op) :
    ((new b).run ops).bridge.registry.Sound :=
  (moves_run (s := new b) (sound_new hb) ops).sound

end Session

end

end Hostlink.Bridge
