import Hostlink.Bridge.Call
import Hostlink.Proofs.Bridge.Events

/-!
# The events of calls

A call registers a request and aims at most one rejection at it: the reason why it could not be
sent. Everything else that a caller does aims at its own request.

* `Bridge.failure?` — why a call fails at once;
* `Bridge.moves_call` — a call that is sent is one event, and a call that fails is two;
* `Bridge.moves_pollDialog`, `Bridge.moves_cancelDialog`, `Bridge.moves_dropDialog` — a dialog moves
  its own request only.
-/

namespace Hostlink

/-- Over script tags, every request has a limit. -/
theorem Config.limit_of_scriptTag {c : Config} (ht : c.transport = .scriptTag) (timeout : Option Nat) :
    ∃ ms, timeout.or c.effectiveTimeout = some ms := by
  cases timeout with
  | some ms => exact ⟨ms, rfl⟩
  | none =>
    rw [Option.none_or, effectiveTimeout, ht]
    cases c.timeout with
    | some ms => exact ⟨ms, rfl⟩
    | none => exact ⟨_, rfl⟩

namespace Bridge

open Registry (Ending Event History Desk)

variable {σ : Type}

/-! ## Why a call fails -/

/-- Why a URL cannot be handed over. -/
def triggerFailure? (b : Bridge σ) (url : String) : Option Rejection :=
  match b.config.transport with
  | .scriptTag => if (insertScript b.page url).1.isSome then none else some noPlace
  | .fetch => if b.runtime then none else some .noRuntime

/-- Why a call fails at once. -/
def failure? (b : Bridge σ) (id path : String) (args : Args) (timeout : Option Nat) :
    Option Rejection :=
  match b.config.codec.encode path args id with
  | .error e => some (.encode e)
  | .ok url =>
    if (timeout.or b.config.effectiveTimeout).isSome && !b.runtime then some .noRuntime
    else b.triggerFailure? url

/-- The event of a failure. -/
def failureEvents (id : String) (e : Option Rejection) : History :=
  (e.map fun e => Event.aimed id (.settled (.error e))).toList

/-- The events of a call. -/
def callEvents (b : Bridge σ) (path : String) (args : Args) (timeout : Option Nat) : History :=
  let id := b.idOf b.registry.count
  .opened :: failureEvents id (b.failure? id path args timeout)

/-- The bridge that is reached, whether or not the request was rejected. -/
def reached : Except (Bridge σ) (Bridge σ) → Bridge σ
  | .ok b | .error b => b

/-- The bridge after a request was sent, or could not be sent. -/
def sent (b : Bridge σ) (id path : String) (args : Args) (timeout : Option Nat) : Bridge σ :=
  reached (b.send id path args timeout)

/-- A registered request, not sent yet. -/
def registered (b : Bridge σ) (path : String) : Bridge σ :=
  { b with registry := (b.registry.register path b.clock).2, inboxes := b.inboxes.opened }

theorem call_eq (b : Bridge σ) (path : String) (args : Args) (timeout : Option Nat) :
    b.call path args timeout =
      (b.idOf b.registry.count,
        (b.registered path).sent (b.idOf b.registry.count) path args timeout) := by
  have h : b.call path args timeout =
      match (b.registered path).send (b.idOf b.registry.count) path args timeout with
      | .ok b' => (b.idOf b.registry.count, b')
      | .error b' => (b.idOf b.registry.count, b') := rfl
  rw [h, sent]
  cases (b.registered path).send (b.idOf b.registry.count) path args timeout <;> rfl

/-! ## The steps of a call -/

/-- A timer that its request does not know yet. -/
def armed (b : Bridge σ) (id : String) (ms : Nat) : Bridge σ :=
  { b with
    timers := b.timers ++ [⟨id, b.clock + ms⟩]
    ready := b.ready ++ [.timer b.timers.length] }

/-- A fetch that its request does not know yet. -/
def asked (b : Bridge σ) (id url : String) : Bridge σ :=
  { b with
    host := (b.host.fetch url).2
    fetched := if b.host.conduct.isRouted then b.fetched else b.fetched ++ [url]
    fetches := b.fetches ++ [⟨id, (b.host.fetch url).1, (b.host.fetch url).1.isSome, .ready⟩]
    ready := b.ready ++ [.fetch b.fetches.length] }

/-- A script that its request does not know yet. -/
def shown (b : Bridge σ) (page : Document) : Bridge σ := { b with page := page }.wakeServer

/-- The timer of a request is known to it. -/
def attachTimer (b : Bridge σ) (id : String) (t : Nat) : Bridge σ :=
  b.after (b.registry.attachTimer id t).1 (b.registry.attachTimer id t).2

/-- The artefact of a request is known to it. -/
def attachGuard (b : Bridge σ) (id : String) (g : Artefact) : Bridge σ :=
  b.after (b.registry.attachGuard id g).1 (b.registry.attachGuard id g).2

theorem armTimer_eq (b : Bridge σ) (id : String) (ms : Nat) :
    b.armTimer id ms =
      if b.runtime then .ok ((b.armed id ms).attachTimer id b.timers.length) else .error .noRuntime :=
  rfl

theorem triggerFetch_eq (b : Bridge σ) (id url : String) :
    b.triggerFetch id url =
      if b.runtime then .ok ((b.asked id url).attachGuard id (.fetch b.fetches.length))
      else .error .noRuntime :=
  rfl

theorem triggerScript_eq (b : Bridge σ) (id url : String) :
    b.triggerScript id url =
      match insertScript b.page url with
      | (none, _) => .error noPlace
      | (some e, page) => .ok ((b.shown page).attachGuard id (.script e)) :=
  rfl

/-- A URL is handed over by a fetch or by a script. -/
theorem trigger_ok {b b' : Bridge σ} {id url : String} (h : b.trigger id url = .ok b') :
    (b.config.transport = .fetch ∧ b' = (b.asked id url).attachGuard id (.fetch b.fetches.length)) ∨
      b.config.transport = .scriptTag ∧ ∃ e page, insertScript b.page url = (some e, page) ∧
        b' = (b.shown page).attachGuard id (.script e) := by
  unfold trigger at h
  cases ht : b.config.transport with
  | fetch =>
    rw [ht] at h
    dsimp only at h
    rw [triggerFetch_eq] at h
    split at h
    · exact .inl ⟨rfl, (Except.ok.inj h).symm⟩
    · cases h
  | scriptTag =>
    rw [ht] at h
    dsimp only at h
    rw [triggerScript_eq] at h
    rcases hi : insertScript b.page url with ⟨_ | e, page⟩
    · rw [hi] at h; cases h
    · rw [hi] at h
      exact .inr ⟨rfl, e, page, rfl, (Except.ok.inj h).symm⟩

theorem armTimer_ok {b b' : Bridge σ} {id : String} {ms : Nat} (h : b.armTimer id ms = .ok b') :
    b' = (b.armed id ms).attachTimer id b.timers.length := by
  rw [armTimer_eq] at h
  split at h
  · exact (Except.ok.inj h).symm
  · cases h

/-- A request is given its time, if there is a limit. -/
def Limited (b : Bridge σ) (id : String) : Option Nat → Bridge σ → Prop
  | none, d => d = b
  | some ms, d => b.armTimer id ms = .ok d

/-- Giving a request its time changes neither the set-up nor the page and the host. -/
theorem Limited.frame {b d : Bridge σ} {id : String} {limit : Option Nat} (h : b.Limited id limit d) :
    d.config = b.config ∧ d.runtime = b.runtime ∧ d.page = b.page ∧ d.host = b.host := by
  cases limit with
  | none => exact h ▸ ⟨rfl, rfl, rfl, rfl⟩
  | some ms =>
    rw [armTimer_ok h]
    exact ⟨config_after (b.armed id ms) .., runtime_after (b.armed id ms) ..,
      page_after_attachTimer (b.armed id ms) _ id _, host_after (b.armed id ms) ..⟩

/-- Time needs a runtime. -/
theorem Limited.runtime_eq {b d : Bridge σ} {id : String} {ms : Nat} (h : b.Limited id (some ms) d) :
    b.runtime = true := by
  have harm : b.armTimer id ms = .ok d := h
  rw [armTimer_eq] at harm
  by_cases hr : b.runtime
  · exact hr
  · rw [if_neg hr] at harm
    cases harm

/-- A script that finds no place is made and taken out again. -/
theorem insertScript_none {page : Document} {url : String} (h : (insertScript page url).1 = none) :
    (insertScript page url).2 = (page.createScript url).2.remove page.next := by
  have hclose : ∀ r : Bool × Document, (r.1 = false → r.2 = (page.createScript url).2) →
      (if r.1 = true then (some page.next, r.2) else (none, r.2.remove page.next)).1 = none →
      (if r.1 = true then (some page.next, r.2) else (none, r.2.remove page.next)).2 =
        (page.createScript url).2.remove page.next := by
    rintro ⟨_ | _, d⟩ hr hnone
    · exact congrArg (Document.remove · page.next) (hr rfl)
    · cases hnone
  revert h
  unfold insertScript
  refine hclose _ ?_
  split
  · unfold Document.insertBefore
    split
    · exact fun _ => rfl
    · split
      · exact fun _ => rfl
      · exact fun h => by cases h
  · split
    · unfold Document.append
      split
      · exact fun h => by cases h
      · exact fun _ => rfl
    · exact fun _ => rfl

/-- Where a URL is not handed over, the bridge stays as it is, but for a page that could not take the script. -/
theorem trigger_error {b : Bridge σ} {id url : String} {e : Rejection} (h : b.trigger id url = .error e) :
    (b.config.transport = .fetch ∧ b.runtime = false ∧ e = .noRuntime ∧ b.missed url = b) ∨
      b.config.transport = .scriptTag ∧ (insertScript b.page url).1 = none ∧ e = noPlace ∧
        b.missed url = { b with page := (insertScript b.page url).2 } := by
  unfold trigger at h
  unfold missed
  cases ht : b.config.transport with
  | fetch =>
    rw [ht] at h
    dsimp only at h
    rw [triggerFetch_eq] at h
    split at h
    · cases h
    · next hr => exact .inl ⟨rfl, by simpa using hr, (Except.error.inj h).symm, rfl⟩
  | scriptTag =>
    rw [ht] at h
    dsimp only at h
    rw [triggerScript_eq] at h
    rcases hi : insertScript b.page url with ⟨_ | e, page⟩
    · rw [hi] at h
      exact .inr ⟨rfl, rfl, (Except.error.inj h).symm, rfl⟩
    · rw [hi] at h
      cases h

/-- All that is left of a URL that could not be handed over is on the page. -/
theorem missed_eq (b : Bridge σ) (url : String) : ∃ page, b.missed url = { b with page := page } := by
  unfold missed
  cases b.config.transport with
  | fetch => exact ⟨b.page, rfl⟩
  | scriptTag => exact ⟨(insertScript b.page url).2, rfl⟩

theorem orReject_ok {b c : Bridge σ} {id : String} {step : Except Rejection (Bridge σ)} :
    b.orReject id step = .ok c ↔ step = .ok c := by
  cases step <;> simp [orReject]

theorem orReject_error {b c : Bridge σ} {id : String} {step : Except Rejection (Bridge σ)} :
    b.orReject id step = .error c ↔ ∃ e, step = .error e ∧ c = (b.settle id (.error e)).2 := by
  cases step <;> simp [orReject, eq_comm]

section

variable {b c : Bridge σ} {id path : String} {args : Args} {timeout : Option Nat}

/-- A request that cannot be written is settled with the reason. -/
theorem send_unwritten {e : EncodeError} (hurl : b.config.codec.encode path args id = .error e) :
    b.send id path args timeout = .error (b.settle id (.error (.encode e))).2 := by
  rw [send, hurl]

/-- A request that was written is given its time and handed over, or it is settled since time needs a runtime. -/
theorem send_written {url : String} (timeout : Option Nat) (hurl : b.config.codec.encode path args id = .ok url) :
    (∃ d, b.Limited id (timeout.or b.config.effectiveTimeout) d ∧
      b.send id path args timeout = (d.missed url).orReject id (d.trigger id url)) ∨
    (timeout.or b.config.effectiveTimeout).isSome ∧ b.runtime = false ∧
      b.send id path args timeout = .error (b.settle id (.error .noRuntime)).2 := by
  cases hlimit : timeout.or b.config.effectiveTimeout with
  | none =>
    refine .inl ⟨b, rfl, ?_⟩
    simp only [send, hurl, hlimit]
    rfl
  | some ms =>
    have harm := armTimer_eq b id ms
    by_cases hr : b.runtime
    · rw [if_pos hr] at harm
      refine .inl ⟨_, harm, ?_⟩
      simp only [send, hurl, hlimit, harm]
      rfl
    · rw [if_neg hr] at harm
      refine .inr ⟨rfl, by simpa using hr, ?_⟩
      simp only [send, hurl, hlimit, harm]
      rfl

/-- A request that is sent was written, was given its time, and its URL was handed over. -/
theorem send_ok (h : b.send id path args timeout = .ok c) :
    ∃ url d, b.config.codec.encode path args id = .ok url ∧
      b.Limited id (timeout.or b.config.effectiveTimeout) d ∧ d.trigger id url = .ok c := by
  cases hurl : b.config.codec.encode path args id with
  | error e =>
    rw [send_unwritten hurl] at h
    cases h
  | ok url =>
    rcases send_written timeout hurl with ⟨d, hl, hsend⟩ | ⟨-, -, hsend⟩
    · rw [hsend, orReject_ok] at h
      exact ⟨url, d, rfl, hl, h⟩
    · rw [hsend] at h
      cases h

/-- A request that is not sent is settled with the reason: before it was given its time, or after that on what
a URL that could not be handed over has left. -/
theorem send_error (h : b.send id path args timeout = .error c) :
    ∃ d e, c = (d.settle id (.error e)).2 ∧
      (d = b ∨ ∃ d' url, b.Limited id (timeout.or b.config.effectiveTimeout) d' ∧
        d'.trigger id url = .error e ∧ d = d'.missed url) := by
  cases hurl : b.config.codec.encode path args id with
  | error e =>
    rw [send_unwritten hurl] at h
    exact ⟨b, _, (Except.error.inj h).symm, .inl rfl⟩
  | ok url =>
    rcases send_written timeout hurl with ⟨d, hl, hsend⟩ | ⟨-, -, hsend⟩
    · rw [hsend, orReject_error] at h
      obtain ⟨e, htrigger, rfl⟩ := h
      exact ⟨d.missed url, e, rfl, .inr ⟨d, url, hl, htrigger, rfl⟩⟩
    · rw [hsend] at h
      exact ⟨b, _, (Except.error.inj h).symm, .inl rfl⟩

end

/-- A request that waits is given a timer, and nothing else happens. -/
theorem attachTimer_of_isPending {b : Bridge σ} {id : String} (hid : b.registry.isPending id = true) (t : Nat) :
    b.attachTimer id t = { b with registry := b.registry.update id fun s => { s with timer := some t } } := by
  rw [attachTimer, Registry.attachTimer, if_pos hid]
  rfl

/-- A request without a guard is given one, and nothing else happens. -/
theorem attachGuard_of_none {b : Bridge σ} {slot : Slot Artefact Nat} (hs : b.registry.Sound)
    (hmem : slot ∈ b.registry.slots) (hg : slot.guard = none) (g : Artefact) :
    b.attachGuard slot.id g =
      { b with registry := b.registry.update slot.id fun s => { s with guard := some g } } := by
  have hf : b.registry.find? slot.id = some slot := hs.find?_eq_some.mpr ⟨hmem, rfl⟩
  have hattach : b.registry.attachGuard slot.id g =
      ([], b.registry.update slot.id fun s => { s with guard := some g }) := by
    simp [Registry.attachGuard, hf, hg]
  rw [attachGuard, hattach]
  rfl

/-- Nothing of a bridge changes but its page and what is ready. -/
theorem shown_eq (b : Bridge σ) (page : Document) :
    ∃ ready, b.shown page = { b with page := page, ready := ready } := by
  unfold shown wakeServer
  split
  · exact ⟨_, rfl⟩
  · exact ⟨b.ready, rfl⟩

/-- A host that serves the page is to read what that has loaded. -/
theorem shown_of_serves {b : Bridge σ} (hserves : serves b.config b.runtime b.host = true) (page : Document) :
    ∃ ready, b.shown page = { b with page := page, ready := ready } ∧ .serve ∈ ready := by
  unfold shown wakeServer
  by_cases hmem : Task.serve ∈ b.ready
  · exact ⟨b.ready, if_neg fun hwake => hwake.2 hmem, hmem⟩
  · exact ⟨_, if_pos ⟨hserves, hmem⟩, List.mem_append_right _ List.mem_cons_self⟩

section

variable {b : Bridge σ} (hs : b.registry.Sound)
include hs

/-- A timer is set if there is a runtime; it brings no event. -/
theorem armTimer_cases (id : String) (ms : Nat) :
    (b.runtime = false ∧ b.armTimer id ms = .error .noRuntime) ∨
      b.runtime = true ∧ ∃ b', b.armTimer id ms = .ok b' ∧ Moves b [] b' ∧ b'.page = b.page ∧
        b'.config = b.config ∧ b'.runtime = b.runtime := by
  rw [armTimer_eq]
  by_cases hr : b.runtime
  · rw [if_pos hr]
    have hs' : (b.armed id ms).registry.Sound := hs
    exact .inr ⟨hr, _, rfl, (moves_attachTimer hs' id b.timers.length).congr rfl rfl,
      page_after_attachTimer (b.armed id ms) _ id b.timers.length, config_after (b.armed id ms) ..,
      runtime_after (b.armed id ms) ..⟩
  · rw [if_neg hr]
    exact .inl ⟨by simpa using hr, rfl⟩

/-- A URL is handed over without an event, or there is a reason why not. -/
theorem trigger_cases (id url : String) :
    (∃ b', b.trigger id url = .ok b' ∧ Moves b [] b' ∧ b.triggerFailure? url = none) ∨
      ∃ e, b.trigger id url = .error e ∧ b.triggerFailure? url = some e := by
  unfold trigger triggerFailure?
  cases b.config.transport with
  | scriptTag =>
    dsimp only
    rw [triggerScript_eq]
    rcases insertScript b.page url with ⟨_ | e, page⟩
    · exact .inr ⟨noPlace, rfl, rfl⟩
    · obtain ⟨ready, hshown⟩ := shown_eq b page
      refine .inl ⟨_, rfl, ?_, rfl⟩
      rw [hshown]
      let placed : Bridge σ := { b with page := page, ready := ready }
      have hs' : placed.registry.Sound := hs
      exact (moves_attachGuard hs' id (.script e)).congr rfl rfl
  | fetch =>
    dsimp only
    rw [triggerFetch_eq]
    by_cases hr : b.runtime
    · rw [if_pos hr, if_pos hr]
      have hs' : (b.asked id url).registry.Sound := hs
      exact .inl ⟨_, rfl, (moves_attachGuard hs' id (.fetch b.fetches.length)).congr rfl rfl, rfl⟩
    · rw [if_neg hr, if_neg hr]
      exact .inr ⟨.noRuntime, rfl, rfl⟩

/-- Sending brings no event, or the one of its failure. -/
theorem moves_sent (id path : String) (args : Args) (timeout : Option Nat) :
    Moves b (failureEvents id (b.failure? id path args timeout)) (b.sent id path args timeout) := by
  -- the last step, from any bridge that the timer leaves
  have last : ∀ (c : Bridge σ) (url : String), c.registry.Sound →
      Moves c (failureEvents id (c.triggerFailure? url))
        (reached ((c.missed url).orReject id (c.trigger id url))) := by
    intro c url hc
    rcases trigger_cases hc id url with ⟨c', ht, hm, hf⟩ | ⟨e, ht, hf⟩
    · rw [ht, hf]; exact hm
    · -- a script that finds no place is made all the same, and the failure settles the request
      obtain ⟨page, hmissed⟩ := missed_eq c url
      rw [ht, hf, hmissed]
      let left : Bridge σ := { c with page := page }
      have hleft : left.registry.Sound := hc
      exact (moves_settle hleft id _).congr rfl rfl
  unfold sent send failure?
  cases b.config.codec.encode path args id with
  | error e => exact moves_settle hs id _
  | ok url =>
    dsimp only
    cases timeout.or b.config.effectiveTimeout with
    | none => exact last b url hs
    | some ms =>
      rcases armTimer_cases hs id ms with ⟨hr, ha⟩ | ⟨hr, b', ha, hm, hpage, hconfig, hrun⟩
      · simp only [ha, hr]
        exact moves_settle hs id _
      · -- whether a URL is handed over does not depend on the timer
        have hfail : b'.triggerFailure? url = b.triggerFailure? url := by
          unfold triggerFailure?
          rw [hpage, hconfig, hrun]
        have h := hm.trans (last b' url hm.sound)
        rw [hfail] at h
        simp only [ha, hr]
        exact h

/-- **A call registers its request and aims at most its own failure at it.** -/
theorem moves_call (path : String) (args : Args) (timeout : Option Nat) :
    Moves b (b.callEvents path args timeout) (b.call path args timeout).2 := by
  have h1 : Moves b [.opened] (b.registered path) :=
    ⟨hs.register path b.clock, Registry.desk_register b.registry b.inboxes path b.clock⟩
  rw [call_eq]
  exact h1.trans (moves_sent h1.sound _ path args timeout)

end

/-! ## Dialogs -/

/-- The events of a look at a dialog: its request is read, and let go once it has been settled. -/
def pollDialogEvents (b : Bridge σ) (d : Dialog) : History :=
  match d.request with
  | none => []
  | some n =>
    match b.inboxes.peek n with
    | .waiting => [.read n]
    | _ => [.read n, .aimed (b.idOf n) .forgotten, .dropped n]

theorem takeOwn_frame (b : Bridge σ) (d : Dialog) (f : Inboxes → Nat → Inboxes) :
    (b.takeOwn d f).2.registry = b.registry ∧ (b.takeOwn d f).2.inboxes = b.inboxes := by
  unfold takeOwn
  split <;> exact ⟨rfl, rfl⟩

section

variable {b : Bridge σ} (hs : b.registry.Sound)
include hs

theorem moves_takeOwn (d : Dialog) (f : Inboxes → Nat → Inboxes) : Moves b [] (b.takeOwn d f).2 :=
  .of_eq hs (takeOwn_frame b d f).1 (takeOwn_frame b d f).2

theorem moves_registerHandler (name : String) : Moves b [] (b.registerHandler name).2 :=
  .of_eq hs rfl rfl

theorem moves_pollDialog (d : Dialog) : Moves b (b.pollDialogEvents d) (b.pollDialog d).2.2 := by
  unfold pollDialogEvents pollDialog
  cases d.request with
  | none => exact .of_eq hs rfl rfl
  | some n =>
    -- what has been settled is read, and then let go
    have hread := moves_poll hs n
    have hlet := hread.trans (moves_drop hread.sound n)
    dsimp only
    cases hb : b.inboxes.peek n with
    | waiting =>
      have hp : b.poll n = (.pending, (b.poll n).2) := by simp [poll, hb, Poll.ofInbox]
      rw [hp]
      exact hread.trans (.of_eq hread.sound rfl rfl)
    | holds v =>
      have hp : b.poll n = (.ready v, (b.poll n).2) := by simp [poll, hb, Poll.ofInbox]
      rw [hp]
      cases v with
      | ok v => exact hlet.trans (.of_eq hlet.sound rfl rfl)
      | error e =>
        dsimp only
        split
        · exact hlet.trans (.of_eq hlet.sound rfl rfl)
        · exact hlet.trans (moves_takeOwn hlet.sound _ _)
    | closed =>
      have hp : b.poll n = (.ready (.error .disconnected), (b.poll n).2) := by
        simp [poll, hb, Poll.ofInbox]
      rw [hp]
      exact hlet.trans (moves_takeOwn hlet.sound _ _)
    | dropped =>
      have hp : b.poll n = (.ready (.error .disconnected), (b.poll n).2) := by
        simp [poll, hb, Poll.ofInbox]
      rw [hp]
      exact hlet.trans (moves_takeOwn hlet.sound _ _)

theorem moves_cancelDialog (d : Dialog) :
    Moves b (d.request.map fun n => Event.aimed (b.idOf n) (.settled (.error .canceled))).toList
      (b.cancelDialog d).2 := by
  unfold cancelDialog
  cases d.request with
  | none => exact moves_takeOwn hs d _
  | some n =>
    have h := moves_cancel hs n
    exact h.trans (moves_takeOwn h.sound d _)

theorem moves_dropDialog (d : Dialog) :
    Moves b (d.request.elim [] fun n => [.aimed (b.idOf n) .forgotten, .dropped n])
      (b.dropDialog d) := by
  unfold dropDialog
  have h := moves_takeOwn hs d .hangUp
  generalize b.takeOwn d .hangUp = taken at h
  let left : Bridge σ := { taken.2 with dialogs := taken.2.dialogs.drop d.token }
  have hs' : left.registry.Sound := h.sound
  cases d.request with
  | none => exact h.trans (.of_eq h.sound rfl rfl)
  | some n =>
    have hid : taken.2.idOf n = b.idOf n := by
      have hstem : taken.2.desk.stem = b.desk.stem := by rw [h.desk_eq, Desk.stem_run]
      exact congrArg (Registry.idOf · n) hstem
    have hd : Moves taken.2 [.aimed (taken.2.idOf n) .forgotten, .dropped n] (left.drop n) :=
      (moves_drop hs' n).congr rfl rfl
    rw [hid] at hd
    exact h.trans hd

end

end Bridge

end Hostlink
