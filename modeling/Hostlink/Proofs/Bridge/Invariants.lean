import Hostlink.Proofs.Bridge.Run

/-!
# Invariants of bridges

What a few small changes of a bridge keep, every operation keeps, and so every run.

* `Bridge.SlotInvariant` — a property that is kept where requests are settled, read and let go;
* `Bridge.AnswerInvariant`, `Bridge.RequestInvariant` — one that answers keep as well, and work that is put off;
* `Bridge.CallerInvariant`, `CallerInvariant.step` — one that is kept by **all that is done at the page**;
* `Bridge.Invariant` — a property that all small changes keep;
* `Bridge.sent_of`, `Bridge.call_of` — what the steps of a call keep, the call keeps;
* `Invariant.tick`, `Invariant.step`, `Invariant.run` — ticks, operations and runs keep it.
-/

namespace Hostlink.Bridge

variable {σ : Type}

/-- A property that is kept by changes to slots and to their inboxes. -/
structure SlotInvariant (P : Bridge σ → Prop) : Prop where
  settle : ∀ {b : Bridge σ} (id : String) (v : Settlement), P b → P (b.settle id v).2
  forget : ∀ {b : Bridge σ} (id : String), P b → P (b.forget id)
  readInbox : ∀ {b : Bridge σ} (n : Nat), P b → P { b with inboxes := (b.inboxes.read n).2 }
  dropInbox : ∀ {b : Bridge σ} (n : Nat), P b → P { b with inboxes := b.inboxes.drop n }

/-- A property that is kept where the host and fetches answer requests. -/
structure AnswerInvariant (P : Bridge σ → Prop) : Prop extends SlotInvariant P where
  answer : ∀ {b : Bridge σ} (url : String), P b → P { b with host := (b.host.answer url).2 }
  takeLoads : ∀ {b : Bridge σ} (left : List String), left ⊆ b.page.loads →
    P b → P { b with page := { b.page with loads := left } }
  setPhase : ∀ {b : Bridge σ} (n : Nat) (phase : FetchPhase), P b → P (b.setPhase n phase)
  endAborted : ∀ {b : Bridge σ}, P b → P b.endAborted

/-- A property that the small changes to requests keep: to slots and their inboxes, the host, the page
and work that is put off. Calls, and fetches that are answered by hand, are left out. -/
structure RequestInvariant (P : Bridge σ → Prop) : Prop extends AnswerInvariant P where
  /-- Work that is put off, the clock, and logs. -/
  work : ∀ {b : Bridge σ} (clock : Nat) (sleepers : List Nat) (fetched : List String)
    (ready : List Task) (log : EventLog), P b → P { b with clock, sleepers, fetched, ready, log }

/-- A property that is kept by changes to slots, and by those to handlers and dialogs. -/
structure CallerInvariant (P : Bridge σ → Prop) : Prop extends SlotInvariant P where
  /-- Pushes and dialogs, and what the log says of them. -/
  pushes : ∀ {b : Bridge σ} (router : Router) (dialogs : Inboxes) (deferred : List Delivery) (log : EventLog),
    P b → P { b with router, dialogs, deferred, log }

/-- A property that all small changes of a bridge keep, also those to handlers and dialogs. -/
structure Invariant (P : Bridge σ → Prop) : Prop extends RequestInvariant P where
  /-- Pushes and dialogs. -/
  pushes : ∀ {b : Bridge σ} (router : Router) (dialogs : Inboxes) (deferred : List Delivery),
    P b → P { b with router, dialogs, deferred }

/-- What the steps of sending make of a bridge with `P`: one with `Q`, once the request is sent or
has been settled. -/
theorem sent_of {P Q : Bridge σ → Prop} {b : Bridge σ} {id path : String} {args : Args}
    (settle : ∀ {c : Bridge σ} (v : Settlement), P c → Q (c.settle id v).2)
    (armTimer : ∀ {c c' : Bridge σ} (ms : Nat), c.armTimer id ms = .ok c' → P c → P c')
    (trigger : ∀ {c c' : Bridge σ} {url : String}, b.config.codec.encode path args id = .ok url →
      c.trigger id url = .ok c' → P c → Q c')
    (missed : ∀ {c : Bridge σ} {url : String} {e : Rejection}, c.trigger id url = .error e → P c → P (c.missed url))
    (hb : P b) (timeout : Option Nat) : Q (b.sent id path args timeout) := by
  rw [sent]
  cases henc : b.config.codec.encode path args id with
  | error e =>
    rw [send_unwritten henc]
    exact settle _ hb
  | ok url =>
    rcases send_written timeout henc with ⟨c, hl, hsend⟩ | ⟨-, -, hsend⟩
    · have hc : P c := by
        cases hlimit : timeout.or b.config.effectiveTimeout with
        | none =>
          rw [hlimit] at hl
          exact hl ▸ hb
        | some ms =>
          rw [hlimit] at hl
          exact armTimer ms hl hb
      rw [hsend]
      cases ht : c.trigger id url with
      | ok c' => exact trigger henc ht hc
      | error e => exact settle _ (missed ht hc)
    · rw [hsend]
      exact settle _ hb

/-- What registering and each step of sending keeps, a call keeps. -/
theorem call_of {P : Bridge σ → Prop}
    (register : ∀ {b : Bridge σ} (path : String), P b → P (b.registered path))
    (settle : ∀ {b : Bridge σ} (id : String) (v : Settlement), P b → P (b.settle id v).2)
    (armTimer : ∀ {b b' : Bridge σ} (id : String) (ms : Nat), b.armTimer id ms = .ok b' → P b → P b')
    (trigger : ∀ {b b' : Bridge σ} (id url : String), b.trigger id url = .ok b' → P b → P b')
    (missed : ∀ {b : Bridge σ} (id url : String) {e : Rejection}, b.trigger id url = .error e → P b → P (b.missed url))
    {b : Bridge σ} (hb : P b) (path : String) (args : Args) (timeout : Option Nat) :
    P (b.call path args timeout).2 := by
  rw [call_eq]
  exact sent_of (settle _) (armTimer _) (fun _ => trigger _ _) (missed _ _) (register path hb) timeout

/-- Is an operation done at the page, so that it makes no request and leaves the host and time alone? -/
def Op.isLocal : Op → Bool
  | .poll _ | .cancel _ | .cancelDetached _ | .drop _ | .invoke _ _ _ | .reject _ _ | .notify _ | .hostNotify _
  | .subscribe | .unsubscribe _ | .drain _ => true
  | _ => false

/-- The request that an operation makes. -/
def Op.request? : Op → Option (String × Args)
  | .call path args _ | .callNamed _ path args => some (path, args)
  | _ => none

namespace SlotInvariant

variable {P : Bridge σ → Prop} (hP : SlotInvariant P) {b : Bridge σ}
include hP

theorem poll (n : Nat) (hb : P b) : P (b.poll n).2 := hP.readInbox n hb

theorem cancel (n : Nat) (hb : P b) : P (b.cancel n).2 := hP.settle _ _ hb

theorem drop (n : Nat) (hb : P b) : P (b.drop n) := hP.dropInbox n (hP.forget _ hb)

end SlotInvariant

namespace AnswerInvariant

variable {P : Bridge σ → Prop} (hP : AnswerInvariant P) {b : Bridge σ}
include hP

/-! ## Requests -/

theorem answerScript (url : String) (hb : P b) : P (b.answerScript url).2 := by
  unfold Bridge.answerScript
  split
  · have ha := hP.answer url hb
    rcases hans : b.host.answer url with ⟨e | ⟨r, answer⟩, host⟩
    all_goals rw [hans] at ha
    · exact ha
    · dsimp only
      cases r.callback with
      | none => exact ha
      | some id => exact hP.settle id _ ha
  · exact hb

theorem answerScripts (urls : List String) (hb : P b) : P (b.answerScripts urls) := by
  induction urls generalizing b with
  | nil => exact hb
  | cons url urls ih => exact ih (hP.answerScript url hb)

theorem runFetch (n : Nat) (hb : P b) : P (b.runFetch n) := by
  unfold Bridge.runFetch
  split
  · exact hb
  · split
    · exact hP.setPhase _ _ hb
    · exact hP.settle _ _ (hP.setPhase _ _ hb)

theorem runServer (hb : P b) : P b.runServer :=
  hP.answerScripts _ (hP.takeLoads [] (List.nil_subset _) hb)

end AnswerInvariant

namespace RequestInvariant

variable {P : Bridge σ → Prop} (hP : RequestInvariant P) {b : Bridge σ}
include hP

theorem runTimer (n : Nat) (hb : P b) : P (b.runTimer n) := by
  unfold Bridge.runTimer
  split
  · exact hb
  · split
    · exact hP.settle _ _ hb
    · exact hP.work b.clock _ b.fetched b.ready b.log hb

theorem runTask (t : Task) (hb : P b) : P (b.run t) := by
  cases t with
  | timer n => exact hP.runTimer n hb
  | fetch n => exact hP.runFetch n hb
  | serve => exact hP.runServer hb

theorem runReady (t : Task) (hb : P b) : P (b.runReady t) := by
  unfold Bridge.runReady
  split
  · exact hP.runTask t (hP.work b.clock b.sleepers b.fetched _ b.log hb)
  · exact hb

theorem foldl_runReady (ts : List Task) (hb : P b) : P (ts.foldl Bridge.runReady b) := by
  induction ts generalizing b with
  | nil => exact hb
  | cons t ts ih => exact ih (hP.runReady t hb)

end RequestInvariant

namespace CallerInvariant

variable {P : Bridge σ → Prop} (hP : CallerInvariant P) {b : Bridge σ}
include hP

/-! ## Callers and pushes -/

theorem takeOwn (d : Dialog) (f : Inboxes → Nat → Inboxes) (hb : P b) : P (b.takeOwn d f).2 := by
  unfold Bridge.takeOwn
  split
  · exact hP.pushes _ _ b.deferred b.log hb
  · exact hb

theorem pollValue (d : Dialog) (hb : P b) : P (b.pollValue d).2 := hP.pushes b.router _ b.deferred b.log hb

theorem registerHandler (name : String) (hb : P b) : P (b.registerHandler name).2 :=
  hP.pushes _ _ b.deferred b.log hb

theorem pollDialog (d : Dialog) (hb : P b) : P (b.pollDialog d).2.2 := by
  unfold Bridge.pollDialog
  cases d.request with
  | none => exact hP.pollValue d hb
  | some n =>
    have hread := hP.poll n hb
    have hlet := hP.drop n hread
    dsimp only
    rcases hp : b.poll n with ⟨_ | (e | v), c⟩
    all_goals rw [hp] at hread hlet
    · exact hP.pollValue d hread
    · dsimp only
      split
      · exact hP.pollValue _ hlet
      · exact hP.takeOwn _ _ hlet
    · exact hP.pollValue _ hlet

theorem cancelDialog (d : Dialog) (hb : P b) : P (b.cancelDialog d).2 := by
  unfold Bridge.cancelDialog
  cases d.request with
  | none => exact hP.takeOwn d _ hb
  | some n => exact hP.takeOwn d _ (hP.cancel n hb)

theorem dropDialog (d : Dialog) (hb : P b) : P (b.dropDialog d) := by
  unfold Bridge.dropDialog
  have h := hP.takeOwn d .hangUp hb
  generalize b.takeOwn d .hangUp = taken at h
  have h' := hP.pushes taken.2.router (taken.2.dialogs.drop d.token) taken.2.deferred taken.2.log h
  cases d.request with
  | none => exact h'
  | some n => exact hP.drop n h'

theorem notify (p : Push) (hb : P b) : P (b.notify p).2 := by
  have key : ∀ router dialogs deferred log, P { b with router, dialogs, deferred, log } :=
    fun router dialogs deferred log => hP.pushes router dialogs deferred log hb
  unfold Bridge.notify
  rcases b.router.dispatch p with ⟨_ | ⟨name, d⟩, router⟩
  · exact key router b.dialogs b.deferred _
  · exact key router _ _ _

variable {s : Session σ}

theorem pollAt (k : Nat) (hs : P s.bridge) : P (s.poll k).2.bridge := by
  rcases Session.poll_cases s k with ⟨hsame, -⟩ | ⟨handle, he, -⟩
  · rw [hsame]
    exact hs
  · rw [Session.poll_live he]
    cases handle with
    | call n => exact hP.poll n hs
    | dialog d => exact hP.pollDialog d hs

theorem cancelAt (k : Nat) (hs : P s.bridge) : P (s.cancel k).2.bridge := by
  rcases Session.cancel_cases s k with ⟨hsame, -⟩ | ⟨handle, outcome, -, -, hcancel⟩
  · rw [hsame]
    exact hs
  · rw [hcancel]
    cases handle with
    | call n => exact hP.cancel n hs
    | dialog d => exact hP.cancelDialog d hs

theorem dropAt (k : Nat) (hs : P s.bridge) : P (s.drop k).bridge := by
  rcases Session.drop_cases s k with ⟨hsame, -⟩ | ⟨handle, outcome, -, -, hdrop⟩
  · rw [hsame]
    exact hs
  · rw [hdrop]
    cases handle with
    | call n => exact hP.drop n hs
    | dialog d => exact hP.dropDialog d hs

/-- **All that is done at the page keeps it.** -/
theorem step {op : Op} (hop : op.isLocal = true) (hs : P s.bridge) : P (s.step op).2.bridge := by
  cases op with
  | poll k => exact hP.pollAt k hs
  | cancel k => exact hP.cancelAt k hs
  | cancelDetached k =>
    simp only [Session.step, Session.cancelDetached]
    split
    · exact hP.cancel _ hs
    · exact hs
  | drop k => exact hP.dropAt k hs
  | invoke id data error => exact hP.settle id _ hs
  | reject id e => exact hP.settle id _ hs
  | notify p => exact hP.notify p hs
  | hostNotify p =>
    have h : P (s.bridge.hostNotify p).2 := by
      unfold Bridge.hostNotify
      split
      · exact hP.notify p hs
      · exact hs
    exact h
  | subscribe => exact hP.pushes _ s.bridge.dialogs s.bridge.deferred s.bridge.log hs
  | unsubscribe n => exact hP.pushes _ s.bridge.dialogs s.bridge.deferred s.bridge.log hs
  | drain n =>
    exact hP.pushes (s.bridge.router.drain n).2 s.bridge.dialogs s.bridge.deferred s.bridge.log hs
  | _ => cases hop

end CallerInvariant

namespace Invariant

variable {P : Bridge σ → Prop} (hP : Invariant P) {b : Bridge σ}
include hP

/-- What all small changes keep, callers and pushes keep. -/
theorem caller : CallerInvariant P where
  toSlotInvariant := hP.toSlotInvariant
  pushes {b} router dialogs deferred log hb :=
    hP.pushes router dialogs deferred (hP.work b.clock b.sleepers b.fetched b.ready log hb)

/-! ## Ticks -/

theorem tick (hb : P b) : P b.tick := by
  have h := hP.foldl_runReady b.ready hb
  exact hP.endAborted (hP.pushes (List.foldl Bridge.runReady b b.ready).router _ [] h)

theorem advance (ms : Nat) (hb : P b) : P (b.advance ms) := by
  have hmoved := hP.work (b.tick.clock + ms) b.tick.sleepers b.tick.fetched b.tick.ready b.tick.log
    (hP.tick hb)
  have hwoken : P (b.tick.later ms) := hP.work _ _ _ _ _ hmoved
  exact hP.tick hwoken

/-! ## Operations -/

variable {s : Session σ}

/-- Every operation keeps an invariant, if calls and answers by hand do. -/
theorem step (op : Op) (hcall : ∀ path args, op.request? = some (path, args) →
      ∀ (b : Bridge σ) timeout, P b → P (b.call path args timeout).2)
    (hreply : ∀ n r, op = .reply n r → P (s.bridge.reply n r).2)
    (hs : P s.bridge) : P (s.step op).2.bridge := by
  cases op with
  | call path args timeout => exact hcall path args rfl _ timeout hs
  | callNamed name path args => exact hcall path args rfl _ none (hP.caller.registerHandler name hs)
  | tick => exact hP.tick hs
  | advance ms => exact hP.advance ms hs
  | requests =>
    have htaken := hP.takeLoads [] (List.nil_subset _) hs
    exact hP.work s.bridge.clock s.bridge.sleepers [] s.bridge.ready s.bridge.log htaken
  | answer url => exact hP.answerScript url hs
  | answerNext =>
    rcases hl : s.bridge.page.loads with _ | ⟨url, rest⟩
    all_goals simp only [Session.step, takeLoad, hl]
    · exact hs
    · exact hP.answerScript url (hP.takeLoads rest (hl ▸ List.subset_cons_self url rest) hs)
  | reply n r => exact hreply n r rfl
  | _ => exact hP.caller.step rfl hs

/-- **What the small changes keep, a run keeps**, if calls and answers by hand do. -/
theorem run (ops : List Op)
    (hcall : ∀ (b : Bridge σ) path args timeout, P b → P (b.call path args timeout).2)
    (hreply : ∀ n r, .reply n r ∈ ops → ∀ b : Bridge σ, P b → P (b.reply n r).2)
    (hs : P s.bridge) : P (s.run ops).bridge := by
  induction ops generalizing s with
  | nil => exact hs
  | cons op ops ih =>
    refine ih (fun n r hmem => hreply n r (List.mem_cons_of_mem _ hmem))
      (hP.step op (fun path args _ b timeout => hcall b path args timeout) ?_ hs)
    exact fun n r hop => hreply n r (hop ▸ List.mem_cons_self) _ hs

end Invariant

end Hostlink.Bridge
