import Hostlink.Bridge.Basic

/-!
# Calls

A call registers a request, writes its URL, sets its timer, and makes the host observe the URL by a
script or a fetch. Where one of these fails, the request is settled with the reason.

* `Bridge.call` — issues a request;
* `Bridge.poll`, `Bridge.drop` — what its caller does afterwards;
* `Bridge.callNamed`, `Bridge.pollDialog`, `Bridge.dropDialog` — the same for a dialog: a request
  that is acknowledged, and a push that brings the value later.
-/

namespace Hostlink.Bridge

variable {σ : Type}

/-! ## Issuing a request -/

/-- Sets the timer of a request. -/
def armTimer (b : Bridge σ) (id : String) (ms : Nat) : Except Rejection (Bridge σ) :=
  if b.runtime then
    let n := b.timers.length
    let b : Bridge σ := { b with
      timers := b.timers ++ [⟨id, b.clock + ms⟩]
      ready := b.ready ++ [.timer n] }
    let (effects, registry) := b.registry.attachTimer id n
    .ok (b.after effects registry)
  else .error .noRuntime

/-- Why a script cannot be put into a document. -/
def noPlace : Rejection := .transport "document has neither a script nor a head element"

/-- Puts a new script before the first one, or into the head if there is none. -/
def insertScript (page : Document) (url : String) : Option Element × Document :=
  let (e, page) := page.createScript url
  let (inserted, page) := match page.firstScript with
    | some first => page.insertBefore e first
    | none =>
      match page.head with
      | some head => page.append head e
      | none => (false, page)
  if inserted then (some e, page) else (none, page.remove e)

/-- The host is to answer scripts in the next tick. -/
def wakeServer (b : Bridge σ) : Bridge σ :=
  if serves b.config b.runtime b.host ∧ Task.serve ∉ b.ready then
    { b with ready := b.ready ++ [.serve] }
  else b

/-- Makes the host observe a URL by a script. -/
def triggerScript (b : Bridge σ) (id url : String) : Except Rejection (Bridge σ) :=
  match insertScript b.page url with
  | (none, _) => .error noPlace
  | (some e, page) =>
    let b := { b with page := page }.wakeServer
    let (effects, registry) := b.registry.attachGuard id (.script e)
    .ok (b.after effects registry)

/-- Makes the host observe a URL by a fetch. -/
def triggerFetch (b : Bridge σ) (id url : String) : Except Rejection (Bridge σ) :=
  if b.runtime then
    let n := b.fetches.length
    let (reply, host) := b.host.fetch url
    let b : Bridge σ := { b with
      host := host
      fetched := if b.host.conduct.isRouted then b.fetched else b.fetched ++ [url]
      fetches := b.fetches ++ [⟨id, reply, reply.isSome, .ready⟩]
      ready := b.ready ++ [.fetch n] }
    let (effects, registry) := b.registry.attachGuard id (.fetch n)
    .ok (b.after effects registry)
  else .error .noRuntime

/-- Makes the host observe a URL. -/
def trigger (b : Bridge σ) (id url : String) : Except Rejection (Bridge σ) :=
  match b.config.transport with
  | .scriptTag => b.triggerScript id url
  | .fetch => b.triggerFetch id url

/-- What is left where the host could not be made to observe a URL: a page that has made a script and taken it
out again. -/
def missed (b : Bridge σ) (url : String) : Bridge σ :=
  match b.config.transport with
  | .scriptTag => { b with page := (insertScript b.page url).2 }
  | .fetch => b

/-- Goes on with a step of a call, or settles the call with the reason why it cannot be taken. -/
def orReject (b : Bridge σ) (id : String) (step : Except Rejection (Bridge σ)) :
    Except (Bridge σ) (Bridge σ) :=
  match step with
  | .ok b => .ok b
  | .error e => .error (b.settle id (.error e)).2

/-- Issues a request that has been registered. The result is an error where it failed at once. -/
def send (b : Bridge σ) (id path : String) (args : Args) (timeout : Option Nat) :
    Except (Bridge σ) (Bridge σ) :=
  match b.config.codec.encode path args id with
  | .error e => .error (b.settle id (.error (.encode e))).2
  | .ok url => do
    let b ← match timeout.or b.config.effectiveTimeout with
      | some ms => b.orReject id (b.armTimer id ms)
      | none => .ok b
    (b.missed url).orReject id (b.trigger id url)

/-- Issues a request; the limit of the call comes before that of the set-up. Its number is the
count of requests before it. -/
def call (b : Bridge σ) (path : String) (args : Args) (timeout : Option Nat) :
    String × Bridge σ :=
  let (id, registry) := b.registry.register path b.clock
  let b := { b with registry := registry, inboxes := b.inboxes.opened }
  match b.send id path args timeout with
  | .ok b => (id, b)
  | .error b => (id, b)

/-! ## After a call -/

/-- What a caller finds. -/
inductive Poll where
  | pending
  | ready (s : Settlement)

/-- What is found in an inbox; one that nobody will fill counts as lost. -/
def Poll.ofInbox : Inbox → Poll
  | .waiting => .pending
  | .holds s => .ready s
  | .closed | .dropped => .ready (.error .disconnected)

/-- Looks for the settlement of a request. -/
def poll (b : Bridge σ) (number : Nat) : Poll × Bridge σ :=
  let (inbox, inboxes) := b.inboxes.read number
  (.ofInbox inbox, { b with inboxes := inboxes })

/-- Cancels a request; false if it does not wait. -/
def cancel (b : Bridge σ) (number : Nat) : Bool × Bridge σ :=
  b.settle (b.idOf number) (.error .canceled)

/-- The caller drops a request. -/
def drop (b : Bridge σ) (number : Nat) : Bridge σ :=
  let b := b.forget (b.idOf number)
  { b with inboxes := b.inboxes.drop number }

/-! ## Dialogs -/

/-- A dialog: the registration of its handler, and the request that opened it until that has been
acknowledged. -/
structure Dialog where
  name : String
  token : Nat
  request : Option Nat
  deriving DecidableEq, Repr

/-- Registers a handler; the one whose place it takes is told so. -/
def registerHandler (b : Bridge σ) (name : String) : Nat × Bridge σ :=
  let (token, older, handlers) := b.router.handlers.register name
  let dialogs := b.dialogs.opened
  let dialogs := match older with
    | some h => dialogs.deliver h.token (Handlers.superseded name)
    | none => dialogs
  (token, { b with router := { b.router with handlers := handlers }, dialogs := dialogs })

/-- Issues a request whose value a push will bring. -/
def callNamed (b : Bridge σ) (name path : String) (args : Args) : Dialog × Bridge σ :=
  let (token, b) := b.registerHandler name
  let number := b.registry.count
  let (_, b) := b.call path args none
  (⟨name, token, some number⟩, b)

/-- Takes out the handler of a dialog, if it is still its own; `f` says what becomes of its
inbox. -/
def takeOwn (b : Bridge σ) (d : Dialog) (f : Inboxes → Nat → Inboxes) : Bool × Bridge σ :=
  match b.router.handlers.takeOwn d.name d.token with
  | (true, handlers) =>
    (true, { b with
      router := { b.router with handlers := handlers }
      dialogs := f b.dialogs d.token })
  | (false, _) => (false, b)

/-- Looks for the value of a dialog. -/
def pollValue (b : Bridge σ) (d : Dialog) : Poll × Bridge σ :=
  let (inbox, dialogs) := b.dialogs.read d.token
  (.ofInbox inbox, { b with dialogs := dialogs })

/-- Looks for the acknowledgement of a dialog and for its value. A request that failed fails the
dialog, unless it was canceled, since then the handler is told so itself. -/
def pollDialog (b : Bridge σ) (d : Dialog) : Poll × Dialog × Bridge σ :=
  let acknowledge := fun (n : Nat) (b : Bridge σ) => ({ d with request := none }, b.drop n)
  match d.request with
  | none =>
    let (found, b) := b.pollValue d
    (found, d, b)
  | some n =>
    match b.poll n with
    | (.pending, b) =>
      let (found, b) := b.pollValue d
      (found, d, b)
    | (.ready (.error e), b) =>
      let (d, b) := acknowledge n b
      if e = .canceled then
        let (found, b) := b.pollValue d
        (found, d, b)
      else
        let (_, b) := b.takeOwn d .hangUp
        (.ready (.error e), d, b)
    | (.ready (.ok _), b) =>
      let (d, b) := acknowledge n b
      let (found, b) := b.pollValue d
      (found, d, b)

/-- Cancels the request of a dialog and its handler; false if the handler is not its own any
more. -/
def cancelDialog (b : Bridge σ) (d : Dialog) : Bool × Bridge σ :=
  let b := match d.request with
    | some n => (b.cancel n).2
    | none => b
  b.takeOwn d fun boxes n => boxes.deliver n (.error .canceled)

/-- The caller drops a dialog. -/
def dropDialog (b : Bridge σ) (d : Dialog) : Bridge σ :=
  let (_, b) := b.takeOwn d .hangUp
  let b := { b with dialogs := b.dialogs.drop d.token }
  match d.request with
  | some n => b.drop n
  | none => b

end Hostlink.Bridge
