import Hostlink.Deferral
import Hostlink.Document
import Hostlink.Host
import Hostlink.Registry
import Hostlink.Router

/-!
# The bridge between a page and its host

A bridge holds all that a page and its host share: the requests that wait, the handlers of dialogs,
the document that loads request scripts, fetches that are under way, timers, and the clock. Work
that is put off waits in a list of tasks until the next tick.

* `Bridge.settle` — settles a request, from whatever side;
* `Bridge.notify` — the host pushes an event;
* `Bridge.answerScript` — the host answers a request that a script has loaded.
-/

namespace Hostlink

/-- What has to be cleaned up when a request ends. -/
inductive Artefact where
  /-- The script that carries the request. -/
  | script (e : Element)
  /-- The fetch that waits for its reply. -/
  | fetch (n : Nat)
  deriving DecidableEq, Repr

/-- A timer of a request. -/
structure Timer where
  id : String
  deadline : Nat
  deriving DecidableEq, Repr

/-- How far a fetch has come. -/
inductive FetchPhase where
  /-- It is to run in the next tick. -/
  | ready
  /-- It waits for its reply. -/
  | parked
  /-- Nobody needs it any more; the next tick gives it up. -/
  | aborted
  | gone
  deriving DecidableEq, Repr

/-- A fetch. -/
structure Fetch where
  /-- The request that it settles. -/
  id : String
  reply : Option FetchReply
  /-- Has the reply been sent, be it in vain? -/
  answered : Bool
  phase : FetchPhase

/-- Work for the next tick. -/
inductive Task where
  | timer (n : Nat)
  | fetch (n : Nat)
  /-- The host answers the scripts that have been loaded. -/
  | serve
  deriving DecidableEq, Repr

/-- A page and its host. -/
structure Bridge (σ : Type) where
  config : Config
  /-- Is there a runtime? Without one, no work can be put off. -/
  runtime : Bool
  /-- Milliseconds since the start. -/
  clock : Nat
  registry : Registry Artefact Nat
  /-- Inboxes of requests, by number. -/
  inboxes : Inboxes
  router : Router
  /-- Inboxes of dialogs, by token. -/
  dialogs : Inboxes
  page : Document
  host : Host σ
  timers : List Timer
  /-- Timers that wait for their deadline. -/
  sleepers : List Nat
  fetches : List Fetch
  /-- URLs of fetches that the host does not answer by its routes. -/
  fetched : List String
  ready : List Task
  /-- Settlements of dialogs that come one tick later. -/
  deferred : List Delivery
  log : EventLog

namespace Bridge

variable {σ : Type}

/-- Does the host answer scripts as they are loaded? -/
def serves (config : Config) (runtime : Bool) (host : Host σ) : Bool :=
  config.transport = .scriptTag && runtime && host.conduct.isRouted

/-- A bridge over a transport of the kind that its set-up names. -/
def new (config : Config) (actual : Transport) (runtime : Bool) (page : Document) (host : Host σ) :
    Except ConfigError (Bridge σ) := do
  config.validate
  if actual ≠ config.transport then throw (.transportMismatch config.transport actual)
  pure {
    config, runtime, page, host
    clock := 0
    registry := .new config.callbackStem
    inboxes := []
    router := .new config.pushTiming
    dialogs := []
    timers := []
    sleepers := []
    fetches := []
    fetched := []
    ready := if serves config runtime host then [.serve] else []
    deferred := []
    log := .empty }

/-- How many requests wait. -/
def pendingCount (b : Bridge σ) : Nat := b.registry.size

/-- The id of the request of a number. -/
def idOf (b : Bridge σ) (number : Nat) : String := Registry.idOf b.registry.stem number

/-! ## Effects -/

/-- Gives up a fetch, unless it has ended. -/
def Fetch.abort (f : Fetch) : Fetch := if f.phase = .gone then f else { f with phase := .aborted }

/-- What an effect does. -/
def perform (b : Bridge σ) : Effect Artefact Nat → Bridge σ
  | .abort t =>
    { b with ready := b.ready.filter (· ≠ .timer t), sleepers := b.sleepers.filter (· ≠ t) }
  | .release (.script e) => { b with page := b.page.remove e }
  | .release (.fetch n) =>
    { b with ready := b.ready.filter (· ≠ .fetch n), fetches := b.fetches.modify n Fetch.abort }
  | .record id path label ms => { b with log := b.log.add (EventLog.requestLine id path label ms) }
  | .deliver n s => { b with inboxes := b.inboxes.deliver n s }
  | .hangUp n => { b with inboxes := b.inboxes.hangUp n }

/-- The effects of an operation, in order, and the registry after it. -/
def after (b : Bridge σ) (effects : List (Effect Artefact Nat)) (registry : Registry Artefact Nat) :
    Bridge σ :=
  effects.foldl perform { b with registry := registry }

/-- Settles a request; false if it does not wait. -/
def settle (b : Bridge σ) (id : String) (s : Settlement) : Bool × Bridge σ :=
  let (hit, effects, registry) := b.registry.settle b.clock id s
  (hit, b.after effects registry)

/-- Takes away a request that nobody waits for. -/
def forget (b : Bridge σ) (id : String) : Bridge σ :=
  let (_, effects, registry) := b.registry.forget b.clock id
  b.after effects registry

/-! ## What the host calls on the page -/

/-- The host hands over a value and an error. -/
def invoke (b : Bridge σ) (id : String) (data : Json) (error : Option Json) : Bool × Bridge σ :=
  b.settle id (Reply.settle data error)

/-- Puts the settlement of a dialog into its inbox, now or in the next tick. -/
def settleDialog (b : Bridge σ) (d : Delivery) : Bridge σ :=
  let (now, waiting) := b.router.schedule b.runtime b.deferred d
  { b with dialogs := Delivery.makeAll b.dialogs now, deferred := waiting }

/-- The host pushes an event: the name of the handler that takes it. -/
def notify (b : Bridge σ) (p : Push) : Option String × Bridge σ :=
  let (taken, router) := b.router.dispatch p
  let name := taken.map (·.1)
  let b := { b with router := router, log := b.log.add (EventLog.pushLine p.event name) }
  match taken with
  | some (_, d) => (name, b.settleDialog d)
  | none => (name, b)

/-- The host pushes an event if it knows the page. -/
def hostNotify (b : Bridge σ) (p : Push) : Option String × Bridge σ :=
  if b.host.connected then b.notify p else (none, b)

/-- The host answers a request that a script has loaded: true if the answer settles it. Nothing is
read if the host does not know the page. -/
def answerScript (b : Bridge σ) (url : String) : Bool × Bridge σ :=
  if b.host.connected then
    match b.host.answer url with
    | (.error _, host) => (false, { b with host := host })
    | (.ok (r, answer), host) =>
      let b := { b with host := host }
      match r.callback with
      | none => (false, b)
      | some id => b.settle id (Host.settlementOf answer)
  else (false, b)

/-- The host answers several requests. -/
def answerScripts (b : Bridge σ) (urls : List String) : Bridge σ :=
  urls.foldl (fun b url => (b.answerScript url).2) b

end Bridge

end Hostlink
