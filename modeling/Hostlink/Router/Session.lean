import Hostlink.Router

/-!
# Runs of a router

A session holds a router, the inboxes of all registrations, and the settlements that wait for the
next tick. Without a runtime there are no ticks to wait for, and all settlements come at once.

* `Router.Op` — what can be done, with inboxes and subscribers by number;
* `Router.Session.step`, `Router.Session.run` — one operation, and a list of them.
-/

namespace Hostlink.Router

/-- An operation on the router, an inbox or a subscription. -/
inductive Op where
  | register (name : String)
  | dispatch (p : Push)
  | subscribe
  | unsubscribe (n : Nat)
  | drain (n : Nat)
  | read (token : Nat)
  | drop (token : Nat)
  | tick

/-- What an operation answers. -/
inductive Answer where
  | number (n : Nat)
  | handler (name : Option String)
  | pushes (ps : Option (List Push))
  | inbox (inbox : Inbox)
  | nothing

/-- A router, inboxes, and settlements that wait for a tick. -/
structure Session where
  runtime : Bool
  router : Router
  inboxes : Inboxes
  deferred : List Delivery

namespace Session

/-- A fresh router. -/
def new (timing : PushTiming) (runtime : Bool) : Session := ⟨runtime, .new timing, [], []⟩

/-- Puts a settlement into its inbox, now or in the next tick. -/
def settle (s : Session) (d : Delivery) : Session :=
  let (now, waiting) := s.router.schedule s.runtime s.deferred d
  { s with inboxes := Delivery.makeAll s.inboxes now, deferred := waiting }

/-- All settlements that waited come. -/
def tick (s : Session) : Session :=
  { s with inboxes := Delivery.makeAll s.inboxes s.deferred, deferred := [] }

/-- One operation. -/
def step (s : Session) : Op → Answer × Session
  | .register name =>
    let (token, older, handlers) := s.router.handlers.register name
    let inboxes := s.inboxes.opened
    let inboxes := match older with
      | some h => inboxes.deliver h.token (Handlers.superseded name)
      | none => inboxes
    (.number token, { s with router := { s.router with handlers := handlers }, inboxes := inboxes })
  | .dispatch p =>
    match s.router.dispatch p with
    | (some (name, d), router) => (.handler name, { s with router := router }.settle d)
    | (none, router) => (.handler none, { s with router := router })
  | .subscribe =>
    let (n, router) := s.router.subscribe
    (.number n, { s with router := router })
  | .unsubscribe n => (.nothing, { s with router := s.router.unsubscribe n })
  | .drain n =>
    let (ps, router) := s.router.drain n
    (.pushes ps, { s with router := router })
  | .read token =>
    let (inbox, inboxes) := s.inboxes.read token
    (.inbox inbox, { s with inboxes := inboxes })
  | .drop token => (.nothing, { s with inboxes := s.inboxes.drop token })
  | .tick => (.nothing, s.tick)

/-- Several operations. -/
def run (s : Session) (ops : List Op) : Session := ops.foldl (fun s op => (s.step op).2) s

end Session

end Hostlink.Router
