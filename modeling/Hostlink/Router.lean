import Hostlink.Config
import Hostlink.Deferral
import Hostlink.Handlers
import Hostlink.Push

/-!
# Routing pushes

A push settles at most one handler, and goes to everybody who subscribed, whether or not a handler
took it. The settlement is put into the handler's inbox at once or one tick later.

* `Router.dispatch` — routes a push;
* `Router.schedule` — when the settlement that it brings is delivered;
* `Router.subscribe`, `Router.unsubscribe`, `Router.drain` — the channel of a subscriber.
-/

namespace Hostlink

/-- What a subscriber has received and not read. -/
structure Channel where
  queue : List Push
  /-- Does the subscriber still listen? -/
  live : Bool
  /-- Does the host still send? It finds out at the next push that nobody listens. -/
  attached : Bool
  deriving DecidableEq, Repr

namespace Channel

/-- Sends a push. -/
def send (p : Push) (c : Channel) : Channel :=
  if c.attached then
    if c.live then { c with queue := c.queue ++ [p] } else { c with attached := false }
  else c

end Channel

/-- Handlers and subscribers. -/
structure Router where
  timing : PushTiming
  handlers : Handlers
  /-- Channels in the order of subscription. -/
  channels : List Channel

namespace Router

/-- A router without handlers and subscribers. -/
def new (timing : PushTiming) : Router := ⟨timing, .new, []⟩

/-- How many channels the host sends to. -/
def subscriberCount (r : Router) : Nat := (r.channels.filter (·.attached)).length

/-- One more subscriber, and its number. -/
def subscribe (r : Router) : Nat × Router :=
  (r.channels.length, { r with channels := r.channels ++ [⟨[], true, true⟩] })

/-- A subscriber stops listening. -/
def unsubscribe (r : Router) (n : Nat) : Router :=
  { r with channels := r.channels.modify n fun c => { c with queue := [], live := false } }

/-- Reads all that a subscriber has received; none if it does not listen. -/
def drain (r : Router) (n : Nat) : Option (List Push) × Router :=
  match r.channels[n]? with
  | some c =>
    if c.live then
      (some c.queue, { r with channels := r.channels.modify n fun c => { c with queue := [] } })
    else (none, r)
  | none => (none, r)

/-- Sends a push to everybody. -/
def publish (r : Router) (p : Push) : Router := { r with channels := r.channels.map (·.send p) }

/-- The name that a push is for, and the value it carries. -/
def addressee (p : Push) : String × Option Json :=
  match Push.classify p.event p.data with
  | .named name value => (name, value)
  | .other => (p.event, Push.legacyValue p.data)

/-- What a push settles a handler with. -/
def settlementOf (name : String) (value : Option Json) : Settlement :=
  match value with
  | some v => .ok v
  | none => .error (.dismissed name)

/-- Takes out the handler that a push is for. -/
def takeHandler (r : Router) (p : Push) : Option (String × Delivery) × Router :=
  let (name, value) := addressee p
  match r.handlers.take name with
  | (some h, handlers) =>
    (some (name, ⟨h.token, settlementOf name value⟩), { r with handlers := handlers })
  | (none, _) => (none, r)

/-- When a delivery is made: those to be made at once, and those that wait for the next tick. -/
def schedule (r : Router) (runtime : Bool) (waiting : List Delivery) (d : Delivery) :
    List Delivery × List Delivery :=
  match r.timing with
  | .immediate => ([d], waiting)
  | .nextTick => Deferral.put runtime waiting d

/-- Routes a push: the name of the handler that took it with what it will receive, and the router
after. -/
def dispatch (r : Router) (p : Push) : Option (String × Delivery) × Router :=
  let (taken, r) := r.takeHandler p
  (taken, r.publish p)

end Router

end Hostlink
