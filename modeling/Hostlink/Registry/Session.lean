import Hostlink.Registry

/-!
# Runs of a registry

A session holds a registry, the inboxes of all requests it ever made, and what its effects have
done: the guards that were released, the timers that were stopped, and the log. Guards are named by
labels and timers by numbers.

* `Registry.Op` — what can be done, with inboxes by number;
* `Registry.Session.step`, `Registry.Session.run` — one operation, and a list of them.
-/

namespace Hostlink.Registry

/-- An operation on a registry or on an inbox. -/
inductive Op where
  | register (path : String)
  | settle (id : String) (s : Settlement)
  /-- Settles the request of a number. -/
  | settleNumber (number : Nat) (s : Settlement)
  | forget (id : String)
  | attachGuard (number : Nat) (label : String)
  | attachTimer (number : Nat)
  | read (number : Nat)
  | drop (number : Nat)

/-- What an operation answers. -/
inductive Answer where
  | id (id : String)
  | done (settled : Bool)
  | settled (id : String) (settled : Bool)
  | inbox (inbox : Inbox)
  | nothing

/-- A registry and what its effects have done. -/
structure Session where
  registry : Registry String Nat
  inboxes : Inboxes
  /-- Guards that were released, in order. -/
  released : List String
  /-- How many timers were attached. -/
  timers : Nat
  /-- Timers that were stopped, in order. -/
  aborted : List Nat
  log : EventLog

namespace Session

/-- A fresh registry. -/
def new (stem : String) : Session := ⟨.new stem, [], [], 0, [], .empty⟩

/-- What an effect does. -/
def perform (s : Session) : Effect String Nat → Session
  | .abort t => { s with aborted := s.aborted ++ [t] }
  | .release g => { s with released := s.released ++ [g] }
  | .record id path label ms => { s with log := s.log.add (EventLog.requestLine id path label ms) }
  | .deliver n v => { s with inboxes := s.inboxes.deliver n v }
  | .hangUp n => { s with inboxes := s.inboxes.hangUp n }

/-- The effects of an operation, in order, and the registry after it. -/
def after (s : Session) (effects : List (Effect String Nat)) (registry : Registry String Nat) :
    Session :=
  effects.foldl perform { s with registry := registry }

/-- The id of a registry that is not this one. -/
def foreignId : String := "other1"

/-- The id of the request of a number; of one that was never made, an id of another registry. -/
def idAt (s : Session) (number : Nat) : String :=
  if number < s.registry.count then idOf s.registry.stem number else foreignId

/-- One operation. The clock stands still. -/
def step (s : Session) : Op → Answer × Session
  | .register path =>
    let (id, registry) := s.registry.register path 0
    (.id id, { s with registry := registry, inboxes := s.inboxes.opened })
  | .settle id v =>
    let (hit, effects, registry) := s.registry.settle 0 id v
    (.done hit, s.after effects registry)
  | .settleNumber n v =>
    let id := s.idAt n
    let (hit, effects, registry) := s.registry.settle 0 id v
    (.settled id hit, s.after effects registry)
  | .forget id =>
    let (hit, effects, registry) := s.registry.forget 0 id
    (.done hit, s.after effects registry)
  | .attachGuard n label =>
    let (effects, registry) := s.registry.attachGuard (s.idAt n) label
    (.nothing, s.after effects registry)
  | .attachTimer n =>
    let (effects, registry) := s.registry.attachTimer (s.idAt n) s.timers
    (.nothing, { s with timers := s.timers + 1 }.after effects registry)
  | .read n =>
    let (inbox, inboxes) := s.inboxes.read n
    (.inbox inbox, { s with inboxes := inboxes })
  | .drop n => (.nothing, { s with inboxes := s.inboxes.drop n })

/-- Several operations. -/
def run (s : Session) (ops : List Op) : Session := ops.foldl (fun s op => (s.step op).2) s

end Session

end Hostlink.Registry
