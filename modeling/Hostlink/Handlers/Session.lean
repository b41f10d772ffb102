import Hostlink.Handlers

/-!
# Runs of handlers with a name

A session holds the handlers, the inboxes of all registrations, and the handlers that were taken
out, by number, until they are settled or dropped.

* `Handlers.Op` — what can be done, with inboxes and taken handlers by number;
* `Handlers.Session.step`, `Handlers.Session.run` — one operation, and a list of them.
-/

namespace Hostlink.Handlers

/-- An operation on the handlers, on a taken handler, or on an inbox. -/
inductive Op where
  | register (name : String)
  | take (name : String)
  /-- Settles a taken handler. -/
  | send (taken : Nat) (s : Settlement)
  /-- Drops a taken handler. -/
  | dropTaken (taken : Nat)
  | settle (name : String) (s : Settlement)
  | read (token : Nat)
  | drop (token : Nat)

/-- What an operation answers. -/
inductive Answer where
  | token (token : Nat)
  | taken (name : Option String)
  | done (did : Bool)
  | inbox (inbox : Inbox)
  | nothing

/-- Handlers, inboxes, and handlers that were taken out. -/
structure Session where
  handlers : Handlers
  inboxes : Inboxes
  /-- Handlers in the order they were taken; none once it was settled or dropped. -/
  taken : List (Option Handler)

namespace Session

/-- No handlers. -/
def new : Session := ⟨.new, [], []⟩

/-- Gives up a taken handler; `f` says what happens to its inbox. -/
def give (s : Session) (taken : Nat) (f : Inboxes → Nat → Inboxes) : Answer × Session :=
  match s.taken[taken]? with
  | some (some h) =>
    (.done true, { s with inboxes := f s.inboxes h.token, taken := s.taken.set taken none })
  | _ => (.done false, s)

/-- One operation. -/
def step (s : Session) : Op → Answer × Session
  | .register name =>
    let (token, older, handlers) := s.handlers.register name
    let inboxes := s.inboxes.opened
    let inboxes := match older with
      | some h => inboxes.deliver h.token (superseded name)
      | none => inboxes
    (.token token, { s with handlers := handlers, inboxes := inboxes })
  | .take name =>
    match s.handlers.take name with
    | (some h, handlers) =>
      (.taken h.name, { s with handlers := handlers, taken := s.taken ++ [some h] })
    | (none, _) => (.taken none, s)
  | .send taken v => s.give taken fun boxes n => boxes.deliver n v
  | .dropTaken taken => s.give taken fun boxes n => boxes.hangUp n
  | .settle name v =>
    match s.handlers.take name with
    | (some h, handlers) =>
      (.done true, { s with handlers := handlers, inboxes := s.inboxes.deliver h.token v })
    | (none, _) => (.done false, s)
  | .read token =>
    let (inbox, inboxes) := s.inboxes.read token
    (.inbox inbox, { s with inboxes := inboxes })
  | .drop token => (.nothing, { s with inboxes := s.inboxes.drop token })

/-- Several operations. -/
def run (s : Session) (ops : List Op) : Session := ops.foldl (fun s op => (s.step op).2) s

end Session

end Hostlink.Handlers
