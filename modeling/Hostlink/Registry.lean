import Hostlink.EventLog
import Hostlink.Inbox

/-!
# The registry of requests

Every request that waits for an answer has a slot, under an id that is never used again. A slot is
taken away once: by the first settlement, or when nobody waits any more. What has to happen then is
given as a list of effects, in order: the timer is stopped, the page is cleaned up, a line is
logged, and only then can the caller see the settlement.

* `Registry.register` — a slot under a fresh id;
* `Registry.settle`, `Registry.forget` — take it away, with or without a settlement;
* `Registry.attachTimer`, `Registry.attachGuard` — what is released with the slot.

Timers and guards are names of type `τ` and `γ`; whoever runs the effects knows what they stand for.
-/

namespace Hostlink

/-- A request that waits for an answer. -/
structure Slot (γ τ : Type) where
  id : String
  /-- How many requests came before; the number of its inbox. -/
  number : Nat
  path : String
  timer : Option τ
  guard : Option γ
  /-- When it was registered. -/
  since : Nat
  deriving DecidableEq, Repr

/-- What has to be done when a slot changes. -/
inductive Effect (γ τ : Type) where
  /-- Stops a timer. -/
  | abort (timer : τ)
  /-- Cleans up after a request. -/
  | release (guard : γ)
  /-- Logs the end of a request. -/
  | record (id path label : String) (ms : Nat)
  /-- Puts a settlement into an inbox. -/
  | deliver (number : Nat) (s : Settlement)
  /-- Nothing will come into an inbox any more. -/
  | hangUp (number : Nat)

/-- The registry. -/
structure Registry (γ τ : Type) where
  /-- What ids begin with. -/
  stem : String
  /-- How many slots have been made. -/
  count : Nat
  /-- Slots that wait, oldest first. -/
  slots : List (Slot γ τ)
  deriving Repr

namespace Registry

variable {γ τ : Type}

/-- A registry without slots. -/
def new (stem : String) : Registry γ τ := ⟨stem, 0, []⟩

/-- The id of the request of a number; counting begins at one. -/
def idOf (stem : String) (number : Nat) : String := stem ++ toString (number + 1)

/-- The slot of an id. -/
def find? (r : Registry γ τ) (id : String) : Option (Slot γ τ) := r.slots.find? (·.id = id)

/-- Does an id wait? -/
def isPending (r : Registry γ τ) (id : String) : Bool := (r.find? id).isSome

/-- How many wait. -/
def size (r : Registry γ τ) : Nat := r.slots.length

/-- A slot under a fresh id. -/
def register (r : Registry γ τ) (path : String) (now : Nat) : String × Registry γ τ :=
  let id := idOf r.stem r.count
  (id, { r with count := r.count + 1, slots := r.slots ++ [⟨id, r.count, path, none, none, now⟩] })

/-- The registry without an id. -/
def erase (r : Registry γ τ) (id : String) : Registry γ τ :=
  { r with slots := r.slots.filter (·.id ≠ id) }

/-- Changes the slot of an id. -/
def update (r : Registry γ τ) (id : String) (f : Slot γ τ → Slot γ τ) : Registry γ τ :=
  { r with slots := r.slots.map fun s => if s.id = id then f s else s }

/-! ## Taking slots away -/

/-- What is released with a slot. -/
def cleanup (s : Slot γ τ) : List (Effect γ τ) :=
  (s.timer.map Effect.abort).toList ++ (s.guard.map Effect.release).toList

/-- The label of a settlement in the log. -/
def label : Settlement → String
  | .ok _ => "resolved"
  | .error .timeout => "timeout"
  | .error .canceled => "canceled"
  | .error _ => "rejected"

/-- The label of a request that nobody waits for. -/
def droppedLabel : String := "dropped"

/-- Settles an id: whether it waited, what has to be done, and the registry after. -/
def settle (r : Registry γ τ) (now : Nat) (id : String) (s : Settlement) :
    Bool × List (Effect γ τ) × Registry γ τ :=
  match r.find? id with
  | none => (false, [], r)
  | some slot =>
    (true, cleanup slot ++ [.record id slot.path (label s) (now - slot.since),
      .deliver slot.number s], r.erase id)

/-- Takes an id away that nobody waits for. -/
def forget (r : Registry γ τ) (now : Nat) (id : String) :
    Bool × List (Effect γ τ) × Registry γ τ :=
  match r.find? id with
  | none => (false, [], r)
  | some slot =>
    (true, cleanup slot ++ [.record id slot.path droppedLabel (now - slot.since),
      .hangUp slot.number], r.erase id)

/-! ## Attaching -/

/-- Gives a slot its timer. If the slot is gone, the timer is stopped. -/
def attachTimer (r : Registry γ τ) (id : String) (timer : τ) :
    List (Effect γ τ) × Registry γ τ :=
  if r.isPending id then ([], r.update id fun s => { s with timer := some timer })
  else ([.abort timer], r)

/-- Gives a slot its guard. The guard it had is released; if the slot is gone, this one is. -/
def attachGuard (r : Registry γ τ) (id : String) (guard : γ) :
    List (Effect γ τ) × Registry γ τ :=
  match r.find? id with
  | some slot =>
    ((slot.guard.map Effect.release).toList, r.update id fun s => { s with guard := some guard })
  | none => ([.release guard], r)

end Registry

end Hostlink
