import Hostlink.Inbox

/-!
# Handlers with a name

A dialog is answered by a push that carries a name its caller chose. One handler waits under a
name; a newer one of the same name takes its place, and the older is told so. Registrations are
told apart by tokens, which also number their inboxes.

* `Handlers.register`, `Handlers.take` — puts a handler in, takes one out;
* `Handlers.takeOwn` — takes a handler out only if it is still that of a registration.
-/

namespace Hostlink

/-- A handler that waits, or that has been taken out. -/
structure Handler where
  name : String
  token : Nat
  deriving DecidableEq, Repr

/-- The handlers that wait. -/
structure Handlers where
  /-- How many have been registered. -/
  count : Nat
  waiting : List Handler
  deriving DecidableEq, Repr

namespace Handlers

/-- No handlers. -/
def new : Handlers := ⟨0, []⟩

/-- The handler of a name. -/
def find? (h : Handlers) (name : String) : Option Handler := h.waiting.find? (·.name = name)

/-- Does a handler wait under a name? -/
def isPending (h : Handlers) (name : String) : Bool := (h.find? name).isSome

/-- How many wait. -/
def size (h : Handlers) : Nat := h.waiting.length

/-- The handlers without that of a name. -/
def erase (h : Handlers) (name : String) : Handlers :=
  { h with waiting := h.waiting.filter (·.name ≠ name) }

/-- Takes out the handler of a name. -/
def take (h : Handlers) (name : String) : Option Handler × Handlers := (h.find? name, h.erase name)

/-- Takes out the handler of a name if it is that of a token. -/
def takeOwn (h : Handlers) (name : String) (token : Nat) : Bool × Handlers :=
  if (h.find? name).any (·.token = token) then (true, h.erase name) else (false, h)

/-- Registers a name: the token, the handler whose place it takes, and the handlers after. -/
def register (h : Handlers) (name : String) : Nat × Option Handler × Handlers :=
  let (older, rest) := h.take name
  (h.count, older, ⟨h.count + 1, rest.waiting ++ [⟨name, h.count⟩]⟩)

/-- What the handler is told whose place a newer one took. -/
def superseded (name : String) : Settlement := .error (.superseded name)

end Handlers

end Hostlink
