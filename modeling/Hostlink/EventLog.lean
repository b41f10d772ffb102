/-!
# The log of events

The log keeps the last fifty lines. Requests and pushes have lines of a fixed form.
-/

namespace Hostlink

/-- Lines, oldest first. -/
structure EventLog where
  lines : List String
  deriving DecidableEq, Repr

namespace EventLog

/-- How many lines are kept. -/
def capacity : Nat := 50

/-- No lines. -/
def empty : EventLog := ⟨[]⟩

/-- A line under a category. -/
def line (category message : String) : String := s!"[{category}] {message}"

/-- The line of a settled request. -/
def requestLine (id path outcome : String) (ms : Nat) : String :=
  line "BRIDGE" s!"{id} {path} {outcome} ({ms}ms)"

/-- The line of a push, and of the handler that took it. -/
def pushLine (event : String) (handler : Option String) : String :=
  match handler with
  | some name => line "PUSH" s!"{event} -> {name}"
  | none => line "PUSH" s!"{event} (no pending handler)"

/-- One more line; of a full log the oldest goes. -/
def add (log : EventLog) (l : String) : EventLog :=
  ⟨(if log.lines.length < capacity then log.lines else log.lines.drop 1) ++ [l]⟩

/-- Several lines, in order. -/
def addAll (log : EventLog) (ls : List String) : EventLog := ls.foldl add log

end EventLog

end Hostlink
