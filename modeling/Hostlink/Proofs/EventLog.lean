import Hostlink.EventLog
import Mathlib.Data.List.DropRight

/-!
# The newest lines

A full log gives up its oldest line for each new one, so that it holds the newest lines of all that was logged, oldest
first.

* `EventLog.Entry` — what can be logged, and how it reads;
* `EventLog.logAll` — logs one entry after another;
* `EventLog.logAll_empty` — **the log holds the newest lines**, as many as it keeps.
-/

namespace Hostlink.EventLog

/-- What can be logged. -/
inductive Entry where
  /-- A message under a category. -/
  | note (category message : String)
  /-- The end of a request. -/
  | request (id path outcome : String) (ms : Nat)
  /-- A push, and the handler that took it. -/
  | push (event : String) (handler : Option String)
  deriving DecidableEq

/-- How an entry reads. -/
def Entry.text : Entry → String
  | .note category message => "[" ++ category ++ "] " ++ message
  | .request id path outcome ms => "[BRIDGE] " ++ id ++ " " ++ path ++ " " ++ outcome ++ " (" ++ toString ms ++ "ms)"
  | .push event (some name) => "[PUSH] " ++ event ++ " -> " ++ name
  | .push event none => "[PUSH] " ++ event ++ " (no pending handler)"

/-- Logs an entry. -/
def log (l : EventLog) : Entry → EventLog
  | .note category message => l.add (line category message)
  | .request id path outcome ms => l.add (requestLine id path outcome ms)
  | .push event handler => l.add (pushLine event handler)

/-- Logs several entries, in order. -/
def logAll (l : EventLog) (es : List Entry) : EventLog := es.foldl log l

variable (l : EventLog)

theorem logAll_append (es es' : List Entry) : l.logAll (es ++ es') = (l.logAll es).logAll es' :=
  List.foldl_append

/-- An entry adds the line that it reads as. -/
theorem log_eq (e : Entry) : l.log e = l.add e.text := by
  have hbridge : "[BRIDGE] " = "[" ++ "BRIDGE" ++ "] " := rfl
  have hpush : "[PUSH] " = "[" ++ "PUSH" ++ "] " := rfl
  rcases e with ⟨category, message⟩ | ⟨id, path, outcome, ms⟩ | ⟨event, _ | name⟩
  · rfl
  · simp only [log, Entry.text, requestLine, line, hbridge, String.append_assoc, toString]
  · simp only [log, Entry.text, pushLine, line, hpush, String.append_assoc, toString]
  · simp only [log, Entry.text, pushLine, line, hpush, String.append_assoc, toString]

/-! ## The newest lines -/

/-- Next to the newest lines of several, one more leaves the newest of all. -/
theorem add_newest (lines : List String) (s : String) :
    add ⟨lines.rtake capacity⟩ s = ⟨(lines ++ [s]).rtake capacity⟩ := by
  have hcapacity : capacity = 50 := rfl
  have hlength : (lines.rtake capacity).length = lines.length - (lines.length - capacity) := List.length_drop
  have hlast : (lines ++ [s]).rtake capacity = lines.rtake 49 ++ [s] := List.rtake_concat_succ _ _ _
  rw [add, hlast]
  dsimp only
  rw [hlength]
  congr 2
  split
  · next hroom =>
    rw [List.rtake, List.rtake]
    congr 1
    omega
  · next hfull =>
    rw [List.rtake, List.rtake, List.drop_drop]
    congr 1
    omega

/-- **The log holds the newest lines**, oldest first, and all of them as long as there is room. -/
theorem logAll_empty (es : List Entry) : empty.logAll es = ⟨(es.map Entry.text).rtake capacity⟩ := by
  induction es using List.reverseRecOn with
  | nil => rfl
  | append_singleton es e ih =>
    rw [logAll_append, ih, List.map_append]
    exact (log_eq _ e).trans (add_newest _ e.text)

end Hostlink.EventLog
