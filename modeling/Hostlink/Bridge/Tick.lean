import Hostlink.Bridge.Call

/-!
# Ticks and the clock

* `Bridge.tick` — all work that waits is done, in the order it came; settlements that were put off
  come last;
* `Bridge.advance` — the clock moves, and timers whose deadline has come run out;
* `Bridge.reply` — a fetch is answered by hand.
-/

namespace Hostlink.Bridge

variable {σ : Type}

/-- A timer runs: it waits for its deadline, or settles its request. -/
def runTimer (b : Bridge σ) (n : Nat) : Bridge σ :=
  match b.timers[n]? with
  | none => b
  | some t =>
    if t.deadline ≤ b.clock then (b.settle t.id (.error .timeout)).2
    else { b with sleepers := b.sleepers ++ [n] }

/-- Sets the phase of a fetch. -/
def setPhase (b : Bridge σ) (n : Nat) (phase : FetchPhase) : Bridge σ :=
  { b with fetches := b.fetches.modify n fun f => { f with phase := phase } }

/-- What a reply settles. -/
def settlementOf : FetchReply → Settlement
  | .ok body => Reply.decode body
  | .error e => .error e

/-- A fetch runs: it waits for its reply, or settles its request. -/
def runFetch (b : Bridge σ) (n : Nat) : Bridge σ :=
  match b.fetches[n]? with
  | none => b
  | some f =>
    match f.reply with
    | none => b.setPhase n .parked
    | some reply => ((b.setPhase n .gone).settle f.id (settlementOf reply)).2

/-- The host answers the scripts that have been loaded. -/
def runServer (b : Bridge σ) : Bridge σ :=
  let (urls, page) := b.page.takeLoads
  { b with page := page }.answerScripts urls

/-- A task runs. -/
def run (b : Bridge σ) : Task → Bridge σ
  | .timer n => b.runTimer n
  | .fetch n => b.runFetch n
  | .serve => b.runServer

/-- A task that is still ready runs. -/
def runReady (b : Bridge σ) (t : Task) : Bridge σ :=
  if t ∈ b.ready then { b with ready := b.ready.filter (· ≠ t) }.run t else b

/-- Settlements that were put off come. -/
def deliverDeferred (b : Bridge σ) : Bridge σ :=
  { b with dialogs := Delivery.makeAll b.dialogs b.deferred, deferred := [] }

/-- Fetches that were given up end. -/
def endAborted (b : Bridge σ) : Bridge σ :=
  { b with fetches := b.fetches.map fun f =>
      if f.phase = .aborted then { f with phase := .gone } else f }

/-- All work that waits is done. -/
def tick (b : Bridge σ) : Bridge σ := (b.ready.foldl runReady b).deliverDeferred.endAborted

/-- The deadline of a timer. -/
def deadline (b : Bridge σ) (n : Nat) : Nat := (b.timers[n]?.map Timer.deadline).getD 0

/-- Timers whose deadline has come are ready, the earliest first. -/
def wakeTimers (b : Bridge σ) : Bridge σ :=
  let due := b.sleepers.filter (b.deadline · ≤ b.clock)
  let due := due.mergeSort (fun m n => b.deadline m ≤ b.deadline n)
  { b with
    sleepers := b.sleepers.filter (b.clock < b.deadline ·)
    ready := b.ready ++ due.map .timer }

/-- A tick, then the clock moves, then a tick. -/
def advance (b : Bridge σ) (ms : Nat) : Bridge σ :=
  let b := b.tick
  ({ b with clock := b.clock + ms }.wakeTimers).tick

/-- Answers a fetch by hand: false if nobody waits for the reply, none if there is no such fetch or
it has been answered. -/
def reply (b : Bridge σ) (n : Nat) (r : FetchReply) : Option Bool × Bridge σ :=
  match b.fetches[n]? with
  | none => (none, b)
  | some f =>
    if f.answered then (none, b)
    else
      let answered := { f with answered := true }
      match f.phase with
      | .gone => (some false, { b with fetches := b.fetches.set n answered })
      | .aborted => (some true, { b with fetches := b.fetches.set n answered })
      | .ready =>
        (some true, { b with fetches := b.fetches.set n { answered with reply := some r } })
      | .parked =>
        (some true, { b with
          fetches := b.fetches.set n { answered with reply := some r, phase := .ready }
          ready := b.ready ++ [.fetch n] })

/-- The URLs that were loaded or fetched and that nobody has looked at. -/
def takeRequests (b : Bridge σ) : List String × Bridge σ :=
  let (urls, page) := b.page.takeLoads
  (urls ++ b.fetched, { b with page := page, fetched := [] })

/-- The next URL that was loaded. -/
def takeLoad (b : Bridge σ) : Option String × Bridge σ :=
  match b.page.loads with
  | url :: rest => (some url, { b with page := { b.page with loads := rest } })
  | [] => (none, b)

end Hostlink.Bridge
