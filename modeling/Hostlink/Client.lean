import Hostlink.Bridge.Tick
import Hostlink.Client.Operation

/-!
# A client of a preferences host

A client performs operations over a bridge, one after the other, and shows dialogs, which stay open
until a push, an error or the client itself ends them.

* `Client.perform` — issues an operation and waits for its answer; the clock moves as far as timers
  make it;
* `Client.show`, `Client.join`, `Client.abort` — a dialog.
-/

namespace Hostlink

open Bridge (Dialog Poll)

/-- What has become of a dialog. -/
inductive DialogState where
  | showing
  | finished (s : Settlement)
  /-- Its outcome has been taken. -/
  | joined
  | aborted

/-- A dialog that was shown. -/
structure ShownDialog where
  kind : DialogKind
  dialog : Dialog
  state : DialogState

/-- A bridge and the dialogs that were shown over it. -/
structure Client (σ : Type) where
  bridge : Bridge σ
  dialogs : List ShownDialog

namespace Client

variable {σ : Type}

/-- A client without dialogs. -/
def new (b : Bridge σ) : Client σ := ⟨b, []⟩

/-! ## Time -/

/-- The outcome of a dialog, typed. -/
def outcomeOf (k : DialogKind) : Settlement → Settlement
  | .ok v => k.result v
  | .error e => .error e

/-- Looks at a dialog that is shown. One that has ended is dropped. -/
def pollShown (b : Bridge σ) (d : ShownDialog) : ShownDialog × Bridge σ :=
  match d.state with
  | .showing =>
    match b.pollDialog d.dialog with
    | (.pending, dialog, b) => ({ d with dialog := dialog }, b)
    | (.ready s, dialog, b) =>
      ({ d with dialog := dialog, state := .finished (outcomeOf d.kind s) }, b.dropDialog dialog)
  | _ => (d, b)

/-- Looks at all dialogs. -/
def pollDialogs (b : Bridge σ) : List ShownDialog → List ShownDialog × Bridge σ
  | [] => ([], b)
  | d :: rest =>
    let (d, b) := pollShown b d
    let (ds, b) := pollDialogs b rest
    (d :: ds, b)

/-- All work that waits is done, and dialogs go on. -/
def tick (c : Client σ) : Client σ :=
  let (dialogs, b) := pollDialogs c.bridge.tick c.dialogs
  ⟨b, dialogs⟩

/-- How long it takes until the next timer runs out. -/
def nextTimer (b : Bridge σ) : Option Nat :=
  (b.sleepers.map fun n => b.deadline n - b.clock).min?

/-- The clock moves to the next timer. -/
def sleep (c : Client σ) (ms : Nat) : Client σ :=
  let b := c.bridge
  { c with bridge := { b with clock := b.clock + ms }.wakeTimers }.tick

/-- Waits for a request; none if nothing will ever settle it. Each timer is waited for once. -/
def await (c : Client σ) (number : Nat) : Nat → Option Settlement × Client σ
  | 0 => (none, c)
  | timers + 1 =>
    match c.bridge.poll number with
    | (.ready s, b) => (some s, { c with bridge := b.drop number })
    | (.pending, _) =>
      match nextTimer c.bridge with
      | some ms => (c.sleep ms).await number timers
      | none => (none, c)

/-- Issues a request and waits for its settlement. -/
def request (c : Client σ) (path : String) (args : Args) (timeout : Option Nat) :
    Option Settlement × Client σ :=
  let number := c.bridge.registry.count
  let (_, b) := c.bridge.call path args timeout
  let c := { c with bridge := b }.tick
  c.await number (c.bridge.sleepers.length + 1)

/-! ## Operations -/

/-- Performs an operation; none if nothing will ever settle it. -/
def perform (c : Client σ) (op : Operation) :
    Option (Except Rejection OperationValue) × Client σ :=
  let (settled, c) := c.request op.path (op.args c.bridge.config.encoding) none
  (settled.map (· >>= op.result), c)

/-- Performs an operation that nobody waits for; false if there is no runtime to do so. -/
def performDetached (c : Client σ) (op : Operation) : Bool × Client σ :=
  if c.bridge.runtime then (true, (c.perform op).2) else (false, c)

/-! ## Dialogs -/

/-- Shows a dialog under a name; its number. -/
def showDialog (c : Client σ) (kind : DialogKind) (name : String) : Nat × Client σ :=
  let (dialog, b) := c.bridge.callNamed name kind.path (kind.args name)
  (c.dialogs.length, (⟨b, c.dialogs ++ [⟨kind, dialog, .showing⟩]⟩ : Client σ).tick)

/-- The host pushes an event, which takes its effect. -/
def notify (c : Client σ) (p : Push) : Option String × Client σ :=
  let (name, b) := c.bridge.hostNotify p
  (name, { c with bridge := b }.tick)

/-- Drops a dialog that is shown. -/
def abort (c : Client σ) (d : Nat) : Client σ :=
  match c.dialogs[d]? with
  | some shown =>
    match shown.state with
    | .showing =>
      (⟨c.bridge.dropDialog shown.dialog, c.dialogs.set d { shown with state := .aborted }⟩ :
        Client σ).tick
    | _ => c.tick
  | none => c.tick

/-- Takes the outcome of a dialog: what has become of it, and the client after. -/
def join (c : Client σ) (d : Nat) : DialogState × Client σ :=
  match c.dialogs[d]? with
  | some shown =>
    match shown.state with
    | .finished s =>
      (.finished s, { c with dialogs := c.dialogs.set d { shown with state := .joined } })
    | state => (state, c)
  | none => (.joined, c)

end Client

end Hostlink
