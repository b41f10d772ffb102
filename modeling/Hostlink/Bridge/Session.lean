import Hostlink.Bridge.Tick

/-!
# Runs of a bridge

A session holds a bridge and all calls and dialogs that were ever made, by number. A call that was
found settled keeps its settlement, also after it was dropped.

* `Bridge.Op` — what a page, its host and time can do;
* `Bridge.Session.step`, `Bridge.Session.run` — one operation, and a list of them.
-/

namespace Hostlink.Bridge

/-- An operation; `h` numbers calls and dialogs. -/
inductive Op where
  | call (path : String) (args : Args) (timeout : Option Nat)
  | callNamed (name path : String) (args : Args)
  | poll (h : Nat)
  | cancel (h : Nat)
  /-- Cancels by a handle that is not bound to the call's life. -/
  | cancelDetached (h : Nat)
  | drop (h : Nat)
  | invoke (id : String) (data : Json) (error : Option Json)
  | reject (id : String) (e : Rejection)
  | notify (p : Push)
  | hostNotify (p : Push)
  | subscribe
  | unsubscribe (n : Nat)
  | drain (n : Nat)
  | tick
  | advance (ms : Nat)
  | requests
  | answer (url : String)
  /-- The host answers the next request that was loaded. -/
  | answerNext
  | reply (n : Nat) (r : FetchReply)

/-- What a caller finds who may have dropped the call. -/
inductive Finding where
  | pending
  | settled (s : Settlement)
  | dropped

/-- What an operation answers. -/
inductive Answer where
  | id (id : String)
  | finding (f : Finding)
  | done (did : Bool)
  /-- The call was dropped. -/
  | dropped
  | canceled (id : String) (did : Bool)
  | handler (name : Option String)
  | subscriber (n : Nat)
  | pushes (ps : Option (List Push))
  | urls (urls : List String)
  | answered (url : String) (did : Bool)
  | replied (did : Option Bool)
  | nothing

/-- What a caller holds. -/
inductive Handle where
  /-- A request of a number. -/
  | call (number : Nat)
  | dialog (d : Dialog)
  deriving DecidableEq, Repr

/-- A call or dialog, and what its caller has found. -/
structure Held where
  handle : Handle
  alive : Bool
  outcome : Option Settlement

/-- A bridge and all calls that were made. -/
structure Session (σ : Type) where
  bridge : Bridge σ
  held : List Held

namespace Session

variable {σ : Type}

/-- A session over a fresh bridge. -/
def new (b : Bridge σ) : Session σ := ⟨b, []⟩

/-- Looks at a handle. -/
def pollHandle (b : Bridge σ) : Handle → Poll × Handle × Bridge σ
  | .call n =>
    let (found, b) := b.poll n
    (found, .call n, b)
  | .dialog d =>
    let (found, d, b) := b.pollDialog d
    (found, .dialog d, b)

/-- Looks at a call or dialog. -/
def poll (s : Session σ) (h : Nat) : Finding × Session σ :=
  match s.held[h]? with
  | none => (.dropped, s)
  | some held =>
    match held.outcome with
    | some v => (.settled v, s)
    | none =>
      if held.alive then
        match pollHandle s.bridge held.handle with
        | (.pending, handle, b) => (.pending, ⟨b, s.held.set h { held with handle := handle }⟩)
        | (.ready v, handle, b) => (.settled v, ⟨b, s.held.set h ⟨handle, true, some v⟩⟩)
      else (.dropped, s)

/-- Looks at several calls and dialogs. -/
def pollAll (s : Session σ) : List Nat → List Finding × Session σ
  | [] => ([], s)
  | h :: rest =>
    let (f, s) := s.poll h
    let (fs, s) := s.pollAll rest
    (f :: fs, s)

/-- Cancels a call or dialog that is still held. -/
def cancel (s : Session σ) (h : Nat) : Answer × Session σ :=
  match s.held[h]? with
  | none => (.dropped, s)
  | some held =>
    if held.alive then
      let (did, b) := match held.handle with
        | .call n => s.bridge.cancel n
        | .dialog d => s.bridge.cancelDialog d
      (.done did, { s with bridge := b })
    else (.dropped, s)

/-- Cancels a request, held or not. -/
def cancelDetached (s : Session σ) (h : Nat) : Answer × Session σ :=
  match s.held[h]?.map Held.handle with
  | some (.call n) =>
    let (did, b) := s.bridge.cancel n
    (.canceled (s.bridge.idOf n) did, { s with bridge := b })
  | _ => (.nothing, s)

/-- Drops a handle. -/
def dropHandle (b : Bridge σ) : Handle → Bridge σ
  | .call n => b.drop n
  | .dialog d => b.dropDialog d

/-- Drops a call or dialog. -/
def drop (s : Session σ) (h : Nat) : Session σ :=
  match s.held[h]? with
  | none => s
  | some held =>
    if held.alive then
      ⟨dropHandle s.bridge held.handle, s.held.set h { held with alive := false }⟩
    else s

/-- Drops all calls and dialogs. -/
def dropAll (s : Session σ) : Session σ := (List.range s.held.length).foldl drop s

/-- Does the request of a call wait? None for a dialog. -/
def isPending (s : Session σ) (h : Nat) : Option Bool :=
  match s.held[h]?.map Held.handle with
  | some (.call n) => some (s.bridge.registry.isPending (s.bridge.idOf n))
  | _ => none

/-- One operation. -/
def step (s : Session σ) : Op → Answer × Session σ
  | .call path args timeout =>
    let number := s.bridge.registry.count
    let (id, b) := s.bridge.call path args timeout
    (.id id, ⟨b, s.held ++ [⟨.call number, true, none⟩]⟩)
  | .callNamed name path args =>
    let (d, b) := s.bridge.callNamed name path args
    (.id name, ⟨b, s.held ++ [⟨.dialog d, true, none⟩]⟩)
  | .poll h =>
    let (f, s) := s.poll h
    (.finding f, s)
  | .cancel h => s.cancel h
  | .cancelDetached h => s.cancelDetached h
  | .drop h => (.nothing, s.drop h)
  | .invoke id data error =>
    let (did, b) := s.bridge.invoke id data error
    (.done did, { s with bridge := b })
  | .reject id e =>
    let (did, b) := s.bridge.settle id (.error e)
    (.done did, { s with bridge := b })
  | .notify p =>
    let (name, b) := s.bridge.notify p
    (.handler name, { s with bridge := b })
  | .hostNotify p =>
    let (name, b) := s.bridge.hostNotify p
    (.handler name, { s with bridge := b })
  | .subscribe =>
    let (n, router) := s.bridge.router.subscribe
    (.subscriber n, { s with bridge := { s.bridge with router := router } })
  | .unsubscribe n =>
    (.nothing, { s with bridge := { s.bridge with router := s.bridge.router.unsubscribe n } })
  | .drain n =>
    let (ps, router) := s.bridge.router.drain n
    (.pushes ps, { s with bridge := { s.bridge with router := router } })
  | .tick => (.nothing, { s with bridge := s.bridge.tick })
  | .advance ms => (.nothing, { s with bridge := s.bridge.advance ms })
  | .requests =>
    let (urls, b) := s.bridge.takeRequests
    (.urls urls, { s with bridge := b })
  | .answer url =>
    let (did, b) := s.bridge.answerScript url
    (.done did, { s with bridge := b })
  | .answerNext =>
    match s.bridge.takeLoad with
    | (none, _) => (.nothing, s)
    | (some url, b) =>
      let (did, b) := b.answerScript url
      (.answered url did, { s with bridge := b })
  | .reply n r =>
    let (did, b) := s.bridge.reply n r
    (.replied did, { s with bridge := b })

/-- Several operations. -/
def run (s : Session σ) (ops : List Op) : Session σ := ops.foldl (fun s op => (s.step op).2) s

end Session

end Hostlink.Bridge
