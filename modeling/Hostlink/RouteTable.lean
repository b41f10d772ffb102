import Hostlink.Args
import Hostlink.HostError

/-!
# Routes of a host

A host answers a request by the handler of its path; slashes around a path do not count. Handlers
read and change the host's state, of type `σ`.

* `RouteTable.route` — gives a path a handler;
* `RouteTable.dispatch` — runs the handler of a path.
-/

namespace Hostlink

/-- What a handler does: it may read and change the state, and fails or has a result. A change
stays even if the action fails later. -/
abbrev Action (σ α : Type) := ExceptT HostError (StateM σ) α

/-- Answers a request of its arguments. -/
abbrev RouteHandler (σ : Type) := Args → Action σ Json

/-- Why there is no route. -/
inductive RouteError where
  | emptyPath
  | notFound (path : String)
  deriving DecidableEq, Repr

namespace RouteError

/-- The wording. -/
def message : RouteError → String
  | .emptyPath => "Route path cannot be empty"
  | .notFound path => s!"Route not found for path {path}"

/-- The type of error that a page is told. -/
def typeName : RouteError → String
  | .emptyPath => "RoutePathEmpty"
  | .notFound _ => "RouteNotFound"

/-- What a page is told. -/
def toHostError (e : RouteError) : HostError :=
  (HostError.ofType e.message e.typeName).withName "Other"

end RouteError

/-- Handlers under their paths without slashes around, ordered by path. -/
structure RouteTable (σ : Type) where
  routes : List (String × RouteHandler σ)

namespace RouteTable

variable {σ : Type}

/-- No routes. -/
def empty : RouteTable σ := ⟨[]⟩

/-- A path without slashes around it. -/
def normalize (path : String) : String :=
  String.ofList ((path.toList.dropWhile (· = '/')).reverse.dropWhile (· = '/')).reverse

/-- Puts a handler under a key, in place of any handler there. -/
def insert (key : String) (h : RouteHandler σ) :
    List (String × RouteHandler σ) → List (String × RouteHandler σ)
  | [] => [(key, h)]
  | (k, g) :: rest =>
    if key < k then (key, h) :: (k, g) :: rest
    else if key = k then (key, h) :: rest
    else (k, g) :: insert key h rest

/-- Gives a path a handler; a path of nothing but slashes is refused. -/
def route (t : RouteTable σ) (path : String) (h : RouteHandler σ) :
    Except RouteError (RouteTable σ) :=
  let key := normalize path
  if key = "" then .error .emptyPath else .ok ⟨insert key h t.routes⟩

/-- Gives a path a handler, unless it is refused. -/
def withRoute (t : RouteTable σ) (path : String) (h : RouteHandler σ) : RouteTable σ :=
  match t.route path h with
  | .ok t => t
  | .error _ => t

/-- The handler of a path. -/
def handler? (t : RouteTable σ) (path : String) : Option (RouteHandler σ) :=
  t.routes.lookup (normalize path)

/-- Does a path have a handler? -/
def contains (t : RouteTable σ) (path : String) : Bool := (t.handler? path).isSome

/-- All paths, in order, with a slash before each. -/
def paths (t : RouteTable σ) : List String := t.routes.map fun r => "/" ++ r.1

/-- Runs the handler of a path on the state. -/
def dispatch (t : RouteTable σ) (path : String) (args : Args) (s : σ) :
    Except HostError Json × σ :=
  match t.handler? path with
  | some h => (h args).run.run s
  | none => (.error (RouteError.notFound path).toHostError, s)

end RouteTable

end Hostlink
