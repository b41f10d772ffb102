/-!
# The document of a page

As much of a page's document as requests by script need: a tree of elements, of which scripts have
a source. A script loads its source when it is put into the tree.

* `Document.walk` — the elements of the tree, each before its children;
* `Document.insertBefore`, `Document.append`, `Document.remove` — changes of the tree;
* `Document.loads` — the sources that have been loaded and that nobody has taken.

Elements are numbered as they are made, and the number of one that was removed is not used again.
-/

namespace Hostlink

/-- The number of an element. -/
abbrev Element := Nat

/-- What an element is. -/
inductive Tag where
  | page
  | head
  | body
  | script (src : String)
  deriving DecidableEq, Repr

/-- An element, with its place in the tree. -/
structure Node where
  tag : Tag
  parent : Option Element
  children : List Element
  deriving DecidableEq, Repr

/-- A document. -/
structure Document where
  nodes : List (Element × Node)
  /-- The number of the next element. -/
  next : Element
  head : Option Element
  body : Element
  /-- Sources that have been loaded, oldest first. -/
  loads : List String
  deriving DecidableEq, Repr

namespace Document

/-- The element that holds all others. -/
def root : Element := 0

variable (d : Document)

/-- An element, if it exists. -/
def node? (e : Element) : Option Node := d.nodes.lookup e

/-- The source of a script. -/
def src? (e : Element) : Option String :=
  match d.node? e with
  | some ⟨.script src, _, _⟩ => some src
  | _ => none

/-- Changes an element. -/
def update (e : Element) (f : Node → Node) : Document :=
  { d with nodes := d.nodes.map fun p => if p.1 = e then (p.1, f p.2) else p }

/-- A new element outside the tree. -/
def create (tag : Tag) : Element × Document :=
  (d.next, { d with nodes := d.nodes ++ [(d.next, ⟨tag, none, []⟩)], next := d.next + 1 })

/-- Puts an element among the children of another, at a place or at the end. -/
def attach (parent child : Element) (place : Option Nat) : Document :=
  (d.update child fun n => { n with parent := some parent }).update parent fun n =>
    { n with children := match place with
      | some i => n.children.take i ++ child :: n.children.drop i
      | none => n.children ++ [child] }

/-! ## The tree -/

/-- The element and those below it, each before its children, `depth` levels deep. -/
def walkFrom : Nat → Element → List Element
  | 0, e => [e]
  | depth + 1, e =>
    match d.node? e with
    | some n => e :: n.children.flatMap (walkFrom depth)
    | none => [e]

/-- An element and those below it. No branch is longer than there are elements. -/
def below (e : Element) : List Element := d.walkFrom d.nodes.length e

/-- The elements of the tree, each before its children. -/
def walk : List Element := d.below root

/-- Does a chain of parents of at most `depth` steps lead from an element to the root? -/
def reachesRoot : Nat → Element → Bool
  | 0, e => e = root
  | depth + 1, e =>
    e = root ||
      match (d.node? e).bind (·.parent) with
      | some parent => reachesRoot depth parent
      | none => false

/-- Is an element in the tree? -/
def isConnected (e : Element) : Bool := d.reachesRoot (d.nodes.length + 1) e

/-- Sources of the scripts in the tree, in order. -/
def scriptSrcs : List String := d.walk.filterMap d.src?

/-- How many scripts there are, in the tree or outside. -/
def scriptCount : Nat := (d.nodes.filter fun p => (d.src? p.1).isSome).length

/-- The first script of the tree. -/
def firstScript : Option Element := d.walk.find? fun e => (d.src? e).isSome

/-! ## Changes -/

/-- An element loads its source if it is in the tree and has one. -/
def load (e : Element) : Document :=
  if d.isConnected e then { d with loads := d.loads ++ (d.src? e).toList } else d

/-- A new script outside the tree. -/
def createScript (src : String) : Element × Document := d.create (.script src)

/-- A script of the page itself, at the end of the body. It has been loaded before. -/
def addPageScript (src : String) : Element × Document :=
  let (e, d) := d.create (.script src)
  (e, d.attach d.body e none)

/-- Puts an element before another, if that has a place. -/
def insertBefore (e reference : Element) : Bool × Document :=
  match (d.node? reference).bind (·.parent) with
  | none => (false, d)
  | some parent =>
    match (d.node? parent).bind (·.children.idxOf? reference) with
    | none => (false, d)
    | some i => (true, (d.attach parent e (some i)).load e)

/-- Puts an element at the end of another's children, if that exists. -/
def append (parent e : Element) : Bool × Document :=
  if (d.node? parent).isSome then (true, (d.attach parent e none).load e) else (false, d)

/-- Takes out an element other than the root, with all below it. -/
def remove (e : Element) : Document :=
  if e = root then d
  else
    match d.node? e with
    | none => d
    | some n =>
      let gone := d.below e
      let nodes := d.nodes.filter (! gone.contains ·.1)
      match n.parent with
      | some parent =>
        { d with nodes := nodes }.update parent fun n =>
          { n with children := n.children.filter (· ≠ e) }
      | none => { d with nodes := nodes }

/-- The sources that have been loaded are taken. -/
def takeLoads : List String × Document := (d.loads, { d with loads := [] })

/-! ## New documents -/

/-- A page with a body and, if asked for, a head. -/
def build (withHead : Bool) : Document :=
  let (_, d) := (⟨[], 0, none, 0, []⟩ : Document).create .page
  let d := if withHead then
      let (head, d) := d.create .head
      { d.attach root head none with head := some head }
    else d
  let (body, d) := d.create .body
  { d.attach root body none with body := body }

/-- A page with head and body. -/
def new : Document := build true

/-- A page without a head. -/
def withoutHead : Document := build false

end Document

end Hostlink
