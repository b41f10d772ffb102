import Hostlink.Json.Basic

/-!
# Arguments of a request

Arguments are named, in the order they were given, or are a list without names. Named arguments
also count by position, so that a layout without names can carry them.
-/

namespace Hostlink

/-- The arguments of a request. -/
inductive Args where
  | none
  | named (pairs : List (String × Json))
  | positional (values : List Json)
  deriving DecidableEq, Repr, Inhabited

namespace Args

/-- The arguments that a value stands for: `null` for none, an object for named ones, an array for
a list, and any other value for a list of one. -/
def ofJson : Json → Args
  | .null => .none
  | .object members => .named members
  | .array items => .positional items
  | v => .positional [v]

/-- The values, in order. -/
def values : Args → List Json
  | .none => []
  | .named pairs => pairs.map (·.2)
  | .positional vs => vs

/-- How many arguments there are. -/
def size (a : Args) : Nat := a.values.length

/-- Are there none? -/
def isEmpty (a : Args) : Bool := a.values.isEmpty

/-- The first argument of a name. -/
def get? (a : Args) (key : String) : Option Json :=
  match a with
  | .named pairs => pairs.lookup key
  | _ => Option.none

/-- The argument at a position. -/
def at? (a : Args) (index : Nat) : Option Json := a.values[index]?

/-- The argument of a name, or at a position if there are no names. -/
def find? (a : Args) (key : String) (index : Nat) : Option Json :=
  match a with
  | .positional _ => a.at? index
  | _ => a.get? key

/-- Named arguments as an object, others as an array. -/
def toJson : Args → Json
  | .none => .object []
  | .named pairs => Json.ofMembers pairs
  | .positional vs => .array vs

end Args

end Hostlink
