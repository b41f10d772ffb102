import Hostlink.Json.Number

/-!
# JSON values

The members of an object stand in the order of their keys, each key once; of two members with one
key the later one counts. `Json.ofMembers` makes such an object of any list of pairs.

* `Json.Members.insert`, `Json.Members.erase`, `Json.Members.lookup` — objects as maps;
* `Json.Canonical` — every object inside a value is in order;
* `Json.depth` — how deep arrays and objects are nested.
-/

namespace Hostlink

/-- A JSON value. -/
inductive Json where
  | null
  | bool (b : Bool)
  | number (n : Json.Number)
  | string (s : String)
  | array (items : List Json)
  | object (members : List (String × Json))
  deriving Repr, Inhabited

namespace Json

/-! ## Equality -/

mutual

/-- Equality of values is decidable. -/
def decEq : (a b : Json) → Decidable (a = b)
  | .null, .null => isTrue rfl
  | .bool a, .bool b =>
    if h : a = b then isTrue (h ▸ rfl) else isFalse (fun e => h (by cases e; rfl))
  | .number a, .number b =>
    if h : a = b then isTrue (h ▸ rfl) else isFalse (fun e => h (by cases e; rfl))
  | .string a, .string b =>
    if h : a = b then isTrue (h ▸ rfl) else isFalse (fun e => h (by cases e; rfl))
  | .array a, .array b =>
    match decEqItems a b with
    | isTrue h => isTrue (h ▸ rfl)
    | isFalse h => isFalse (fun e => h (by cases e; rfl))
  | .object a, .object b =>
    match decEqMembers a b with
    | isTrue h => isTrue (h ▸ rfl)
    | isFalse h => isFalse (fun e => h (by cases e; rfl))
  | .null, .bool _ | .null, .number _ | .null, .string _ | .null, .array _ | .null, .object _
  | .bool _, .null | .bool _, .number _ | .bool _, .string _ | .bool _, .array _
  | .bool _, .object _
  | .number _, .null | .number _, .bool _ | .number _, .string _ | .number _, .array _
  | .number _, .object _
  | .string _, .null | .string _, .bool _ | .string _, .number _ | .string _, .array _
  | .string _, .object _
  | .array _, .null | .array _, .bool _ | .array _, .number _ | .array _, .string _
  | .array _, .object _
  | .object _, .null | .object _, .bool _ | .object _, .number _ | .object _, .string _
  | .object _, .array _ => isFalse (fun e => by cases e)

/-- Equality of lists of values. -/
def decEqItems : (a b : List Json) → Decidable (a = b)
  | [], [] => isTrue rfl
  | [], _ :: _ | _ :: _, [] => isFalse (fun e => by cases e)
  | a :: as, b :: bs =>
    match decEq a b, decEqItems as bs with
    | isTrue h, isTrue hs => isTrue (h ▸ hs ▸ rfl)
    | isFalse h, _ => isFalse (fun e => h (by cases e; rfl))
    | _, isFalse hs => isFalse (fun e => hs (by cases e; rfl))

/-- Equality of lists of members. -/
def decEqMembers : (a b : List (String × Json)) → Decidable (a = b)
  | [], [] => isTrue rfl
  | [], _ :: _ | _ :: _, [] => isFalse (fun e => by cases e)
  | (k, a) :: as, (l, b) :: bs =>
    if hk : k = l then
      match decEq a b, decEqMembers as bs with
      | isTrue h, isTrue hs => isTrue (hk ▸ h ▸ hs ▸ rfl)
      | isFalse h, _ => isFalse (fun e => h (by cases e; rfl))
      | _, isFalse hs => isFalse (fun e => hs (by cases e; rfl))
    else isFalse (fun e => hk (by cases e; rfl))

end

instance : DecidableEq Json := decEq

/-! ## Objects as maps -/

/-- The members of an object, ordered by key. -/
abbrev Members := List (String × Json)

namespace Members

/-- The value under a key. -/
def lookup (key : String) (ms : Members) : Option Json := List.lookup key ms

/-- Puts a value under a key, in place of any value there. -/
def insert (key : String) (value : Json) : Members → Members
  | [] => [(key, value)]
  | (k, v) :: rest =>
    if key < k then (key, value) :: (k, v) :: rest
    else if key = k then (key, value) :: rest
    else (k, v) :: insert key value rest

/-- Removes a key. -/
def erase (key : String) (ms : Members) : Members := ms.filter (·.1 ≠ key)

/-- The map of a list of pairs; the last pair of a key counts. -/
def ofList (pairs : List (String × Json)) : Members :=
  pairs.foldl (fun ms p => insert p.1 p.2 ms) []

/-- Overrides the first map by the second. -/
def union (ms others : Members) : Members :=
  others.foldl (fun ms p => insert p.1 p.2 ms) ms

/-- Keys ascend strictly. -/
def Ordered (ms : Members) : Prop := ms.Pairwise (·.1 < ·.1)

end Members

/-- The object of a list of pairs. -/
def ofMembers (pairs : List (String × Json)) : Json := .object (Members.ofList pairs)

/-- The value under a key of an object; `none` for any other value. -/
def get? (v : Json) (key : String) : Option Json :=
  match v with
  | .object ms => Members.lookup key ms
  | _ => none

/-- The text of a string. -/
def asString? : Json → Option String
  | .string s => some s
  | _ => none

/-- The truth value of a boolean. -/
def asBool? : Json → Option Bool
  | .bool b => some b
  | _ => none

/-- An integer. -/
def int (n : Int) : Json := .number (.int n)

/-! ## Truth -/

/-- A value counts as true unless it is `null`, `false`, zero or the empty text. -/
def isTruthy : Json → Bool
  | .null => false
  | .bool b => b
  | .number n => ! n.isZero
  | .string s => s ≠ ""
  | .array _ | .object _ => true

/-! ## Shape -/

mutual

/-- How deep arrays and objects are nested; a scalar has depth zero. -/
def depth : Json → Nat
  | .array items => depthItems items + 1
  | .object members => depthMembers members + 1
  | _ => 0

/-- The greatest depth in a list. -/
def depthItems : List Json → Nat
  | [] => 0
  | v :: rest => max (depth v) (depthItems rest)

/-- The greatest depth among members. -/
def depthMembers : List (String × Json) → Nat
  | [] => 0
  | (_, v) :: rest => max (depth v) (depthMembers rest)

end

mutual

/-- Every object inside is ordered by key. -/
def Canonical : Json → Prop
  | .array items => CanonicalItems items
  | .object members => Members.Ordered members ∧ CanonicalMembers members
  | _ => True

/-- Every value of a list is canonical. -/
def CanonicalItems : List Json → Prop
  | [] => True
  | v :: rest => Canonical v ∧ CanonicalItems rest

/-- Every value of a list of members is canonical. -/
def CanonicalMembers : List (String × Json) → Prop
  | [] => True
  | (_, v) :: rest => Canonical v ∧ CanonicalMembers rest

end

end Json

end Hostlink
