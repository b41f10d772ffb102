import Hostlink.Json.Parser

/-!
# Typed values in JSON

A `Format α` decodes values of a type both from a JSON value and from a text. The two differ in
what they can say of a fault: a text gives it a place, and reads no further than the first one.

* `Format.text`, `Format.flag`, `Format.natural`, `Format.json` — scalars and arbitrary values;
* `Format.optional`, `Format.choice` — a value or `null`; one of several names;
* `Record`, `Record.format` — a record, written as an object or as the list of its fields.
-/

namespace Hostlink.Json

/-- How values of a type are decoded. `read room` may open `room` levels. -/
structure Format (α : Type) where
  ofJson : Json → Except Problem α
  read : Nat → Reader α

namespace Reader

/-- Reads a value that begins with `b` and is not of the expected type. -/
def mismatch {α : Type} (b : UInt8) (expected : String) : Reader α := do
  if b = 110 then do
    advance
    word ull
    failHere (.wrongType .null expected)
  else if b = 116 then do
    advance
    word rue
    failHere (.wrongType (.bool true) expected)
  else if b = 102 then do
    advance
    word alse
    failHere (.wrongType (.bool false) expected)
  else if b = 45 then do
    advance
    let n ← number true
    failHere (.wrongType (.of (.number n)) expected)
  else if isDigit b then do
    let n ← number false
    failHere (.wrongType (.of (.number n)) expected)
  else if b = 34 then do
    advance
    let s ← stringBody
    failHere (.wrongType (.text s) expected)
  else if b = 91 then failHere (.wrongType .list expected)
  else if b = 123 then failHere (.wrongType .map expected)
  else failNext .expectedValue

/-- The first octet of a value, not passed. -/
def valueStart : Reader UInt8 := do
  match ← peekToken with
  | some b => pure b
  | none => failNext .endInValue

/-- A string where `expected` is expected. -/
def string (expected : String) : Reader String := do
  let b ← valueStart
  if b = 34 then do
    advance
    stringBody
  else mismatch b expected

/-- The value `null`. -/
def unit : Reader Unit := do
  let b ← valueStart
  if b = 110 then do
    advance
    word ull
  else mismatch b "unit"

/-- The outcome of a decoder, a problem placed behind what has been read. -/
def ofExcept {α : Type} : Except Problem α → Reader α
  | .ok a => pure a
  | .error p => failHere p

end Reader

namespace Format

open Reader

/-! ## Scalars -/

/-- Any value. -/
def json : Format Json := ⟨.ok, value⟩

/-- A text. -/
def text : Format String where
  ofJson
    | .string s => .ok s
    | v => .error (.wrongType (.of v) "a string")
  read _ := Reader.string "a string"

/-- A truth value. -/
def flag : Format Bool where
  ofJson
    | .bool b => .ok b
    | v => .error (.wrongType (.of v) "a boolean")
  read _ := do
    let b ← valueStart
    if b = 116 then do
      advance
      word rue
      pure true
    else if b = 102 then do
      advance
      word alse
      pure false
    else mismatch b "a boolean"

/-- A number as a natural one of 64 bits. -/
def naturalOf : Number → Except Problem Nat
  | .int n => if 0 ≤ n then .ok n.toNat else .error (.wrongValue (.integer n) "u64")
  | .real x => .error (.wrongType (.real x) "u64")

/-- A natural number of 64 bits. -/
def natural : Format Nat where
  ofJson
    | .number n => naturalOf n
    | v => .error (.wrongType (.of v) "u64")
  read _ := do
    let b ← valueStart
    if b = 45 then do
      advance
      let n ← Reader.number true
      ofExcept (naturalOf n)
    else if isDigit b then do
      let n ← Reader.number false
      ofExcept (naturalOf n)
    else mismatch b "u64"

/-! ## Alternatives -/

/-- A value, or `null` for none. -/
def optional {α : Type} (f : Format α) : Format (Option α) where
  ofJson
    | .null => .ok none
    | v => some <$> f.ofJson v
  read room := do
    match ← peekToken with
    | some 110 => do
      advance
      word ull
      pure none
    | _ => some <$> f.read room

/-- The choice of a name. -/
def choiceOf {α : Type} (table : List (String × α)) (name : String) : Except Problem α :=
  match table.lookup name with
  | some a => .ok a
  | none => .error (.unknownChoice name (table.map (·.1)))

/-- One of several names; also written as an object whose only member has that name and the value
`null`. -/
def choice {α : Type} (table : List (String × α)) : Format α where
  ofJson
    | .string s => choiceOf table s
    | .object [(name, v)] => do
      let a ← choiceOf table name
      if v = .null then .ok a else .error (.wrongType (.of v) "unit")
    | .object _ => .error (.wrongValue .map "map with a single key")
    | v => .error (.wrongType (.of v) "string or map")
  read room := do
    let b ← valueStart
    if b = 123 then do
      let _ ← enter room
      let name ← Reader.string "variant identifier"
      let a ← ofExcept (choiceOf table name)
      colon
      unit
      match ← peekToken with
      | some 125 => do
        advance
        pure a
      | some _ => failHere .expectedValue
      | none => failHere .endInObject
    else if b = 34 then do
      advance
      let name ← stringBody
      ofExcept (choiceOf table name)
    else failNext .expectedValue

/-- The items of a list up to its end. -/
def readItems {α : Type} (f : Format α) (room : Nat) (first : Bool) : Nat → Reader (List α)
  | 0 => failNext .endInList
  | fuel + 1 => do
    if ← nextItem first then do
      let a ← f.read room
      let rest ← readItems f room false fuel
      pure (a :: rest)
    else pure []

/-- A list of values. -/
def listOf {α : Type} (f : Format α) : Format (List α) where
  ofJson
    | .array items => items.mapM f.ofJson
    | v => .error (.wrongType (.of v) "a sequence")
  read room := do
    let b ← valueStart
    if b = 91 then do
      let inside ← enter room
      let n ← remaining
      let items ← readItems f inside true (n + 1)
      close tryEndList (.ok items)
    else mismatch b "a sequence"

/-! ## Whole values -/

/-- Decodes a text. -/
def parse {α : Type} (f : Format α) (s : String) : Except Fault α :=
  (f.read maxDepth).run (Utf8.encode s)

/-- Decodes a value. -/
def decode {α : Type} (f : Format α) (v : Json) : Except Fault α :=
  match f.ofJson v with
  | .ok a => .ok a
  | .error p => .error ⟨p, none⟩

end Format

/-! ## Records -/

/-- A field of a record: its name, whether it has to be there, and how it is put into a record. -/
structure Field (ρ : Type) where
  name : String
  required : Bool
  ofJson : Json → ρ → Except Problem ρ
  read : Nat → ρ → Reader ρ

/-- A field that has to be there. -/
def Field.needed {ρ α : Type} (name : String) (f : Format α) (put : α → ρ → ρ) : Field ρ :=
  ⟨name, true, fun v x => (put · x) <$> f.ofJson v, fun room x => (put · x) <$> f.read room⟩

/-- A field that keeps what the blank record has if it is missing. -/
def Field.withDefault {ρ α : Type} (name : String) (f : Format α) (put : α → ρ → ρ) : Field ρ :=
  ⟨name, false, fun v x => (put · x) <$> f.ofJson v, fun room x => (put · x) <$> f.read room⟩

/-- The form of a record. -/
structure Record (ρ : Type) where
  /-- The name in messages. -/
  title : String
  /-- The record before any field is put into it. -/
  blank : ρ
  fields : List (Field ρ)
  /-- Where members of other names go, if they are kept. A record that keeps them is not written as
  a list. -/
  extra : Option (String → Json → ρ → ρ)

namespace Record

variable {ρ : Type} (r : Record ρ)

/-- What a message expects. -/
def expected : String := s!"struct {r.title}"

/-- What a message expects of a list. -/
def expectedList : String := s!"struct {r.title} with {r.fields.length} elements"

/-- The field of a name. -/
def field? (name : String) : Option (Field ρ) := r.fields.find? (·.name = name)

/-- A record under construction. -/
structure Draft (ρ : Type) where
  /-- Names of the fields that have been put in. -/
  seen : List String
  record : ρ

/-- The start of a record. -/
def draft : Draft ρ := ⟨[], r.blank⟩

/-- A member that is no field. -/
def putExtra (key : String) (v : Json) (x : ρ) : ρ :=
  match r.extra with
  | some put => put key v x
  | none => x

/-- Puts a member into a record. -/
def putMember (d : Draft ρ) (m : String × Json) : Except Problem (Draft ρ) :=
  match r.field? m.1 with
  | some f =>
    if m.1 ∈ d.seen then .error (.duplicateField m.1)
    else do
      let x ← f.ofJson m.2 d.record
      .ok ⟨m.1 :: d.seen, x⟩
  | none => .ok ⟨d.seen, r.putExtra m.1 m.2 d.record⟩

/-- The record, once all members are in. -/
def complete (d : Draft ρ) : Except Problem ρ :=
  match r.fields.find? (fun f => f.required && ! d.seen.contains f.name) with
  | some f => .error (.missingField f.name)
  | none => .ok d.record

/-- The record of members. -/
def ofMembers (ms : List (String × Json)) : Except Problem ρ := do
  let d ← ms.foldlM r.putMember r.draft
  r.complete d

/-- The record of a list of the remaining fields; `index` fields have been read. -/
def ofItemsFrom (x : ρ) (index : Nat) : List (Field ρ) → List Json → Except Problem ρ
  | [], [] => .ok x
  | [], rest => .error (.wrongLength (index + rest.length) "fewer elements in array")
  | f :: fields, [] =>
    if f.required then .error (.wrongLength index r.expectedList)
    else ofItemsFrom x (index + 1) fields []
  | f :: fields, v :: rest => do
    let x ← f.ofJson v x
    ofItemsFrom x (index + 1) fields rest

/-- The record of a value. -/
def ofJson : Json → Except Problem ρ
  | .object ms => r.ofMembers ms
  | .array items =>
    if r.extra.isNone then r.ofItemsFrom r.blank 0 r.fields items
    else .error (.wrongType .list r.expected)
  | v => .error (.wrongType (.of v) r.expected)

open Reader

/-- Reads members up to the end of the object. -/
def readMembersFrom (room : Nat) (first : Bool) (d : Draft ρ) : Nat → Reader (Except Problem ρ)
  | 0 => failNext .endInObject
  | fuel + 1 => do
    match ← nextKey first with
    | none => pure (r.complete d)
    | some key =>
      match r.field? key with
      | some f =>
        if key ∈ d.seen then pure (.error (.duplicateField key))
        else do
          colon
          let x ← f.read room d.record
          readMembersFrom room false ⟨key :: d.seen, x⟩ fuel
      | none => do
        colon
        if r.extra.isSome then do
          let v ← value room
          readMembersFrom room false ⟨d.seen, r.putExtra key v d.record⟩ fuel
        else do
          skipValue
          readMembersFrom room false d fuel

/-- Reads the remaining fields as items of a list; `index` fields have been read. -/
def readItemsFrom (room : Nat) (x : ρ) (index : Nat) (more : Bool) :
    List (Field ρ) → Reader (Except Problem ρ)
  | [] => pure (.ok x)
  | f :: fields => do
    if more then
      if ← nextItem (index = 0) then do
        let x ← f.read room x
        readItemsFrom room x (index + 1) true fields
      else if f.required then pure (.error (.wrongLength index r.expectedList))
      else readItemsFrom room x (index + 1) false fields
    else if f.required then pure (.error (.wrongLength index r.expectedList))
    else readItemsFrom room x (index + 1) false fields

/-- Reads a record. -/
def read (room : Nat) : Reader ρ := do
  let b ← valueStart
  if b = 123 then do
    let inside ← enter room
    let n ← remaining
    let met ← r.readMembersFrom inside true r.draft (n + 1)
    close tryEndObject met
  else if b = 91 ∧ r.extra.isNone then do
    let inside ← enter room
    let met ← r.readItemsFrom inside r.blank 0 true r.fields
    close tryEndList met
  else mismatch b r.expected

/-- A record as a format. -/
def format : Format ρ := ⟨r.ofJson, r.read⟩

end Record

end Hostlink.Json
