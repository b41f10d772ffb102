import Hostlink.Json.Reader

/-!
# Reading JSON values

* `Reader.value` — a value, in which arrays and objects may be nested `room` deep;
* `Reader.skipValue` — passes a value that nobody reads; only its punctuation counts;
* `Json.parse`, `Json.parseText` — a whole text, nested at most `maxDepth` deep.
-/

namespace Hostlink.Json

namespace Reader

mutual

/-- A value. -/
def valueFrom (room : Nat) : Nat → Reader Json
  | 0 => failNext .endInValue
  | fuel + 1 => do
    match ← peekToken with
    | none => failNext .endInValue
    | some b =>
      if b = 110 then do
        advance
        word ull
        pure .null
      else if b = 116 then do
        advance
        word rue
        pure (.bool true)
      else if b = 102 then do
        advance
        word alse
        pure (.bool false)
      else if b = 45 then do
        advance
        .number <$> number true
      else if isDigit b then .number <$> number false
      else if b = 34 then do
        advance
        .string <$> stringBody
      else if b = 91 then do
        let inside ← enter room
        let items ← itemsFrom inside true fuel
        close tryEndList (.ok (.array items))
      else if b = 123 then do
        let inside ← enter room
        let members ← membersFrom inside true fuel
        close tryEndObject (.ok (.object (Members.ofList members)))
      else failNext .expectedValue

/-- The items of a list up to its end. -/
def itemsFrom (room : Nat) (first : Bool) : Nat → Reader (List Json)
  | 0 => failNext .endInList
  | fuel + 1 => do
    if ← nextItem first then do
      let v ← valueFrom room fuel
      let rest ← itemsFrom room false fuel
      pure (v :: rest)
    else pure []

/-- The members of an object up to its end, as they are written. -/
def membersFrom (room : Nat) (first : Bool) : Nat → Reader (List (String × Json))
  | 0 => failNext .endInObject
  | fuel + 1 => do
    match ← nextKey first with
    | none => pure []
    | some key => do
      colon
      let v ← valueFrom room fuel
      let rest ← membersFrom room false fuel
      pure ((key, v) :: rest)

end

/-- A value, in which `room` levels may be opened. -/
def value (room : Nat) : Reader Json := do
  let n ← remaining
  valueFrom room (2 * n + 2)

/-! ## Values that nobody reads -/

mutual

/-- Passes a value. -/
def skipValueFrom : Nat → Reader Unit
  | 0 => failNext .endInValue
  | fuel + 1 => do
    match ← peekToken with
    | none => failNext .endInValue
    | some b =>
      if b = 110 then do
        advance
        word ull
      else if b = 116 then do
        advance
        word rue
      else if b = 102 then do
        advance
        word alse
      else if b = 45 then do
        advance
        let _ ← literal .invalidNumber true
        pure ()
      else if isDigit b then do
        let _ ← literal .invalidNumber false
        pure ()
      else if b = 34 then do
        advance
        skipString
      else if b = 91 then do
        advance
        skipItemsFrom true fuel
      else if b = 123 then do
        advance
        skipMembersFrom true fuel
      else failNext .expectedValue

/-- Passes the items of a list and its end. -/
def skipItemsFrom (first : Bool) : Nat → Reader Unit
  | 0 => failNext .endInList
  | fuel + 1 => do
    match ← peekToken with
    | none => failNext .endInList
    | some b =>
      if b = 93 then advance
      else if first then do
        skipValueFrom fuel
        skipItemsFrom false fuel
      else if b = 44 then do
        advance
        skipValueFrom fuel
        skipItemsFrom false fuel
      else failNext .expectedListEnd

/-- Passes the members of an object and its end. -/
def skipMembersFrom (first : Bool) : Nat → Reader Unit
  | 0 => failNext .endInObject
  | fuel + 1 => do
    match ← peekToken with
    | none => failNext .endInObject
    | some b =>
      if b = 125 then advance
      else do
        if ¬ first then
          if b = 44 then advance else failNext .expectedObjectEnd
        match ← peekToken with
        | none => failNext .endInObject
        | some 34 => do
          advance
          skipString
          colon
          skipValueFrom fuel
          skipMembersFrom false fuel
        | some _ => failNext .keyNotString

end

/-- Passes a value that nobody reads. -/
def skipValue : Reader Unit := do
  let n ← remaining
  skipValueFrom (2 * n + 2)

end Reader

/-! ## Whole texts -/

/-- How deep a text may nest arrays and objects. -/
def maxDepth : Nat := 127

/-- Reads a whole text. -/
def Reader.run {α : Type} (r : Reader α) (octets : List UInt8) : Except Fault α :=
  match (do let a ← r; Reader.finish; pure a : Reader α) (Cursor.start octets) with
  | .ok (a, _) => .ok a
  | .error fault => .error fault

/-- The value of a text, given by its octets. -/
def parse (octets : List UInt8) : Except Fault Json := (Reader.value maxDepth).run octets

/-- The value of a text. -/
def parseText (s : String) : Except Fault Json := parse (Utf8.encode s)

end Hostlink.Json
