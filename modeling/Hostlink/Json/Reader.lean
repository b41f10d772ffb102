import Hostlink.Json.Fault
import Hostlink.Text.Utf8

/-!
# Reading the words of JSON

A `Reader` takes a `Cursor`, the octets still to be read and the place they begin, and gives a
result with the cursor behind it, or a fault with its place. This module reads what lies between
values and what makes up a scalar:

* `Reader.skipSpace`, `Reader.word` — blanks and the words `null`, `true`, `false`;
* `Reader.stringBody` — a string after its opening quote;
* `Reader.literal`, `Reader.number` — a number;
* `Reader.enterList`, `Reader.nextItem`, `Reader.nextKey` — the punctuation of arrays and objects.
-/

namespace Hostlink.Json

/-- Octets still to be read, and the place of the first of them. -/
structure Cursor where
  pos : Position
  rest : List UInt8
  deriving DecidableEq, Repr

namespace Cursor

/-- The start of a text. -/
def start (octets : List UInt8) : Cursor := ⟨⟨1, 0⟩, octets⟩

/-- One octet further; at the end it stays. -/
def step (c : Cursor) : Cursor :=
  match c.rest with
  | [] => c
  | b :: rest => ⟨c.pos.next b, rest⟩

/-- Blank, tabulator, line feed, carriage return. -/
def isSpace (b : UInt8) : Bool := b = 32 || b = 9 || b = 10 || b = 13

/-- Passes blanks before `rest`, which begins at `pos`. -/
def passSpace (pos : Position) : List UInt8 → Cursor
  | [] => ⟨pos, []⟩
  | b :: rest => if isSpace b then passSpace (pos.next b) rest else ⟨pos, b :: rest⟩

/-- Passes blanks. -/
def skipSpace (c : Cursor) : Cursor := passSpace c.pos c.rest

end Cursor

/-- Reads a result off a cursor. -/
abbrev Reader (α : Type) := StateT Cursor (Except Fault) α

namespace Reader

/-- A problem with what has just been read. -/
def failHere {α : Type} (p : Problem) : Reader α :=
  fun c => .error ⟨p, some c.pos⟩

/-- A problem with the next octet. -/
def failNext {α : Type} (p : Problem) : Reader α :=
  fun c => .error ⟨p, some c.step.pos⟩

/-- The next octet, not passed; `none` at the end. -/
def peek : Reader (Option UInt8) := fun c => .ok (c.rest.head?, c)

/-- Passes one octet. -/
def advance : Reader Unit := fun c => .ok ((), c.step)

/-- Passes blanks. -/
def skipSpace : Reader Unit := fun c => .ok ((), c.skipSpace)

/-- The octets still to be read. -/
def remaining : Reader Nat := fun c => .ok (c.rest.length, c)

/-- Passes blanks and looks at the next octet. -/
def peekToken : Reader (Option UInt8) := do
  skipSpace
  peek

/-! ## Words -/

/-- The rest of a word whose first letter has been passed. -/
def word : List UInt8 → Reader Unit
  | [] => pure ()
  | b :: rest => do
    match ← peek with
    | none => failHere .endInValue
    | some a =>
      if a = b then do
        advance
        word rest
      else failNext .expectedWord

/-- `ull`, after `n`. -/
def ull : List UInt8 := [117, 108, 108]

/-- `rue`, after `t`. -/
def rue : List UInt8 := [114, 117, 101]

/-- `alse`, after `f`. -/
def alse : List UInt8 := [97, 108, 115, 101]

/-! ## Strings -/

/-- The value of a hexadecimal digit. -/
def hexValue? (b : UInt8) : Option Nat :=
  if 48 ≤ b && b ≤ 57 then some (b.toNat - 48)
  else if 65 ≤ b && b ≤ 70 then some (b.toNat - 55)
  else if 97 ≤ b && b ≤ 102 then some (b.toNat - 87)
  else none

/-- The value of four hexadecimal digits. -/
def hexQuad? (a b c d : UInt8) : Option Nat := do
  let a ← hexValue? a
  let b ← hexValue? b
  let c ← hexValue? c
  let d ← hexValue? d
  some (((a * 16 + b) * 16 + c) * 16 + d)

/-- Four hexadecimal digits. -/
def hexEscape : Reader Nat := fun c =>
  match c.rest with
  | a :: b :: d :: e :: _ =>
    let after := c.step.step.step.step
    match hexQuad? a b d e with
    | some n => .ok (n, after)
    | none => .error ⟨.invalidEscape, some after.pos⟩
  | _ => .error ⟨.endInString, some (c.rest.foldl Position.next c.pos)⟩

/-- The next octet inside a string, passed. -/
def stringOctet : Reader UInt8 := fun c =>
  match c.rest with
  | [] => .error ⟨.endInString, some c.pos⟩
  | b :: _ => .ok (b, c.step)

/-- The next octet has to be `b`, for a pair of escapes to go on. -/
def continuePair (b : UInt8) : Reader Unit := do
  match ← peek with
  | none => failHere .endInString
  | some a => if a = b then advance else failNext .unfinishedSurrogate

/-- The character of an escape by number, after its `u`. Above the first plane it is a pair of
escapes. -/
def unicodeEscape : Reader Char := do
  let high ← hexEscape
  if 0xDC00 ≤ high ∧ high ≤ 0xDFFF then failHere .loneSurrogate
  else if high < 0xD800 ∨ 0xDBFF < high then pure (Char.ofNat high)
  else do
    continuePair 92
    continuePair 117
    let low ← hexEscape
    if 0xDC00 ≤ low ∧ low ≤ 0xDFFF then
      pure (Char.ofNat (0x10000 + (high - 0xD800) * 0x400 + (low - 0xDC00)))
    else failHere .loneSurrogate

/-- The octet that a letter after a backslash stands for. -/
def simpleEscape? (b : UInt8) : Option UInt8 :=
  if b = 34 ∨ b = 92 ∨ b = 47 then some b
  else if b = 98 then some 8
  else if b = 102 then some 12
  else if b = 110 then some 10
  else if b = 114 then some 13
  else if b = 116 then some 9
  else none

/-- The octets of an escape, after its backslash. -/
def escape : Reader (List UInt8) := do
  let b ← stringOctet
  match simpleEscape? b with
  | some e => pure [e]
  | none =>
    if b = 117 then do
      let c ← unicodeEscape
      pure (String.utf8EncodeChar c)
    else failHere .invalidEscape

/-- The octets of a string up to its closing quote; `reversed` is what has been read of them. -/
def stringFrom : Nat → List UInt8 → Reader (List UInt8)
  | 0, _ => failHere .endInString
  | fuel + 1, reversed => do
    let b ← stringOctet
    if b = 34 then pure reversed.reverse
    else if b = 92 then do
      let e ← escape
      stringFrom fuel (e.reverse ++ reversed)
    else if b < 32 then failHere .controlCharacter
    else stringFrom fuel (b :: reversed)

/-- A string after its opening quote. If its octets are no text, the place is that of the first
broken character: escapes are sound, so that is also the first one that is broken as written. -/
def stringBody : Reader String := fun c => do
  let (octets, after) ← stringFrom (c.rest.length + 1) [] c
  match Utf8.decode octets with
  | .ok s => .ok (s, after)
  | .error _ =>
    let index := ((Utf8.firstFault 0 0 c.rest).map Utf8.Fault.index).getD 0
    .error ⟨.invalidCodePoint, some ⟨c.pos.line, c.pos.column + index + 1⟩⟩

/-- Passes an escape that nobody reads. -/
def skipEscape : Reader Unit := do
  let b ← stringOctet
  if (simpleEscape? b).isSome then pure ()
  else if b = 117 then do
    let _ ← hexEscape
    pure ()
  else failHere .invalidEscape

/-- Passes a string that nobody reads, up to its closing quote. -/
def skipStringFrom : Nat → Reader Unit
  | 0 => failHere .endInString
  | fuel + 1 => do
    match ← peek with
    | none => failHere .endInString
    | some b =>
      if b = 34 then advance
      else if b = 92 then do
        advance
        skipEscape
        skipStringFrom fuel
      else if b < 32 then failHere .controlCharacter
      else do
        advance
        skipStringFrom fuel

/-- Passes a string that nobody reads, after its opening quote. -/
def skipString : Reader Unit := do
  let n ← remaining
  skipStringFrom (n + 1)

/-! ## Numbers -/

/-- A decimal digit. -/
def isDigit (b : UInt8) : Bool := 48 ≤ b && b ≤ 57

/-- The digits at the start of `rest`, and the cursor behind them. -/
def spanDigits (pos : Position) : List UInt8 → List UInt8 × Cursor
  | [] => ([], ⟨pos, []⟩)
  | b :: rest =>
    if isDigit b then
      let (ds, c) := spanDigits (pos.next b) rest
      (b :: ds, c)
    else ([], ⟨pos, b :: rest⟩)

/-- Passes digits. -/
def digits : Reader (List UInt8) := fun c => .ok (spanDigits c.pos c.rest)

/-- The number that digits spell. -/
def digitsValue (ds : List UInt8) : Nat := ds.foldl (fun n b => n * 10 + (b.toNat - 48)) 0

/-- The digits before the point: one zero, or digits that begin with no zero. -/
def wholeDigits (atEnd : Problem) : Reader (List UInt8) := do
  match ← peek with
  | none => failHere atEnd
  | some b =>
    if b = 48 then do
      advance
      match ← peek with
      | some d => if isDigit d then failNext .invalidNumber else pure [b]
      | none => pure [b]
    else if isDigit b then digits
    else failNext .invalidNumber

/-- The digits after a point, if there is one. -/
def fractionDigits (atEnd : Problem) : Reader (Option (List UInt8)) := do
  match ← peek with
  | some 46 => do
    advance
    let ds ← digits
    if ds.isEmpty then
      match ← peek with
      | some _ => failNext .invalidNumber
      | none => failNext atEnd
    else pure (some ds)
  | _ => pure none

/-- Exponents are counted up to this number. -/
def exponentLimit : Nat := Nat.pow 2 31 - 1

/-- After how many digits an exponent passes the limit, if it does. -/
def overflowAfter (value count : Nat) : List UInt8 → Option Nat
  | [] => none
  | b :: rest =>
    let value := value * 10 + (b.toNat - 48)
    if exponentLimit < value then some (count + 1) else overflowAfter value (count + 1) rest

/-- An exponent, and the place where it passes the limit, if it does. -/
structure Exponent where
  value : Int
  overflow : Option Position

/-- The exponent, if there is one. -/
def exponent (atEnd : Problem) : Reader (Option Exponent) := do
  match ← peek with
  | some b =>
    if b = 101 ∨ b = 69 then do
      advance
      let sign ← peek
      if sign = some 43 ∨ sign = some 45 then advance
      match ← peek with
      | none => failHere atEnd
      | some d =>
        if isDigit d then fun c => do
          let (ds, after) := spanDigits c.pos c.rest
          let n : Int := min (digitsValue ds) (exponentLimit + 1)
          let overflow := (overflowAfter 0 0 ds).map fun k => ⟨c.pos.line, c.pos.column + k⟩
          .ok (some ⟨if sign = some 45 then -n else n, overflow⟩, after)
        else failNext .invalidNumber
    else pure none
  | none => pure none

/-- The literal after the sign of a number, and where its exponent passes the limit. A text that
ends inside it has the problem `atEnd`. -/
def literal (atEnd : Problem) (negative : Bool) :
    Reader (Number.Literal × Option Position) := do
  let whole ← wholeDigits atEnd
  let fraction ← fractionDigits atEnd
  let e ← exponent atEnd
  let after := fraction.getD []
  let scale := ((e.map (·.value)).getD 0 : Int) - after.length
  pure (⟨negative, digitsValue (whole ++ after), scale, fraction.isNone && e.isNone⟩,
    e.bind (·.overflow))

/-- The number after its sign. -/
def number (negative : Bool) : Reader Number := do
  let (l, overflow) ← literal .endInValue negative
  match Number.ofLiteral l with
  | some n => pure n
  | none => fun c => .error ⟨.numberOutOfRange, some (overflow.getD c.pos)⟩

/-! ## Punctuation -/

/-- Opens an array or object where `room` more levels may be opened; the room inside. -/
def enter (room : Nat) : Reader Nat :=
  match room with
  | 0 => failNext .tooDeep
  | inside + 1 => do
    advance
    pure inside

/-- Is there another item of a list, and has its comma been passed? -/
def nextItem (first : Bool) : Reader Bool := do
  match ← peekToken with
  | none => failNext .endInList
  | some b =>
    if b = 93 then pure false
    else if first then pure true
    else if b = 44 then do
      advance
      match ← peekToken with
      | some 93 => failNext .trailingComma
      | some _ => pure true
      | none => failNext .endInValue
    else failNext .expectedListEnd

/-- The key of another member of an object, if there is one. -/
def nextKey (first : Bool) : Reader (Option String) := do
  match ← peekToken with
  | none => failNext .endInObject
  | some b =>
    if b = 125 then pure none
    else if first then
      if b = 34 then do
        advance
        some <$> stringBody
      else failNext .keyNotString
    else if b = 44 then do
      advance
      match ← peekToken with
      | some 34 => do
        advance
        some <$> stringBody
      | some 125 => failNext .trailingComma
      | some _ => failNext .keyNotString
      | none => failNext .endInValue
    else failNext .expectedObjectEnd

/-- The colon between a key and its value. -/
def colon : Reader Unit := do
  match ← peekToken with
  | some 58 => advance
  | some _ => failNext .expectedColon
  | none => failNext .endInObject

/-- Looks for the end of a list. The cursor is where the search ended, with the fault if the list
does not end there. -/
def tryEndList (c : Cursor) : Option Fault × Cursor :=
  let c := c.skipSpace
  match c.rest with
  | [] => (some ⟨.endInList, some c.step.pos⟩, c)
  | 93 :: _ => (none, c.step)
  | 44 :: _ =>
    let c := c.step.skipSpace
    match c.rest with
    | 93 :: _ => (some ⟨.trailingComma, some c.step.pos⟩, c)
    | _ => (some ⟨.trailingCharacters, some c.step.pos⟩, c)
  | _ :: _ => (some ⟨.trailingCharacters, some c.step.pos⟩, c)

/-- Looks for the end of an object, as `tryEndList` does for a list. -/
def tryEndObject (c : Cursor) : Option Fault × Cursor :=
  let c := c.skipSpace
  match c.rest with
  | [] => (some ⟨.endInObject, some c.step.pos⟩, c)
  | 125 :: _ => (none, c.step)
  | 44 :: _ => (some ⟨.trailingComma, some c.step.pos⟩, c)
  | _ :: _ => (some ⟨.trailingCharacters, some c.step.pos⟩, c)

/-- Ends a list or object: a problem met inside is placed where the search for the end ended, and
comes before a fault of the end. -/
def close {α : Type} (tryEnd : Cursor → Option Fault × Cursor) (met : Except Problem α) :
    Reader α := fun c =>
  match met, tryEnd c with
  | .error p, (_, after) => .error ⟨p, some after.pos⟩
  | .ok _, (some fault, _) => .error fault
  | .ok a, (none, after) => .ok (a, after)

/-- Nothing but blanks is left. -/
def finish : Reader Unit := do
  match ← peekToken with
  | some _ => failNext .trailingCharacters
  | none => pure ()

end Reader

end Hostlink.Json
