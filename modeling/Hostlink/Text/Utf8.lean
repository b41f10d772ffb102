/-!
# UTF-8 — texts and octets

* `Utf8.encode` — the octets of a text;
* `Utf8.decode` — the text of well-formed octets, or the first fault in them;
* `decode_encode` — decoding gives back every encoded text;
* `Utf8.isBoundary`, `Utf8.goBack?` — places between characters, and the way back to one.

A fault names the first octet that no text can hold there, and how many octets belong to the
broken character: the longest start of a character that is still possible.
-/

namespace Hostlink.Utf8

/-- Why octets are not the encoding of a text. -/
inductive Fault where
  /-- `length` octets from `index` begin no character. -/
  | malformed (length index : Nat)
  /-- The octets end inside the character that begins at `index`. -/
  | incomplete (index : Nat)
  deriving DecidableEq, Repr

/-- The wording of a fault. -/
def Fault.message : Fault → String
  | .malformed n i => s!"invalid utf-8 sequence of {n} bytes from index {i}"
  | .incomplete i => s!"incomplete utf-8 byte sequence from index {i}"

/-- Where the broken character begins. -/
def Fault.index : Fault → Nat
  | .malformed _ i => i
  | .incomplete i => i

/-- The octets of a text. -/
def encode (s : String) : List UInt8 := s.toUTF8.data.toList

/-! ## Faults -/

/-- A continuation octet. -/
def isTail (b : UInt8) : Bool := 0x80 ≤ b && b ≤ 0xBF

/-- How many octets a character with first octet `a` has, and the range of its second octet;
`none` if no character begins with `a`. -/
def shape? (a : UInt8) : Option (Nat × UInt8 × UInt8) :=
  if a ≤ 0x7F then some (1, 0, 0)
  else if 0xC2 ≤ a && a ≤ 0xDF then some (2, 0x80, 0xBF)
  else if a = 0xE0 then some (3, 0xA0, 0xBF)
  else if a = 0xED then some (3, 0x80, 0x9F)
  else if 0xE1 ≤ a && a ≤ 0xEF then some (3, 0x80, 0xBF)
  else if a = 0xF0 then some (4, 0x90, 0xBF)
  else if 0xF1 ≤ a && a ≤ 0xF3 then some (4, 0x80, 0xBF)
  else if a = 0xF4 then some (4, 0x80, 0x8F)
  else none

/-- Looks for `need` more continuation octets after `seen` octets of the character at `index`. -/
def faultInTail (index : Nat) : Nat → Nat → List UInt8 → Option Fault
  | _, 0, _ => none
  | _, _ + 1, [] => some (.incomplete index)
  | seen, need + 1, b :: rest =>
    if isTail b then faultInTail index (seen + 1) need rest else some (.malformed seen index)

/-- The fault of the character that starts with `a` at `index`, if it has one. -/
def faultAt (index : Nat) (a : UInt8) (rest : List UInt8) : Option Fault :=
  match shape? a with
  | none => some (.malformed 1 index)
  | some (size, low, high) =>
    if size = 1 then none
    else match rest with
      | [] => some (.incomplete index)
      | b :: rest =>
        if low ≤ b && b ≤ high then faultInTail index 2 (size - 2) rest
        else some (.malformed 1 index)

/-- The first fault from `index` on; `skip` octets of a sound character are still to be passed. -/
def firstFault (index skip : Nat) : List UInt8 → Option Fault
  | [] => none
  | b :: rest =>
    match skip with
    | skip + 1 => firstFault (index + 1) skip rest
    | 0 =>
      match faultAt index b rest with
      | some fault => some fault
      | none => firstFault (index + 1) (((shape? b).map (·.1)).getD 1 - 1) rest

/-! ## Decoding -/

/-- The text that octets encode. -/
def decode (octets : List UInt8) : Except Fault String :=
  match String.fromUTF8? ⟨octets.toArray⟩ with
  | some s => .ok s
  | none => .error ((firstFault 0 0 octets).getD (.malformed 1 0))

theorem decode_encode (s : String) : decode (encode s) = .ok s := by
  have h : String.fromUTF8? s.toByteArray = some s := by
    unfold String.fromUTF8?
    rw [dif_pos s.isValidUTF8]
    rfl
  simp [decode, encode, h]

/-! ## Places between characters -/

/-- Is a place between octets a place between characters? Behind it there is nothing, or an octet that continues
no character. -/
def isBoundary (octets : List UInt8) (place : Nat) : Bool :=
  place = 0 || place = octets.length || octets[place]?.any (! isTail ·)

/-- Goes back from a place, octet by octet, to one between characters; `none` if the way goes on before the first
octet. -/
def goBack? (octets : List UInt8) : Nat → Option Nat
  | 0 => if isBoundary octets 0 then some 0 else none
  | place + 1 => if isBoundary octets (place + 1) then some (place + 1) else goBack? octets place

end Hostlink.Utf8
