/-!
# Base64 — octets as a text of 64 symbols

* `Base64.encode` — three octets as four symbols, the last group padded with `=`;
* `Base64.decode` — the reverse. It is strict: padding is required, stands only at the end, and
  no bit is set that the octets do not need. Each refusal names the first offence.
-/

namespace Hostlink.Base64

/-- Why a text is not base64. -/
inductive Fault where
  /-- `symbol` is outside the alphabet, or is padding where none may stand. -/
  | symbol (symbol : UInt8) (offset : Nat)
  /-- The last symbol sets bits that no octet takes. -/
  | lastSymbol (symbol : UInt8) (offset : Nat)
  /-- No text of this many symbols is base64. -/
  | length (size : Nat)
  /-- The last group is not filled up to four symbols. -/
  | padding
  deriving DecidableEq, Repr

/-- The wording of a fault. -/
def Fault.message : Fault → String
  | .symbol b i => s!"Invalid symbol {b.toNat}, offset {i}."
  | .lastSymbol b i => s!"Invalid last symbol {b.toNat}, offset {i}."
  | .length n => s!"Invalid input length: {n}"
  | .padding => "Invalid padding"

/-! ## Symbols -/

/-- The symbol of a number below 64. -/
def symbol (n : Nat) : Char :=
  if n < 26 then Char.ofNat (65 + n)
  else if n < 52 then Char.ofNat (71 + n)
  else if n < 62 then Char.ofNat (n - 4)
  else if n = 62 then '+' else '/'

/-- The number of a symbol. -/
def value? (b : UInt8) : Option Nat :=
  if 65 ≤ b && b ≤ 90 then some (b.toNat - 65)
  else if 97 ≤ b && b ≤ 122 then some (b.toNat - 71)
  else if 48 ≤ b && b ≤ 57 then some (b.toNat + 4)
  else if b = 43 then some 62
  else if b = 47 then some 63
  else none

/-- The octet of `=`. -/
def pad : UInt8 := 61

/-! ## Encoding -/

/-- Three octets a group, from the left. -/
def encode : List UInt8 → List Char
  | [] => []
  | [a] => [symbol (a.toNat / 4), symbol (a.toNat % 4 * 16), '=', '=']
  | [a, b] =>
    [symbol (a.toNat / 4), symbol (a.toNat % 4 * 16 + b.toNat / 16), symbol (b.toNat % 16 * 4), '=']
  | a :: b :: c :: rest =>
    symbol (a.toNat / 4) :: symbol (a.toNat % 4 * 16 + b.toNat / 16) ::
      symbol (b.toNat % 16 * 4 + c.toNat / 64) :: symbol (c.toNat % 64) :: encode rest

/-! ## Decoding -/

/-- The number of the symbol at `offset`. -/
def valueAt (offset : Nat) (b : UInt8) : Except Fault Nat :=
  match value? b with
  | some n => .ok n
  | none => .error (.symbol b offset)

/-- The first octet of two symbols. -/
def first (v w : Nat) : UInt8 := UInt8.ofNat (v * 4 + w / 16)

/-- The second octet, of the second and third symbol. -/
def second (w x : Nat) : UInt8 := UInt8.ofNat (w % 16 * 16 + x / 4)

/-- The third octet, of the third and fourth symbol. -/
def third (x y : Nat) : UInt8 := UInt8.ofNat (x % 4 * 64 + y)

/-- What has been read of the last group. -/
structure Ending where
  /-- Numbers of its symbols. -/
  values : List Nat
  /-- The last of them. -/
  last : UInt8
  /-- How many `=` followed. -/
  pads : Nat

/-- Reads the last group, of which the first `index` places have been read. Padding may stand from
the third place on, and only padding after it. -/
def readEnding (offset index : Nat) (e : Ending) : List UInt8 → Except Fault Ending
  | [] => .ok e
  | b :: rest =>
    if b = pad then
      if index < 2 then .error (.symbol b (offset + index))
      else readEnding offset (index + 1) { e with pads := e.pads + 1 } rest
    else if 0 < e.pads then .error (.symbol pad (offset + index - e.pads))
    else do
      let v ← valueAt (offset + index) b
      readEnding offset (index + 1) { e with values := e.values ++ [v], last := b } rest

/-- The octets of the last group, which begins at `offset`. -/
def decodeEnding (offset : Nat) (group : List UInt8) : Except Fault (List UInt8) := do
  let e ← readEnding offset 0 ⟨[], 0, 0⟩ group
  let filled := (e.pads + e.values.length) % 4 = 0
  match e.values with
  | [] => if group.isEmpty then .ok [] else .error (.length offset)
  | [_] => .error (.length (offset + 1))
  | [v, w] =>
    if ¬ filled then .error .padding
    else if w % 16 ≠ 0 then .error (.lastSymbol e.last (offset + 1))
    else .ok [first v w]
  | [v, w, x] =>
    if ¬ filled then .error .padding
    else if x % 4 ≠ 0 then .error (.lastSymbol e.last (offset + 2))
    else .ok [first v w, second w x]
  | v :: w :: x :: y :: _ => .ok [first v w, second w x, third x y]

/-- Decodes from `offset` on; every group but the last has four symbols. -/
def decodeFrom (offset : Nat) : List UInt8 → Except Fault (List UInt8)
  | a :: b :: c :: d :: e :: rest => do
    let v ← valueAt offset a
    let w ← valueAt (offset + 1) b
    let x ← valueAt (offset + 2) c
    let y ← valueAt (offset + 3) d
    let more ← decodeFrom (offset + 4) (e :: rest)
    .ok (first v w :: second w x :: third x y :: more)
  | group => decodeEnding offset group

/-- The octets of a base64 text, given by its own octets. A last symbol that stands alone in its
group is looked at first. -/
def decode (octets : List UInt8) : Except Fault (List UInt8) :=
  match octets.getLast? with
  | some b =>
    if octets.length % 4 = 1 ∧ b ≠ pad ∧ value? b = none then
      .error (.symbol b (octets.length - 1))
    else decodeFrom 0 octets
  | none => .ok []

end Hostlink.Base64
