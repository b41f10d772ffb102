import Hostlink.Number.Binary64

/-!
# Numbers of a JSON text

An integer literal in the range of 64-bit words, signed or unsigned, is an exact integer; every
other literal is a binary floating-point number. The two kinds are never equal: `1` is not `1.0`.

* `Number.ofLiteral` — the number of a literal, `none` beyond the finite range;
* `Number.text` — the literal that is written.
-/

namespace Hostlink.Json

/-- An exact integer, or a finite binary floating-point number. -/
inductive Number where
  | int (value : Int)
  | real (value : Binary64)
  deriving DecidableEq, Repr

namespace Number

/-! ## Reading -/

/-- A literal: `± digits · 10 ^ scale`, and whether it has a fraction or an exponent. -/
structure Literal where
  negative : Bool
  digits : Nat
  scale : Int
  /-- No fraction and no exponent. -/
  whole : Bool
  deriving DecidableEq, Repr

/-- The integers that stay exact, besides a negative zero. -/
def isExact (negative : Bool) (digits : Nat) : Bool :=
  if negative then 0 < digits && digits ≤ Nat.pow 2 63 else digits < Nat.pow 2 64

/-- The number of a literal; `none` if it is beyond the finite range. -/
def ofLiteral (l : Literal) : Option Number :=
  if l.whole && isExact l.negative l.digits then
    some (.int (if l.negative then -(l.digits : Int) else l.digits))
  else (Binary64.ofDecimal l.negative l.digits l.scale).map .real

/-- Is it zero, of either kind and sign? -/
def isZero : Number → Bool
  | .int n => n = 0
  | .real x => x.isZero

/-! ## Writing -/

/-- Drops trailing zeros from the digits of a decimal, within `fuel` steps. -/
def trimZeros : Nat → Binary64.Decimal → Binary64.Decimal
  | 0, d => d
  | fuel + 1, d =>
    if d.digits ≠ 0 ∧ d.digits % 10 = 0 then trimZeros fuel ⟨d.digits / 10, d.scale + 1⟩ else d

/-- Where positional notation is used: the decimal point stands after at most `most` digits, and
at most `least` zeros follow it before the first digit. -/
structure Layout where
  most : Int
  least : Int

/-- Positional up to sixteen digits before the point and four zeros after it. -/
def layout : Layout := ⟨16, 4⟩

/-- Digits with the decimal point after the first `point` of them. -/
def positional (digits : List Char) (point : Int) : List Char :=
  if point ≤ 0 then '0' :: '.' :: (List.replicate (-point).toNat '0' ++ digits)
  else if (digits.length : Int) ≤ point then
    digits ++ List.replicate (point.toNat - digits.length) '0' ++ ['.', '0']
  else digits.take point.toNat ++ '.' :: digits.drop point.toNat

/-- One digit before the point, and a signed exponent. -/
def scientific (digits : List Char) (point : Int) : List Char :=
  let mantissa := match digits with
    | [] => []
    | [d] => [d]
    | d :: rest => d :: '.' :: rest
  let e := point - 1
  mantissa ++ 'e' :: (if e < 0 then '-' else '+') :: Nat.toDigits 10 e.natAbs

/-- The text of a decimal, always with a point or an exponent. -/
def decimalText (d : Binary64.Decimal) : List Char :=
  let d := trimZeros 400 d
  let digits := Nat.toDigits 10 d.digits
  let point := digits.length + d.scale
  if -layout.least ≤ point ∧ point ≤ layout.most then positional digits point
  else scientific digits point

/-- The literal of a number. -/
def text : Number → List Char
  | .int n => (if n < 0 then ['-'] else []) ++ Nat.toDigits 10 n.natAbs
  | .real x => (if x.negative then ['-'] else []) ++ decimalText x.shortest

end Number

end Hostlink.Json
