/-!
# Finite binary floating-point numbers of 64 bits

A number is `± significand · 2 ^ exponent`, in the one canonical form that the format stores.

* `Binary64.ofDecimal` — the nearest number to `± digits · 10 ^ scale`, ties to the even
  significand; `none` beyond the largest finite number;
* `Binary64.shortest` — the fewest decimal digits that read back, the nearest of those, ties to
  the even digit.

Both compute in exact integers.
-/

namespace Hostlink

/-- A finite number: `± significand · 2 ^ exponent` with `significand < 2 ^ 53`, and
`2 ^ 52 ≤ significand` unless `exponent = -1074`. -/
structure Binary64 where
  negative : Bool
  significand : Nat
  exponent : Int
  deriving DecidableEq, Repr

namespace Binary64

/-- The least exponent. -/
def minExponent : Int := -1074

/-- The greatest exponent. -/
def maxExponent : Int := 971

/-- Zero of either sign. -/
def zero (negative : Bool) : Binary64 := ⟨negative, 0, minExponent⟩

/-- Zeros of both signs are zero. -/
def isZero (x : Binary64) : Bool := x.significand = 0

/-! ## Rounding -/

/-- `num / den` to the nearest integer, a tie to the even one. -/
def roundHalfEven (num den : Nat) : Nat :=
  let q := num / den
  let r := num % den
  if 2 * r < den then q
  else if den < 2 * r then q + 1
  else if q % 2 = 0 then q else q + 1

/-- Numerator and denominator of `num / den / 2 ^ e`. -/
def shiftDown (num den : Nat) (e : Int) : Nat × Nat :=
  if 0 ≤ e then (num, den * Nat.pow 2 e.toNat) else (num * Nat.pow 2 (-e).toNat, den)

/-- The exponent at which `num / den` has a 53-bit significand, or the least exponent. -/
def exponentOf (num den : Nat) : Int :=
  let e := max minExponent ((num.log2 : Int) - den.log2 - 53)
  let (n, d) := shiftDown num den e
  if Nat.pow 2 53 ≤ n / d then e + 1 else e

/-- The nearest number to `± num / den`, if it is finite. -/
def ofRatio (negative : Bool) (num den : Nat) : Option Binary64 :=
  if num = 0 then some (zero negative)
  else
    let e := exponentOf num den
    let (n, d) := shiftDown num den e
    let m := roundHalfEven n d
    let (m, e) := if m = Nat.pow 2 53 then (Nat.pow 2 52, e + 1) else (m, e)
    if maxExponent < e then none else some ⟨negative, m, e⟩

/-- How many decimal digits a number has; zero has one. -/
def digitCount (n : Nat) : Nat := (Nat.toDigits 10 n).length

/-- The nearest number to `± digits · 10 ^ scale`, if it is finite. -/
def ofDecimal (negative : Bool) (digits : Nat) (scale : Int) : Option Binary64 :=
  if digits = 0 then some (zero negative)
  else if 310 < scale + digitCount digits then none
  else if scale + digitCount digits < -330 then some (zero negative)
  else if 0 ≤ scale then ofRatio negative (digits * Nat.pow 10 scale.toNat) 1
  else ofRatio negative digits (Nat.pow 10 (-scale).toNat)

/-! ## Shortest digits -/

/-- Digits and scale: `digits · 10 ^ scale`. -/
structure Decimal where
  digits : Nat
  scale : Int
  deriving DecidableEq, Repr

/-- The reals that round to a number, over the denominator `den`, with the number itself. -/
structure Neighbourhood where
  low : Nat
  value : Nat
  high : Nat
  den : Nat
  /-- Whether the two ends round to the number too. -/
  closed : Bool

/-- The neighbourhood of a nonzero number. Below a power of two the gap is half as wide. -/
def neighbourhood (x : Binary64) : Neighbourhood :=
  let m := x.significand
  let below := if m = Nat.pow 2 52 ∧ minExponent < x.exponent then 1 else 2
  let e := x.exponent - 2
  let unit := if 0 ≤ e then Nat.pow 2 e.toNat else 1
  let den := if 0 ≤ e then 1 else Nat.pow 2 (-e).toNat
  ⟨(4 * m - below) * unit, 4 * m * unit, (4 * m + 2) * unit, den, m % 2 = 0⟩

/-- `num / den < 10 ^ p`. -/
def ltPow10 (num den : Nat) (p : Int) : Bool :=
  if 0 ≤ p then num < den * Nat.pow 10 p.toNat else num * Nat.pow 10 (-p).toNat < den

/-- The least exponent from `p` on, within `fuel` steps, whose power of ten exceeds `num / den`. -/
def magnitudeFrom (num den : Nat) : Nat → Int → Int
  | 0, p => p
  | fuel + 1, p => if ltPow10 num den p then p else magnitudeFrom num den fuel (p + 1)

/-- The least `p` with `num / den < 10 ^ p`; the binary logarithm is close to it. -/
def magnitude (num den : Nat) : Int :=
  magnitudeFrom num den 8 (((num.log2 : Int) - den.log2) * 1233 / 4096 - 2)

/-- Is `digits · 10 ^ scale` in the neighbourhood? -/
def Neighbourhood.contains (n : Neighbourhood) (d : Decimal) : Bool :=
  let num := if 0 ≤ d.scale then d.digits * Nat.pow 10 d.scale.toNat * n.den else d.digits * n.den
  let unit := if 0 ≤ d.scale then 1 else Nat.pow 10 (-d.scale).toNat
  if n.closed then n.low * unit ≤ num && num ≤ n.high * unit
  else n.low * unit < num && num < n.high * unit

/-- The point of the grid of scale `scale` that is nearest to the number among its two neighbours,
if one of them is in the neighbourhood. -/
def Neighbourhood.onGrid? (n : Neighbourhood) (scale : Int) : Option Decimal :=
  let num := if 0 ≤ scale then n.value else n.value * Nat.pow 10 (-scale).toNat
  let den := if 0 ≤ scale then n.den * Nat.pow 10 scale.toNat else n.den
  let q := num / den
  let near := roundHalfEven num den
  let far := if near = q then q + 1 else q
  if n.contains ⟨near, scale⟩ then some ⟨near, scale⟩
  else if n.contains ⟨far, scale⟩ then some ⟨far, scale⟩
  else none

/-- The first grid with a hit, from the one of `count` digits on. -/
def Neighbourhood.search (n : Neighbourhood) (p : Int) : Nat → Nat → Decimal
  | 0, count => ⟨n.value * Nat.pow 10 count, p - count⟩
  | fuel + 1, count =>
    match n.onGrid? (p - count) with
    | some d => d
    | none => n.search p fuel (count + 1)

/-- The fewest digits that read back as the number without its sign; zero is one digit. -/
def shortest (x : Binary64) : Decimal :=
  if x.significand = 0 then ⟨0, 0⟩
  else
    let n := x.neighbourhood
    n.search (magnitude n.value n.den) 18 1

end Binary64

end Hostlink
