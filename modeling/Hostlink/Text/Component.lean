import Hostlink.Text.Utf8

/-!
# Percent coding of query components

* `Percent.encodeOctet` — a text whose octets outside a kept set are written `%` and two
  upper-case hexadecimal digits;
* `Percent.decode` — every well-formed triplet back to its octet, all else left alone;
* `Component.encode`, `Component.decode` — the coding of query keys and values, which keeps only
  letters, digits and nine marks.
-/

namespace Hostlink

namespace Percent

/-- The upper-case hexadecimal digit of a number below 16. -/
def hexDigit (n : Nat) : Char :=
  Char.ofNat (if n < 10 then 48 + n else 55 + n)

/-- The value of an octet that is a hexadecimal digit of either case. -/
def hexValue? (b : UInt8) : Option Nat :=
  if 48 ≤ b && b ≤ 57 then some (b.toNat - 48)
  else if 65 ≤ b && b ≤ 70 then some (b.toNat - 55)
  else if 97 ≤ b && b ≤ 102 then some (b.toNat - 87)
  else none

/-- One octet: itself if it is kept, else its triplet. -/
def encodeOctet (keep : UInt8 → Bool) (b : UInt8) : List Char :=
  if keep b then [Char.ofNat b.toNat] else ['%', hexDigit (b.toNat / 16), hexDigit (b.toNat % 16)]

/-- The octets of a text, written with triplets outside `keep`. -/
def encodeOctets (keep : UInt8 → Bool) (octets : List UInt8) : List Char :=
  octets.flatMap (encodeOctet keep)

/-- Replaces each `%` with two hexadecimal digits by the octet they name. -/
def decode : List UInt8 → List UInt8
  | [] => []
  | [a] => [a]
  | [a, b] => [a, b]
  | a :: b :: c :: rest =>
    if a = 37 then
      match hexValue? b, hexValue? c with
      | some high, some low => UInt8.ofNat (16 * high + low) :: decode rest
      | _, _ => a :: decode (b :: c :: rest)
    else a :: decode (b :: c :: rest)

end Percent

namespace Component

/-- Letters, digits and the marks `-_.!~*'()`. -/
def isKept (b : UInt8) : Bool :=
  (48 ≤ b && b ≤ 57) || (65 ≤ b && b ≤ 90) || (97 ≤ b && b ≤ 122) ||
    "-_.!~*'()".toList.any (·.toNat = b.toNat)

/-- The component form of a text. -/
def encode (s : String) : String :=
  String.ofList (Percent.encodeOctets isKept (Utf8.encode s))

/-- The text of a component; triplets that spell no text are refused. -/
def decode (s : String) : Except Utf8.Fault String :=
  Utf8.decode (Percent.decode (Utf8.encode s))

end Component

end Hostlink
