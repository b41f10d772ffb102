import Hostlink.Proofs.Text.Utf8
import Hostlink.Text.Base64

/-!
# What is written as base64 can be read back

* `Base64.value?_symbol` — a symbol tells its number;
* `Base64.decodeEnding_symbols` — the last group;
* `Base64.decode_encode` — **octets are read back**.
-/

namespace Hostlink.Base64

/-! ## Symbols -/

/-- The octet of the symbol of a number. -/
def octet (n : Nat) : UInt8 := UInt8.ofNat (symbol n).toNat

theorem value?_octet {n : Nat} (h : n < 64) : value? (octet n) = some n := by
  revert n
  decide

theorem octet_ne_pad {n : Nat} (h : n < 64) : octet n ≠ pad := by
  revert n
  decide

theorem symbol_ascii {n : Nat} (h : n < 64) : (symbol n).toNat < 128 := by
  revert n
  decide

theorem valueAt_octet {n : Nat} (h : n < 64) (offset : Nat) : valueAt offset (octet n) = .ok n := by
  rw [valueAt, value?_octet h]

/-! ## Octets of what is written -/

/-- The octets of what is written. -/
theorem octets_encode_cons (a b c : UInt8) (rest : List UInt8) :
    Utf8.octets (encode (a :: b :: c :: rest)) =
      octet (a.toNat / 4) :: octet (a.toNat % 4 * 16 + b.toNat / 16) ::
        octet (b.toNat % 16 * 4 + c.toNat / 64) :: octet (c.toNat % 64) :: Utf8.octets (encode rest) := by
  have ha := a.toNat_lt
  have hb := b.toNat_lt
  have hc := c.toNat_lt
  rw [encode, Utf8.octets_cons_of_ascii (symbol_ascii (by omega)), Utf8.octets_cons_of_ascii (symbol_ascii (by omega)),
    Utf8.octets_cons_of_ascii (symbol_ascii (by omega)), Utf8.octets_cons_of_ascii (symbol_ascii (by omega))]
  rfl

theorem octets_encode_one (a : UInt8) :
    Utf8.octets (encode [a]) = [octet (a.toNat / 4), octet (a.toNat % 4 * 16), pad, pad] := by
  have ha := a.toNat_lt
  rw [encode, Utf8.octets_cons_of_ascii (symbol_ascii (by omega)), Utf8.octets_cons_of_ascii (symbol_ascii (by omega))]
  rfl

theorem octets_encode_two (a b : UInt8) :
    Utf8.octets (encode [a, b]) =
      [octet (a.toNat / 4), octet (a.toNat % 4 * 16 + b.toNat / 16), octet (b.toNat % 16 * 4), pad] := by
  have ha := a.toNat_lt
  have hb := b.toNat_lt
  rw [encode, Utf8.octets_cons_of_ascii (symbol_ascii (by omega)), Utf8.octets_cons_of_ascii (symbol_ascii (by omega)),
    Utf8.octets_cons_of_ascii (symbol_ascii (by omega))]
  rfl

/-! ## Three octets from four symbols -/

theorem first_eq (a b : UInt8) : first (a.toNat / 4) (a.toNat % 4 * 16 + b.toNat / 16) = a := by
  have hb := b.toNat_lt
  have h : a.toNat / 4 * 4 + (a.toNat % 4 * 16 + b.toNat / 16) / 16 = a.toNat := by omega
  rw [first, h, UInt8.ofNat_toNat]

theorem second_eq (a b c : UInt8) :
    second (a.toNat % 4 * 16 + b.toNat / 16) (b.toNat % 16 * 4 + c.toNat / 64) = b := by
  have hb := b.toNat_lt
  have hc := c.toNat_lt
  have h : (a.toNat % 4 * 16 + b.toNat / 16) % 16 * 16 + (b.toNat % 16 * 4 + c.toNat / 64) / 4 = b.toNat := by
    omega
  rw [second, h, UInt8.ofNat_toNat]

theorem third_eq (b c : UInt8) : third (b.toNat % 16 * 4 + c.toNat / 64) (c.toNat % 64) = c := by
  have hc := c.toNat_lt
  have h : (b.toNat % 16 * 4 + c.toNat / 64) % 4 * 64 + c.toNat % 64 = c.toNat := by omega
  rw [third, h, UInt8.ofNat_toNat]

/-! ## The last group -/

/-- A symbol before all padding is one more number. -/
theorem readEnding_octet {n : Nat} (h : n < 64) (offset index : Nat) (values : List Nat) (last : UInt8)
    (rest : List UInt8) :
    readEnding offset index ⟨values, last, 0⟩ (octet n :: rest) =
      readEnding offset (index + 1) ⟨values ++ [n], octet n, 0⟩ rest := by
  rw [readEnding, if_neg (octet_ne_pad h), if_neg (Nat.lt_irrefl 0), valueAt_octet h]
  rfl

theorem readEnding_pad (offset index : Nat) (h : 2 ≤ index) (e : Ending) (rest : List UInt8) :
    readEnding offset index e (pad :: rest) = readEnding offset (index + 1) { e with pads := e.pads + 1 } rest := by
  rw [readEnding, if_pos rfl, if_neg (Nat.not_lt.mpr h)]

theorem decodeEnding_one (offset : Nat) (a : UInt8) :
    decodeEnding offset [octet (a.toNat / 4), octet (a.toNat % 4 * 16), pad, pad] = .ok [a] := by
  have ha := a.toNat_lt
  have hfirst : first (a.toNat / 4) (a.toNat % 4 * 16) = a := first_eq a 0
  have hlast : a.toNat % 4 * 16 % 16 = 0 := by omega
  rw [decodeEnding, readEnding_octet (by omega), readEnding_octet (by omega), readEnding_pad _ _ (by omega),
    readEnding_pad _ _ (by omega), readEnding]
  simp [bind, Except.bind, hfirst, hlast]

theorem decodeEnding_two (offset : Nat) (a b : UInt8) :
    decodeEnding offset
      [octet (a.toNat / 4), octet (a.toNat % 4 * 16 + b.toNat / 16), octet (b.toNat % 16 * 4), pad] =
        .ok [a, b] := by
  have ha := a.toNat_lt
  have hb := b.toNat_lt
  have hsecond : second (a.toNat % 4 * 16 + b.toNat / 16) (b.toNat % 16 * 4) = b := second_eq a b 0
  have hlast : b.toNat % 16 * 4 % 4 = 0 := by omega
  rw [decodeEnding, readEnding_octet (by omega), readEnding_octet (by omega), readEnding_octet (by omega),
    readEnding_pad _ _ (by omega), readEnding]
  simp [bind, Except.bind, first_eq, hsecond, hlast]

theorem decodeEnding_three (offset : Nat) (a b c : UInt8) :
    decodeEnding offset
      [octet (a.toNat / 4), octet (a.toNat % 4 * 16 + b.toNat / 16), octet (b.toNat % 16 * 4 + c.toNat / 64),
        octet (c.toNat % 64)] = .ok [a, b, c] := by
  have ha := a.toNat_lt
  have hb := b.toNat_lt
  have hc := c.toNat_lt
  rw [decodeEnding, readEnding_octet (by omega), readEnding_octet (by omega), readEnding_octet (by omega),
    readEnding_octet (by omega), readEnding]
  simp [bind, Except.bind, first_eq, second_eq, third_eq]

/-! ## Whole texts -/

/-- A group of four symbols is the last one if nothing follows. -/
theorem decodeFrom_four (offset : Nat) (v w x y : UInt8) :
    decodeFrom offset [v, w, x, y] = decodeEnding offset [v, w, x, y] := by
  rw [decodeFrom]
  exact fun _ _ _ _ _ _ h => by cases h

/-- A group that is followed by another one gives three octets. -/
theorem decodeFrom_cons (offset : Nat) (a b c : UInt8) {rest : List UInt8} (hrest : rest ≠ []) :
    decodeFrom offset
      (octet (a.toNat / 4) :: octet (a.toNat % 4 * 16 + b.toNat / 16) ::
        octet (b.toNat % 16 * 4 + c.toNat / 64) :: octet (c.toNat % 64) :: rest) =
      (decodeFrom (offset + 4) rest).map fun more => a :: b :: c :: more := by
  have ha := a.toNat_lt
  have hb := b.toNat_lt
  have hc := c.toNat_lt
  obtain ⟨d, rest, rfl⟩ := List.exists_cons_of_ne_nil hrest
  rw [decodeFrom, valueAt_octet (by omega), valueAt_octet (by omega), valueAt_octet (by omega),
    valueAt_octet (by omega)]
  simp only [bind, Except.bind, first_eq, second_eq, third_eq]
  cases decodeFrom (offset + 4) (d :: rest) <;> rfl

theorem decodeFrom_encode (offset : Nat) (bs : List UInt8) :
    decodeFrom offset (Utf8.octets (encode bs)) = .ok bs := by
  induction bs using encode.induct generalizing offset with
  | case1 => rfl
  | case2 a => rw [octets_encode_one, decodeFrom_four, decodeEnding_one]
  | case3 a b => rw [octets_encode_two, decodeFrom_four, decodeEnding_two]
  | case4 a b c rest ih =>
    rw [octets_encode_cons]
    by_cases hrest : rest = []
    · rw [hrest, encode, Utf8.octets_nil, decodeFrom_four, decodeEnding_three]
    · have hne : Utf8.octets (encode rest) ≠ [] := by
        intro hnil
        have h := ih 0
        rw [hnil] at h
        exact hrest (Except.ok.inj h).symm
      rw [decodeFrom_cons _ _ _ _ hne, ih]
      rfl

/-- Groups are filled up. -/
theorem four_dvd_length (bs : List UInt8) : 4 ∣ (Utf8.octets (encode bs)).length := by
  induction bs using encode.induct with
  | case1 => exact Nat.dvd_zero 4
  | case2 a => rw [octets_encode_one]; exact Nat.dvd_refl 4
  | case3 a b => rw [octets_encode_two]; exact Nat.dvd_refl 4
  | case4 a b c rest ih =>
    rw [octets_encode_cons]
    simp only [List.length_cons]
    omega

/-- **Octets are read back.** -/
theorem decode_encode (bs : List UInt8) : decode (Utf8.octets (encode bs)) = .ok bs := by
  have hlen := four_dvd_length bs
  rw [decode]
  split
  · rw [if_neg, decodeFrom_encode]
    omega
  · next h =>
    rw [List.getLast?_eq_none_iff] at h
    have hfrom := decodeFrom_encode 0 bs
    rw [h] at hfrom
    exact hfrom

end Hostlink.Base64
