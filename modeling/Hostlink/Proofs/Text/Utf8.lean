import Hostlink.Text.Utf8

/-!
# The octets of characters

* `Utf8.octets` — the octets of a list of characters, one character after the other;
* `Utf8.octets_of_ascii` — each of the first 128 characters is one octet;
* `Utf8.le_of_mem_encodeChar` — no octet of another character looks like one of these.
-/

namespace Hostlink.Utf8

/-- The octets of characters. -/
def octets (cs : List Char) : List UInt8 := cs.flatMap String.utf8EncodeChar

@[simp] theorem octets_nil : octets [] = [] := rfl

theorem octets_cons (c : Char) (cs : List Char) : octets (c :: cs) = String.utf8EncodeChar c ++ octets cs :=
  List.flatMap_cons

@[simp] theorem octets_append (cs ds : List Char) : octets (cs ++ ds) = octets cs ++ octets ds :=
  List.flatMap_append

theorem encode_ofList (cs : List Char) : encode (String.ofList cs) = octets cs := by
  rw [encode, String.toUTF8, String.toByteArray_ofList, List.utf8Encode]
  simp [octets]

theorem encode_eq (s : String) : encode s = octets s.toList := by
  rw [← encode_ofList, String.ofList_toList]

theorem decode_octets (cs : List Char) : decode (octets cs) = .ok (String.ofList cs) := by
  rw [← encode_ofList, decode_encode]

/-! ## The first 128 characters -/

theorem toNat_ofNat {n : Nat} (h : n < 128) : (Char.ofNat n).toNat = n := by
  revert n
  decide

theorem encodeChar_of_ascii {c : Char} (h : c.toNat < 128) :
    String.utf8EncodeChar c = [UInt8.ofNat c.toNat] := by
  have h' : c.val.toNat ≤ 0x7f := Nat.le_of_lt_succ h
  rw [String.utf8EncodeChar, if_pos h']
  rfl

/-- The octets of other characters are all above the first 128. -/
theorem le_of_mem_encodeChar {c : Char} (h : 128 ≤ c.toNat) {b : UInt8}
    (hb : b ∈ String.utf8EncodeChar c) : 128 ≤ b := by
  have key : ∀ n, 128 ≤ n → n < 256 → 128 ≤ UInt8.ofNat n := fun n hlow hhigh => by
    rw [UInt8.le_iff_toNat_le, UInt8.toNat_ofNat', Nat.mod_eq_of_lt hhigh]
    exact hlow
  have h' : ¬ c.val.toNat ≤ 0x7f := Nat.not_le.mpr h
  rw [String.utf8EncodeChar, if_neg h'] at hb
  split at hb
  · simp only [List.mem_cons, List.not_mem_nil, or_false] at hb
    rcases hb with rfl | rfl <;> exact key _ (by omega) (by omega)
  · split at hb
    · simp only [List.mem_cons, List.not_mem_nil, or_false] at hb
      rcases hb with rfl | rfl | rfl <;> exact key _ (by omega) (by omega)
    · simp only [List.mem_cons, List.not_mem_nil, or_false] at hb
      rcases hb with rfl | rfl | rfl | rfl <;> exact key _ (by omega) (by omega)

theorem octets_cons_of_ascii {c : Char} (h : c.toNat < 128) (cs : List Char) :
    octets (c :: cs) = UInt8.ofNat c.toNat :: octets cs := by
  rw [octets_cons, encodeChar_of_ascii h]
  rfl

theorem octets_of_ascii {cs : List Char} (h : ∀ c ∈ cs, c.toNat < 128) :
    octets cs = cs.map fun c => UInt8.ofNat c.toNat := by
  induction cs with
  | nil => rfl
  | cons c cs ih =>
    rw [octets_cons_of_ascii (h c List.mem_cons_self), ih fun c hc => h c (List.mem_cons_of_mem _ hc),
      List.map_cons]

end Hostlink.Utf8
