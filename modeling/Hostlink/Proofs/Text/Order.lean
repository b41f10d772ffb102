import Hostlink.Proofs.Text.Utf8
import Mathlib.Tactic.SplitIfs

/-!
# Texts in the order of their octets

Texts are ordered by their characters, character by character. Their octets are in the same order, since
the first octet tells the size of a character, and a larger character has larger digits or more of them.

* `Utf8.encodeChar_lt` — one character;
* `Utf8.encode_lt_iff` — **whole texts**.
-/

namespace Hostlink.Utf8

/-! ## Octets as numbers -/

theorem ofNat_lt_iff {m n : Nat} (hm : m < 256) (hn : n < 256) : UInt8.ofNat m < UInt8.ofNat n ↔ m < n := by
  rw [UInt8.lt_iff_toNat_lt, UInt8.toNat_ofNat', UInt8.toNat_ofNat', Nat.mod_eq_of_lt hm, Nat.mod_eq_of_lt hn]

theorem ofNat_inj {m n : Nat} (hm : m < 256) (hn : n < 256) : UInt8.ofNat m = UInt8.ofNat n ↔ m = n := by
  rw [← UInt8.toNat_inj, UInt8.toNat_ofNat', UInt8.toNat_ofNat', Nat.mod_eq_of_lt hm, Nat.mod_eq_of_lt hn]

/-! ## Characters -/

theorem val_lt (c : Char) : c.val.toNat < 0x110000 := by
  rcases c.valid with h | h
  · omega
  · exact h.2

/-- Of two numbers with up to four digits to the base 64, the smaller has the smaller digits. -/
theorem digits_lt {m n : Nat} (h : m < n) :
    m / 262144 < n / 262144 ∨ m / 262144 = n / 262144 ∧ (m / 4096 % 64 < n / 4096 % 64 ∨
      m / 4096 % 64 = n / 4096 % 64 ∧ (m / 64 % 64 < n / 64 % 64 ∨
        m / 64 % 64 = n / 64 % 64 ∧ m % 64 < n % 64)) := by
  have hstep : ∀ {m n : Nat}, m < n → m / 64 < n / 64 ∨ m / 64 = n / 64 ∧ m % 64 < n % 64 := by
    intro m n h
    omega
  have hdiv : ∀ k : Nat, k / 4096 = k / 64 / 64 ∧ k / 262144 = k / 64 / 64 / 64 := by
    intro k
    omega
  rw [(hdiv m).1, (hdiv m).2, (hdiv n).1, (hdiv n).2]
  rcases hstep h with h | ⟨heq, hlast⟩
  · rcases hstep h with h | ⟨heq, hlast⟩
    · rcases hstep h with h | ⟨heq, hlast⟩
      · exact .inl h
      · exact .inr ⟨heq, .inl hlast⟩
    · exact .inr ⟨by rw [heq], .inr ⟨by rw [heq], .inl hlast⟩⟩
  · exact .inr ⟨by rw [heq], .inr ⟨by rw [heq], .inr ⟨by rw [heq], hlast⟩⟩⟩

/-- A smaller character has smaller octets, whatever follows. -/
theorem encodeChar_lt {c d : Char} (h : c < d) (xs ys : List UInt8) :
    String.utf8EncodeChar c ++ xs < String.utf8EncodeChar d ++ ys := by
  have hlt : c.val.toNat < d.val.toNat := h
  have hc := val_lt c
  have hd := val_lt d
  have hdigits := digits_lt hlt
  have hfirst : ∀ n : Nat, n < 0x110000 → n / 262144 % 8 = n / 262144 := fun n hn =>
    Nat.mod_eq_of_lt (by omega)
  have hcfirst := hfirst _ hc
  have hdfirst := hfirst _ hd
  simp only [String.utf8EncodeChar]
  split_ifs
  all_goals
    simp (disch := omega) only [List.cons_append, List.nil_append, List.cons_lt_cons_iff, ofNat_lt_iff, ofNat_inj]
    omega

/-! ## Texts -/

theorem octets_lt {cs ds : List Char} (h : cs < ds) : octets cs < octets ds := by
  induction h with
  | @nil d ds =>
    have hne : String.utf8EncodeChar d ≠ [] := String.utf8EncodeChar_ne_nil
    obtain ⟨x, xs, hx⟩ := List.exists_cons_of_ne_nil hne
    rw [octets_cons, hx]
    exact List.Lex.nil
  | rel h =>
    rw [octets_cons, octets_cons]
    exact encodeChar_lt h _ _
  | cons _ ih =>
    rw [octets_cons, octets_cons]
    exact List.append_left_lt ih

/-- **Texts are in the order of their octets.** -/
theorem encode_lt_iff {s t : String} : encode s < encode t ↔ s < t := by
  rw [encode_eq, encode_eq]
  refine ⟨fun h => ?_, octets_lt⟩
  show s.toList < t.toList
  by_cases hlt : s.toList < t.toList
  · exact hlt
  · rcases Std.le_iff_lt_or_eq.mp (Std.not_lt.mp hlt) with hgt | heq
    · exact absurd (octets_lt hgt) (Std.not_gt_of_lt h)
    · rw [heq] at h
      exact absurd h Std.lt_irrefl

end Hostlink.Utf8
