import Hostlink.Proofs.Text.Utf8

/-!
# Places between characters

The first octet of a character continues no character, and all others do. So a place between octets is a place
between characters exactly if the octet behind it continues none, and the way back from any place to such a one is
short.

* `Utf8.encodeChar_shape` — the octets of a character;
* `Utf8.place_cases` — a place stands between characters, or inside one;
* `Utf8.isBoundary_iff` — **which places stand between characters**;
* `Utf8.goBack?_octets` — **the way back ends at the last of them**, at most three octets before.
-/

namespace Hostlink.Utf8

/-! ## Octets of a character -/

theorem isTail_ofNat {n : Nat} (h : n < 256) : isTail (UInt8.ofNat n) = true ↔ 128 ≤ n ∧ n ≤ 191 := by
  have hnat : (UInt8.ofNat n).toNat = n := by rw [UInt8.toNat_ofNat', Nat.mod_eq_of_lt h]
  simp [isTail, UInt8.le_iff_toNat_le, hnat]

/-- A character is one octet that continues none, and up to three that do. -/
theorem encodeChar_shape (c : Char) : ∃ a tail, String.utf8EncodeChar c = a :: tail ∧ isTail a = false ∧
    (∀ b ∈ tail, isTail b = true) ∧ tail.length ≤ 3 := by
  have hfirst : ∀ n, n < 256 → (n < 128 ∨ 191 < n) → isTail (UInt8.ofNat n) = false := by
    intro n hn hrange
    rw [Bool.eq_false_iff, Ne, isTail_ofNat hn]
    omega
  have htail : ∀ n : Nat, isTail (UInt8.ofNat (n % 64 + 128)) = true := by
    intro n
    rw [isTail_ofNat (by omega)]
    omega
  rw [String.utf8EncodeChar]
  split
  · exact ⟨_, _, rfl, hfirst _ (by omega) (by omega), by simp, by simp⟩
  split
  · refine ⟨_, _, rfl, hfirst _ (by omega) (by omega), ?_, by simp⟩
    exact List.forall_mem_singleton.mpr (htail _)
  split
  · refine ⟨_, _, rfl, hfirst _ (by omega) (by omega), ?_, by simp⟩
    exact List.forall_mem_cons.mpr ⟨htail _, List.forall_mem_singleton.mpr (htail _)⟩
  · refine ⟨_, _, rfl, hfirst _ (by omega) (by omega), ?_, by simp⟩
    exact List.forall_mem_cons.mpr ⟨htail _, List.forall_mem_cons.mpr ⟨htail _, List.forall_mem_singleton.mpr (htail _)⟩⟩

/-! ## Places -/

/-- A place stands between characters, or inside one. -/
theorem place_cases {cs : List Char} {n : Nat} (h : n ≤ (octets cs).length) :
    (∃ front back, cs = front ++ back ∧ (octets front).length = n) ∨
      ∃ front c back, cs = front ++ c :: back ∧ (octets front).length < n ∧
        n < (octets front).length + (String.utf8EncodeChar c).length := by
  induction cs generalizing n with
  | nil =>
    have hn : n = 0 := Nat.le_zero.mp h
    exact .inl ⟨[], [], rfl, hn.symm⟩
  | cons c cs ih =>
    rw [octets_cons, List.length_append] at h
    by_cases hzero : n = 0
    · exact .inl ⟨[], c :: cs, rfl, hzero.symm⟩
    by_cases hinside : n < (String.utf8EncodeChar c).length
    · refine .inr ⟨[], c, cs, rfl, ?_, ?_⟩
      · show 0 < n
        omega
      · simpa using hinside
    · -- the place is behind the first character
      have hlater : n - (String.utf8EncodeChar c).length ≤ (octets cs).length := by omega
      rcases ih hlater with ⟨front, back, rfl, hlen⟩ | ⟨front, d, back, rfl, hlow, hhigh⟩
      · refine .inl ⟨c :: front, back, rfl, ?_⟩
        rw [octets_cons, List.length_append]
        omega
      · refine .inr ⟨c :: front, d, back, rfl, ?_, ?_⟩
        · rw [octets_cons, List.length_append]
          omega
        · rw [octets_cons, List.length_append]
          omega

theorem isBoundary_between (front back : List Char) :
    isBoundary (octets (front ++ back)) (octets front).length = true := by
  cases back with
  | nil => simp [isBoundary]
  | cons c back =>
    obtain ⟨a, tail, hc, ha, -⟩ := encodeChar_shape c
    have hbehind : (octets (front ++ c :: back))[(octets front).length]? = some a := by
      rw [octets_append, octets_cons, hc, List.getElem?_append_right (Nat.le_refl _), Nat.sub_self]
      rfl
    rw [isBoundary, hbehind, Option.any_some, ha]
    exact Bool.or_true _

theorem isBoundary_inside {front back : List Char} {c : Char} {n : Nat} (hlow : (octets front).length < n)
    (hhigh : n < (octets front).length + (String.utf8EncodeChar c).length) :
    isBoundary (octets (front ++ c :: back)) n = false := by
  obtain ⟨a, tail, hc, -, htail, -⟩ := encodeChar_shape c
  rw [hc, List.length_cons] at hhigh
  obtain ⟨i, rfl⟩ : ∃ i, n = (octets front).length + (i + 1) := ⟨n - (octets front).length - 1, by omega⟩
  have hi : i < tail.length := by omega
  have hbehind : (octets (front ++ c :: back))[(octets front).length + (i + 1)]? = some tail[i] := by
    rw [octets_append, octets_cons, hc, List.getElem?_append_right (by omega), Nat.add_sub_cancel_left,
      List.cons_append, List.getElem?_cons_succ, List.getElem?_append_left hi, List.getElem?_eq_getElem hi]
  have hmore : (octets front).length + (i + 1) ≠ (octets (front ++ c :: back)).length := by
    rw [octets_append, octets_cons, hc]
    simp only [List.length_append, List.length_cons]
    omega
  have hstart : (octets front).length + (i + 1) ≠ 0 := Nat.succ_ne_zero _
  rw [isBoundary, hbehind, Option.any_some, htail _ (List.getElem_mem hi), decide_eq_false hmore,
    decide_eq_false hstart]
  rfl

/-- **Which places stand between characters.** -/
theorem isBoundary_iff {cs : List Char} {n : Nat} :
    isBoundary (octets cs) n = true ↔ ∃ front back, cs = front ++ back ∧ (octets front).length = n := by
  constructor
  · intro h
    have hn : n ≤ (octets cs).length := by
      refine Nat.le_of_not_lt fun hlonger => ?_
      have hnone : (octets cs)[n]? = none := List.getElem?_eq_none (by omega)
      have hzero : n ≠ 0 := by omega
      have hlen : n ≠ (octets cs).length := by omega
      simp [isBoundary, hnone, hzero, hlen] at h
    rcases place_cases hn with hbetween | ⟨front, c, back, rfl, hlow, hhigh⟩
    · exact hbetween
    · rw [isBoundary_inside hlow hhigh] at h
      cases h
  · rintro ⟨front, back, rfl, rfl⟩
    exact isBoundary_between front back

/-! ## The way back -/

/-- The way back ends at the last place between characters: at the latest before all octets. -/
theorem goBack?_eq (bs : List UInt8) (n : Nat) : ∃ m, goBack? bs n = some m ∧ m ≤ n ∧ isBoundary bs m = true ∧
    ∀ k, m < k → k ≤ n → isBoundary bs k = false := by
  induction n with
  | zero =>
    have hstart : isBoundary bs 0 = true := rfl
    exact ⟨0, by rw [goBack?, if_pos hstart], Nat.le_refl 0, hstart, fun k hlow hhigh => by omega⟩
  | succ n ih =>
    by_cases hstop : isBoundary bs (n + 1) = true
    · exact ⟨n + 1, by rw [goBack?, if_pos hstop], Nat.le_refl _, hstop, fun k hlow hhigh => by omega⟩
    · obtain ⟨m, hm, hle, hbetween, hnone⟩ := ih
      refine ⟨m, by rw [goBack?, if_neg hstop, hm], by omega, hbetween, fun k hlow hhigh => ?_⟩
      by_cases hk : k = n + 1
      · rw [hk]
        exact Bool.eq_false_iff.mpr hstop
      · exact hnone k hlow (by omega)

/-- **The way back ends at the end of the longest start that is not too long**, at most three octets before. -/
theorem goBack?_octets {cs : List Char} {n : Nat} (h : n ≤ (octets cs).length) :
    ∃ front back, cs = front ++ back ∧ goBack? (octets cs) n = some (octets front).length ∧
      (octets front).length ≤ n ∧ n ≤ (octets front).length + 3 ∧
      ∀ start rest, cs = start ++ rest → (octets start).length ≤ n → (octets start).length ≤ (octets front).length := by
  obtain ⟨m, hm, hle, hbetween, hnone⟩ := goBack?_eq (octets cs) n
  have hlast : ∀ start rest, cs = start ++ rest → (octets start).length ≤ n → (octets start).length ≤ m := by
    intro start rest hcs hstart
    refine Nat.le_of_not_lt fun hlater => ?_
    have hplace := isBoundary_iff.mpr ⟨start, rest, hcs, rfl⟩
    rw [hnone _ (by omega) hstart] at hplace
    cases hplace
  obtain ⟨front, back, hcs, rfl⟩ := isBoundary_iff.mp hbetween
  refine ⟨front, back, hcs, hm, hle, ?_, hlast⟩
  rcases place_cases h with ⟨start, rest, hstart, hlen⟩ | ⟨start, c, rest, hstart, hlow, hhigh⟩
  · have := hlast start rest hstart (by omega)
    omega
  · -- the place is inside a character, which has at most three octets more than its first
    obtain ⟨a, tail, hc, -, -, hsize⟩ := encodeChar_shape c
    have := hlast start (c :: rest) hstart (by omega)
    rw [hc, List.length_cons] at hhigh
    omega

end Hostlink.Utf8
