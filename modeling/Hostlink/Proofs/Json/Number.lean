import Hostlink.Proofs.Json.Reader
import Mathlib.Algebra.Group.Int.Defs

/-!
# Integers are read back

* `digitOctets`, `digitsValue_digitOctets` — the digits of a number spell it;
* `Stops` — what may follow a number;
* `Reads.number` — **an integer of 64 bits is read back**.
-/

namespace Hostlink.Json

/-! ## Digits -/

/-- The octets of the digits of a number. -/
def digitOctets (n : Nat) : List UInt8 := (Nat.toDigits 10 n).map fun c => UInt8.ofNat c.toNat

theorem digit_of_mem {n : Nat} {c : Char} (hc : c ∈ Nat.toDigits 10 n) : 48 ≤ c.toNat ∧ c.toNat ≤ 57 :=
  Char.isDigit_iff_toNat.mp (Nat.isDigit_of_mem_toDigits (by decide) (by decide) hc)

theorem octets_toDigits (n : Nat) : Utf8.octets (Nat.toDigits 10 n) = digitOctets n :=
  Utf8.octets_of_ascii fun _ hc => Nat.lt_of_le_of_lt (digit_of_mem hc).2 (by decide)

theorem toNat_digit {c : Char} (hc : 48 ≤ c.toNat ∧ c.toNat ≤ 57) : (UInt8.ofNat c.toNat).toNat = c.toNat := by
  rw [UInt8.toNat_ofNat', Nat.mod_eq_of_lt (by omega)]

theorem isDigit_of_mem {n : Nat} {x : UInt8} (hx : x ∈ digitOctets n) : Reader.isDigit x = true := by
  obtain ⟨c, hc, rfl⟩ := List.mem_map.mp hx
  have hdigit := digit_of_mem hc
  simp only [Reader.isDigit, Bool.and_eq_true, decide_eq_true_eq, UInt8.le_iff_toNat_le, toNat_digit hdigit]
  exact hdigit

/-- A digit is nothing else. -/
theorem ne_of_isDigit {x y : UInt8} (hx : Reader.isDigit x = true) (hy : Reader.isDigit y = false) : x ≠ y := by
  rintro rfl
  rw [hx] at hy
  cases hy

theorem not_isSpace_of_isDigit {x : UInt8} (hx : Reader.isDigit x = true) : Cursor.isSpace x = false := by
  simp only [Cursor.isSpace, Bool.or_eq_false_iff, decide_eq_false_iff_not]
  exact ⟨⟨⟨ne_of_isDigit hx rfl, ne_of_isDigit hx rfl⟩, ne_of_isDigit hx rfl⟩, ne_of_isDigit hx rfl⟩

theorem digitOctets_ne_nil (n : Nat) : digitOctets n ≠ [] := by
  simp [digitOctets]

/-- Digits spell their number. -/
theorem digitsValue_digitOctets (n : Nat) : Reader.digitsValue (digitOctets n) = n := by
  have hspell : ∀ (cs : List Char) (init : Nat), (∀ c ∈ cs, 48 ≤ c.toNat ∧ c.toNat ≤ 57) →
      (cs.map fun c => UInt8.ofNat c.toNat).foldl (fun n b => n * 10 + (b.toNat - 48)) init =
        Nat.ofDigitChars 10 cs init := by
    intro cs init hcs
    induction cs generalizing init with
    | nil => rw [Nat.ofDigitChars_nil]; rfl
    | cons c cs ih =>
      rw [List.map_cons, List.foldl_cons, ih _ fun c hc => hcs c (List.mem_cons_of_mem _ hc),
        Nat.ofDigitChars_cons, toNat_digit (hcs c List.mem_cons_self), Nat.mul_comm]
      rfl
  rw [Reader.digitsValue, digitOctets, hspell _ 0 fun _ => digit_of_mem, Nat.ofDigitChars_ten_toDigits]

/-- No other number than zero begins with a zero. -/
theorem digitOctets_cases (n : Nat) :
    (n = 0 ∧ digitOctets n = [48]) ∨ ∃ x xs, digitOctets n = x :: xs ∧ x ≠ 48 := by
  induction n using Nat.strongRecOn with
  | ind n ih =>
    rcases Nat.lt_or_ge n 10 with hlt | hge
    · have hone : ∀ n : Fin 10, (n = 0 ∧ digitOctets n = [48]) ∨ digitOctets n = [UInt8.ofNat (48 + n)] ∧
          UInt8.ofNat (48 + n) ≠ 48 := by decide
      rcases hone ⟨n, hlt⟩ with ⟨hz, h⟩ | ⟨h, hne⟩
      · exact .inl ⟨congrArg Fin.val hz, h⟩
      · exact .inr ⟨_, [], h, hne⟩
    · right
      have hstep : digitOctets n = digitOctets (n / 10) ++ [UInt8.ofNat (n % 10).digitChar.toNat] := by
        rw [digitOctets, Nat.toDigits_of_base_le (by decide) hge, List.map_append]
        rfl
      rcases ih (n / 10) (by omega) with ⟨hz, -⟩ | ⟨x, xs, h, hne⟩
      · omega
      · exact ⟨x, xs ++ [UInt8.ofNat (n % 10).digitChar.toNat], by rw [hstep, h]; rfl, hne⟩

/-! ## Numbers -/

/-- A comma, or the end of a list or object, follows, or nothing. -/
def Stops (rest : List UInt8) : Prop := ∀ x ∈ rest.head?, x = 44 ∨ x = 93 ∨ x = 125

/-- The number of an integer literal. -/
theorem ofLiteral_int {n : Int} (hlow : -2 ^ 63 ≤ n) (hhigh : n < 2 ^ 64) :
    Number.ofLiteral ⟨decide (n < 0), n.natAbs, 0, true⟩ = some (.int n) := by
  by_cases hn : n < 0
  · have hexact : Number.isExact true n.natAbs = true := by
      rw [Number.isExact, if_pos rfl, Bool.and_eq_true, decide_eq_true_iff, decide_eq_true_iff, Nat.pow_eq]
      omega
    have heq : -(n.natAbs : Int) = n := by omega
    rw [decide_eq_true hn, Number.ofLiteral, hexact, Bool.and_true, if_pos rfl, if_pos rfl, heq]
  · have hexact : Number.isExact false n.natAbs = true := by
      rw [Number.isExact, if_neg Bool.false_ne_true, decide_eq_true_iff, Nat.pow_eq]
      omega
    have heq : (n.natAbs : Int) = n := by omega
    rw [decide_eq_false hn, Number.ofLiteral, hexact, Bool.and_true, if_pos rfl, if_neg Bool.false_ne_true, heq]

namespace Reads

variable {rest : List UInt8}

theorem digits {ds : List UInt8} (hds : ∀ x ∈ ds, Reader.isDigit x = true)
    (hrest : ∀ x ∈ rest.head?, Reader.isDigit x = false) : Reads Reader.digits ds ds rest := by
  intro pos
  have hspan : ∀ pos, ∃ pos', Reader.spanDigits pos (ds ++ rest) = (ds, ⟨pos', rest⟩) := by
    induction ds with
    | nil =>
      intro pos
      cases rest with
      | nil => exact ⟨pos, rfl⟩
      | cons x rest =>
        refine ⟨pos, ?_⟩
        rw [List.nil_append, Reader.spanDigits, if_neg (by simp [hrest x rfl])]
    | cons d ds ih =>
      intro pos
      obtain ⟨pos', h⟩ := ih (fun x hx => hds x (List.mem_cons_of_mem _ hx)) (pos.next d)
      refine ⟨pos', ?_⟩
      rw [List.cons_append, Reader.spanDigits, if_pos (hds d List.mem_cons_self), h]
  obtain ⟨pos', h⟩ := hspan pos
  exact ⟨pos', by rw [Reader.digits, h]⟩

/-- What stops is no digit, and begins neither a fraction nor an exponent. -/
theorem not_digit_of_stops (hr : Stops rest) {x : UInt8} (hx : x ∈ rest.head?) :
    Reader.isDigit x = false ∧ x ≠ 46 ∧ x ≠ 101 ∧ x ≠ 69 := by
  rcases hr x hx with rfl | rfl | rfl <;> decide

theorem wholeDigits (n : Nat) (atEnd : Problem) (hr : Stops rest) :
    Reads (Reader.wholeDigits atEnd) (digitOctets n) (digitOctets n) rest := by
  refine .peek ?_
  rcases digitOctets_cases n with ⟨-, h⟩ | ⟨x, xs, h, hne⟩
  · rw [h]
    simp only [List.cons_append, List.nil_append, List.head?_cons, if_true]
    refine .advance_bind (.peek ?_)
    rw [List.nil_append]
    cases hx : rest.head? with
    | none => exact .pure _ rest
    | some x =>
      simp only [(not_digit_of_stops hr hx).1, Bool.false_eq_true, if_false]
      exact .pure _ rest
  · have hdigit : ∀ y ∈ x :: xs, Reader.isDigit y = true := fun y hy => isDigit_of_mem (h ▸ hy)
    rw [h]
    simp only [List.cons_append, List.head?_cons, hne, hdigit x List.mem_cons_self, if_false, if_true]
    exact .digits hdigit fun y hy => (not_digit_of_stops hr hy).1

theorem fractionDigits (atEnd : Problem) (hr : Stops rest) : Reads (Reader.fractionDigits atEnd) [] none rest := by
  refine .peek ?_
  rw [List.nil_append]
  cases hx : rest.head? with
  | none => exact .pure _ rest
  | some x =>
    have hne := (not_digit_of_stops hr hx).2.1
    split
    · next h => exact absurd (Option.some.inj h) hne
    · exact .pure _ rest

theorem exponent (atEnd : Problem) (hr : Stops rest) : Reads (Reader.exponent atEnd) [] none rest := by
  refine .peek ?_
  rw [List.nil_append]
  cases hx : rest.head? with
  | none => exact .pure _ rest
  | some x =>
    obtain ⟨-, -, hne, hne'⟩ := not_digit_of_stops hr hx
    simp only [hne, hne', or_self, if_false]
    exact .pure _ rest

theorem literal (n : Nat) (atEnd : Problem) (negative : Bool) (hr : Stops rest) :
    Reads (Reader.literal atEnd negative) (digitOctets n) (⟨negative, n, 0, true⟩, none) rest := by
  have h : Reads (Reader.literal atEnd negative) (digitOctets n ++ ([] ++ ([] ++ [])))
      (⟨negative, Reader.digitsValue (digitOctets n ++ []), 0, true⟩, none) rest :=
    .bind (wholeDigits n atEnd hr) (.bind (fractionDigits atEnd hr) (.bind (exponent atEnd hr) (.pure _ rest)))
  rw [List.append_nil, List.append_nil, List.append_nil, digitsValue_digitOctets] at h
  exact h

/-- **An integer of 64 bits is read back**, after its sign. -/
theorem number {n : Int} (hlow : -2 ^ 63 ≤ n) (hhigh : n < 2 ^ 64) (hr : Stops rest) :
    Reads (Reader.number (decide (n < 0))) (Utf8.octets (Nat.toDigits 10 n.natAbs)) (.int n) rest := by
  rw [octets_toDigits, ← List.append_nil (digitOctets n.natAbs)]
  refine .bind (literal n.natAbs .endInValue _ hr) ?_
  dsimp only
  rw [ofLiteral_int hlow hhigh]
  exact .pure _ rest

end Reads

end Hostlink.Json
