import Hostlink.Json.Parser
import Hostlink.Proofs.Text.Utf8

/-!
# What readers read

* `Reads r p a rest` — where `rest` follows, `r` reads `p` and nothing else, and finds `a`;
* `Reads.bind`, `Reads.peek`, `Reads.advance` — readers one after another;
* `Reads.stringBody` — a text in quotes is read back.
-/

namespace Hostlink.Json

/-- No blanks are passed before an octet that is none. -/
theorem Cursor.skipSpace_of_head {c : Cursor} (h : ∀ x ∈ c.rest.head?, isSpace x = false) : c.skipSpace = c := by
  obtain ⟨pos, rest⟩ := c
  rw [skipSpace]
  cases rest with
  | nil => rfl
  | cons x xs => simp [passSpace, h x rfl]

/-- Where `rest` follows, a reader reads `p` and finds `a`, whatever the place. -/
def Reads {α : Type} (r : Reader α) (p : List UInt8) (a : α) (rest : List UInt8) : Prop :=
  ∀ pos, ∃ pos', r ⟨pos, p ++ rest⟩ = .ok (a, ⟨pos', rest⟩)

namespace Reads

variable {α β : Type} {p q rest : List UInt8} {a : α} {b : β}

/-! ## One reader after another -/

theorem pure (a : α) (rest : List UInt8) : Reads (Pure.pure a) [] a rest := fun pos => ⟨pos, rfl⟩

theorem bind {r : Reader α} {f : α → Reader β} (h : Reads r p a (q ++ rest))
    (h' : Reads (f a) q b rest) : Reads (r >>= f) (p ++ q) b rest := by
  intro pos
  obtain ⟨pos', hr⟩ := h pos
  obtain ⟨pos'', hf⟩ := h' pos'
  refine ⟨pos'', ?_⟩
  rw [List.append_assoc]
  show Except.bind (r ⟨pos, p ++ (q ++ rest)⟩) _ = _
  rw [hr]
  exact hf

theorem map {r : Reader α} (f : α → β) (h : Reads r p a rest) : Reads (f <$> r) p (f a) rest := by
  intro pos
  obtain ⟨pos', hr⟩ := h pos
  refine ⟨pos', ?_⟩
  show Except.bind (r ⟨pos, p ++ rest⟩) _ = _
  rw [hr]
  rfl

/-- A look at the next octet. -/
theorem peek {f : Option UInt8 → Reader β} (h : Reads (f (p ++ rest).head?) p b rest) :
    Reads (Reader.peek >>= f) p b rest := h

theorem advance_bind {f : Unit → Reader β} {x : UInt8} (h : Reads (f ()) p b rest) :
    Reads (Reader.advance >>= f) (x :: p) b rest := fun pos => h (pos.next x)

/-- The next octet is passed. -/
theorem advance (x : UInt8) (rest : List UInt8) : Reads Reader.advance [x] () rest :=
  fun pos => ⟨pos.next x, rfl⟩

/-- Blanks are passed where there are none. -/
theorem peekToken {f : Option UInt8 → Reader β} (hspace : ∀ x ∈ (p ++ rest).head?, Cursor.isSpace x = false)
    (h : Reads (f (p ++ rest).head?) p b rest) : Reads (Reader.peekToken >>= f) p b rest := by
  intro pos
  obtain ⟨pos', hf⟩ := h pos
  refine ⟨pos', ?_⟩
  show f (Cursor.skipSpace ⟨pos, p ++ rest⟩).rest.head? (Cursor.skipSpace ⟨pos, p ++ rest⟩) = _
  rw [Cursor.skipSpace_of_head (c := ⟨pos, p ++ rest⟩) hspace]
  exact hf

/-- The rest of a word is read. -/
theorem word (w rest : List UInt8) : Reads (Reader.word w) w () rest := by
  induction w with
  | nil => exact .pure () rest
  | cons b w ih =>
    refine .peek ?_
    simp only [List.cons_append, List.head?_cons, if_true]
    exact .advance_bind ih

/-! ## Strings -/

theorem stringOctet_bind {f : UInt8 → Reader β} {x : UInt8} (h : Reads (f x) p b rest) :
    Reads (Reader.stringOctet >>= f) (x :: p) b rest := fun pos => h (pos.next x)

/-- Octets that stand for themselves. -/
theorem stringFrom_plain {bs : List UInt8} (hbs : ∀ x ∈ bs, 32 ≤ x ∧ x ≠ 34 ∧ x ≠ 92) {fuel : Nat}
    {reversed found : List UInt8} (h : Reads (Reader.stringFrom fuel (bs.reverse ++ reversed)) p found rest) :
    Reads (Reader.stringFrom (bs.length + fuel) reversed) (bs ++ p) found rest := by
  induction bs generalizing reversed with
  | nil => simpa using h
  | cons x bs ih =>
    obtain ⟨hlow, hquote, hback⟩ := hbs x List.mem_cons_self
    have hfuel : (x :: bs).length + fuel = (bs.length + fuel) + 1 := by
      rw [List.length_cons]
      omega
    rw [hfuel]
    refine .stringOctet_bind ?_
    rw [if_neg hquote, if_neg hback, if_neg (UInt8.not_lt.mpr hlow)]
    refine ih (fun x hx => hbs x (List.mem_cons_of_mem _ hx)) ?_
    simpa using h

/-- One escape. -/
theorem stringFrom_escape {es e : List UInt8} {fuel : Nat} {reversed found : List UInt8}
    (he : Reads Reader.escape es e (p ++ rest))
    (h : Reads (Reader.stringFrom fuel (e.reverse ++ reversed)) p found rest) :
    Reads (Reader.stringFrom (fuel + 1) reversed) (92 :: (es ++ p)) found rest := by
  refine .stringOctet_bind ?_
  rw [if_neg (by decide), if_pos rfl]
  exact .bind he h

/-- A letter that stands for another octet. -/
theorem escape_simple {x e : UInt8} (h : Reader.simpleEscape? x = some e) (rest : List UInt8) :
    Reads Reader.escape [x] [e] rest := by
  refine .stringOctet_bind ?_
  rw [h]
  exact .pure [e] rest

theorem hexQuad?_control {n : Nat} (h : n < 32) :
    Reader.hexQuad? 48 48 (UInt8.ofNat (hexDigit (n / 16)).toNat) (UInt8.ofNat (hexDigit (n % 16)).toNat) =
      some n := by
  revert n
  decide

theorem hexEscape {w x y z : UInt8} {n : Nat} (h : Reader.hexQuad? w x y z = some n) (rest : List UInt8) :
    Reads Reader.hexEscape [w, x, y, z] n rest := fun pos => by
  refine ⟨(((pos.next w).next x).next y).next z, ?_⟩
  simp only [Reader.hexEscape, List.cons_append, List.nil_append, h]
  rfl

/-- The number of a control character. -/
theorem escape_control {c : Char} (h : c.toNat < 32) (rest : List UInt8) :
    Reads Reader.escape
      [117, 48, 48, UInt8.ofNat (hexDigit (c.toNat / 16)).toNat, UInt8.ofNat (hexDigit (c.toNat % 16)).toNat]
      (String.utf8EncodeChar c) rest := by
  have hunicode : Reads Reader.unicodeEscape
      [48, 48, UInt8.ofNat (hexDigit (c.toNat / 16)).toNat, UInt8.ofNat (hexDigit (c.toNat % 16)).toNat]
      c rest := by
    refine .bind (q := []) (hexEscape (hexQuad?_control h) _) ?_
    rw [if_neg (by omega), if_pos (by omega), Char.ofNat_toNat]
    exact .pure c rest
  have hnone : Reader.simpleEscape? 117 = none := by decide
  refine .stringOctet_bind ?_
  simp only [hnone, if_true]
  exact .bind (q := []) hunicode (.pure _ rest)

/-- A character that needs no escape has no octet that does. -/
theorem plain_octets {c : Char} (hquote : c ≠ '"') (hback : c ≠ '\\') (hlow : ¬ c.toNat < 32) :
    ∀ x ∈ String.utf8EncodeChar c, 32 ≤ x ∧ x ≠ 34 ∧ x ≠ 92 := by
  intro x hx
  by_cases hc : c.toNat < 128
  · rw [Utf8.encodeChar_of_ascii hc] at hx
    have hx : x.toNat = c.toNat := by
      rw [List.mem_singleton.mp hx, UInt8.toNat_ofNat', Nat.mod_eq_of_lt (by omega)]
    refine ⟨UInt8.le_iff_toNat_le.mpr (hx ▸ Nat.not_lt.mp hlow), ?_, ?_⟩
    · rintro rfl
      exact hquote (Char.toNat_inj.mp hx.symm)
    · rintro rfl
      exact hback (Char.toNat_inj.mp hx.symm)
  · have h := UInt8.le_iff_toNat_le.mp (Utf8.le_of_mem_encodeChar (Nat.not_lt.mp hc) hx)
    have h128 : (128 : UInt8).toNat = 128 := rfl
    rw [h128] at h
    refine ⟨UInt8.le_iff_toNat_le.mpr (Nat.le_trans (by decide) h), ?_, ?_⟩
    · rintro rfl
      exact absurd h (by decide)
    · rintro rfl
      exact absurd h (by decide)

/-- A character is written as itself, or as an escape that is read back. -/
theorem octets_escapeChar (c : Char) :
    (Utf8.octets (escapeChar c) = String.utf8EncodeChar c ∧
        ∀ x ∈ String.utf8EncodeChar c, 32 ≤ x ∧ x ≠ 34 ∧ x ≠ 92) ∨
      ∃ es, Utf8.octets (escapeChar c) = 92 :: es ∧ ∀ rest, Reads Reader.escape es (String.utf8EncodeChar c) rest := by
  -- the escapes of one letter, by the number of what they stand for
  have simple : ∀ (n : Nat) {x : UInt8}, c.toNat = n → n < 128 → Reader.simpleEscape? x = some (UInt8.ofNat n) →
      ∀ rest, Reads Reader.escape [x] (String.utf8EncodeChar c) rest := by
    intro n x hc hn h rest
    rw [Utf8.encodeChar_of_ascii (hc ▸ hn), hc]
    exact escape_simple h rest
  unfold escapeChar
  split
  · next h => exact .inr ⟨[34], rfl, simple 34 (congrArg Char.toNat h) (by decide) (by decide)⟩
  split
  · next h => exact .inr ⟨[92], rfl, simple 92 (congrArg Char.toNat h) (by decide) (by decide)⟩
  split
  · next h => exact .inr ⟨[110], rfl, simple 10 (congrArg Char.toNat h) (by decide) (by decide)⟩
  split
  · next h => exact .inr ⟨[114], rfl, simple 13 (congrArg Char.toNat h) (by decide) (by decide)⟩
  split
  · next h => exact .inr ⟨[116], rfl, simple 9 (congrArg Char.toNat h) (by decide) (by decide)⟩
  split
  · next h => exact .inr ⟨[98], rfl, simple 8 h (by decide) (by decide)⟩
  split
  · next h => exact .inr ⟨[102], rfl, simple 12 h (by decide) (by decide)⟩
  split
  · next h =>
    -- all other control characters are written by four digits
    have hdigit : ∀ n : Fin 16, (hexDigit n).toNat < 128 := by decide
    refine .inr ⟨_, ?_, escape_control h⟩
    rw [Utf8.octets_of_ascii]
    · rfl
    · intro x hx
      simp only [List.mem_cons, List.not_mem_nil, or_false] at hx
      rcases hx with rfl | rfl | rfl | rfl | rfl | rfl
      · decide
      · decide
      · decide
      · decide
      · exact hdigit ⟨c.toNat / 16, by omega⟩
      · exact hdigit ⟨c.toNat % 16, by omega⟩
  · next hquote hback _ _ _ _ _ hlow => exact .inl ⟨by simp [Utf8.octets], plain_octets hquote hback hlow⟩

/-- What has been read of a string is read back before the rest of it. -/
theorem stringFrom_chars (cs : List Char) {fuel : Nat} {reversed : List UInt8}
    (hfuel : (Utf8.octets (cs.flatMap escapeChar)).length < fuel) (rest : List UInt8) :
    Reads (Reader.stringFrom fuel reversed) (Utf8.octets (cs.flatMap escapeChar) ++ [34])
      (reversed.reverse ++ Utf8.octets cs) rest := by
  induction cs generalizing fuel reversed with
  | nil =>
    obtain ⟨fuel, rfl⟩ := Nat.exists_eq_succ_of_ne_zero (Nat.ne_of_gt hfuel)
    refine .stringOctet_bind ?_
    rw [if_pos rfl, Utf8.octets_nil, List.append_nil]
    exact .pure _ rest
  | cons c cs ih =>
    rw [List.flatMap_cons, Utf8.octets_append] at hfuel ⊢
    have hfound : reversed.reverse ++ Utf8.octets (c :: cs) =
        ((String.utf8EncodeChar c).reverse ++ reversed).reverse ++ Utf8.octets cs := by
      rw [Utf8.octets_cons, List.reverse_append, List.reverse_reverse, List.append_assoc]
    rw [hfound, List.append_assoc]
    rw [List.length_append] at hfuel
    rcases octets_escapeChar c with ⟨heq, hplain⟩ | ⟨es, heq, hes⟩
    · -- a plain character takes one step for each of its octets, and an escape takes one for all of its own
      rw [heq] at hfuel ⊢
      obtain ⟨fuel, rfl⟩ := Nat.exists_eq_add_of_le (Nat.le_of_lt (Nat.lt_of_le_of_lt (Nat.le_add_right _ _) hfuel))
      exact stringFrom_plain hplain (ih (by omega))
    · rw [heq] at hfuel ⊢
      rw [List.length_cons] at hfuel
      obtain ⟨fuel, rfl⟩ := Nat.exists_eq_succ_of_ne_zero (Nat.ne_of_gt (Nat.zero_lt_of_lt hfuel))
      rw [List.cons_append]
      exact stringFrom_escape (hes _) (ih (by omega))

/-- **A text in quotes is read back**, after its opening quote. -/
theorem stringBody (s : String) (rest : List UInt8) :
    Reads Reader.stringBody (Utf8.octets (s.toList.flatMap escapeChar ++ ['"'])) s rest := by
  have hquote : Utf8.octets ['"'] = [34] := rfl
  intro pos
  rw [Utf8.octets_append, hquote]
  let fuel := (Utf8.octets (s.toList.flatMap escapeChar) ++ [34] ++ rest).length + 1
  have hfuel : (Utf8.octets (s.toList.flatMap escapeChar)).length < fuel := by
    simp only [fuel, List.length_append]
    omega
  have hread : Reads (Reader.stringFrom fuel []) _ _ rest := stringFrom_chars s.toList hfuel rest
  obtain ⟨pos', hfrom⟩ := hread pos
  refine ⟨pos', ?_⟩
  have hdecode : Utf8.decode ([].reverse ++ Utf8.octets s.toList) = .ok s := by
    rw [List.reverse_nil, List.nil_append, Utf8.decode_octets, String.ofList_toList]
  show Except.bind (Reader.stringFrom _ [] _) _ = _
  rw [hfrom]
  dsimp only [Except.bind]
  rw [hdecode]

end Reads

end Hostlink.Json
