import Hostlink.Proofs.Text.Utf8
import Hostlink.Text.Component

/-!
# What is percent-coded can be read back

* `Percent.decode_encodeOctets` — octets are read back if no octet that is kept is `%`;
* `Component.decode_encode` — **components are read back**;
* `Component.isSafe_of_mem_encode` — what they look like: no separator of a query, and nothing that a
  URL would write in another way;
* `Component.Written`, `Component.written_encode` — their form: characters that stand for themselves, and triplets;
* `Component.coding` — **what the coding of components does**.
-/

namespace Hostlink

namespace Percent

/-! ## Triplets -/

theorem toNat_hexDigit {n : Nat} (h : n < 16) :
    (hexDigit n).toNat = if n < 10 then 48 + n else 55 + n := by
  revert n
  decide

theorem hexValue?_hexDigit {n : Nat} (h : n < 16) :
    hexValue? (UInt8.ofNat (hexDigit n).toNat) = some n := by
  revert n
  decide

/-- An octet that is not `%` stands for itself. -/
theorem decode_cons {a : UInt8} (h : a ≠ 37) (rest : List UInt8) : decode (a :: rest) = a :: decode rest := by
  match rest with
  | [] | [_] => rfl
  | _ :: _ :: _ => rw [decode, if_neg h]

theorem decode_triplet {b c : UInt8} {high low : Nat} (hb : hexValue? b = some high)
    (hc : hexValue? c = some low) (rest : List UInt8) :
    decode (37 :: b :: c :: rest) = UInt8.ofNat (16 * high + low) :: decode rest := by
  rw [decode, if_pos rfl, hb, hc]

/-- Octets without `%` stand for themselves. -/
theorem decode_of_none {bs : List UInt8} (h : ∀ b ∈ bs, b ≠ 37) : decode bs = bs := by
  induction bs with
  | nil => rw [decode]
  | cons b bs ih => rw [decode_cons (h b List.mem_cons_self), ih fun b hb => h b (List.mem_cons_of_mem _ hb)]

/-- Octets that are kept have to be among the first 128, and must not be `%`. -/
def Plain (keep : UInt8 → Bool) : Prop := ∀ b, keep b = true → b < 128 ∧ b ≠ 37

/-- The octets of an octet that has been written. -/
theorem octets_encodeOctet {keep : UInt8 → Bool} (hkeep : Plain keep) (b : UInt8) :
    Utf8.octets (encodeOctet keep b) =
      if keep b then [b]
      else [37, UInt8.ofNat (hexDigit (b.toNat / 16)).toNat, UInt8.ofNat (hexDigit (b.toNat % 16)).toNat] := by
  have hb := b.toNat_lt
  have hdigit : ∀ n, n < 16 → (hexDigit n).toNat < 128 := fun n hn => by
    rw [toNat_hexDigit hn]
    split <;> omega
  rw [encodeOctet]
  split
  · next h =>
    have hlt : b.toNat < 128 := UInt8.lt_iff_toNat_lt.mp (hkeep b h).1
    have hchar : (Char.ofNat b.toNat).toNat = b.toNat := Utf8.toNat_ofNat hlt
    rw [Utf8.octets_of_ascii (by simpa [hchar] using hlt)]
    simp [hchar]
  · rw [Utf8.octets_of_ascii]
    · rfl
    · intro c hc
      simp only [List.mem_cons, List.not_mem_nil, or_false] at hc
      rcases hc with rfl | rfl | rfl
      · decide
      · exact hdigit _ (by omega)
      · exact hdigit _ (by omega)

/-- Octets that have been written are read back, whatever follows. -/
theorem decode_encodeOctets_append {keep : UInt8 → Bool} (hkeep : Plain keep) (bs rest : List UInt8) :
    decode (Utf8.octets (encodeOctets keep bs) ++ rest) = bs ++ decode rest := by
  induction bs with
  | nil => rfl
  | cons b bs ih =>
    have hb := b.toNat_lt
    rw [encodeOctets, List.flatMap_cons, Utf8.octets_append, octets_encodeOctet hkeep, List.append_assoc]
    rw [encodeOctets] at ih
    split
    · next h =>
      rw [List.singleton_append, decode_cons (hkeep b h).2, ih]
      rfl
    · have hnum : 16 * (b.toNat / 16) + b.toNat % 16 = b.toNat := by omega
      simp only [List.cons_append, List.nil_append]
      rw [decode_triplet (hexValue?_hexDigit (by omega)) (hexValue?_hexDigit (by omega)), ih, hnum,
        UInt8.ofNat_toNat]

theorem decode_encodeOctets {keep : UInt8 → Bool} (hkeep : Plain keep) (bs : List UInt8) :
    decode (Utf8.octets (encodeOctets keep bs)) = bs := by
  have h := decode_encodeOctets_append hkeep bs []
  simpa [decode] using h

/-- What is kept is written as it is. -/
theorem encodeOctets_of_kept {keep : UInt8 → Bool} {cs : List Char}
    (h : ∀ c ∈ cs, c.toNat < 128 ∧ keep (UInt8.ofNat c.toNat) = true) :
    encodeOctets keep (Utf8.octets cs) = cs := by
  induction cs with
  | nil => rfl
  | cons c cs ih =>
    obtain ⟨hc, hkeep⟩ := h c List.mem_cons_self
    have hnat : (UInt8.ofNat c.toNat).toNat = c.toNat := by
      rw [UInt8.toNat_ofNat', Nat.mod_eq_of_lt (by omega)]
    have hrest := ih fun c hc => h c (List.mem_cons_of_mem _ hc)
    rw [encodeOctets] at hrest
    rw [encodeOctets, Utf8.octets_cons_of_ascii hc, List.flatMap_cons, hrest, encodeOctet, if_pos hkeep, hnat,
      Char.ofNat_toNat]
    rfl

end Percent

namespace Component

theorem plain_isKept : Percent.Plain isKept := by
  have key : ∀ n : Fin 256, isKept (UInt8.ofNat n) = true → UInt8.ofNat n < 128 ∧ UInt8.ofNat n ≠ 37 := by
    decide +kernel
  intro b
  simpa using key ⟨b.toNat, b.toNat_lt⟩

/-- **Components are read back.** -/
theorem decode_encode (s : String) : decode (encode s) = .ok s := by
  rw [decode, encode, Utf8.encode_ofList, Percent.decode_encodeOctets plain_isKept, Utf8.decode_encode]

/-- Characters of the first 128 without `%` are a component as they are. -/
theorem decode_plain {s : String} (h : ∀ c ∈ s.toList, c.toNat < 128 ∧ c ≠ '%') : decode s = .ok s := by
  have hnone : ∀ b ∈ Utf8.encode s, b ≠ 37 := by
    rw [Utf8.encode_eq, Utf8.octets_of_ascii fun c hc => (h c hc).1]
    intro b hb
    obtain ⟨c, hc, rfl⟩ := List.mem_map.mp hb
    obtain ⟨hlt, hne⟩ := h c hc
    intro heq
    have hnat := congrArg UInt8.toNat heq
    rw [UInt8.toNat_ofNat', Nat.mod_eq_of_lt (by omega)] at hnat
    exact hne (Char.toNat_inj.mp hnat)
  rw [decode, Percent.decode_of_none hnone, Utf8.decode_encode]

/-- A component may go on. -/
theorem encode_append (s t : String) : encode (s ++ t) = encode s ++ encode t := by
  simp [encode, Utf8.encode_eq, Percent.encodeOctets]

/-! ## What components look like -/

/-- Letters, digits, and the marks of components. -/
def isSafe (c : Char) : Bool := c = '%' || (c.toNat < 128 && isKept (UInt8.ofNat c.toNat))

theorem isSafe_of_mem_encode {s : String} {c : Char} (hc : c ∈ (encode s).toList) : isSafe c := by
  have hdigit : ∀ n : Fin 16, isSafe (Percent.hexDigit n) := by decide
  rw [encode, String.toList_ofList] at hc
  obtain ⟨b, -, hc⟩ := List.mem_flatMap.mp hc
  have hb := b.toNat_lt
  rw [Percent.encodeOctet] at hc
  split at hc
  · next h =>
    have hlt : b.toNat < 128 := UInt8.lt_iff_toNat_lt.mp (plain_isKept b h).1
    rw [List.mem_singleton.mp hc]
    simp [isSafe, Utf8.toNat_ofNat hlt, hlt, h]
  · simp only [List.mem_cons, List.not_mem_nil, or_false] at hc
    rcases hc with rfl | rfl | rfl
    · rfl
    · exact hdigit ⟨b.toNat / 16, by omega⟩
    · exact hdigit ⟨b.toNat % 16, by omega⟩

theorem lt_of_isSafe {c : Char} (h : isSafe c = true) : c.toNat < 128 := by
  simp only [isSafe, Bool.or_eq_true, decide_eq_true_eq, Bool.and_eq_true] at h
  rcases h with rfl | h
  · decide
  · exact h.1

/-- Such a character shows, and separates nothing. -/
theorem visible_of_isSafe {c : Char} (h : isSafe c = true) :
    32 < c.toNat ∧ c.toNat < 127 ∧ c ∉ ['&', '=', '?', '#', '/'] := by
  have key : ∀ n : Fin 128, isSafe (Char.ofNat n) = true →
      32 < (Char.ofNat n).toNat ∧ (Char.ofNat n).toNat < 127 ∧ Char.ofNat n ∉ ['&', '=', '?', '#', '/'] := by
    decide +kernel
  have hc := key ⟨c.toNat, lt_of_isSafe h⟩
  rw [Char.ofNat_toNat] at hc
  exact hc h

/-! ## The form of components -/

/-- A character that stands for itself: a letter or digit, or one of nine marks. -/
def IsUnreserved (c : Char) : Prop := c.isAlphanum = true ∨ c ∈ ['-', '_', '.', '!', '~', '*', '\'', '(', ')']

instance (c : Char) : Decidable (IsUnreserved c) := inferInstanceAs (Decidable (_ ∨ _))

/-- A hexadecimal digit in upper case. -/
def IsUpperHex (c : Char) : Prop := c ∈ "0123456789ABCDEF".toList

instance (c : Char) : Decidable (IsUpperHex c) := inferInstanceAs (Decidable (_ ∈ _))

/-- What a component is made of. -/
inductive Written : List Char → Prop
  | nil : Written []
  | unreserved {c : Char} {rest : List Char} : IsUnreserved c → Written rest → Written (c :: rest)
  | triplet {high low : Char} {rest : List Char} :
      IsUpperHex high → IsUpperHex low → Written rest → Written ('%' :: high :: low :: rest)

theorem isUnreserved_of_isKept {b : UInt8} (h : isKept b = true) : IsUnreserved (Char.ofNat b.toNat) := by
  have key : ∀ n : Fin 256, isKept (UInt8.ofNat n) = true → IsUnreserved (Char.ofNat n) := by
    decide +kernel
  have hb := key ⟨b.toNat, b.toNat_lt⟩
  rw [UInt8.ofNat_toNat] at hb
  exact hb h

theorem isUpperHex_hexDigit {n : Nat} (h : n < 16) : IsUpperHex (Percent.hexDigit n) := by
  revert n
  decide

/-- Each octet is a character that stands for itself, or a triplet. -/
theorem written_encodeOctets (bs : List UInt8) : Written (Percent.encodeOctets isKept bs) := by
  induction bs with
  | nil => exact .nil
  | cons b bs ih =>
    have hb := b.toNat_lt
    rw [Percent.encodeOctets, List.flatMap_cons, Percent.encodeOctet]
    split
    · next hkept => exact .unreserved (isUnreserved_of_isKept hkept) ih
    · exact .triplet (isUpperHex_hexDigit (by omega)) (isUpperHex_hexDigit (by omega)) ih

theorem written_encode (s : String) : Written (encode s).toList := by
  rw [encode, String.toList_ofList]
  exact written_encodeOctets _

/-- **The coding of components.** A component is read back. It is made of letters, digits, nine marks, and triplets of
`%` and two hexadecimal digits in upper case, so it holds no separator of a URL and no blank. And what is put together
is written by writing its parts. -/
theorem coding (s t : String) :
    decode (encode s) = .ok s ∧ Written (encode s).toList ∧
      (∀ c ∈ (encode s).toList, 32 < c.toNat ∧ c.toNat < 127 ∧ c ∉ ['&', '=', '?', '#', '/']) ∧
      encode (s ++ t) = encode s ++ encode t :=
  ⟨decode_encode s, written_encode s, fun _ hc => visible_of_isSafe (isSafe_of_mem_encode hc), encode_append s t⟩

end Component

end Hostlink
