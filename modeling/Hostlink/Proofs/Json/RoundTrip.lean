import Hostlink.Proofs.Json.Members
import Hostlink.Proofs.Json.Number

/-!
# What is written as JSON can be read back

Real numbers aside, a value that is in order and not nested too deep is found again in its text.

* `Json.Integral` — all numbers inside are integers of 64 bits;
* `Reads.value`, `Reads.items`, `Reads.members` — values, lists and objects are read back;
* `Json.Portable` — what JSON carries;
* `Json.parse_render` — **a whole text is read back**.
-/

namespace Hostlink.Json

/-! ## Integers -/

mutual

/-- All numbers inside are integers of 64 bits, signed or unsigned. -/
def Integral : Json → Prop
  | .number (.int n) => -2 ^ 63 ≤ n ∧ n < 2 ^ 64
  | .number (.real _) => False
  | .array items => IntegralItems items
  | .object members => IntegralMembers members
  | _ => True

/-- All numbers in a list are integers. -/
def IntegralItems : List Json → Prop
  | [] => True
  | v :: rest => Integral v ∧ IntegralItems rest

/-- All numbers among members are integers. -/
def IntegralMembers : List (String × Json) → Prop
  | [] => True
  | (_, v) :: rest => Integral v ∧ IntegralMembers rest

end

/-! ## Texts of lists -/

/-- Items, the first of them without a comma before it if it is the first of the list. -/
def itemText (first : Bool) : List Json → List Char
  | [] => []
  | v :: rest => (if first then [] else [',']) ++ (chars v ++ itemText false rest)

/-- Members, the first of them without a comma before it if it is the first of the object. -/
def memberText (first : Bool) : List (String × Json) → List Char
  | [] => []
  | (k, v) :: rest => (if first then [] else [',']) ++ (quote k ++ ':' :: (chars v ++ memberText false rest))

theorem itemChars_eq (items : List Json) : itemChars items = itemText true items := by
  have hcons : ∀ (v : Json) (rest : List Json), itemChars (v :: rest) = chars v ++ itemText false rest := by
    intro v rest
    induction rest generalizing v with
    | nil => simp [itemChars, itemText]
    | cons w rest ih => rw [itemChars, ih, itemText]; rfl
  cases items with
  | nil => rfl
  | cons v rest => rw [hcons]; rfl

theorem memberChars_eq (members : List (String × Json)) : memberChars members = memberText true members := by
  have hcons : ∀ (k : String) (v : Json) (rest : List (String × Json)),
      memberChars ((k, v) :: rest) = quote k ++ ':' :: (chars v ++ memberText false rest) := by
    intro k v rest
    induction rest generalizing k v with
    | nil => simp [memberChars, memberText]
    | cons m rest ih =>
      obtain ⟨k', v'⟩ := m
      rw [memberChars, ih, memberText]
      rfl
  cases members with
  | nil => rfl
  | cons m rest => rw [hcons]; rfl

/-! ## How values begin -/

/-- A value begins neither with a blank nor with the end of a list. -/
theorem exists_octets_chars {v : Json} (hi : v.Integral) :
    ∃ x xs, Utf8.octets v.chars = x :: xs ∧ Cursor.isSpace x = false ∧ x ≠ 93 := by
  cases v with
  | null => exact ⟨110, _, rfl, rfl, by decide⟩
  | bool b =>
    cases b with
    | false => exact ⟨102, _, rfl, rfl, by decide⟩
    | true => exact ⟨116, _, rfl, rfl, by decide⟩
  | number n =>
    cases n with
    | real x => exact hi.elim
    | int n =>
      by_cases hn : n < 0
      · exact ⟨45, _, by rw [chars, Number.text, if_pos hn]; rfl, rfl, by decide⟩
      · have hdigits : Utf8.octets (chars (.number (.int n))) = digitOctets n.natAbs := by
          rw [chars, Number.text, if_neg hn, List.nil_append, octets_toDigits]
        obtain ⟨x, xs, hx⟩ := List.exists_cons_of_ne_nil (digitOctets_ne_nil n.natAbs)
        have hdigit : Reader.isDigit x = true := isDigit_of_mem (hx ▸ List.mem_cons_self)
        exact ⟨x, xs, hdigits.trans hx, not_isSpace_of_isDigit hdigit, ne_of_isDigit hdigit rfl⟩
  | string s => exact ⟨34, _, rfl, rfl, by decide⟩
  | array items => exact ⟨91, _, rfl, rfl, by decide⟩
  | object members => exact ⟨123, _, rfl, rfl, by decide⟩

namespace Reads

variable {rest : List UInt8} {room fuel : Nat}

/-! ## Scalars -/

theorem null (room fuel : Nat) (rest : List UInt8) :
    Reads (Reader.valueFrom room (fuel + 1)) (Utf8.octets Json.null.chars) .null rest := by
  rw [Reader.valueFrom]
  refine .peekToken (p := [110, 117, 108, 108]) (by rintro x ⟨⟩; rfl) ?_
  simp only [List.cons_append, List.head?_cons, if_true]
  refine .advance_bind ?_
  exact .bind (q := []) (.word Reader.ull rest) (.pure _ rest)

theorem bool (b : Bool) (room fuel : Nat) (rest : List UInt8) :
    Reads (Reader.valueFrom room (fuel + 1)) (Utf8.octets (Json.bool b).chars) (.bool b) rest := by
  rw [Reader.valueFrom]
  cases b with
  | true =>
    refine .peekToken (p := [116, 114, 117, 101]) (by rintro x ⟨⟩; rfl) ?_
    simp only [List.cons_append, List.head?_cons, if_true]
    refine .advance_bind ?_
    exact .bind (q := []) (.word Reader.rue rest) (.pure _ rest)
  | false =>
    refine .peekToken (p := [102, 97, 108, 115, 101]) (by rintro x ⟨⟩; rfl) ?_
    simp only [List.cons_append, List.head?_cons, if_true]
    refine .advance_bind ?_
    exact .bind (q := []) (.word Reader.alse rest) (.pure _ rest)

theorem int {n : Int} (hlow : -2 ^ 63 ≤ n) (hhigh : n < 2 ^ 64) (room fuel : Nat) (hr : Stops rest) :
    Reads (Reader.valueFrom room (fuel + 1)) (Utf8.octets (Json.int n).chars) (.int n) rest := by
  have hnumber := number hlow hhigh hr
  rw [Reader.valueFrom]
  -- the sign is read apart, and the digits after it as of any number
  by_cases hn : n < 0
  · have hchars : Utf8.octets (Json.int n).chars = 45 :: Utf8.octets (Nat.toDigits 10 n.natAbs) := by
      rw [Json.int, chars, Number.text, if_pos hn]
      rfl
    rw [decide_eq_true hn] at hnumber
    rw [hchars]
    refine .peekToken (by rintro x ⟨⟩; rfl) ?_
    simp only [List.cons_append, List.head?_cons, if_true]
    exact .advance_bind (hnumber.map _)
  · have hchars : Utf8.octets (Json.int n).chars = Utf8.octets (Nat.toDigits 10 n.natAbs) := by
      rw [Json.int, chars, Number.text, if_neg hn, List.nil_append]
    obtain ⟨x, xs, hx⟩ := List.exists_cons_of_ne_nil (digitOctets_ne_nil n.natAbs)
    have hdigit : Reader.isDigit x = true := isDigit_of_mem (hx ▸ List.mem_cons_self)
    rw [decide_eq_false hn] at hnumber
    rw [hchars]
    rw [octets_toDigits, hx] at hnumber ⊢
    refine .peekToken (by rintro y ⟨⟩; exact not_isSpace_of_isDigit hdigit) ?_
    -- a digit is the beginning of nothing else
    have h110 : x ≠ 110 := ne_of_isDigit hdigit rfl
    have h116 : x ≠ 116 := ne_of_isDigit hdigit rfl
    have h102 : x ≠ 102 := ne_of_isDigit hdigit rfl
    have h45 : x ≠ 45 := ne_of_isDigit hdigit rfl
    simp only [List.cons_append, List.head?_cons, h110, h116, h102, h45, hdigit, if_true, if_false]
    exact hnumber.map _

theorem octets_quote (s : String) : Utf8.octets (quote s) = 34 :: Utf8.octets (s.toList.flatMap escapeChar ++ ['"']) :=
  rfl

theorem string (s : String) (room fuel : Nat) (rest : List UInt8) :
    Reads (Reader.valueFrom room (fuel + 1)) (Utf8.octets (Json.string s).chars) (.string s) rest := by
  have hdigit : Reader.isDigit 34 = false := rfl
  rw [Reader.valueFrom, chars, octets_quote]
  refine .peekToken (by rintro x ⟨⟩; rfl) ?_
  simp only [List.cons_append, List.head?_cons, hdigit, Bool.false_eq_true, if_true, if_false]
  exact .advance_bind ((stringBody s rest).map _)

/-! ## Punctuation -/

theorem nextItem_first {x : UInt8} {xs : List UInt8} (hspace : Cursor.isSpace x = false) (hx : x ≠ 93)
    (hrest : (x :: xs) = rest) : Reads (Reader.nextItem true) [] true rest := by
  subst hrest
  refine .peekToken (by rintro y ⟨⟩; exact hspace) ?_
  simp only [List.nil_append, List.head?_cons, hx, if_true, if_false]
  exact .pure _ _

theorem nextItem_later {x : UInt8} {xs : List UInt8} (hspace : Cursor.isSpace x = false) (hx : x ≠ 93)
    (hrest : (x :: xs) = rest) : Reads (Reader.nextItem false) [44] true rest := by
  subst hrest
  refine .peekToken (by rintro y ⟨⟩; rfl) ?_
  simp only [List.cons_append, List.head?_cons, Bool.false_eq_true, if_true, if_false]
  refine .advance_bind (.peekToken (by rintro y ⟨⟩; exact hspace) ?_)
  rw [List.nil_append, List.head?_cons]
  split
  · next h => exact absurd (Option.some.inj h) hx
  · exact .pure _ _
  · next h => cases h

theorem nextItem_end (first : Bool) (rest : List UInt8) : Reads (Reader.nextItem first) [] false (93 :: rest) := by
  refine .peekToken (by rintro y ⟨⟩; rfl) ?_
  simp only [List.nil_append, List.head?_cons, if_true]
  exact .pure _ _

theorem nextKey_first (k : String) (rest : List UInt8) :
    Reads (Reader.nextKey true) (Utf8.octets (quote k)) (some k) rest := by
  rw [octets_quote]
  refine .peekToken (by rintro y ⟨⟩; rfl) ?_
  simp only [List.cons_append, List.head?_cons, if_true]
  exact .advance_bind ((stringBody k rest).map _)

theorem nextKey_later (k : String) (rest : List UInt8) :
    Reads (Reader.nextKey false) (44 :: Utf8.octets (quote k)) (some k) rest := by
  rw [octets_quote]
  refine .peekToken (by rintro y ⟨⟩; rfl) ?_
  simp only [List.cons_append, List.head?_cons, Bool.false_eq_true, if_true, if_false]
  refine .advance_bind (.peekToken (by rintro y ⟨⟩; rfl) ?_)
  simp only [List.cons_append, List.head?_cons]
  exact .advance_bind ((stringBody k rest).map _)

theorem nextKey_end (first : Bool) (rest : List UInt8) : Reads (Reader.nextKey first) [] none (125 :: rest) := by
  refine .peekToken (by rintro y ⟨⟩; rfl) ?_
  simp only [List.nil_append, List.head?_cons, if_true]
  exact .pure _ _

theorem colon (rest : List UInt8) : Reads Reader.colon [58] () rest := by
  refine .peekToken (by rintro y ⟨⟩; rfl) ?_
  exact .advance _ rest

theorem enter (inside : Nat) (x : UInt8) (rest : List UInt8) : Reads (Reader.enter (inside + 1)) [x] inside rest :=
  .advance_bind (.pure inside rest)

theorem closeList {α : Type} (a : α) (rest : List UInt8) :
    Reads (Reader.close Reader.tryEndList (.ok a)) [93] a rest := fun pos => ⟨pos.next 93, rfl⟩

theorem closeObject {α : Type} (a : α) (rest : List UInt8) :
    Reads (Reader.close Reader.tryEndObject (.ok a)) [125] a rest := fun pos => ⟨pos.next 125, rfl⟩

/-! ## Values -/

mutual

/-- A value is read back before whatever stops. -/
theorem value (v : Json) (hi : v.Integral) (hc : v.Canonical) {room fuel : Nat} (hroom : v.depth ≤ room)
    (hfuel : 2 * (Utf8.octets v.chars).length ≤ fuel) {rest : List UInt8} (hr : Stops rest) :
    Reads (Reader.valueFrom room fuel) (Utf8.octets v.chars) v rest := by
  obtain ⟨x, xs, hx, -⟩ := exists_octets_chars hi
  obtain ⟨fuel, rfl⟩ : ∃ n, fuel = n + 2 := ⟨fuel - 2, by rw [hx, List.length_cons] at hfuel; omega⟩
  match v, hi, hc, hroom, hfuel with
  | .null, _, _, _, _ => exact null room _ rest
  | .bool b, _, _, _, _ => exact bool b room _ rest
  | .number (.int n), hi, _, _, _ => exact int hi.1 hi.2 room _ hr
  | .number (.real _), hi, _, _, _ => exact hi.elim
  | .string s, _, _, _, _ => exact string s room _ rest
  -- a list takes a step of its own besides those of its items, for which its brackets leave the fuel
  | .array vs, hi, hc, hroom, hfuel =>
    obtain ⟨inside, rfl⟩ : ∃ n, room = n + 1 := ⟨room - 1, by rw [depth] at hroom; omega⟩
    rw [depth] at hroom
    have htext : Utf8.octets (Json.array vs).chars = [91] ++ (Utf8.octets (itemText true vs) ++ [93]) := by
      rw [chars, itemChars_eq, Utf8.octets_cons_of_ascii (by decide), Utf8.octets_append]
      rfl
    rw [htext] at hfuel ⊢
    rw [Reader.valueFrom]
    refine .peekToken (by rintro y ⟨⟩; rfl) ?_
    simp only [List.cons_append, List.head?_cons, if_true]
    have hdigit : Reader.isDigit 91 = false := rfl
    simp only [hdigit, Bool.false_eq_true, if_false]
    refine .bind (p := [91]) (enter inside 91 _) (.bind ?_ (closeList _ rest))
    refine items vs hi hc (by omega) ?_
    simp only [List.length_append, List.length_cons, List.length_nil] at hfuel
    omega
  | .object ms, hi, ⟨hordered, hc⟩, hroom, hfuel =>
    obtain ⟨inside, rfl⟩ : ∃ n, room = n + 1 := ⟨room - 1, by rw [depth] at hroom; omega⟩
    rw [depth] at hroom
    have htext : Utf8.octets (Json.object ms).chars = [123] ++ (Utf8.octets (memberText true ms) ++ [125]) := by
      rw [chars, memberChars_eq, Utf8.octets_cons_of_ascii (by decide), Utf8.octets_append]
      rfl
    -- members in order are those that are found when they are read one after another
    have hfound : Json.object ms = .object (Members.ofList ms) := by rw [Members.ofList_of_ordered hordered]
    rw [htext] at hfuel ⊢
    rw [hfound, Reader.valueFrom]
    refine .peekToken (by rintro y ⟨⟩; rfl) ?_
    simp only [List.cons_append, List.head?_cons, if_true]
    have hdigit : Reader.isDigit 123 = false := rfl
    simp only [hdigit, Bool.false_eq_true, if_false]
    refine .bind (p := [123]) (enter inside 123 _) (.bind ?_ (closeObject _ rest))
    refine members ms hi hc (by omega) ?_
    simp only [List.length_append, List.length_cons, List.length_nil] at hfuel
    omega

/-- Items are read back before the end of their list. -/
theorem items (vs : List Json) (hi : IntegralItems vs) (hc : CanonicalItems vs) {room fuel : Nat} {first : Bool}
    (hroom : depthItems vs ≤ room) (hfuel : 2 * (Utf8.octets (itemText first vs)).length < fuel)
    {rest : List UInt8} :
    Reads (Reader.itemsFrom room first fuel) (Utf8.octets (itemText first vs)) vs (93 :: rest) := by
  obtain ⟨fuel, rfl⟩ : ∃ n, fuel = n + 1 := ⟨fuel - 1, by omega⟩
  rw [Reader.itemsFrom]
  match vs, hi, hc, hroom, hfuel with
  | [], _, _, _, _ => exact .bind (p := []) (nextItem_end first rest) (.pure [] _)
  | v :: vs, ⟨hv, hvs⟩, ⟨hcv, hcvs⟩, hroom, hfuel =>
    obtain ⟨x, xs, hx, hspace, hend⟩ := exists_octets_chars hv
    rw [depthItems] at hroom
    let comma : List UInt8 := if first then [] else [44]
    have htext : Utf8.octets (itemText first (v :: vs)) =
        comma ++ (Utf8.octets v.chars ++ (Utf8.octets (itemText false vs) ++ [])) := by
      rw [itemText, Utf8.octets_append, Utf8.octets_append, List.append_nil]
      cases first <;> rfl
    -- no value is written as nothing, so that each item leaves fewer octets
    have hone : 1 ≤ (Utf8.octets v.chars).length := by simp [hx]
    have hlen := congrArg List.length htext
    simp only [List.length_append, List.length_nil] at hlen
    have hnext : Reads (Reader.nextItem first) comma true
        (Utf8.octets v.chars ++ (Utf8.octets (itemText false vs) ++ []) ++ (93 :: rest)) := by
      rw [hx]
      cases first with
      | true => exact nextItem_first hspace hend rfl
      | false => exact nextItem_later hspace hend rfl
    -- behind an item is a comma, or the end of the list
    have hstop : Stops (Utf8.octets (itemText false vs) ++ [] ++ 93 :: rest) := by
      cases vs with
      | nil => rintro y ⟨⟩; exact .inr (.inl rfl)
      | cons w vs => rintro y ⟨⟩; exact .inl rfl
    rw [htext]
    refine .bind hnext (.bind ?_ (.bind ?_ (.pure _ _)))
    · exact value v hv hcv (by omega) (by omega) hstop
    · exact items vs hvs hcvs (by omega) (by omega)

/-- Members are read back before the end of their object. -/
theorem members (ms : Members) (hi : IntegralMembers ms) (hc : CanonicalMembers ms) {room fuel : Nat}
    {first : Bool} (hroom : depthMembers ms ≤ room)
    (hfuel : 2 * (Utf8.octets (memberText first ms)).length < fuel) {rest : List UInt8} :
    Reads (Reader.membersFrom room first fuel) (Utf8.octets (memberText first ms)) ms (125 :: rest) := by
  obtain ⟨fuel, rfl⟩ : ∃ n, fuel = n + 1 := ⟨fuel - 1, by omega⟩
  rw [Reader.membersFrom]
  match ms, hi, hc, hroom, hfuel with
  | [], _, _, _, _ => exact .bind (p := []) (nextKey_end first rest) (.pure [] _)
  | (k, v) :: ms, ⟨hv, hms⟩, ⟨hcv, hcms⟩, hroom, hfuel =>
    rw [depthMembers] at hroom
    let key : List UInt8 := if first then Utf8.octets (quote k) else 44 :: Utf8.octets (quote k)
    have htext : Utf8.octets (memberText first ((k, v) :: ms)) =
        key ++ ([58] ++ (Utf8.octets v.chars ++ (Utf8.octets (memberText false ms) ++ []))) := by
      rw [memberText, Utf8.octets_append, Utf8.octets_append, Utf8.octets_cons_of_ascii (by decide),
        Utf8.octets_append, List.append_nil]
      cases first <;> rfl
    have hlen := congrArg List.length htext
    simp only [List.length_append, List.length_nil, List.length_cons] at hlen
    have hnext : Reads (Reader.nextKey first) key (some k)
        ([58] ++ (Utf8.octets v.chars ++ (Utf8.octets (memberText false ms) ++ [])) ++ (125 :: rest)) := by
      cases first with
      | true => exact nextKey_first k _
      | false => exact nextKey_later k _
    -- behind a member is a comma, or the end of the object
    have hstop : Stops (Utf8.octets (memberText false ms) ++ [] ++ 125 :: rest) := by
      cases ms with
      | nil => rintro y ⟨⟩; exact .inr (.inr rfl)
      | cons m ms => rintro y ⟨⟩; exact .inl rfl
    rw [htext]
    refine .bind hnext (.bind (colon _) (.bind ?_ (.bind ?_ (.pure _ _))))
    · exact value v hv hcv (by omega) (by omega) hstop
    · exact members ms hms hcms (by omega) (by omega)

end

/-- Where nothing follows, nothing is missed. -/
theorem finish : Reads Reader.finish [] () [] := by
  refine .peekToken (p := []) (by rintro y ⟨⟩) ?_
  exact .pure () []

end Reads

/-! ## Whole texts -/

/-- A value that JSON carries: its numbers are integers, its objects are in order, and it is nested at most
`room` deep. -/
structure Portable (room : Nat) (v : Json) : Prop where
  integral : v.Integral
  canonical : v.Canonical
  depth_le : v.depth ≤ room

theorem Portable.mono {m n : Nat} {v : Json} (h : v.Portable m) (hmn : m ≤ n) : v.Portable n :=
  ⟨h.integral, h.canonical, Nat.le_trans h.depth_le hmn⟩

/-- A scalar without a number. -/
theorem portable_string (room : Nat) (s : String) : (Json.string s).Portable room :=
  ⟨trivial, trivial, Nat.zero_le _⟩

/-- A list of values that JSON carries. -/
theorem portable_array {room : Nat} {vs : List Json} (h : ∀ v ∈ vs, v.Portable room) :
    (Json.array vs).Portable (room + 1) := by
  have key : IntegralItems vs ∧ CanonicalItems vs ∧ depthItems vs ≤ room := by
    induction vs with
    | nil => exact ⟨trivial, trivial, Nat.zero_le _⟩
    | cons v vs ih =>
      have hv := h v List.mem_cons_self
      obtain ⟨hi, hc, hd⟩ := ih fun v hv => h v (List.mem_cons_of_mem _ hv)
      exact ⟨⟨hv.integral, hi⟩, ⟨hv.canonical, hc⟩, Nat.max_le.mpr ⟨hv.depth_le, hd⟩⟩
  exact ⟨key.1, key.2.1, Nat.succ_le_succ key.2.2⟩

/-- The object of pairs that JSON carries. -/
theorem portable_ofMembers {room : Nat} {pairs : List (String × Json)} (h : ∀ p ∈ pairs, p.2.Portable room) :
    (Json.ofMembers pairs).Portable (room + 1) := by
  have key : ∀ ms : Members, (∀ p ∈ ms, p.2.Portable room) →
      IntegralMembers ms ∧ CanonicalMembers ms ∧ depthMembers ms ≤ room := by
    intro ms hms
    induction ms with
    | nil => exact ⟨trivial, trivial, Nat.zero_le _⟩
    | cons m ms ih =>
      have hm := hms m List.mem_cons_self
      obtain ⟨hi, hc, hd⟩ := ih fun p hp => hms p (List.mem_cons_of_mem _ hp)
      exact ⟨⟨hm.integral, hi⟩, ⟨hm.canonical, hc⟩, Nat.max_le.mpr ⟨hm.depth_le, hd⟩⟩
  obtain ⟨hi, hc, hd⟩ := key (Members.ofList pairs) fun p hp => h p (Members.mem_of_mem_ofList hp)
  exact ⟨hi, ⟨Members.ordered_ofList pairs, hc⟩, Nat.succ_le_succ hd⟩

/-- A whole text is read back by what reads it. -/
theorem run_of_reads {α : Type} {r : Reader α} {octets : List UInt8} {a : α} (h : Reads r octets a []) :
    r.run octets = .ok a := by
  have hwhole : Reads (do let a ← r; Reader.finish; pure a) (octets ++ ([] ++ [])) a [] :=
    .bind h (.bind .finish (.pure a []))
  obtain ⟨pos, hpos⟩ := hwhole ⟨1, 0⟩
  rw [List.append_nil, List.append_nil, List.append_nil] at hpos
  rw [Reader.run, Cursor.start, hpos]

/-- **A whole text is read back.** -/
theorem parse_render {v : Json} (h : v.Portable maxDepth) : parse (Utf8.encode v.render) = .ok v := by
  rw [render, Utf8.encode_ofList]
  refine run_of_reads fun pos => ?_
  have hstop : Stops [] := by rintro y ⟨⟩
  exact Reads.value v h.integral h.canonical h.depth_le (by simp) hstop pos

end Hostlink.Json
