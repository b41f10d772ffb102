import Hostlink.Proofs.Json.RoundTrip

/-!
# What shape a value has

The first octets of a text tell what shape its value has, if it has one. The rest of the text need not be
one that is read back: it may hold real numbers, or be nested too deep.

* `Yields r p Q` — whatever `r` finds in front of `p` has the property `Q`;
* `Yields.object`, `Yields.null_object` — an object, and a list of `null` and an object;
* `Json.shape_of_parse` — **the value of a text that is written as such a list is such a list**.
-/

namespace Hostlink.Json

/-- Whatever a reader finds where `p` follows has a property. -/
def Yields {α : Type} (r : Reader α) (p : List UInt8) (Q : α → Prop) : Prop :=
  ∀ pos a c, r ⟨pos, p⟩ = .ok (a, c) → Q a

namespace Yields

variable {α β : Type} {p q : List UInt8} {Q : α → Prop} {R : β → Prop}

/-! ## One reader after another -/

theorem pure {a : α} (h : Q a) : Yields (Pure.pure a) p Q := by
  intro pos b c hrun
  obtain ⟨rfl, -⟩ := Prod.mk.inj (Except.ok.inj hrun)
  exact h

/-- What is found first decides what is found after it, wherever that is. -/
theorem bind {r : Reader α} {f : α → Reader β} (h : Yields r p Q) (h' : ∀ a, Q a → ∀ q, Yields (f a) q R) :
    Yields (r >>= f) p R := by
  intro pos b c hrun
  have hrun : Except.bind (r ⟨pos, p⟩) (fun found => f found.1 found.2) = .ok (b, c) := hrun
  cases hfirst : r ⟨pos, p⟩ with
  | error e =>
    rw [hfirst] at hrun
    cases hrun
  | ok found =>
    obtain ⟨a, pos', q⟩ := found
    rw [hfirst] at hrun
    exact h' a (h pos a _ hfirst) q pos' b c hrun

/-- What is read for certain is passed. -/
theorem of_reads {r : Reader α} {f : α → Reader β} {a : α} (h : Reads r p a q) (h' : Yields (f a) q R) :
    Yields (r >>= f) (p ++ q) R := by
  intro pos b c hrun
  obtain ⟨pos', hfirst⟩ := h pos
  have hrun : Except.bind (r ⟨pos, p ++ q⟩) (fun found => f found.1 found.2) = .ok (b, c) := hrun
  rw [hfirst] at hrun
  exact h' pos' b c hrun

theorem peekToken {f : Option UInt8 → Reader β} (hspace : ∀ x ∈ p.head?, Cursor.isSpace x = false)
    (h : Yields (f p.head?) p R) : Yields (Reader.peekToken >>= f) p R := by
  have hlook : Reads Reader.peekToken [] p.head? p := fun pos => by
    refine ⟨pos, ?_⟩
    show Except.ok ((Cursor.skipSpace ⟨pos, p⟩).rest.head?, Cursor.skipSpace ⟨pos, p⟩) = _
    rw [Cursor.skipSpace_of_head (c := ⟨pos, p⟩) hspace]
  exact of_reads hlook h

theorem failNext (problem : Problem) : Yields (Reader.failNext problem : Reader α) p Q := fun _ _ _ hrun => by
  cases hrun

/-- Nothing is said of what is found. -/
theorem anything (r : Reader α) (p : List UInt8) : Yields r p fun _ => True := fun _ _ _ _ => trivial

theorem close {tryEnd : Cursor → Option Fault × Cursor} {a : α} (h : Q a) :
    Yields (Reader.close tryEnd (.ok a)) p Q := by
  intro pos b c hrun
  unfold Reader.close at hrun
  rcases hend : tryEnd ⟨pos, p⟩ with ⟨_ | fault, after⟩
  all_goals rw [hend] at hrun
  · obtain ⟨rfl, -⟩ := Prod.mk.inj (Except.ok.inj hrun)
    exact h
  · cases hrun

/-! ## Objects and lists -/

/-- After a brace there is an object. -/
theorem object (room fuel : Nat) (p : List UInt8) :
    Yields (Reader.valueFrom room fuel) (123 :: p) fun v => ∃ ms, v = .object ms := by
  have hdigit : Reader.isDigit 123 = false := rfl
  cases fuel with
  | zero => exact failNext _
  | succ fuel =>
    rw [Reader.valueFrom]
    refine .peekToken (by rintro x ⟨⟩; rfl) ?_
    simp only [List.head?_cons, hdigit, Bool.false_eq_true, if_true, if_false]
    refine bind (anything _ _) fun inside _ q => bind (anything _ _) fun members _ q' => ?_
    exact close ⟨_, rfl⟩

/-- After a comma and a brace, the next item is an object. -/
theorem object_item (room fuel : Nat) (p : List UInt8) :
    Yields (Reader.itemsFrom room false fuel) (44 :: 123 :: p) fun vs => ∃ ms rest, vs = .object ms :: rest := by
  cases fuel with
  | zero => exact failNext _
  | succ fuel =>
    rw [Reader.itemsFrom]
    refine of_reads (p := [44]) (Reads.nextItem_later (x := 123) rfl (by decide) rfl) ?_
    refine bind (object room fuel p) fun v hv q => bind (anything _ _) fun rest _ q' => ?_
    obtain ⟨ms, rfl⟩ := hv
    exact pure ⟨ms, rest, rfl⟩

/-- A list that begins with `null` and an object. -/
theorem null_object (inside fuel : Nat) (p : List UInt8) :
    Yields (Reader.valueFrom (inside + 1) fuel) (91 :: (Utf8.octets Json.null.chars ++ 44 :: 123 :: p))
      fun v => ∃ ms rest, v = .array (.null :: .object ms :: rest) := by
  have hdigit : Reader.isDigit 91 = false := rfl
  have hitems : ∀ fuel, Yields (Reader.itemsFrom inside true fuel) (Utf8.octets Json.null.chars ++ 44 :: 123 :: p)
      fun vs => ∃ ms rest, vs = .null :: .object ms :: rest := by
    -- without fuel the reader fails, and whatever fails yields nothing
    intro fuel
    cases fuel with
    | zero => exact failNext _
    | succ fuel =>
      rw [Reader.itemsFrom]
      refine of_reads (p := []) (Reads.nextItem_first (x := 110) rfl (by decide) rfl) ?_
      cases fuel with
      | zero => exact bind (Q := fun _ => False) (failNext _) fun _ h => h.elim
      | succ fuel =>
        refine of_reads (Reads.null inside fuel _) (bind (object_item inside _ p) fun vs hvs q => ?_)
        obtain ⟨ms, rest, rfl⟩ := hvs
        exact pure ⟨ms, rest, rfl⟩
  cases fuel with
  | zero => exact failNext _
  | succ fuel =>
    rw [Reader.valueFrom]
    refine .peekToken (by rintro x ⟨⟩; rfl) ?_
    simp only [List.head?_cons, hdigit, Bool.false_eq_true, if_true, if_false]
    refine of_reads (p := [91]) (Reads.enter inside 91 _) (bind (hitems fuel) fun vs hvs q => ?_)
    obtain ⟨ms, rest, rfl⟩ := hvs
    exact close ⟨ms, rest, rfl⟩

end Yields

/-- What is found in a whole text has the property of what is found in front of it. -/
theorem run_of_yields {α : Type} {r : Reader α} {octets : List UInt8} {Q : α → Prop} {a : α}
    (h : Yields r octets Q) (hrun : r.run octets = .ok a) : Q a := by
  have hwhole : Yields (do let a ← r; Reader.finish; pure a) octets Q :=
    .bind h fun a ha q => .bind (.anything _ _) fun _ _ _ => .pure ha
  unfold Reader.run at hrun
  split at hrun
  · next a' c hok =>
    obtain rfl := Except.ok.inj hrun
    exact hwhole _ a' c hok
  · cases hrun

/-- **The value of a text that is written as a list of `null` and an object is such a list**, whatever the
object holds. -/
theorem shape_of_parse {ms : Members} {v : Json}
    (h : parse (Utf8.encode (Json.array [.null, .object ms]).render) = .ok v) :
    ∃ ms' rest, v = .array (.null :: .object ms' :: rest) := by
  rw [render, Utf8.encode_ofList] at h
  let Q : Json → Prop := fun v => ∃ ms' rest, v = .array (.null :: .object ms' :: rest)
  have hvalue : Yields (Reader.value maxDepth) (Utf8.octets (Json.array [.null, .object ms]).chars) Q :=
    fun pos => Yields.null_object 126 _ _ pos
  have hQ : Q v := run_of_yields hvalue h
  exact hQ

end Hostlink.Json
