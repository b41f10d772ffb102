import Hostlink.Json.Basic
import Hostlink.Proofs.Lists
import Mathlib.Data.List.Induction
import Mathlib.Data.List.Sort

/-!
# Objects as maps

* `Members.lookup_insert`, `Members.lookup_ofList` — what is found under a key: the last value that it
  was given;
* `Members.Ordered.ext` — maps in order in which the same is found are the same;
* `Members.ordered_ofList` — the map of any list of pairs is in order;
* `Members.ofList_of_ordered` — a list that is in order is its own map;
* `Members.Ordered.lookup_union` — a map that overrides another;
* `Members.filter_ofList` — keys may be taken out before or after.
-/

namespace Hostlink.Json.Members

variable {ms : Members}

/-! ## One more key -/

theorem insert_eq (key : String) (value : Json) (ms : Members) : insert key value ms = putInOrder key value ms := by
  induction ms with
  | nil => rfl
  | cons m ms ih => rw [insert, putInOrder, ih]

theorem mem_insert {key : String} {value : Json} {p : String × Json} (hp : p ∈ insert key value ms) :
    p = (key, value) ∨ p ∈ ms := by
  rw [insert_eq] at hp
  exact mem_putInOrder hp

theorem Ordered.insert (h : Ordered ms) (key : String) (value : Json) :
    Ordered (Members.insert key value ms) := by
  rw [insert_eq]
  exact pairwise_putInOrder h key value

theorem lookup_cons (key k : String) (v : Json) (ms : Members) :
    lookup key ((k, v) :: ms) = if key = k then some v else lookup key ms :=
  lookup_cons_ite key k v ms

theorem lookup_insert (key : String) (value : Json) (ms : Members) (k : String) :
    lookup k (insert key value ms) = if k = key then some value else lookup k ms := by
  rw [insert_eq]
  exact lookup_putInOrder key value ms k

/-- A key above all others goes to the end. -/
theorem insert_last {key : String} (h : ∀ p ∈ ms, p.1 < key) (value : Json) :
    insert key value ms = ms ++ [(key, value)] := by
  induction ms with
  | nil => rfl
  | cons m ms ih =>
    obtain ⟨k, v⟩ := m
    have hk : k < key := h (k, v) List.mem_cons_self
    rw [insert, if_neg (Std.not_lt.mpr (Std.le_of_lt hk)), if_neg (Std.ne_of_lt hk).symm,
      ih fun p hp => h p (List.mem_cons_of_mem _ hp)]
    rfl

/-- A key before all others goes to the start. -/
theorem insert_first {key : String} (h : ∀ p ∈ ms, key < p.1) (value : Json) :
    insert key value ms = (key, value) :: ms := by
  cases ms with
  | nil => rfl
  | cons m ms => rw [insert, if_pos (h m List.mem_cons_self)]

/-- Some keys are taken out before or after one more key. -/
theorem filter_insert (h : Ordered ms) (p : String → Bool) (key : String) (value : Json) :
    (insert key value ms).filter (p ·.1) =
      if p key then insert key value (ms.filter (p ·.1)) else ms.filter (p ·.1) := by
  induction ms with
  | nil =>
    rw [insert, List.filter_cons]
    rfl
  | cons m ms ih =>
    obtain ⟨k, v⟩ := m
    obtain ⟨hk, hms⟩ := List.pairwise_cons.mp h
    rw [insert]
    split
    · next hlt =>
      -- the key comes first, also among those that are left
      rw [List.filter_cons]
      split
      · rw [insert_first]
        intro q hq
        rcases List.mem_cons.mp (List.mem_filter.mp hq).1 with rfl | hq
        · exact hlt
        · exact Std.lt_trans hlt (hk q hq)
      · rfl
    · next hge =>
      split
      · next heq =>
        subst heq
        rw [List.filter_cons, List.filter_cons]
        split
        · rw [insert, if_neg hge, if_pos rfl]
        · rfl
      · next hne =>
        rw [List.filter_cons, List.filter_cons, ih hms]
        split
        · split
          · rw [insert, if_neg hge, if_neg hne]
          · rfl
        · rfl

/-! ## Finding keys -/

theorem lookup_append (key : String) (ms others : Members) :
    lookup key (ms ++ others) = (lookup key ms).or (lookup key others) := by
  induction ms with
  | nil => rfl
  | cons m ms ih =>
    obtain ⟨k, v⟩ := m
    rw [List.cons_append, lookup_cons, lookup_cons, ih]
    split <;> rfl

theorem lookup_eq_none_iff {key : String} {ms : Members} : lookup key ms = none ↔ key ∉ ms.map (·.1) := by
  rw [lookup, List.lookup_eq_none_iff, List.mem_map, not_exists]
  refine forall_congr' fun p => ?_
  rw [not_and, bne_iff_ne]
  exact imp_congr_right fun _ => ne_comm

theorem lookup_eq_none {key : String} {ms : Members} (h : ∀ p ∈ ms, p.1 ≠ key) : lookup key ms = none :=
  lookup_eq_none_iff.mpr fun hmem =>
    have ⟨p, hp, heq⟩ := List.mem_map.mp hmem
    h p hp heq

theorem mem_of_lookup {key : String} {ms : Members} {v : Json} (h : lookup key ms = some v) : (key, v) ∈ ms := by
  induction ms with
  | nil => cases h
  | cons m ms ih =>
    obtain ⟨k, w⟩ := m
    rw [lookup_cons] at h
    split at h
    · next hk =>
      rw [hk, ← Option.some.inj h]
      exact List.mem_cons_self
    · exact List.mem_cons_of_mem _ (ih h)

/-- Where keys do not repeat, each is found. -/
theorem lookup_of_mem {ms : List (String × Json)} (hnodup : (ms.map (·.1)).Nodup) {key : String} {v : Json}
    (h : (key, v) ∈ ms) : lookup key ms = some v :=
  lookup_of_nodup hnodup h

/-! ## Maps in order -/

instance (ms : Members) : Decidable (Ordered ms) := inferInstanceAs (Decidable (ms.Pairwise (·.1 < ·.1)))

theorem Ordered.nodup_keys (h : Ordered ms) : (ms.map (·.1)).Nodup :=
  List.pairwise_map.mpr (h.imp fun hlt => Std.ne_of_lt hlt)

/-- What stands in a map in order is what is found in it. -/
theorem Ordered.mem_iff_lookup (h : Ordered ms) {p : String × Json} : p ∈ ms ↔ lookup p.1 ms = some p.2 :=
  ⟨lookup_of_mem h.nodup_keys, mem_of_lookup⟩

/-- Maps in order in which the same is found are the same. -/
theorem Ordered.ext {others : Members} (h : Ordered ms) (h' : Ordered others)
    (heq : ∀ key, lookup key ms = lookup key others) : ms = others := by
  have hantisymm : Std.Antisymm fun p q : String × Json => p.1 < q.1 :=
    ⟨fun p q hpq hqp => absurd (Std.lt_trans hpq hqp) (Std.lt_irrefl)⟩
  have hirrefl : Std.Irrefl fun p q : String × Json => p.1 < q.1 := ⟨fun p => Std.lt_irrefl⟩
  refine List.Pairwise.eq_of_mem_iff h h' fun p => ?_
  rw [h.mem_iff_lookup, h'.mem_iff_lookup, heq]

/-- In a map in order, a value that is taken out uncovers no other. -/
theorem Ordered.lookup_filter (h : Ordered ms) (p : String × Json → Bool) (key : String) :
    lookup key (ms.filter p) = (lookup key ms).filter fun v => p (key, v) := by
  refine Option.ext fun v => ?_
  have hfilter : Ordered (ms.filter p) := h.filter p
  rw [← hfilter.mem_iff_lookup (p := (key, v)), Option.filter_eq_some_iff, ← h.mem_iff_lookup (p := (key, v)),
    List.mem_filter]

/-! ## Lists of pairs -/

@[simp] theorem ofList_nil : ofList [] = [] := rfl

theorem ofList_concat (pairs : List (String × Json)) (p : String × Json) :
    ofList (pairs ++ [p]) = insert p.1 p.2 (ofList pairs) := by
  rw [ofList, List.foldl_append]
  rfl

theorem ordered_ofList (pairs : List (String × Json)) : Ordered (ofList pairs) := by
  induction pairs using List.reverseRecOn with
  | nil => exact List.Pairwise.nil
  | append_singleton pairs p ih => rw [ofList_concat]; exact ih.insert p.1 p.2

/-- The last pair of a key counts. -/
theorem lookup_ofList (key : String) (pairs : List (String × Json)) :
    lookup key (ofList pairs) = lookup key pairs.reverse := by
  induction pairs using List.reverseRecOn with
  | nil => rfl
  | append_singleton pairs p ih =>
    rw [ofList_concat, lookup_insert, ih, List.reverse_append, List.reverse_singleton, List.singleton_append,
      lookup_cons]

/-- Where keys do not repeat, it does not matter which pair counts. -/
theorem lookup_ofList_of_nodup {pairs : List (String × Json)} (hnodup : (pairs.map (·.1)).Nodup) (key : String) :
    lookup key (ofList pairs) = lookup key pairs := by
  have hreverse : (pairs.reverse.map (·.1)).Nodup := by
    rw [List.map_reverse]
    exact List.nodup_reverse.mpr hnodup
  rw [lookup_ofList]
  refine Option.ext fun v => ⟨fun h => ?_, fun h => ?_⟩
  · exact lookup_of_mem hnodup (List.mem_reverse.mp (mem_of_lookup h))
  · exact lookup_of_mem hreverse (List.mem_reverse.mpr (mem_of_lookup h))

/-- A list that is in order is its own map. -/
theorem ofList_of_ordered (h : Ordered ms) : ofList ms = ms := by
  induction ms using List.reverseRecOn with
  | nil => rfl
  | append_singleton ms p ih =>
    obtain ⟨hms, -, hlt⟩ := List.pairwise_append.mp h
    rw [ofList_concat, ih hms, insert_last fun q hq => hlt q hq p (List.mem_singleton_self p)]

/-- A map in order has one value for a key, whichever end it is searched from. -/
theorem Ordered.lookup_reverse (h : Ordered ms) (key : String) : lookup key ms.reverse = lookup key ms := by
  rw [← lookup_ofList, ofList_of_ordered h]

theorem Ordered.union (h : Ordered ms) (others : Members) : Ordered (Members.union ms others) := by
  rw [Members.union]
  induction others generalizing ms with
  | nil => exact h
  | cons p others ih => exact ih (h.insert p.1 p.2)

theorem mem_union {others : Members} {p : String × Json} (hp : p ∈ Members.union ms others) : p ∈ ms ∨ p ∈ others := by
  rw [Members.union] at hp
  induction others generalizing ms with
  | nil => exact .inl hp
  | cons q others ih =>
    rcases ih hp with hp | hp
    · exact (mem_insert hp).elim (fun hq => .inr (hq ▸ List.mem_cons_self)) .inl
    · exact .inr (List.mem_cons_of_mem _ hp)

/-- The second map counts where it has a key. -/
theorem Ordered.lookup_union {others : Members} (h : Ordered others) (key : String) (ms : Members) :
    lookup key (Members.union ms others) = (lookup key others).or (lookup key ms) := by
  rw [← h.lookup_reverse, Members.union]
  clear h
  induction others generalizing ms with
  | nil => rfl
  | cons p others ih =>
    rw [List.foldl_cons, ih, lookup_insert, List.reverse_cons, lookup_append, lookup_cons, Option.or_assoc]
    split <;> rfl

theorem filter_ofList (p : String → Bool) (pairs : List (String × Json)) :
    (ofList pairs).filter (p ·.1) = ofList (pairs.filter (p ·.1)) := by
  induction pairs using List.reverseRecOn with
  | nil => rfl
  | append_singleton pairs q ih =>
    rw [ofList_concat, filter_insert (ordered_ofList pairs), ih, List.filter_append, List.filter_cons]
    split
    · rw [List.filter_nil, ofList_concat]
    · rw [List.filter_nil, List.append_nil]

theorem mem_of_mem_ofList {pairs : List (String × Json)} {p : String × Json} (hp : p ∈ ofList pairs) :
    p ∈ pairs := by
  induction pairs using List.reverseRecOn with
  | nil => cases hp
  | append_singleton pairs q ih =>
    rw [ofList_concat] at hp
    rcases mem_insert hp with rfl | hp
    · exact List.mem_append_right _ (List.mem_singleton_self _)
    · exact List.mem_append_left _ (ih hp)

end Hostlink.Json.Members
