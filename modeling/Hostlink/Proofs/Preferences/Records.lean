import Hostlink.Preferences
import Hostlink.Proofs.Json.Members
import Hostlink.Proofs.Lists

/-!
# Records under ids

A host of preferences keeps records in lists and tells them apart by their ids, which are members as others are.

* `Preferences.idOf_insert`, `Preferences.idOf_union` — the id of a record that was changed;
* `Preferences.updateFirst_split`, `Preferences.mem_updateFirst` — the record of an id is changed where it stands;
* `Preferences.map_idOf_updateFirst` — under the ids that there were, if it keeps its own;
* `Preferences.without_split` — **the record of an id is taken out from between the others**.
-/

namespace Hostlink.Preferences

open Json (Members)

variable {id : String} {records : List Members} {ms old : Members} {f : Members → Members}

/-! ## Ids -/

theorem idOf_insert {key : String} (hkey : key ≠ "id") (v : Json) (ms : Members) :
    idOf (ms.insert key v) = idOf ms := by
  rw [idOf, Members.lookup_insert, if_neg hkey.symm, idOf]

theorem idOf_insert_id (id : String) (ms : Members) : idOf (ms.insert "id" (.string id)) = some id := by
  rw [idOf, Members.lookup_insert, if_pos rfl]
  rfl

/-- A record that is overridden by one with an id has that id. -/
theorem idOf_union {given : Members} (hordered : given.Ordered) (hid : idOf given = some id) (old : Members) :
    idOf (old.union given) = some id := by
  obtain ⟨v, hv, -⟩ := Option.bind_eq_some_iff.mp hid
  rw [idOf, hordered.lookup_union, hv, Option.some_or, ← hv]
  exact hid

theorem idOf_of_find? (hold : records.find? (idOf · = some id) = some old) : idOf old = some id := by
  simpa using List.find?_some hold

/-! ## One record is changed -/

theorem updateFirst_split (hold : records.find? (idOf · = some id) = some old) :
    ∃ front back, records = front ++ old :: back ∧ ∀ f, updateFirst id f records = front ++ f old :: back := by
  induction records with
  | nil => cases hold
  | cons ms records ih =>
    by_cases hms : idOf ms = some id
    · rw [List.find?_cons_of_pos (by simpa using hms)] at hold
      obtain rfl := Option.some.inj hold
      exact ⟨[], records, rfl, fun f => if_pos hms⟩
    · rw [List.find?_cons_of_neg (by simpa using hms)] at hold
      obtain ⟨front, back, rfl, hupdate⟩ := ih hold
      refine ⟨ms :: front, back, rfl, fun f => ?_⟩
      rw [updateFirst, if_neg hms, hupdate, List.cons_append]

theorem updateFirst_of_find?_eq_none (hnone : records.find? (idOf · = some id) = none) (f : Members → Members) :
    updateFirst id f records = records := by
  induction records with
  | nil => rfl
  | cons ms records ih =>
    have hother : ∀ other ∈ ms :: records, idOf other ≠ some id := by
      simpa using List.find?_eq_none.mp hnone
    rw [updateFirst, if_neg (hother ms List.mem_cons_self), ih]
    apply List.find?_eq_none.mpr
    intro other hmem
    simpa using hother other (List.mem_cons_of_mem _ hmem)

/-- A record was there, or is the one that was changed. -/
theorem mem_updateFirst (h : ms ∈ updateFirst id f records) :
    ms ∈ records ∨ ∃ old, records.find? (idOf · = some id) = some old ∧ ms = f old := by
  cases hfind : records.find? (idOf · = some id) with
  | none => exact .inl (updateFirst_of_find?_eq_none hfind f ▸ h)
  | some old =>
    obtain ⟨front, back, rfl, hupdate⟩ := updateFirst_split hfind
    rw [hupdate] at h
    rcases List.mem_append.mp h with h | h
    · exact .inl (List.mem_append_left _ h)
    · rcases List.mem_cons.mp h with rfl | h
      · exact .inr ⟨old, rfl, rfl⟩
      · exact .inl (List.mem_append_right _ (List.mem_cons_of_mem _ h))

/-- The ids stay if the record that is changed keeps its own. -/
theorem map_idOf_updateFirst
    (hf : ∀ old, records.find? (idOf · = some id) = some old → idOf (f old) = some id) :
    (updateFirst id f records).map idOf = records.map idOf := by
  cases hfind : records.find? (idOf · = some id) with
  | none => rw [updateFirst_of_find?_eq_none hfind]
  | some old =>
    have hnew : idOf (f old) = idOf old := (hf old hfind).trans (idOf_of_find? hfind).symm
    obtain ⟨front, back, rfl, hupdate⟩ := updateFirst_split hfind
    rw [hupdate, List.map_append, List.map_append, List.map_cons, List.map_cons, hnew]

/-- So it is found again. -/
theorem find?_updateFirst_ne_none (hold : records.find? (idOf · = some id) = some old)
    (hnew : idOf (f old) = some id) : (updateFirst id f records).find? (idOf · = some id) ≠ none := by
  intro hnone
  obtain ⟨front, back, -, hupdate⟩ := updateFirst_split hold
  have hmem : f old ∈ updateFirst id f records := by
    rw [hupdate]
    exact List.mem_append_right _ List.mem_cons_self
  exact absurd (decide_eq_true hnew) (List.find?_eq_none.mp hnone _ hmem)

/-! ## One record is taken out -/

/-- Nothing is taken out for an id that there is not. -/
theorem without_of_find?_eq_none (hnone : records.find? (idOf · = some id) = none) : without id records = records := by
  apply List.filter_eq_self.mpr
  intro ms hms
  simpa using List.find?_eq_none.mp hnone ms hms

/-- **The record of an id is the only one that is taken out**, if no other has it. -/
theorem without_split (hnodup : (records.map idOf).Nodup) (hold : records.find? (idOf · = some id) = some old) :
    ∃ front back, records = front ++ old :: back ∧ without id records = front ++ back := by
  obtain ⟨front, back, hsplit, hwithout, -⟩ := split_of_keys hnodup (List.mem_of_find?_eq_some hold)
  rw [idOf_of_find? hold] at hwithout
  exact ⟨front, back, hsplit, hwithout⟩

end Hostlink.Preferences
