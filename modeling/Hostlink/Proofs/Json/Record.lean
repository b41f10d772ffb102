import Hostlink.Json.Format
import Hostlink.Proofs.Json.Members

/-!
# The parts of a record

A record is read member by member. Each of its parts comes from the member of one key, and what stands under other
keys does not touch it. That is all that has to be known of a record to say what it is read as.

* `Record.Holds` — a part of a record, the key it is under, and what its member is read as;
* `Record.holds_field` — a field of its own is such a part;
* `Record.Holds.foldlM` — **what a part is in the end**: what its member is read as, or what it was;
* `Record.foldlM_ok` — members are read if each of them is.
-/

namespace Hostlink.Json

variable {ρ α β : Type}

/-- Whatever is put into a field, a part of the record stays. -/
def Field.Keeps (f : Field ρ) (part : ρ → β) : Prop := ∀ v x y, f.ofJson v x = .ok y → part y = part x

theorem map_eq_ok {ε : Type} {g : α → β} {e : Except ε α} {b : β} (h : g <$> e = .ok b) : ∃ a, e = .ok a ∧ g a = b := by
  cases e with
  | error => cases h
  | ok a => exact ⟨a, rfl, Except.ok.inj h⟩

theorem Field.keeps_withDefault {name : String} {f : Format α} {put : α → ρ → ρ} {part : ρ → β}
    (h : ∀ a x, part (put a x) = part x) : (Field.withDefault name f put).Keeps part := by
  intro v x y hread
  obtain ⟨a, -, rfl⟩ := map_eq_ok hread
  exact h a x

namespace Record

variable {r : Record ρ}

/-- A part of a record is under a key: it is what the member of that key is read as, and no other member touches it. -/
structure Holds (r : Record ρ) (key : String) (part : ρ → β) (decode : Json → Except Problem β) : Prop where
  put : ∀ {d d' v}, r.putMember d (key, v) = .ok d' → decode v = .ok (part d'.record)
  keep : ∀ {d d' m}, m.1 ≠ key → r.putMember d m = .ok d' → part d'.record = part d.record

/-! ## One member -/

/-- A member is put into its field, or with those of other names. -/
theorem putMember_cases {d d' : Draft ρ} {m : String × Json} (h : r.putMember d m = .ok d') :
    (∃ f, r.field? m.1 = some f ∧ f.ofJson m.2 d.record = .ok d'.record) ∨
      (r.field? m.1 = none ∧ d'.record = r.putExtra m.1 m.2 d.record) := by
  rw [putMember] at h
  cases hfield : r.field? m.1 with
  | none =>
    rw [hfield] at h
    exact .inr ⟨rfl, congrArg Draft.record (Except.ok.inj h).symm⟩
  | some f =>
    simp only [hfield] at h
    split at h
    · cases h
    · left
      refine ⟨f, rfl, ?_⟩
      cases hread : f.ofJson m.2 d.record with
      | error =>
        rw [hread] at h
        cases h
      | ok x =>
        rw [hread] at h
        exact congrArg Except.ok (congrArg Draft.record (Except.ok.inj h))

theorem field?_name {name : String} {f : Field ρ} (h : r.field? name = some f) : f ∈ r.fields ∧ f.name = name :=
  ⟨List.mem_of_find?_eq_some h, by simpa using List.find?_some h⟩

/-- A field of its own is under its name. -/
theorem holds_field {key : String} {f : Format α} {put : α → ρ → ρ} {part : ρ → α}
    (hfield : r.field? key = some (.withDefault key f put)) (hput : ∀ a x, part (put a x) = a)
    (hothers : ∀ g ∈ r.fields, g.name ≠ key → g.Keeps part)
    (hextra : ∀ k v x, part (r.putExtra k v x) = part x) : r.Holds key part f.ofJson := by
  constructor
  · intro d d' v h
    rcases putMember_cases h with ⟨g, hg, hread⟩ | ⟨hnone, -⟩
    · obtain rfl := Option.some.inj (hfield.symm.trans hg)
      obtain ⟨a, ha, heq⟩ := map_eq_ok hread
      rw [ha, ← heq, hput]
    · rw [hfield] at hnone
      cases hnone
  · intro d d' m hm h
    rcases putMember_cases h with ⟨g, hg, hread⟩ | ⟨-, heq⟩
    · obtain ⟨hmem, hname⟩ := field?_name hg
      exact hothers g hmem (hname.trans_ne hm) _ _ _ hread
    · rw [heq, hextra]

/-! ## All members -/

/-- A member is put into its field, and then the others into theirs. -/
theorem foldlM_field {name : String} {f : Format α} {put : α → ρ → ρ} {v : Json} {a : α} {ms : Members}
    {seen : List String} {x : ρ} (hfield : r.field? name = some (.withDefault name f put)) (hfresh : name ∉ seen)
    (hread : f.ofJson v = .ok a) :
    ((name, v) :: ms).foldlM r.putMember ⟨seen, x⟩ = ms.foldlM r.putMember ⟨name :: seen, put a x⟩ := by
  rw [List.foldlM_cons, putMember, hfield]
  simp only [if_neg hfresh, Field.withDefault, hread]
  rfl

theorem foldlM_cons_ok {d d' : Draft ρ} {m : String × Json} {ms : Members}
    (h : (m :: ms).foldlM r.putMember d = .ok d') :
    ∃ e, r.putMember d m = .ok e ∧ ms.foldlM r.putMember e = .ok d' := by
  rw [List.foldlM_cons] at h
  cases he : r.putMember d m with
  | error =>
    rw [he] at h
    cases h
  | ok e =>
    rw [he] at h
    exact ⟨e, rfl, h⟩

/-- What every member keeps is kept. -/
theorem foldlM_keeps {P : ρ → Prop} (hstep : ∀ d d' m, P d.record → r.putMember d m = .ok d' → P d'.record)
    {d d' : Draft ρ} {ms : Members} (hd : P d.record) (h : ms.foldlM r.putMember d = .ok d') : P d'.record := by
  induction ms generalizing d with
  | nil =>
    obtain rfl := Except.ok.inj h
    exact hd
  | cons m ms ih =>
    obtain ⟨e, he, h⟩ := foldlM_cons_ok h
    exact ih (hstep d e m hd he) h

/-- **A part is what the member of its key is read as**, or what it was if there is none. -/
theorem Holds.foldlM {key : String} {part : ρ → β} {decode : Json → Except Problem β} (hholds : r.Holds key part decode)
    {ms : Members} (hnodup : (ms.map (·.1)).Nodup) {d d' : Draft ρ} (h : ms.foldlM r.putMember d = .ok d') :
    (∀ v, Members.lookup key ms = some v → decode v = .ok (part d'.record)) ∧
      (Members.lookup key ms = none → part d'.record = part d.record) := by
  induction ms generalizing d with
  | nil =>
    obtain rfl := Except.ok.inj h
    refine ⟨fun v hv => ?_, fun _ => rfl⟩
    cases hv
  | cons m ms ih =>
    obtain ⟨e, he, h⟩ := foldlM_cons_ok h
    obtain ⟨hfresh, hrest⟩ := List.nodup_cons.mp hnodup
    obtain ⟨hsome, hnone⟩ := ih hrest h
    obtain ⟨k, w⟩ := m
    rw [Members.lookup_cons]
    by_cases hk : key = k
    · -- the member is the only one of its key
      subst hk
      have hlast : part d'.record = part e.record :=
        hnone (Members.lookup_eq_none fun p hp heq => hfresh (List.mem_map.mpr ⟨p, hp, heq⟩))
      rw [if_pos rfl]
      refine ⟨fun v hv => ?_, fun hv => by cases hv⟩
      rw [hlast, ← Option.some.inj hv]
      exact hholds.put he
    · rw [if_neg hk]
      refine ⟨hsome, fun hv => ?_⟩
      rw [hnone hv, hholds.keep (Ne.symm hk) he]

/-- Members are read if no key stands twice, and what stands under the name of a field is read there. -/
theorem foldlM_ok {ms : Members} (hnodup : (ms.map (·.1)).Nodup) {d : Draft ρ} (hfresh : ∀ m ∈ ms, m.1 ∉ d.seen)
    (hread : ∀ m ∈ ms, ∀ f, r.field? m.1 = some f → ∀ x, ∃ y, f.ofJson m.2 x = .ok y) :
    ∃ d', ms.foldlM r.putMember d = .ok d' := by
  induction ms generalizing d with
  | nil => exact ⟨d, rfl⟩
  | cons m ms ih =>
    obtain ⟨hkey, hrest⟩ := List.nodup_cons.mp hnodup
    have hread' := fun m hm => hread m (List.mem_cons_of_mem _ hm)
    obtain ⟨e, he, hseen⟩ : ∃ e, r.putMember d m = .ok e ∧ ∀ k ∈ e.seen, k = m.1 ∨ k ∈ d.seen := by
      rw [putMember]
      cases hfield : r.field? m.1 with
      | none => exact ⟨_, rfl, fun k hk => .inr hk⟩
      | some f =>
        obtain ⟨y, hy⟩ := hread m List.mem_cons_self f hfield d.record
        simp only [if_neg (hfresh m List.mem_cons_self), hy]
        exact ⟨_, rfl, fun k hk => List.mem_cons.mp hk⟩
    obtain ⟨d', hd'⟩ := ih hrest (d := e) (fun m' hm' hmem => by
      rcases hseen _ hmem with heq | hmem
      · exact hkey (List.mem_map.mpr ⟨m', hm', heq⟩)
      · exact hfresh m' (List.mem_cons_of_mem _ hm') hmem) hread'
    exact ⟨d', by rw [List.foldlM_cons, he]; exact hd'⟩

end Record

end Hostlink.Json
