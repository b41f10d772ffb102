import Hostlink.HostError
import Hostlink.Proofs.Json.RoundTrip

/-!
# Errors come through JSON

* `HostError.Built` — the errors that can be made;
* `HostError.Sound` — their members do not get mixed up;
* `HostError.ofJson_toJson` — **an error is found again in its value**.
-/

namespace Hostlink

open Json (Members)

theorem Json.canonicalMembers_iff {ms : Members} : Json.CanonicalMembers ms ↔ ∀ p ∈ ms, p.2.Canonical := by
  induction ms with
  | nil => exact ⟨fun _ _ hp => (by cases hp), fun _ => trivial⟩
  | cons m ms ih =>
    rw [List.forall_mem_cons, ← ih]
    rfl

namespace ErrorRecord

/-- A member that may be missing. -/
def field (key : String) (v : Option Json) : Members := (v.map fun v => (key, v)).toList

theorem members_eq (e : ErrorRecord) :
    e.members = Members.ofList (("message", .string e.message) :: field "type" (e.type.map .string) ++
      field "errorName" (e.name.map .string) ++ field "stacktrace" e.stacktrace ++ field "details" e.details ++
      e.extra) := rfl

theorem lookup_field (k key : String) (v : Option Json) :
    Members.lookup k (field key v).reverse = if k = key then v else none := by
  cases v with
  | none => exact (ite_self _).symm
  | some v => exact Members.lookup_cons k key v []

/-- Members do not get mixed up: what is there has a value, and others have names of their own. -/
structure Sound (e : ErrorRecord) : Prop where
  stacktrace_ne : e.stacktrace ≠ some .null
  details_ne : e.details ≠ some .null
  ordered : e.extra.Ordered
  unknown : ∀ p ∈ e.extra, p.1 ∉ knownKeys
  canonical : (∀ v ∈ e.stacktrace, v.Canonical) ∧ (∀ v ∈ e.details, v.Canonical) ∧ ∀ p ∈ e.extra, p.2.Canonical

section

variable {e : ErrorRecord} (he : e.Sound)
include he

theorem Sound.lookup_known {key : String} (hkey : key ∈ knownKeys) :
    Members.lookup key e.members =
      (if key = "details" then e.details else none).or
        ((if key = "stacktrace" then e.stacktrace else none).or
          ((if key = "errorName" then e.name.map Json.string else none).or
            ((if key = "type" then e.type.map Json.string else none).or
              (if key = "message" then some (.string e.message) else none)))) := by
  have hextra : Members.lookup key e.extra.reverse = none := Members.lookup_eq_none fun p hp heq =>
    he.unknown p (List.mem_reverse.mp hp) (heq ▸ hkey)
  have hmessage : Members.lookup key [("message", Json.string e.message)] =
      if key = "message" then some (.string e.message) else none := Members.lookup_cons _ _ _ _
  rw [members_eq, Members.lookup_ofList]
  simp only [List.reverse_append, List.reverse_cons, List.append_assoc, Members.lookup_append, lookup_field,
    hextra, Option.none_or, hmessage]

/-- The members of a sound error are read back. -/
theorem Sound.ofMembers?_members : ofMembers? e.members = some e := by
  -- what is written under a known key is none of the rest
  have hextra : e.members.filter (fun p => ! knownKeys.contains p.1) = e.extra := by
    have hfield : ∀ (key : String) (v : Option Json), key ∈ knownKeys →
        (field key v).filter (fun p => ! knownKeys.contains p.1) = [] := by
      intro key v hkey
      cases v with
      | none => rfl
      | some v => simp [field, hkey]
    have hself : e.extra.filter (fun p => ! knownKeys.contains p.1) = e.extra :=
      List.filter_eq_self.mpr fun p hp => by simpa using he.unknown p hp
    rw [members_eq, Members.filter_ofList (fun key => ! knownKeys.contains key)]
    simp only [List.filter_append, List.filter_cons]
    rw [hfield "type" _ (by decide), hfield "errorName" _ (by decide), hfield "stacktrace" _ (by decide),
      hfield "details" _ (by decide), hself]
    exact Members.ofList_of_ordered he.ordered
  -- no `null` stands in a sound error, so that each field comes back as it is
  have hpresent : ∀ v : Option Json, v ≠ some .null → present v = v := by
    rintro (_ | _ | _ | _ | _ | _ | _) hv <;> first | rfl | exact absurd rfl hv
  have htext : ∀ s : Option String, optionalText? (s.map .string) = some s := by
    rintro (_ | s) <;> rfl
  have hmessage : Members.lookup "message" e.members = some (.string e.message) := by
    rw [he.lookup_known (by decide)]
    simp
  have htype : Members.lookup "type" e.members = e.type.map .string := by
    rw [he.lookup_known (by decide)]
    simp
  have hname : Members.lookup "errorName" e.members = e.name.map .string := by
    rw [he.lookup_known (by decide)]
    simp
  have hstacktrace : Members.lookup "stacktrace" e.members = e.stacktrace := by
    rw [he.lookup_known (by decide)]
    simp
  have hdetails : Members.lookup "details" e.members = e.details := by
    rw [he.lookup_known (by decide)]
    simp
  simp only [ofMembers?, hmessage, htype, hname, hstacktrace, hdetails, hextra, htext, hpresent _ he.stacktrace_ne,
    hpresent _ he.details_ne, Json.asString?, bind, Option.bind_some]

theorem Sound.canonical_members : (Json.object e.members).Canonical := by
  have hfield : ∀ {key : String} {v : Option Json} {p : String × Json}, p ∈ field key v → p.2 ∈ v := by
    rintro key (_ | v) p hp
    · cases hp
    · rw [List.mem_singleton.mp hp]
      rfl
  have htext : ∀ {s : Option String} {v : Json}, v ∈ s.map Json.string → v.Canonical := by
    rintro (_ | s) v hv
    · cases hv
    · rw [← Option.some.inj hv]
      trivial
  obtain ⟨hstacktrace, hdetails, hextra⟩ := he.canonical
  rw [members_eq]
  refine ⟨Members.ordered_ofList _, Json.canonicalMembers_iff.mpr fun p hp => ?_⟩
  rcases List.mem_append.mp (Members.mem_of_mem_ofList hp) with hp | hp
  · rcases List.mem_append.mp hp with hp | hp
    · rcases List.mem_append.mp hp with hp | hp
      · rcases List.mem_append.mp hp with hp | hp
        · rcases List.mem_cons.mp hp with rfl | hp
          · trivial
          · exact htext (hfield hp)
        · exact htext (hfield hp)
      · exact hstacktrace _ (hfield hp)
    · exact hdetails _ (hfield hp)
  · exact hextra p hp

end

/-- An error that is read from members in order is sound. -/
theorem sound_of_ofMembers? {ms : Members} (hms : (Json.object ms).Canonical) {e : ErrorRecord}
    (he : ofMembers? ms = some e) : e.Sound := by
  have hcanonical := Json.canonicalMembers_iff.mp hms.2
  have hlookup : ∀ {key : String} {v : Json}, present (Members.lookup key ms) = some v → v.Canonical := by
    intro key v hv
    have hfound : Members.lookup key ms = some v := by
      unfold present at hv
      split at hv
      · cases hv
      · exact hv
    exact hcanonical _ (Members.mem_of_lookup hfound)
  have hpresent : ∀ v : Option Json, present v ≠ some .null := by
    rintro (_ | _ | _ | _ | _ | _ | _) <;> exact fun h => by cases h
  simp only [ofMembers?, bind, Option.bind_eq_some_iff] at he
  obtain ⟨-, -, message, -, type, -, name, -, he⟩ := he
  rw [← Option.some.inj he]
  exact {
    stacktrace_ne := hpresent _
    details_ne := hpresent _
    ordered := hms.1.filter _
    unknown := fun p hp => by simpa using (List.mem_filter.mp hp).2
    canonical := ⟨fun v hv => hlookup hv, fun v hv => hlookup hv, fun p hp => hcanonical p (List.mem_filter.mp hp).1⟩ }

end ErrorRecord

namespace HostError

/-- The errors that can be made: of a value, with a type, and under a name. -/
inductive Built : HostError → Prop where
  | ofJson (v : Json) (hv : v.Canonical) : Built (.ofJson v)
  | ofType (message type : String) : Built (.ofType message type)
  | withName (name : String) {e : HostError} (he : Built e) : Built (e.withName name)

/-- Members of an error do not get mixed up. -/
def Sound : HostError → Prop
  | .text _ => True
  | .structured e => e.Sound

/-- What can be made is sound. -/
theorem Built.sound {e : HostError} (he : Built e) : e.Sound := by
  have hblank : ∀ (message : String) (type name : Option String),
      (⟨message, type, name, none, none, []⟩ : ErrorRecord).Sound := fun _ _ _ =>
    ⟨fun h => (by cases h), fun h => (by cases h), List.Pairwise.nil, fun _ hp => (by cases hp),
      fun _ hv => (by cases hv), fun _ hv => (by cases hv), fun _ hp => (by cases hp)⟩
  induction he with
  | ofJson v hv =>
    cases v with
    | object ms =>
      rw [HostError.ofJson, ofShape?]
      cases hms : ErrorRecord.ofMembers? ms with
      | none => trivial
      | some e => exact ErrorRecord.sound_of_ofMembers? hv hms
    | _ => trivial
  | ofType message type => exact hblank _ _ _
  | @withName name e _ ih =>
    cases e with
    | text s => exact hblank _ _ _
    | structured e => exact ⟨ih.stacktrace_ne, ih.details_ne, ih.ordered, ih.unknown, ih.canonical⟩

/-- **An error is found again in its value.** -/
theorem ofJson_toJson {e : HostError} (he : e.Sound) : ofJson e.toJson = e := by
  cases e with
  | text s => rfl
  | structured e =>
    rw [toJson, ofJson, ofShape?, ErrorRecord.Sound.ofMembers?_members he]
    rfl

theorem canonical_toJson {e : HostError} (he : e.Sound) : e.toJson.Canonical := by
  cases e with
  | text s => trivial
  | structured e => exact ErrorRecord.Sound.canonical_members he

end HostError

end Hostlink
