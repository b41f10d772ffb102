import Hostlink.Proofs.HostError

/-!
# Errors come back as they were sent

An error that a host sends as an object is passed on with all its members, known or not, whatever they hold.
One thing is not told apart: a known member that is missing, and one that is `null`. So it is the error that
is read for the first time, and not the value it was read from, that stays the same from then on.

* `ErrorRecord.returned` — the members that come back;
* `ErrorRecord.members_ofMembers?` — they are the members of the error that is read;
* `HostError.object_returned` — **an error comes back as it was sent, if no known member is `null`**;
* `HostError.toJson_cases` — where the value of an error tells its message, type and name;
* `HostError.sent_on` — **an error that is sent on stays what it is**.
-/

namespace Hostlink

open Json (Members)

namespace ErrorRecord

/-- The known members that may be missing. -/
def optionalKeys : List String := ["type", "errorName", "stacktrace", "details"]

/-- The members that come back: an optional one is left out if it is `null`. -/
def returned (ms : Members) : Members := ms.filter fun p => ! (optionalKeys.contains p.1 && p.2 = .null)

/-- What comes back under a key. -/
theorem lookup_returned {ms : Members} (hms : ms.Ordered) (key : String) :
    Members.lookup key (returned ms) =
      if key ∈ optionalKeys then present (Members.lookup key ms) else Members.lookup key ms := by
  rw [returned, hms.lookup_filter]
  by_cases hkey : key ∈ optionalKeys
  · have hcontains : optionalKeys.contains key = true := List.contains_iff_mem.mpr hkey
    rw [if_pos hkey]
    simp only [hcontains]
    rcases Members.lookup key ms with _ | (_ | _ | _ | _ | _ | _) <;> rfl
  · have hcontains : optionalKeys.contains key = false := by simpa using hkey
    rw [if_neg hkey]
    simp only [hcontains]
    cases Members.lookup key ms <;> rfl

/-- All members come back exactly if no optional one is `null`. -/
theorem returned_eq_self_iff {ms : Members} (hms : ms.Ordered) :
    returned ms = ms ↔ ∀ key ∈ optionalKeys, Members.lookup key ms ≠ some .null := by
  rw [returned, List.filter_eq_self]
  constructor
  · intro h key hkey hnull
    have hkept := h _ (Members.mem_of_lookup hnull)
    simp [hkey] at hkept
  · intro h p hp
    by_cases hkey : p.1 ∈ optionalKeys
    · have hvalue : p.2 ≠ .null := fun hnull => h p.1 hkey (by rw [hms.mem_iff_lookup.mp hp, hnull])
      simp [hvalue]
    · simp [hkey]

/-- A text that may be missing is read as what is there. -/
theorem present_of_optionalText? {v : Option Json} {text : Option String} (h : optionalText? v = some text) :
    text.map .string = present v := by
  unfold optionalText? at h
  split at h
  · obtain rfl := Option.some.inj h
    rfl
  · obtain rfl := Option.some.inj h
    rfl
  · obtain rfl := Option.some.inj h
    rfl
  · cases h

/-- What is no known member of a sound error is one of its others. -/
theorem Sound.lookup_unknown {e : ErrorRecord} (he : e.Sound) {key : String} (hkey : key ∉ knownKeys) :
    Members.lookup key e.members = Members.lookup key e.extra := by
  have hne : ∀ known ∈ knownKeys, key ≠ known := fun known hknown heq => hkey (heq ▸ hknown)
  have hfield : ∀ (known : String) (v : Option Json), known ∈ knownKeys →
      Members.lookup key (field known v).reverse = none := fun known v hknown => by
    rw [lookup_field, if_neg (hne known hknown)]
  have hmessage : Members.lookup key [("message", Json.string e.message)] = none := by
    rw [Members.lookup_cons, if_neg (hne "message" (by decide))]
    rfl
  have hextra : Members.lookup key e.extra.reverse = Members.lookup key e.extra := by
    rw [← Members.lookup_ofList, Members.ofList_of_ordered he.ordered]
  rw [members_eq, Members.lookup_ofList]
  simp only [List.reverse_append, List.reverse_cons, List.append_assoc, Members.lookup_append,
    hfield "type" _ (by decide), hfield "errorName" _ (by decide), hfield "stacktrace" _ (by decide),
    hfield "details" _ (by decide), hmessage, hextra, Option.or_none]

/-- **The members of an error that is read are the ones that come back.** -/
theorem members_ofMembers? {ms : Members} (hms : (Json.object ms).Canonical) {e : ErrorRecord}
    (he : ofMembers? ms = some e) : e.members = returned ms := by
  have hsound := sound_of_ofMembers? hms he
  simp only [ofMembers?, bind, Option.bind_eq_some_iff] at he
  obtain ⟨v, hmessage, message, htext, type, htype, name, hname, he⟩ := he
  obtain rfl := Option.some.inj he
  refine (Members.ordered_ofList _).ext (hms.1.filter _) fun key => ?_
  show Members.lookup key (ErrorRecord.members _) = Members.lookup key (returned ms)
  rw [lookup_returned hms.1]
  by_cases hkey : key ∈ knownKeys
  · rw [hsound.lookup_known hkey]
    -- one known member after the other
    simp only [knownKeys, List.mem_cons, List.not_mem_nil, or_false] at hkey
    rcases hkey with rfl | rfl | rfl | rfl | rfl
    · have hv : v = .string message := by
        cases v with
        | string s => exact congrArg _ (Option.some.inj htext)
        | _ => cases htext
      simp [optionalKeys, hmessage, hv]
    · simp [optionalKeys, present_of_optionalText? htype]
    · simp [optionalKeys, present_of_optionalText? hname]
    · simp [optionalKeys]
    · simp [optionalKeys]
  · have hnone : key ∉ optionalKeys := fun h => hkey (List.mem_cons_of_mem _ h)
    rw [hsound.lookup_unknown hkey, if_neg hnone, hms.1.lookup_filter]
    have hcontains : knownKeys.contains key = false := by simpa using hkey
    simp only [hcontains]
    cases Members.lookup key ms <;> rfl

end ErrorRecord

namespace HostError

/-- **An error comes back as it was sent**, whatever else it holds, if no known member is `null`; and one that
is `null` is left out. -/
theorem object_returned {ms : Members} (hms : (Json.object ms).Canonical) {e : ErrorRecord}
    (he : ofJson (.object ms) = .structured e) :
    (ofJson (.object ms)).toJson = .object (ErrorRecord.returned ms) ∧
      ((ofJson (.object ms)).toJson = .object ms ↔
        ∀ key ∈ ["type", "errorName", "stacktrace", "details"], Members.lookup key ms ≠ some .null) := by
  have hread : ErrorRecord.ofMembers? ms = some e := by
    rw [ofJson, ofShape?] at he
    cases hms : ErrorRecord.ofMembers? ms with
    | none =>
      rw [hms] at he
      cases he
    | some e' =>
      rw [hms] at he
      rw [structured.inj he]
  have hvalue : (ofJson (.object ms)).toJson = .object (ErrorRecord.returned ms) := by
    rw [he, toJson, ErrorRecord.members_ofMembers? hms hread]
  refine ⟨hvalue, ?_⟩
  rw [hvalue, Json.object.injEq]
  exact ErrorRecord.returned_eq_self_iff hms.1

/-- A member that is not known comes back, also if it is `null`. -/
theorem object_returned_unknown :
    let ms : Members := [("cause", .null), ("details", .array [.null]), ("message", .string "boom")]
    (Json.object ms).Canonical ∧ (∃ e, ofJson (.object ms) = .structured e) ∧
      (ofJson (.object ms)).toJson = .object ms := by
  intro ms
  have hcanonical : (Json.object ms).Canonical := ⟨by decide, trivial, ⟨trivial, trivial⟩, trivial, trivial⟩
  have he : ofJson (.object ms) = .structured ⟨"boom", none, none, none, some (.array [.null]), [("cause", .null)]⟩ :=
    rfl
  exact ⟨hcanonical, ⟨_, he⟩, (object_returned hcanonical he).2.mpr (by decide)⟩

/-- A stack trace that is `null` does not come back. -/
theorem null_stacktrace_lost :
    let sent : Members := [("message", .string "boom"), ("stacktrace", .null)]
    (Json.object sent).Canonical ∧
      ofJson (.object sent) = .structured ⟨"boom", none, none, none, none, []⟩ ∧
      (ofJson (.object sent)).toJson = .object [("message", .string "boom")] ∧
      (ofJson (.object sent)).toJson ≠ .object sent := by
  intro sent
  have hcanonical : (Json.object sent).Canonical := ⟨by decide, trivial, trivial, trivial⟩
  exact ⟨hcanonical, rfl, rfl, by decide⟩

/-! ## Sent on -/

/-- The value of an error tells its message, type and name: it is the message and there is no more to tell, or
each stands under its key, if there is one. -/
theorem toJson_cases {e : HostError} (he : e.Sound) :
    (e.toJson = .string e.message ∧ e.type? = none ∧ e.name? = none) ∨
      (e.toJson.get? "message" = some (.string e.message) ∧
        e.toJson.get? "type" = e.type?.map .string ∧ e.toJson.get? "errorName" = e.name?.map .string) := by
  cases e with
  | text s => exact .inl ⟨rfl, rfl, rfl⟩
  | structured e =>
    have hlookup : ∀ key, (HostError.structured e).toJson.get? key = Members.lookup key e.members := fun _ => rfl
    refine .inr ⟨?_, ?_, ?_⟩ <;> rw [hlookup, ErrorRecord.Sound.lookup_known he (by decide)]
    · simp [message]
    · simp [type?]
    · simp [name?]

/-- **An error that is sent on stays what it is.** Whatever value it was first made of, and under whatever names
it was put since, it is found again in its value, with its message, type and name; and whoever looks into that
value finds the three where a host puts them. -/
theorem sent_on {e : HostError} (he : Built e) :
    ofJson e.toJson = e ∧
      (ofJson e.toJson).message = e.message ∧ (ofJson e.toJson).type? = e.type? ∧
      (ofJson e.toJson).name? = e.name? ∧
      ((e.toJson = .string e.message ∧ e.type? = none ∧ e.name? = none) ∨
        (e.toJson.get? "message" = some (.string e.message) ∧
          e.toJson.get? "type" = e.type?.map .string ∧ e.toJson.get? "errorName" = e.name?.map .string)) := by
  have hsame : ofJson e.toJson = e := ofJson_toJson he.sound
  rw [hsame]
  exact ⟨rfl, rfl, rfl, rfl, toJson_cases he.sound⟩

/-- An object without a message becomes a text, and an object again when the text is put under a name; the
second name takes the place of the first. -/
theorem sent_on_renamed :
    let e := ((ofJson (.object [("code", Json.int 3), ("type", .null)])).withName "First").withName "Second"
    Built e ∧ ofJson e.toJson = e ∧ (ofJson e.toJson).message = e.message ∧
      e.toJson = .object [("errorName", .string "Second"), ("message", .string e.message)] := by
  intro e
  have hcanonical : (Json.object [("code", Json.int 3), ("type", .null)]).Canonical :=
    ⟨by decide, trivial, trivial, trivial⟩
  have he : Built e := .withName _ (.withName _ (.ofJson _ hcanonical))
  exact ⟨he, (sent_on he).1, (sent_on he).2.1, rfl⟩

end HostError

end Hostlink
