import Hostlink.Proofs.Request.Layouts

/-!
# The two layouts with names

The same arguments go as a list of pairs or as one object. A list may hold a key twice and is searched from its
start, as arguments are; an object is given the pairs one by one, and keeps the last of a key.

* `Members.allOf` — all values of a key: the first is found, `Members.lookup_eq_head?`, and an object keeps the last,
  `Members.lookup_ofList_eq_getLast?`;
* `Codec.named_layouts_read` — what is read of the same arguments;
* `Codec.named_layouts_agree` — **a host is told the same by both, but for keys whose first and last values differ**.
-/

namespace Hostlink

open Json (Members)
open Request

namespace Json.Members

/-- All values of a key, in order. -/
def allOf (key : String) (ms : Members) : List Json := ms.filterMap fun p => if key = p.1 then some p.2 else none

theorem lookup_eq_head? (key : String) (ms : Members) : lookup key ms = (allOf key ms).head? := by
  rw [lookup, List.lookup_eq_findSome?, allOf, List.head?_filterMap]
  simp only [beq_iff_eq]

theorem lookup_ofList_eq_getLast? (key : String) (ms : Members) :
    lookup key (ofList ms) = (allOf key ms).getLast? := by
  rw [lookup_ofList, lookup_eq_head?, allOf, List.filterMap_reverse, List.head?_reverse]
  rfl

end Json.Members

namespace Codec

variable {callbackKey path id : String} {args : Args}

/-- What goes as pairs also goes as an object, and both are read: as the same pairs, and as the map of them. -/
theorem named_layouts_read (hmark : isMarked callbackKey = false) (hp : Url.PlainPath path)
    (hv : ∀ v ∈ args.values, v.Portable 126) {pairsUrl : String}
    (he : (⟨.b64Json, "prefs://", callbackKey⟩ : Codec).encode path args id = .ok pairsUrl) :
    ∃ objectUrl,
      (⟨.b64Json, "prefs://", callbackKey⟩ : Codec).decode pairsUrl = .ok ⟨path, namedArgs args.pairs, some id⟩ ∧
      (⟨.jsonQuery, "prefs://", callbackKey⟩ : Codec).encode path args id = .ok objectUrl ∧
      (⟨.jsonQuery, "prefs://", callbackKey⟩ : Codec).decode objectUrl =
        .ok ⟨path, namedArgs (Members.ofList args.pairs), some id⟩ := by
  have hpairs : (⟨.b64Json, "prefs://", callbackKey⟩ : Codec).Accepts args := encode_ok_iff.mp ⟨pairsUrl, he⟩
  -- pairs take what an object takes, if no key has a mark
  have hobject : (⟨.jsonQuery, "prefs://", callbackKey⟩ : Codec).Accepts args := hpairs.1
  obtain ⟨objectUrl, hobject⟩ := encode_ok_iff.mpr hobject
  exact ⟨objectUrl, decode_encode rfl hmark hp hv he, hobject, decode_encode rfl hmark hp hv hobject⟩

/-- **A host is told the same of a key by both layouts, if its first value is its last.** Arguments that go as pairs
also go as an object. For every key the host finds in the pairs what is found in the arguments, the first value, and
in the object the last. So all three agree on a key that is given once at most. -/
theorem named_layouts_agree (hmark : ¬ ∃ stem, callbackKey = stem ++ "_b64json") (hp : Url.PlainPath path)
    (hv : ∀ v ∈ args.values, v.Portable 126) {pairsUrl : String}
    (he : (⟨.b64Json, "prefs://", callbackKey⟩ : Codec).encode path args id = .ok pairsUrl) :
    ∃ objectUrl fromPairs fromObject,
      (⟨.b64Json, "prefs://", callbackKey⟩ : Codec).decode pairsUrl = .ok ⟨path, fromPairs, some id⟩ ∧
      (⟨.jsonQuery, "prefs://", callbackKey⟩ : Codec).encode path args id = .ok objectUrl ∧
      (⟨.jsonQuery, "prefs://", callbackKey⟩ : Codec).decode objectUrl = .ok ⟨path, fromObject, some id⟩ ∧
      ∀ key, fromPairs.get? key = args.get? key ∧ args.get? key = (Members.allOf key args.pairs).head? ∧
        fromObject.get? key = (Members.allOf key args.pairs).getLast? ∧
        ((Members.allOf key args.pairs).length ≤ 1 → fromObject.get? key = fromPairs.get? key) := by
  have hcallback : isMarked callbackKey = false :=
    Bool.eq_false_iff.mpr fun hmarked => hmark ((isMarked_iff _).mp hmarked)
  obtain ⟨objectUrl, hflat, hobject, hwhole⟩ := named_layouts_read hcallback hp hv he
  refine ⟨objectUrl, _, _, hflat, hobject, hwhole, fun key => ?_⟩
  have hpairs : (namedArgs args.pairs).get? key = args.get? key := by
    rw [get?_namedArgs, Args.get?_eq_lookup]
  have hfirst : args.get? key = (Members.allOf key args.pairs).head? := by
    rw [Args.get?_eq_lookup, Members.lookup_eq_head?]
  have hlast : (namedArgs (Members.ofList args.pairs)).get? key = (Members.allOf key args.pairs).getLast? := by
    rw [get?_namedArgs, Members.lookup_ofList_eq_getLast?]
  refine ⟨hpairs, hfirst, hlast, fun honce => ?_⟩
  rw [hpairs, hlast, hfirst, head?_eq_getLast? honce]

/-- A key that is given twice, and one that is given once. -/
theorem named_layouts_agree_once :
    let args : Args := .named [("k", .number (.int 1)), ("a", .string "&"), ("k", .bool true)]
    ∃ pairsUrl objectUrl fromPairs fromObject,
      (⟨.b64Json, "prefs://", "callback"⟩ : Codec).encode "/set" args "7" = .ok pairsUrl ∧
      (⟨.b64Json, "prefs://", "callback"⟩ : Codec).decode pairsUrl = .ok ⟨"/set", fromPairs, some "7"⟩ ∧
      (⟨.jsonQuery, "prefs://", "callback"⟩ : Codec).encode "/set" args "7" = .ok objectUrl ∧
      (⟨.jsonQuery, "prefs://", "callback"⟩ : Codec).decode objectUrl = .ok ⟨"/set", fromObject, some "7"⟩ ∧
      fromPairs.get? "a" = some (.string "&") ∧ fromObject.get? "a" = some (.string "&") ∧
      fromPairs.get? "k" = some (.number (.int 1)) ∧ fromObject.get? "k" = some (.bool true) := by
  intro args
  have hmark : ¬ ∃ stem, "callback" = stem ++ "_b64json" := fun hstem =>
    absurd ((isMarked_iff "callback").mpr hstem) (by decide)
  have hv : ∀ v ∈ args.values, v.Portable 126 := by
    intro v hv
    rcases List.mem_cons.mp hv with rfl | hv
    · exact ⟨⟨by decide, by decide⟩, trivial, by decide⟩
    rcases List.mem_cons.mp hv with rfl | hv
    · exact Json.portable_string 126 "&"
    · rw [List.mem_singleton.mp hv]
      exact ⟨trivial, trivial, by decide⟩
  have haccepts : (⟨.b64Json, "prefs://", "callback"⟩ : Codec).Accepts args :=
    ⟨⟨fun _ => Args.noConfusion, by decide⟩, by decide⟩
  obtain ⟨pairsUrl, he⟩ := (@encode_ok_iff _ args "/set" "7").mpr haccepts
  obtain ⟨objectUrl, fromPairs, fromObject, hpairs, hobject, hread, hkeys⟩ :=
    named_layouts_agree hmark (by decide) hv he
  obtain ⟨hk, -, hklast, -⟩ := hkeys "k"
  obtain ⟨ha, -, -, honce⟩ := hkeys "a"
  exact ⟨pairsUrl, objectUrl, fromPairs, fromObject, he, hpairs, hobject, hread, ha, (honce (by decide)).trans ha, hk,
    hklast⟩

/-- A key that is given twice: the host is told its first value by pairs, and its last by an object. -/
theorem first_value_or_last :
    let args : Args := .named [("k", .number (.int 1)), ("k", .number (.int 2))]
    Url.PlainPath "/a" ∧ (∀ v ∈ args.values, v.Portable 126) ∧ ∃ pairsUrl objectUrl fromPairs fromObject,
      (⟨.b64Json, "prefs://", "callback"⟩ : Codec).encode "/a" args "__jp1" = .ok pairsUrl ∧
      (⟨.b64Json, "prefs://", "callback"⟩ : Codec).decode pairsUrl = .ok ⟨"/a", fromPairs, some "__jp1"⟩ ∧
      (⟨.jsonQuery, "prefs://", "callback"⟩ : Codec).encode "/a" args "__jp1" = .ok objectUrl ∧
      (⟨.jsonQuery, "prefs://", "callback"⟩ : Codec).decode objectUrl = .ok ⟨"/a", fromObject, some "__jp1"⟩ ∧
      args.get? "k" = some (.number (.int 1)) ∧ fromPairs.get? "k" = some (.number (.int 1)) ∧
      fromObject.get? "k" = some (.number (.int 2)) := by
  intro args
  have hplain : Url.PlainPath "/a" := by decide
  have hv : ∀ v ∈ args.values, v.Portable 126 := by
    intro v hv
    rcases List.mem_cons.mp hv with rfl | hv
    · exact ⟨⟨by decide, by decide⟩, trivial, by decide⟩
    · rw [List.mem_singleton.mp hv]
      exact ⟨⟨by decide, by decide⟩, trivial, by decide⟩
  have haccepts : (⟨.b64Json, "prefs://", "callback"⟩ : Codec).Accepts args :=
    ⟨⟨fun _ => Args.noConfusion, by decide⟩, by decide⟩
  obtain ⟨pairsUrl, he⟩ := (@encode_ok_iff _ args "/a" "__jp1").mpr haccepts
  obtain ⟨objectUrl, hpairs, hobject, hread⟩ := named_layouts_read (by decide) hplain hv he
  refine ⟨hplain, hv, pairsUrl, objectUrl, _, _, he, hpairs, hobject, hread, ?_⟩
  decide

end Codec

end Hostlink
