import Hostlink.Proofs.Request.Resource
import Hostlink.Proofs.Text.Order

/-!
# The layouts, each from end to end

Which requests a layout writes, and what is read of them.

* `Codec.Accepts` — the arguments that a layout writes, `Codec.encode_ok_iff`;
* `Codec.pairs_read_back` — **pairs: what is refused, and the same pairs otherwise**;
* `Codec.object_read_back` — **one object: the pairs in order, the last of each key**;
* `Codec.array_read_back` — **one array: the values in order**.
-/

namespace Hostlink

namespace Request

/-- A key is marked if it ends in the mark. -/
theorem isMarked_iff (key : String) : isMarked key = true ↔ ∃ stem, key = stem ++ b64Mark := by
  rw [isMarked, List.isPrefixOf_iff_prefix, List.reverse_prefix]
  constructor
  · rintro ⟨front, hfront⟩
    refine ⟨String.ofList front, String.toList_inj.mp ?_⟩
    rw [String.toList_append, String.toList_ofList, hfront]
  · rintro ⟨stem, rfl⟩
    rw [String.toList_append]
    exact List.suffix_append _ _

theorem toJson_namedArgs (pairs : List (String × Json)) : (namedArgs pairs).toJson = Json.ofMembers pairs := by
  rw [namedArgs]
  split
  · next h => rw [h]; rfl
  · rfl

end Request

namespace Codec

open Request

variable {c : Codec} {args : Args} {path id : String}

/-! ## What is written -/

/-- Arguments that have names, none of them the key of the request's name. -/
def Names (c : Codec) (args : Args) : Prop :=
  (∀ values, args ≠ .positional values) ∧ ∀ p ∈ args.pairs, p.1 ≠ c.callbackKey

/-- The arguments that a layout writes. -/
def Accepts (c : Codec) (args : Args) : Prop :=
  match c.encoding with
  | .b64Json => c.Names args ∧ ∀ p ∈ args.pairs, isMarked p.1 = false
  | .jsonQuery => c.Names args
  | .argsArray => True

/-- A layout with names takes all arguments that have free names. -/
theorem namedPairs_eq_ok_iff : c.namedPairs args = .ok args.pairs ↔ c.Names args := by
  constructor
  · intro h
    refine ⟨fun values hvalues => ?_, (namedPairs_ok h).2.2⟩
    rw [hvalues] at h
    cases h
  · rintro ⟨hnamed, hkeys⟩
    cases args with
    | none => rfl
    | positional values => exact absurd rfl (hnamed values)
    | named pairs =>
      have hfree : (Args.named pairs).get? c.callbackKey = Option.none := Json.Members.lookup_eq_none hkeys
      rw [namedPairs, hfree]
      rfl

/-- **A request is written exactly if its layout takes the arguments.** -/
theorem encode_ok_iff : (∃ url, c.encode path args id = .ok url) ↔ c.Accepts args := by
  have hquery : (∃ url, c.encode path args id = .ok url) ↔ ∃ q, c.query args id = .ok q := by
    constructor
    · rintro ⟨url, he⟩
      obtain ⟨q, hq, -⟩ := encode_eq_ok he
      exact ⟨q, hq⟩
    · rintro ⟨q, hq⟩
      rw [encode, hq]
      exact ⟨_, rfl⟩
  rw [hquery, query, Accepts]
  cases c.encoding with
  | argsArray => exact ⟨fun _ => trivial, fun _ => ⟨_, rfl⟩⟩
  | jsonQuery =>
    rw [← namedPairs_eq_ok_iff]
    dsimp only
    rcases hnamed : c.namedPairs args with e | pairs
    · exact ⟨fun h => (by obtain ⟨q, hq⟩ := h; cases hq), fun h => (by cases h)⟩
    · obtain ⟨rfl, -, -⟩ := namedPairs_ok hnamed
      exact ⟨fun _ => rfl, fun _ => ⟨_, rfl⟩⟩
  | b64Json =>
    rw [← namedPairs_eq_ok_iff]
    dsimp only
    rcases hnamed : c.namedPairs args with e | pairs
    · exact ⟨fun h => (by obtain ⟨q, hq⟩ := h; cases hq), fun h => (by cases h.1)⟩
    · obtain ⟨rfl, -, -⟩ := namedPairs_ok hnamed
      dsimp only [bind, Except.bind]
      -- the first marked key is what the encoder stops at
      cases hfind : args.pairs.find? (isMarked ·.1) with
      | none =>
        refine ⟨fun _ => ⟨rfl, fun p hp => ?_⟩, fun _ => ⟨_, rfl⟩⟩
        simpa using List.find?_eq_none.mp hfind p hp
      | some p =>
        refine ⟨fun h => (by obtain ⟨q, hq⟩ := h; cases hq), fun h => ?_⟩
        have hmarked := List.find?_some hfind
        rw [h.2 p (List.mem_of_find?_eq_some hfind)] at hmarked
        cases hmarked

/-- A request is refused exactly if it is not written. -/
theorem encode_error_iff : (∃ e, c.encode path args id = .error e) ↔ ¬ c.Accepts args := by
  have hok : (∃ url, c.encode path args id = .ok url) ↔ c.Accepts args := encode_ok_iff
  rw [← hok]
  cases c.encode path args id with
  | error e => exact ⟨fun _ h => (by obtain ⟨url, hurl⟩ := h; cases hurl), fun _ => ⟨e, rfl⟩⟩
  | ok url => exact ⟨fun h => (by obtain ⟨e, he⟩ := h; cases he), fun h => absurd ⟨url, rfl⟩ h⟩

/-! ## What is read -/

/-- **Pairs.** Arguments without names are refused, and so are keys that are the key of the request's name or
end in the mark; all other requests are read as they were written. -/
theorem pairs_read_back (henc : c.encoding = .b64Json) (path : String) (args : Args) (id : String) :
    ((∃ e, c.encode path args id = .error e) ↔
      (∃ values, args = .positional values) ∨ (∃ p ∈ args.pairs, p.1 = c.callbackKey) ∨
        ∃ p ∈ args.pairs, ∃ stem, p.1 = stem ++ "_b64json") ∧
    (c.baseUrl = "prefs://" → (¬ ∃ stem, c.callbackKey = stem ++ "_b64json") → Url.PlainPath path →
      (∀ v ∈ args.values, v.Portable 127) → ∀ url, c.encode path args id = .ok url →
        c.decode url = .ok ⟨path, namedArgs args.pairs, some id⟩) := by
  constructor
  · rw [encode_error_iff, Accepts, henc]
    dsimp only
    constructor
    · intro h
      by_contra hnone
      refine h ⟨⟨fun values hvalues => hnone (.inl ⟨values, hvalues⟩), fun p hp hkey => ?_⟩, fun p hp => ?_⟩
      · exact hnone (.inr (.inl ⟨p, hp, hkey⟩))
      · refine Bool.eq_false_iff.mpr fun hmarked => hnone (.inr (.inr ⟨p, hp, ?_⟩))
        exact (isMarked_iff p.1).mp hmarked
    · intro hcase h
      rcases hcase with ⟨values, hvalues⟩ | ⟨p, hp, hkey⟩ | ⟨p, hp, hmarked⟩
      · exact h.1.1 values hvalues
      · exact h.1.2 p hp hkey
      · exact absurd ((isMarked_iff p.1).mpr hmarked) (by rw [h.2 p hp]; decide)
  · intro hbase hmark hp hv url he
    obtain ⟨q, hq, rfl⟩ := encode_eq_ok he
    have hcallback : isMarked c.callbackKey = false :=
      Bool.eq_false_iff.mpr fun hmarked => hmark ((isMarked_iff _).mp hmarked)
    obtain ⟨hcarried, h⟩ := decodePairs_query henc hcallback hv hq path
    rw [decode, splitUrl_url hbase hp hcarried, henc]
    exact h

/-- Keys may hold separators, and may stand twice; what is no text keeps its type. -/
theorem pairs_read_back_separators :
    let c : Codec := ⟨.b64Json, "prefs://", "callback"⟩
    let args : Args := .named [("a&b=ü", .array [.null]), ("a&b=ü", .string "1 + 1"), ("", .number (.int (-1)))]
    ∃ url, c.encode "/set" args "7" = .ok url ∧ c.decode url = .ok ⟨"/set", args, some "7"⟩ := by
  intro c args
  obtain ⟨hrefused, hread⟩ := pairs_read_back (c := c) rfl "/set" args "7"
  have hfree : ∀ p ∈ args.pairs, p.1 ≠ c.callbackKey ∧ isMarked p.1 = false := by
    decide
  have hmark : ∀ key, isMarked key = false → ¬ ∃ stem, key = stem ++ "_b64json" := fun key hkey hstem =>
    absurd ((isMarked_iff key).mpr hstem) (by rw [hkey]; decide)
  have hportable : ∀ v ∈ args.values, v.Portable 127 := by
    intro v hv
    rcases List.mem_cons.mp hv with rfl | hv
    · exact ⟨⟨trivial, trivial⟩, ⟨trivial, trivial⟩, by decide⟩
    rcases List.mem_cons.mp hv with rfl | hv
    · exact Json.portable_string 127 "1 + 1"
    · rw [List.mem_singleton.mp hv]
      exact ⟨⟨by decide, by decide⟩, trivial, by decide⟩
  cases he : c.encode "/set" args "7" with
  | error e =>
    rcases hrefused.mp ⟨e, he⟩ with ⟨values, hvalues⟩ | ⟨p, hp, hkey⟩ | ⟨p, hp, hstem⟩
    · exact Args.noConfusion hvalues
    · exact absurd hkey (hfree p hp).1
    · exact absurd hstem (hmark p.1 (hfree p hp).2)
  | ok url => exact ⟨url, rfl, hread rfl (hmark _ (by decide)) (by decide) hportable url he⟩

/-- **One object.** The path of a resource comes without the query it has, and the pairs in the order of their
keys, of equal keys the last. -/
theorem object_read_back (henc : c.encoding = .jsonQuery) (hbase : c.baseUrl = "prefs://") (r : Resource)
    (hnamed : ∀ values, args ≠ .positional values) (hkeys : ∀ p ∈ args.pairs, p.1 ≠ c.callbackKey)
    (hv : ∀ v ∈ args.values, v.Portable 126) (id : String) :
    ∃ url sorted, c.encode r.text args id = .ok url ∧
      c.decode url = .ok ⟨r.path, namedArgs sorted, some id⟩ ∧ sorted = Json.Members.ofList args.pairs ∧
      sorted.Pairwise (fun p q => Utf8.encode p.1 < Utf8.encode q.1) ∧
      (∀ key, sorted.lookup key = args.pairs.reverse.lookup key) ∧
      (namedArgs sorted).toJson = args.toJson := by
  have haccepts : c.Accepts args := by
    rw [Accepts, henc]
    exact ⟨hnamed, hkeys⟩
  obtain ⟨url, he⟩ := encode_ok_iff.mpr haccepts
  have hne : c.encoding ≠ .b64Json := by
    rw [henc]
    decide
  have hdecode := decode_encode_resource hbase hne r hv he
  rw [received, receivedName, henc] at hdecode
  have hordered := Json.Members.ordered_ofList args.pairs
  refine ⟨url, _, he, hdecode, rfl, ?_, fun key => Json.Members.lookup_ofList key _, ?_⟩
  · exact hordered.imp fun h => Utf8.encode_lt_iff.mpr h
  · rw [toJson_namedArgs, Json.ofMembers, Json.Members.ofList_of_ordered hordered]
    cases args with
    | none => rfl
    | named pairs => rfl
    | positional values => exact absurd rfl (hnamed values)

/-- A path with a query of its own, and a key that stands twice. -/
theorem object_read_back_twice :
    let c : Codec := ⟨.jsonQuery, "prefs://", "callback"⟩
    let args : Args := .named [("b", .bool true), ("a", .null), ("b", .string "&")]
    ∃ url, c.encode "/set?v=1&w=" args "7" = .ok url ∧
      c.decode url = .ok ⟨"/set", .named [("a", .null), ("b", .string "&")], some "7"⟩ := by
  intro c args
  have hportable : ∀ v ∈ args.values, v.Portable 126 := by
    intro v hv
    rcases List.mem_cons.mp hv with rfl | hv
    · exact ⟨trivial, trivial, by decide⟩
    rcases List.mem_cons.mp hv with rfl | hv
    · exact ⟨trivial, trivial, by decide⟩
    · exact List.mem_singleton.mp hv ▸ Json.portable_string 126 "&"
  have hwords : ∀ p ∈ [("v", "1"), ("w", "")], (p.1.toList ++ p.2.toList).all Char.isAlphanum = true := by decide
  let r : Resource :=
    ⟨"/set", some [("v", "1"), ("w", "")], by decide, fun p hp => List.all_eq_true.mp (hwords p hp)⟩
  obtain ⟨url, sorted, he, hdecode, hsorted, -⟩ :=
    @object_read_back c args rfl rfl r (fun _ => Args.noConfusion) (by decide) hportable "7"
  have hlist : Json.Members.ofList args.pairs = [("a", .null), ("b", .string "&")] := by decide
  rw [hsorted, hlist] at hdecode
  exact ⟨url, he, hdecode⟩

/-- **One array.** The path of a resource comes without the query it has, and the values in order, or nothing. -/
theorem array_read_back (henc : c.encoding = .argsArray) (hbase : c.baseUrl = "prefs://") (r : Resource)
    (hv : ∀ v ∈ args.values, v.Portable 126) (id : String) :
    ∃ url read, c.encode r.text args id = .ok url ∧ c.decode url = .ok ⟨r.path, read, none⟩ ∧
      read = (if args.values = [] then .none else .positional args.values) ∧
      ∀ i, read.at? i = args.at? i := by
  have haccepts : c.Accepts args := by
    rw [Accepts, henc]
    trivial
  obtain ⟨url, he⟩ := encode_ok_iff.mpr haccepts
  have hne : c.encoding ≠ .b64Json := by
    rw [henc]
    decide
  have hdecode := decode_encode_resource hbase hne r hv he
  rw [received, receivedName, henc] at hdecode
  refine ⟨url, _, he, hdecode, ?_, fun i => ?_⟩
  · simp only [Args.isEmpty, List.isEmpty_iff]
  · simp only [Args.isEmpty, List.isEmpty_iff, Args.at?]
    split
    · next h => rw [h]; rfl
    · rfl

/-- A path with a `?` and nothing behind it, and names that are dropped. -/
theorem array_read_back_names :
    let c : Codec := ⟨.argsArray, "prefs://", "callback"⟩
    ∃ url, c.encode "/set?" (.named [("b", .bool true), ("a", .null)]) "7" = .ok url ∧
      c.decode url = .ok ⟨"/set", .positional [.bool true, .null], none⟩ := by
  intro c
  let args : Args := .named [("b", .bool true), ("a", .null)]
  have hportable : ∀ v ∈ args.values, v.Portable 126 := by
    intro v hv
    rcases List.mem_cons.mp hv with rfl | hv
    · exact ⟨trivial, trivial, by decide⟩
    · rw [List.mem_singleton.mp hv]
      exact ⟨trivial, trivial, by decide⟩
  obtain ⟨url, read, he, hdecode, hread, -⟩ := @array_read_back c args rfl rfl
    ⟨"/set", some [], by decide, by decide⟩ hportable "7"
  rw [hread] at hdecode
  exact ⟨url, he, hdecode⟩

end Codec

end Hostlink
