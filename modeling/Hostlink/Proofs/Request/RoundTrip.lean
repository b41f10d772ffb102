import Hostlink.Proofs.Request.Pairs

/-!
# Requests are read back

What a page writes into a URL, its host reads out of it, in every layout.

* `Request.payload?_intercalate` — the payload of a query is its last part;
* `Codec.decodeObject_query`, `Codec.decodeArray_query` — arguments as one JSON value;
* `Codec.received` — what arrives of arguments: a layout may put names in order, or drop them;
* `Codec.decode_encode` — **requests are read back**.
-/

namespace Hostlink

namespace Request

/-! ## One JSON value -/

/-- Arguments as one part of a query, or none at all. -/
def IsPayload (query : List Char) : Prop := query = [] ∨ Part query ∧ '=' ∉ query

theorem isPayload_component (text : String) : IsPayload (Component.encode text).toList := by
  by_cases hnil : (Component.encode text).toList = []
  · exact .inl hnil
  · have hsafe := fun x (hx : x ∈ (Component.encode text).toList) => safe_of_mem_component hx
    exact .inr ⟨⟨hnil, fun x hx => ⟨(hsafe x hx).1, (hsafe x hx).2.1⟩⟩, fun hx => (hsafe '=' hx).2.2 rfl⟩

/-- The payload of parts is the last of them, if it is no pair. -/
theorem payload?_intercalate {ps : List (List Char)} (hps : ∀ part ∈ ps, Segment part) :
    payload? (List.intercalate ['&'] ps) = ps.getLast?.filter fun part => !part.contains '=' := by
  rw [payload?, ← List.getLast?_filter, parts_intercalate hps]
  cases ps.getLast? with
  | none => rfl
  | some part =>
    rw [Option.filter_some]
    cases hpair : part.contains '=' <;> simp only [hpair] <;> rfl

theorem payload?_part {part : List Char} (hpart : Part part) (hequals : '=' ∉ part) : payload? part = some part := by
  have hone : ∀ p ∈ [part], Segment p := fun p hp => List.mem_singleton.mp hp ▸ hpart.segment
  have h := payload?_intercalate hone
  rw [List.intercalate_singleton] at h
  rw [h]
  simp [hequals]

/-- A component of a text that is not empty is carried, and is the last part of its query. -/
theorem payload?_component {text : String} (htext : text ≠ "") :
    Carried (Component.encode text).toList ∧
      payload? (Component.encode text).toList = some (Component.encode text).toList := by
  rcases isPayload_component text with hnil | ⟨hpart, hequals⟩
  · have h := component_encode text
    rw [hnil] at h
    exact absurd (Except.ok.inj h).symm htext
  · exact ⟨carried_part hpart, payload?_part hpart hequals⟩

/-- Nothing is carried, too. -/
theorem carried_nil : Carried [] := ⟨fun _ hx => (by cases hx), fun h => (by cases h)⟩

end Request

namespace Codec

open Request

variable {c : Codec} {args : Args} {id : String}

theorem payloadJson_component {v : Json} (hv : v.Portable Json.maxDepth) :
    payloadJson (Component.encode v.render).toList = .ok v := by
  rw [payloadJson, component_encode]
  dsimp only [bind, Except.bind]
  rw [Json.parseText, Json.parse_render hv]

/-- **Arguments are read back as a map**, and so is the name of the request. -/
theorem decodeObject_query {q : String} (henc : c.encoding = .jsonQuery) (hv : ∀ v ∈ args.values, v.Portable 126)
    (hq : c.query args id = .ok q) (path : String) :
    Carried q.toList ∧
      c.decodeObject path q.toList = .ok ⟨path, namedArgs (Json.Members.ofList args.pairs), some id⟩ := by
  rw [query, henc] at hq
  dsimp only at hq
  obtain ⟨pairs, hnamed, hq⟩ := bind_eq_ok hq
  obtain ⟨rfl, hvalues, hkeys⟩ := namedPairs_ok hnamed
  obtain rfl := Except.ok.inj hq
  let members := args.pairs ++ [(c.callbackKey, Json.string id)]
  have hportable : (Json.ofMembers members).Portable Json.maxDepth := by
    refine Json.portable_ofMembers fun p hp => ?_
    rcases List.mem_append.mp hp with hp | hp
    · exact hv p.2 (hvalues ▸ List.mem_map_of_mem hp)
    · rw [List.mem_singleton.mp hp]
      exact Json.portable_string _ _
  have hrender : (Json.ofMembers members).render ≠ "" := fun h => by
    have := congrArg String.toList h
    rw [Json.render, String.toList_ofList] at this
    cases this
  obtain ⟨hcarried, hpayload⟩ := payload?_component hrender
  refine ⟨hcarried, ?_⟩
  -- the name of the request is the last member, and so it is found whatever the arguments are called
  have hlookup : Json.Members.lookup c.callbackKey (Json.Members.ofList members) = some (.string id) := by
    rw [Json.Members.lookup_ofList, List.reverse_append, List.reverse_singleton, List.singleton_append,
      Json.Members.lookup_cons, if_pos rfl]
  have herase : Json.Members.erase c.callbackKey (Json.Members.ofList members) =
      Json.Members.ofList args.pairs := by
    have hfilter : members.filter (fun p => decide (p.1 ≠ c.callbackKey)) = args.pairs := by
      rw [List.filter_append, List.filter_eq_self.mpr fun p hp => decide_eq_true (hkeys p hp)]
      simp
    have h := Json.Members.filter_ofList (fun key => decide (key ≠ c.callbackKey)) members
    rw [hfilter] at h
    exact h
  rw [decodeObject, hpayload]
  dsimp only
  rw [payloadJson_component hportable, Json.ofMembers]
  dsimp only [bind, Except.bind]
  rw [hlookup, herase]
  rfl

/-- **Arguments are read back as a list**, without the name of the request. -/
theorem decodeArray_query {q : String} (henc : c.encoding = .argsArray) (hv : ∀ v ∈ args.values, v.Portable 126)
    (hq : c.query args id = .ok q) (path : String) :
    Carried q.toList ∧
      decodeArray path q.toList = .ok ⟨path, if args.isEmpty then .none else .positional args.values, none⟩ := by
  rw [query, henc] at hq
  obtain rfl := Except.ok.inj hq
  -- no arguments at all are written as no query
  by_cases hempty : args.isEmpty
  · rw [if_pos hempty, if_pos hempty]
    exact ⟨carried_nil, rfl⟩
  · rw [if_neg hempty, if_neg hempty]
    have hportable : (Json.array args.values).Portable Json.maxDepth := Json.portable_array hv
    have hrender : (Json.array args.values).render ≠ "" := fun h => by
      have := congrArg String.toList h
      rw [Json.render, String.toList_ofList] at this
      cases this
    obtain ⟨hcarried, hpayload⟩ := payload?_component hrender
    refine ⟨hcarried, ?_⟩
    rw [decodeArray, hpayload]
    dsimp only
    rw [payloadJson_component hportable]
    rfl

/-! ## Whole requests -/

/-- What arrives of arguments. -/
def received (c : Codec) (args : Args) : Args :=
  match c.encoding with
  | .b64Json => namedArgs args.pairs
  | .jsonQuery => namedArgs (Json.Members.ofList args.pairs)
  | .argsArray => if args.isEmpty then .none else .positional args.values

/-- What arrives of the name of a request. -/
def receivedName (c : Codec) (id : String) : Option String :=
  match c.encoding with
  | .b64Json | .jsonQuery => some id
  | .argsArray => none

/-- A URL gives back the path and the query that it was made of. -/
theorem splitUrl_url {path q : String} (hbase : c.baseUrl = "prefs://") (hp : Url.PlainPath path)
    (hq : Carried q.toList) : splitUrl (c.url path q) = .ok (path, q.toList) := by
  have hplain : "prefs://".toList = Url.plainBase := by decide
  rw [Codec.url, hbase, hplain, joinUrl_plain hp hq.not_mark hq.start, splitUrl_plain hp hq.safe]

/-- A request that is written has a query. -/
theorem encode_eq_ok {path url : String} (he : c.encode path args id = .ok url) :
    ∃ q, c.query args id = .ok q ∧ url = c.url path q := by
  obtain ⟨q, hq, he⟩ := bind_eq_ok he
  exact ⟨q, hq, (Except.ok.inj he).symm⟩

/-- **Requests are read back.** -/
theorem decode_encode {path url : String} (hbase : c.baseUrl = "prefs://")
    (hcallback : isMarked c.callbackKey = false) (hp : Url.PlainPath path)
    (hv : ∀ v ∈ args.values, v.Portable 126) (he : c.encode path args id = .ok url) :
    c.decode url = .ok ⟨path, c.received args, c.receivedName id⟩ := by
  obtain ⟨q, hq, rfl⟩ := encode_eq_ok he
  rw [decode, received, receivedName]
  cases henc : c.encoding with
  | b64Json =>
    obtain ⟨hcarried, h⟩ := decodePairs_query henc hcallback (fun v hmem => (hv v hmem).mono (by decide)) hq path
    rw [splitUrl_url hbase hp hcarried]
    exact h
  | jsonQuery =>
    obtain ⟨hcarried, h⟩ := decodeObject_query henc hv hq path
    rw [splitUrl_url hbase hp hcarried]
    exact h
  | argsArray =>
    obtain ⟨hcarried, h⟩ := decodeArray_query henc hv hq path
    rw [splitUrl_url hbase hp hcarried]
    exact h

end Codec

end Hostlink
