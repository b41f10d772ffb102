import Hostlink.Proofs.Request.RoundTrip

/-!
# Resources with a query of their own

A page may ask for a path that has a query already. Its arguments are put behind the pairs of that query,
and the host tells them from the pairs: a JSON value that is percent-coded holds no `=`.

* `Request.Resource` — a plain path, and the pairs of words behind it;
* `Request.Resource.splitUrl_joinUrl` — **the path, and all parts of the query, are found again**;
* `Request.Resource.payload?_joined` — the arguments are told from the pairs;
* `Codec.decode_encode_resource` — **requests of one JSON value are read back**.
-/

namespace Hostlink

namespace Request

/-! ## Resources -/

/-- A plain path that may have a query already: pairs of letters and digits. -/
structure Resource where
  path : String
  /-- The pairs behind the `?`, if there is one. -/
  own : Option (List (String × String))
  plain : Url.PlainPath path
  words : ∀ p ∈ own.getD [], ∀ x ∈ p.1.toList ++ p.2.toList, x.isAlphanum = true

/-- A pair of words. -/
def wordPair (p : String × String) : String := p.1 ++ "=" ++ p.2

namespace Resource

/-- A resource as it is asked for. -/
def text (r : Resource) : String :=
  match r.own with
  | none => r.path
  | some pairs => r.path ++ "?" ++ "&".intercalate (pairs.map wordPair)

/-- The parts of the query that a resource has already. -/
def ownParts (r : Resource) : List (List Char) := (r.own.getD []).map fun p => (wordPair p).toList

/-- All parts of the query, with the arguments at the end. -/
def allParts (r : Resource) (query : List Char) : List (List Char) :=
  r.ownParts ++ if query = [] then [] else [query]

/-- The whole query. -/
def joined (r : Resource) (query : List Char) : List Char := List.intercalate ['&'] (r.allParts query)

/-- What stands behind the path. -/
def tail (r : Resource) (query : List Char) : List Char :=
  if r.own = none ∧ query = [] then [] else '?' :: r.joined query

end Resource

namespace Resource

variable (r : Resource) {query : List Char}

/-- The characters of a pair of words. -/
theorem char_own {part : List Char} (hpart : part ∈ r.ownParts) :
    '=' ∈ part ∧ ∀ x ∈ part, Url.isWordChar x = true ∨ x = '=' := by
  obtain ⟨p, hp, rfl⟩ := List.mem_map.mp hpart
  have htext : (wordPair p).toList = p.1.toList ++ '=' :: p.2.toList := by
    rw [wordPair, String.toList_append, String.toList_append, List.append_assoc]
    rfl
  have hword : ∀ x ∈ p.1.toList ++ p.2.toList, Url.isWordChar x = true := fun x hx => by
    rw [Url.isWordChar, r.words p hp x hx]
    rfl
  rw [htext]
  refine ⟨by simp, fun x hx => ?_⟩
  rcases List.mem_append.mp hx with hx | hx
  · exact .inl (hword x (List.mem_append_left _ hx))
  · rcases List.mem_cons.mp hx with rfl | hx
    · exact .inr rfl
    · exact .inl (hword x (List.mem_append_right _ hx))

theorem part_own {part : List Char} (hpart : part ∈ r.ownParts) : Part part := by
  obtain ⟨hequals, hchar⟩ := r.char_own hpart
  refine ⟨List.ne_nil_of_mem hequals, fun x hx => ?_⟩
  rcases hchar x hx with hword | rfl
  · exact ⟨Url.isSafe_of_isWordChar hword, Url.ne_of_isWordChar hword rfl⟩
  · exact ⟨rfl, by decide⟩

theorem part_all (hq : IsPayload query) {part : List Char} (hpart : part ∈ r.allParts query) : Part part := by
  rcases List.mem_append.mp hpart with hpart | hpart
  · exact r.part_own hpart
  · rcases hq with rfl | ⟨hq, -⟩
    · cases hpart
    · rw [if_neg hq.ne_nil] at hpart
      exact List.mem_singleton.mp hpart ▸ hq

theorem carried_joined (hq : IsPayload query) : Carried (r.joined query) :=
  carried_intercalate fun _ hpart => r.part_all hq hpart

theorem isTail_tail (hq : IsPayload query) : Url.IsTail (r.tail query) := by
  unfold tail
  split
  · exact .inl rfl
  · exact .inr ⟨_, rfl, fun c hc => .inl ((r.carried_joined hq).safe c hc)⟩

theorem drop_tail : (r.tail query).drop 1 = r.joined query := by
  unfold tail
  split
  · next h =>
    rw [joined, allParts, ownParts, h.1, if_pos h.2]
    rfl
  · rfl

/-- The arguments are found among the pairs of a resource, and no pair is taken for arguments. -/
theorem payload?_joined (hq : IsPayload query) : payload? (r.joined query) = payload? query := by
  rw [joined, payload?_intercalate fun _ hpart => (r.part_all hq hpart).segment, allParts]
  by_cases hnil : query = []
  · rw [if_pos hnil, List.append_nil, hnil]
    show _ = none
    cases hlast : r.ownParts.getLast? with
    | none => rfl
    | some part =>
      have hpair := (r.char_own (List.mem_of_getLast? hlast)).1
      simp [hpair]
  · rcases hq with hq | ⟨hpart, hequals⟩
    · exact absurd hq hnil
    · rw [if_neg hnil, List.getLast?_concat, payload?_part hpart hequals]
      simp [hequals]

/-- A resource with a `?` is its path, and the pairs behind it. -/
theorem toList_text {pairs : List (String × String)} (hown : r.own = some pairs) :
    r.text.toList = r.path.toList ++ '?' :: List.intercalate ['&'] r.ownParts := by
  rw [text, hown, ownParts, hown, Option.getD_some]
  dsimp only
  rw [String.toList_append, String.toList_append, String.toList_intercalate, List.map_map, List.append_assoc]
  rfl

/-- The pairs of a resource are no URL. -/
theorem hasAuthority_own : hasAuthority (List.intercalate ['&'] r.ownParts) = false := by
  refine not_holds (fun hx => ?_) _
  rcases Text.mem_intercalate hx with hx | ⟨part, hpart, hx⟩
  · cases hx
  · rcases (r.char_own hpart).2 ':' hx with hx | hx
    · cases hx
    · cases hx

/-- The arguments are put behind the pairs of a resource. -/
theorem joinUrl_text (hq : IsPayload query) :
    joinUrl Url.plainBase r.text.toList query = Url.plainBase ++ (r.path.toList ++ r.tail query) := by
  cases hown : r.own with
  | none =>
    have hquery : Carried query := by
      rcases hq with rfl | ⟨hq, -⟩
      · exact carried_nil
      · exact carried_part hq
    have htail : r.tail query = Url.queryTail query := by
      rw [tail, hown, joined, allParts, ownParts, hown, Url.queryTail]
      by_cases hnil : query = [] <;> simp [hnil]
    rw [text, hown, joinUrl_plain r.plain hquery.not_mark hquery.start, htail]
  | some pairs =>
    have htail : r.tail query = '?' :: r.joined query := by simp [tail, hown]
    have hjoined := r.carried_joined hq
    have hsame : dropEmptyPair ('?' :: r.joined query) = '?' :: r.joined query :=
      dropEmptyPair_mark hjoined.not_mark hjoined.start
    rw [r.toList_text hown, joinUrl_own r.plain r.hasAuthority_own, htail]
    congr 2
    by_cases hnil : query = []
    · rw [joined, allParts, if_pos hnil, List.append_nil] at hsame ⊢
      rw [if_pos hnil, List.append_nil, hsame]
    · rw [if_neg hnil]
      by_cases hparts : r.ownParts = []
      · -- the `?` has nothing behind it but the arguments
        have hwhole : r.joined query = query := by
          rw [joined, allParts, hparts, if_neg hnil, List.nil_append, List.intercalate_singleton]
        rw [hwhole] at hjoined ⊢
        rw [hparts]
        show '?' :: dropEmptyPair query = _
        rw [dropEmptyPair_eq hjoined.not_mark]
      · have hwhole : r.joined query = List.intercalate ['&'] r.ownParts ++ '&' :: query := by
          rw [joined, allParts, if_neg hnil, Text.intercalate_append '&' hparts (List.cons_ne_nil _ _),
            List.intercalate_singleton]
        rw [← hwhole]
        exact hsame

/-- **The path, and all parts of the query, are found again.** -/
theorem splitUrl_joinUrl (hq : IsPayload query) :
    splitUrl (String.ofList (joinUrl Url.plainBase r.text.toList query)) = .ok (r.path, r.joined query) := by
  rw [r.joinUrl_text hq, splitUrl_tail r.plain (r.isTail_tail hq), r.drop_tail]

end Resource

end Request

namespace Codec

open Request

variable {c : Codec} {args : Args} {id : String}

/-! ## Requests -/

/-- A layout of one JSON value makes one part of a query. -/
theorem isPayload_query {q : String} (henc : c.encoding ≠ .b64Json) (hq : c.query args id = .ok q) :
    IsPayload q.toList := by
  rw [query] at hq
  cases hcase : c.encoding with
  | b64Json => exact absurd hcase henc
  | jsonQuery =>
    rw [hcase] at hq
    dsimp only at hq
    rcases hnamed : c.namedPairs args with e | pairs
    · rw [hnamed] at hq
      cases hq
    · rw [hnamed] at hq
      rw [← Except.ok.inj hq]
      exact isPayload_component _
  | argsArray =>
    rw [hcase] at hq
    rw [← Except.ok.inj hq]
    split
    · exact .inl rfl
    · exact isPayload_component _

/-- **Requests of one JSON value are read back**, whatever query the resource has. -/
theorem decode_encode_resource {url : String} (hbase : c.baseUrl = "prefs://") (henc : c.encoding ≠ .b64Json)
    (r : Resource) (hv : ∀ v ∈ args.values, v.Portable 126) (he : c.encode r.text args id = .ok url) :
    c.decode url = .ok ⟨r.path, c.received args, c.receivedName id⟩ := by
  obtain ⟨q, hq, rfl⟩ := encode_eq_ok he
  have hpayload := isPayload_query henc hq
  have hsame : payload? (r.joined q.toList) = payload? q.toList := r.payload?_joined hpayload
  have hplain : "prefs://".toList = Url.plainBase := by decide
  rw [decode, Codec.url, hbase, hplain, r.splitUrl_joinUrl hpayload, received, receivedName]
  cases hcase : c.encoding with
  | b64Json => exact absurd hcase henc
  | jsonQuery =>
    have h := (decodeObject_query hcase hv hq r.path).2
    rw [decodeObject, ← hsame] at h
    exact h
  | argsArray =>
    have h := (decodeArray_query hcase hv hq r.path).2
    rw [decodeArray, ← hsame] at h
    exact h

end Codec

end Hostlink
