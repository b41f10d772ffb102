import Hostlink.Proofs.Json.RoundTrip
import Hostlink.Proofs.Text.Base64
import Hostlink.Proofs.Url

/-!
# Pairs with base64 are read back

* `Request.component_encode` — a part of a query;
* `Request.wireKey` — the key that an argument has in a URL;
* `Request.readPair_pair`, `Request.readPair_name` — one argument, and the name of the request;
* `Codec.kept` — the arguments whose key in a URL is free;
* `Codec.decodePairs_kept` — those are read back, in their order, and so is the name of the request;
* `Codec.decodePairs_query` — **all arguments are read back** if the key of the request's name has no mark.
-/

namespace Hostlink

namespace Request

/-- What succeeds step by step has succeeded in each step. -/
theorem bind_eq_ok {ε α β : Type} {x : Except ε α} {f : α → Except ε β} {b : β} (h : x >>= f = .ok b) :
    ∃ a, x = .ok a ∧ f a = .ok b := by
  cases x with
  | error e => cases h
  | ok a => exact ⟨a, rfl, h⟩

/-! ## Parts of queries -/

theorem component_encode (s : String) : component (Component.encode s).toList = .ok s := by
  rw [component, String.ofList_toList, Component.decode_encode]

/-- A component holds no separator, and a URL writes it as it is. -/
theorem safe_of_mem_component {s : String} {x : Char} (hx : x ∈ (Component.encode s).toList) :
    Url.isSafe x = true ∧ x ≠ '&' ∧ x ≠ '=' := by
  have hsafe := Component.isSafe_of_mem_encode hx
  have key : ∀ n : Fin 128, Component.isSafe (Char.ofNat n) = true →
      Url.isSafe (Char.ofNat n) = true ∧ Char.ofNat n ≠ '&' ∧ Char.ofNat n ≠ '=' := by decide +kernel
  have h := key ⟨x.toNat, Component.lt_of_isSafe hsafe⟩
  rw [Char.ofNat_toNat] at h
  exact h hsafe

theorem splitPair_append {key : List Char} (h : ∀ x ∈ key, x ≠ '=') (text : List Char) :
    splitPair (key ++ '=' :: text) = (key, text) := by
  have hall : ∀ x ∈ key, decide (x ≠ '=') = true := fun x hx => decide_eq_true (h x hx)
  rw [splitPair, List.takeWhile_append_of_pos hall, List.dropWhile_append_of_pos hall]
  simp

/-! ## Marks -/

theorem isMarked_append (key : String) : isMarked (key ++ b64Mark) = true := by
  rw [isMarked, String.toList_append, List.reverse_append, List.isPrefixOf_iff_prefix]
  exact List.prefix_append _ _

theorem unmark_append (key : String) : unmark (key ++ b64Mark) = key := by
  have hlen : (key ++ b64Mark).toList.length - b64Mark.length = key.toList.length := by
    rw [String.toList_append, List.length_append, ← String.length_toList (s := b64Mark), Nat.add_sub_cancel]
  rw [unmark, hlen, String.toList_append, List.take_left, String.ofList_toList]

/-- The mark is a component as it is. -/
theorem encode_mark : Component.encode b64Mark = b64Mark := by decide

/-! ## One pair -/

/-- Key and value of a part are components. -/
theorem readPair_eq (callbackKey key text : String) (read : Pairs) :
    readPair callbackKey read ((Component.encode key).toList ++ '=' :: (Component.encode text).toList) =
      if key = callbackKey then .ok { read with callback := some text }
      else if isMarked key then
        (unwrap key text).map fun v => { read with reversed := (unmark key, v) :: read.reversed }
      else .ok { read with reversed := (key, .string text) :: read.reversed } := by
  have hkey : ∀ x ∈ (Component.encode key).toList, x ≠ '=' := fun x hx => (safe_of_mem_component hx).2.2
  rw [readPair, splitPair_append hkey]
  simp only [component_encode, bind, Except.bind, pure, Except.pure]
  split
  · rfl
  · split
    · cases unwrap key text <;> rfl
    · rfl

/-- A value behind a marked key. -/
theorem unwrap_base64 {v : Json} (hv : v.Portable Json.maxDepth) (key : String) :
    unwrap key (String.ofList (Base64.encode (Utf8.encode v.render))) = .ok v := by
  rw [unwrap, Utf8.encode_ofList, Base64.decode_encode]
  dsimp only
  rw [Json.parse_render hv]

/-- The characters of a pair of components. -/
theorem toList_pair (key text : String) :
    (Component.encode key ++ "=" ++ Component.encode text).toList =
      (Component.encode key).toList ++ '=' :: (Component.encode text).toList := by
  rw [String.toList_append, String.toList_append, List.append_assoc]
  rfl

/-- The key that an argument has in a URL. -/
def wireKey (key : String) : Json → String
  | .string _ => key
  | _ => key ++ b64Mark

/-- What a pair consists of: a text is written as it is, and any other value under a marked key. -/
theorem pair_cases (key : String) (v : Json) :
    (∃ s, v = .string s ∧ pair key v = Component.encode key ++ "=" ++ Component.encode s) ∨
      (wireKey key v = key ++ b64Mark ∧ pair key v = Component.encode (key ++ b64Mark) ++ "=" ++
        Component.encode (String.ofList (Base64.encode (Utf8.encode v.render)))) := by
  cases v with
  | string s => exact .inl ⟨s, rfl, rfl⟩
  | _ => right; rw [Component.encode_append, encode_mark]; exact ⟨rfl, rfl⟩

/-- The key of a value in a URL has its mark, or is the key that was given. -/
theorem wireKey_cases (key : String) (v : Json) : wireKey key v = key ∨ wireKey key v = key ++ b64Mark := by
  cases v with
  | string s => exact .inl rfl
  | _ => exact .inr rfl

/-- A key without a mark is the key of no value that has one. -/
theorem wireKey_ne {callbackKey key : String} (hcallback : isMarked callbackKey = false) (hkey : key ≠ callbackKey)
    (v : Json) : wireKey key v ≠ callbackKey := by
  rcases wireKey_cases key v with hwire | hwire
  · rw [hwire]
    exact hkey
  · rintro rfl
    rw [hwire, isMarked_append] at hcallback
    cases hcallback

/-- An argument is read back if its key in a URL is free. Otherwise it is taken for the name of the request. -/
theorem readPair_pair {callbackKey key : String} {v : Json} (hkey : key ≠ callbackKey) (hmark : isMarked key = false)
    (hv : v.Portable Json.maxDepth) (read : Pairs) :
    ∃ name, readPair callbackKey read (pair key v).toList =
      .ok ⟨if wireKey key v ≠ callbackKey then (key, v) :: read.reversed else read.reversed, name⟩ := by
  rcases pair_cases key v with ⟨s, rfl, hpair⟩ | ⟨hwire, hpair⟩
  · have hfree : wireKey key (.string s) ≠ callbackKey := hkey
    rw [hpair, toList_pair, readPair_eq, if_neg hkey, hmark, if_pos hfree]
    exact ⟨_, rfl⟩
  · rw [hpair, toList_pair, readPair_eq, hwire]
    by_cases htaken : key ++ b64Mark = callbackKey
    · rw [if_pos htaken, if_neg (not_not_intro htaken)]
      exact ⟨_, rfl⟩
    · rw [if_neg htaken, if_pos htaken, isMarked_append, if_pos rfl, unwrap_base64 hv, unmark_append]
      exact ⟨_, rfl⟩

/-- The name of the request is read back. -/
theorem readPair_name (callbackKey id : String) (read : Pairs) :
    readPair callbackKey read (Component.encode callbackKey ++ "=" ++ Component.encode id).toList =
      .ok { read with callback := some id } := by
  rw [toList_pair, readPair_eq, if_pos rfl]

/-! ## All pairs -/

/-- The arguments whose keys in a URL are not the key of the request's name. -/
def freePairs (callbackKey : String) (pairs : List (String × Json)) : List (String × Json) :=
  pairs.filter fun p => wireKey p.1 p.2 ≠ callbackKey

/-- Several arguments are read back, the last of them first. -/
theorem foldlM_readPair {callbackKey : String} {pairs : List (String × Json)}
    (hpairs : ∀ p ∈ pairs, p.1 ≠ callbackKey ∧ isMarked p.1 = false ∧ p.2.Portable Json.maxDepth) (read : Pairs) :
    ∃ name, (pairs.map fun p => (pair p.1 p.2).toList).foldlM (readPair callbackKey) read =
      .ok ⟨(freePairs callbackKey pairs).reverse ++ read.reversed, name⟩ := by
  induction pairs generalizing read with
  | nil => exact ⟨read.callback, rfl⟩
  | cons p pairs ih =>
    obtain ⟨hkey, hmark, hv⟩ := hpairs p List.mem_cons_self
    obtain ⟨name, hread⟩ := readPair_pair hkey hmark hv read
    obtain ⟨last, hlast⟩ := ih (fun p hp => hpairs p (List.mem_cons_of_mem _ hp))
      ⟨if wireKey p.1 p.2 ≠ callbackKey then (p.1, p.2) :: read.reversed else read.reversed, name⟩
    refine ⟨last, ?_⟩
    rw [List.map_cons, List.foldlM_cons, hread]
    refine hlast.trans ?_
    by_cases hfree : wireKey p.1 p.2 ≠ callbackKey
    · simp [freePairs, hfree]
    · simp [freePairs, hfree]

/-- The parts of a query: the arguments, and the name of the request. -/
def queryParts (callbackKey id : String) (pairs : List (String × Json)) : List (List Char) :=
  pairs.map (fun p => (pair p.1 p.2).toList) ++ [(Component.encode callbackKey ++ "=" ++ Component.encode id).toList]

/-- A whole query is read back, behind what has been read. -/
theorem foldlM_queryParts {callbackKey : String} {pairs : List (String × Json)}
    (hpairs : ∀ p ∈ pairs, p.1 ≠ callbackKey ∧ isMarked p.1 = false ∧ p.2.Portable Json.maxDepth) (id : String)
    (read : Pairs) : (queryParts callbackKey id pairs).foldlM (readPair callbackKey) read =
      .ok ⟨(freePairs callbackKey pairs).reverse ++ read.reversed, some id⟩ := by
  obtain ⟨name, hread⟩ := foldlM_readPair hpairs read
  have hname := readPair_name callbackKey id ⟨(freePairs callbackKey pairs).reverse ++ read.reversed, name⟩
  rw [queryParts, List.foldlM_append, hread]
  generalize (Component.encode callbackKey ++ "=" ++ Component.encode id).toList = part at hname ⊢
  show List.foldlM (readPair callbackKey) ⟨(freePairs callbackKey pairs).reverse ++ read.reversed, name⟩ [part] = _
  rw [List.foldlM_cons, hname]
  rfl

/-- A pair of components holds no separator of a query. -/
theorem safe_of_mem_components {key text : String} {x : Char}
    (hx : x ∈ (Component.encode key ++ "=" ++ Component.encode text).toList) : Url.isSafe x = true ∧ x ≠ '&' := by
  rw [toList_pair] at hx
  rcases List.mem_append.mp hx with hx | hx
  · exact ⟨(safe_of_mem_component hx).1, (safe_of_mem_component hx).2.1⟩
  · rcases List.mem_cons.mp hx with rfl | hx
    · exact ⟨rfl, by decide⟩
    · exact ⟨(safe_of_mem_component hx).1, (safe_of_mem_component hx).2.1⟩

/-- A part of a query that is found again: it is not empty, and holds no separator. -/
structure Segment (part : List Char) : Prop where
  ne_nil : part ≠ []
  whole : '&' ∉ part

/-- Parts put together are found again. -/
theorem parts_intercalate {ps : List (List Char)} (hps : ∀ part ∈ ps, Segment part) :
    (parts (List.intercalate ['&'] ps)).filter (· ≠ []) = ps := by
  by_cases hne : ps = []
  · rw [hne]
    rfl
  · have hsplit : parts (List.intercalate ['&'] ps) = ps :=
      Text.splitWhere_intercalate rfl hne fun part hpart x hx => decide_eq_false fun h =>
        (hps part hpart).whole (h ▸ hx)
    rw [hsplit, List.filter_eq_self]
    exact fun part hpart => decide_eq_true (hps part hpart).ne_nil

/-- What the parts of a query look like if a URL carries them as they are. -/
structure Part (part : List Char) : Prop where
  ne_nil : part ≠ []
  safe : ∀ x ∈ part, Url.isSafe x = true ∧ x ≠ '&'

theorem Part.segment {part : List Char} (h : Part part) : Segment part :=
  ⟨h.ne_nil, fun hx => (h.safe '&' hx).2 rfl⟩

/-- No mark of a query stands in such a part. -/
theorem Part.not_mark {part : List Char} (h : Part part) : '?' ∉ part := fun hx =>
  Url.ne_of_isSafe (h.safe '?' hx).1 (d := '?') rfl rfl

theorem part_components (key text : String) : Part (Component.encode key ++ "=" ++ Component.encode text).toList :=
  ⟨by rw [toList_pair]; simp, fun _ => safe_of_mem_components⟩

theorem part_pair (key : String) (v : Json) : Part (pair key v).toList := by
  rcases pair_cases key v with ⟨s, -, hpair⟩ | ⟨-, hpair⟩
  · exact hpair ▸ part_components _ _
  · exact hpair ▸ part_components _ _

theorem part_queryParts {callbackKey id : String} {pairs : List (String × Json)} {part : List Char}
    (hpart : part ∈ queryParts callbackKey id pairs) : Part part := by
  rcases List.mem_append.mp hpart with hpart | hpart
  · obtain ⟨p, -, rfl⟩ := List.mem_map.mp hpart
    exact part_pair p.1 p.2
  · rw [List.mem_singleton.mp hpart]
    exact part_components _ _

/-- A query that a URL carries as it is. -/
structure Carried (query : List Char) : Prop where
  safe : ∀ x ∈ query, Url.isSafe x = true
  start : query.head? ≠ some '&'

theorem Carried.not_mark {query : List Char} (h : Carried query) : '?' ∉ query := fun hx =>
  Url.ne_of_isSafe (h.safe '?' hx) (d := '?') rfl rfl

theorem carried_part {part : List Char} (h : Part part) : Carried part := by
  refine ⟨fun x hx => (h.safe x hx).1, fun hstart => ?_⟩
  exact (h.safe '&' (List.mem_of_mem_head? hstart)).2 rfl

/-- No separator stands before the first part. -/
theorem head_intercalate {ps : List (List Char)} (hps : ∀ part ∈ ps, Segment part) :
    (List.intercalate ['&'] ps).head? ≠ some '&' := by
  cases ps with
  | nil => exact fun h => (by cases h)
  | cons part ps =>
    have hpart := hps part List.mem_cons_self
    obtain ⟨x, xs, rfl⟩ := List.exists_cons_of_ne_nil hpart.ne_nil
    rw [List.intercalate_cons_cons_left, List.head?_cons]
    exact fun h => hpart.whole (Option.some.inj h ▸ List.mem_cons_self)

/-- Parts put together are a query that is carried. -/
theorem carried_intercalate {ps : List (List Char)} (hps : ∀ part ∈ ps, Part part) :
    Carried (List.intercalate ['&'] ps) := by
  refine ⟨fun x hx => ?_, head_intercalate fun part hpart => (hps part hpart).segment⟩
  rcases Text.mem_intercalate hx with rfl | ⟨part, hpart, hx⟩
  · rfl
  · exact ((hps part hpart).safe x hx).1

end Request

namespace Args

/-- Named arguments; others have no names. -/
def pairs : Args → List (String × Json)
  | .named pairs => pairs
  | _ => []

/-- What is found under a name is found in the pairs. -/
theorem get?_eq_lookup (a : Args) (key : String) : a.get? key = Json.Members.lookup key a.pairs := by
  cases a <;> rfl

end Args

namespace Request

@[simp] theorem pairs_namedArgs (pairs : List (String × Json)) : (namedArgs pairs).pairs = pairs := by
  unfold namedArgs
  split
  · next h => exact h.symm
  · rfl

theorem get?_namedArgs (pairs : List (String × Json)) (key : String) :
    (namedArgs pairs).get? key = Json.Members.lookup key pairs := by
  rw [Args.get?_eq_lookup, pairs_namedArgs]

end Request

namespace Codec

open Request

variable {c : Codec} {args : Args} {id : String}

/-- A layout with names refuses arguments without names, and the key of the request's name. -/
theorem namedPairs_ok {pairs : List (String × Json)} (h : c.namedPairs args = .ok pairs) :
    pairs = args.pairs ∧ args.values = pairs.map (·.2) ∧ ∀ p ∈ pairs, p.1 ≠ c.callbackKey := by
  cases args with
  | none =>
    obtain rfl := Except.ok.inj h
    exact ⟨rfl, rfl, fun _ hp => (by cases hp)⟩
  | positional vs => cases h
  | named ps =>
    rw [namedPairs] at h
    split at h
    · cases h
    · next hget =>
      obtain rfl := Except.ok.inj h
      refine ⟨rfl, rfl, fun p hp heq => hget ?_⟩
      rw [Args.get?, List.lookup_isSome_iff]
      exact ⟨p, hp, by simp [heq]⟩

/-- What a layout of pairs takes: names, none of them the key of the request's name, and none marked. -/
theorem pairsQuery_ok {q : String} (henc : c.encoding = .b64Json) (hq : c.query args id = .ok q) :
    args.values = args.pairs.map (·.2) ∧ (∀ p ∈ args.pairs, p.1 ≠ c.callbackKey ∧ isMarked p.1 = false) ∧
      q.toList = List.intercalate ['&'] (queryParts c.callbackKey id args.pairs) := by
  rw [query, henc] at hq
  dsimp only at hq
  obtain ⟨pairs, hnamed, hq⟩ := bind_eq_ok hq
  obtain ⟨rfl, hvalues, hkeys⟩ := namedPairs_ok hnamed
  cases hfind : args.pairs.find? (isMarked ·.1) with
  | some p =>
    rw [hfind] at hq
    cases hq
  | none =>
    rw [hfind] at hq
    have hunmarked : ∀ p ∈ args.pairs, isMarked p.1 = false := fun p hp => by
      simpa using List.find?_eq_none.mp hfind p hp
    refine ⟨hvalues, fun p hp => ⟨hkeys p hp, hunmarked p hp⟩, ?_⟩
    rw [← Except.ok.inj hq, String.toList_intercalate, List.map_append, List.map_map]
    rfl

/-- The arguments that arrive: those whose key in a URL is not the key of the request's name. -/
def kept (c : Codec) (args : Args) : List (String × Json) := freePairs c.callbackKey args.pairs

/-- Every argument is kept if the key of the request's name has no mark. -/
theorem kept_eq {q : String} (henc : c.encoding = .b64Json) (hcallback : isMarked c.callbackKey = false)
    (hq : c.query args id = .ok q) : c.kept args = args.pairs :=
  List.filter_eq_self.mpr fun p hp =>
    decide_eq_true (wireKey_ne hcallback ((pairsQuery_ok henc hq).2.1 p hp).1 p.2)

/-- Arguments with free keys are read back, in their order, and so is the name of the request. -/
theorem decodePairs_kept {q : String} (henc : c.encoding = .b64Json)
    (hv : ∀ v ∈ args.values, v.Portable Json.maxDepth) (hq : c.query args id = .ok q) (path : String) :
    Carried q.toList ∧ c.decodePairs path q.toList = .ok ⟨path, namedArgs (c.kept args), some id⟩ := by
  obtain ⟨hvalues, hkeys, htext⟩ := pairsQuery_ok henc hq
  have hpairs : ∀ p ∈ args.pairs, p.1 ≠ c.callbackKey ∧ isMarked p.1 = false ∧ p.2.Portable Json.maxDepth :=
    fun p hp => ⟨(hkeys p hp).1, (hkeys p hp).2, hv p.2 (hvalues ▸ List.mem_map_of_mem hp)⟩
  rw [htext]
  refine ⟨carried_intercalate fun _ => part_queryParts, ?_⟩
  rw [decodePairs, parts_intercalate fun _ hpart => (part_queryParts hpart).segment, foldlM_queryParts hpairs]
  dsimp only [bind, Except.bind]
  rw [List.append_nil, List.reverse_reverse, kept]

/-- **All arguments are read back, in their order**, and so is the name of the request. -/
theorem decodePairs_query {q : String} (henc : c.encoding = .b64Json) (hcallback : isMarked c.callbackKey = false)
    (hv : ∀ v ∈ args.values, v.Portable Json.maxDepth) (hq : c.query args id = .ok q) (path : String) :
    Carried q.toList ∧ c.decodePairs path q.toList = .ok ⟨path, namedArgs args.pairs, some id⟩ := by
  rw [← kept_eq henc hcallback hq]
  exact decodePairs_kept henc hv hq path

end Codec

end Hostlink
