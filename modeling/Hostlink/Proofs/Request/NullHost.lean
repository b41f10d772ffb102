import Hostlink.Proofs.Request.Pairs

/-!
# Pages without a host of their own

A page without a host puts `null` in its place: as the host of a URL, or as a segment before its path. One `null` is
passed over, wherever it stands, and all that is behind it is read as if it was not there.

* `Request.readQuery` — a query as it is read;
* `Request.splitUrl_hosted`, `Request.splitUrl_prefixed`, `Request.splitUrl_bare` — the three ways to write a URL;
* `Codec.path_of_decodeParts` — the path of a request is that of its URL;
* `Codec.null_passed_over` — **all three ways say the same**.
-/

namespace Hostlink

namespace Request

open Url

/-- A query as it is read, with what a URL may not hold written as triplets. -/
def readQuery (query : List Char) : List Char := ((queryOf .other (trimEnd ('?' :: query))).getD "").toList

/-! ## Paths behind `null` -/

variable {path q : String}

theorem toList_null (path : String) : ("/null" ++ path).toList = '/' :: (['n', 'u', 'l', 'l'] ++ path.toList) :=
  String.toList_append

theorem isWordChar_null : ∀ c ∈ ['n', 'u', 'l', 'l'], isWordChar c = true := List.all_eq_true.mp rfl

/-- A segment `null` is one more word. -/
theorem wordPath_null (hp : WordPath path) : WordPath ("/null" ++ path) := by
  have hnull : ∀ c ∈ ['n', 'u', 'l', 'l'], decide (c = '/') = false := by simp
  have hsegments : pathSegments ("/null" ++ path) = ['n', 'u', 'l', 'l'] :: pathSegments path := by
    rw [pathSegments, toList_null, List.drop_one, List.tail_cons, hp.toList_eq,
      Text.splitWhere_append_cons hnull rfl]
    rfl
  refine ⟨by rw [toList_null, List.head?_cons], ?_⟩
  rw [hsegments]
  exact List.forall_mem_cons.mpr ⟨⟨List.cons_ne_nil _ _, isWordChar_null⟩, hp.2⟩

theorem pathOf_hosted (hp : WordPath path) (query : Option String) : pathOf ⟨some "null", path, query⟩ = path := by
  have hne : path.toList ≠ [] := hp.toList_eq ▸ List.cons_ne_nil _ _
  simp only [pathOf, if_true, if_neg hne, String.ofList_toList]

/-- One segment `null` is dropped, and what stands behind it is kept. -/
theorem pathOf_prefixed (hp : WordPath path) (query : Option String) :
    pathOf ⟨none, "/null" ++ path, query⟩ = path := by
  have hne : path.toList ≠ [] := hp.toList_eq ▸ List.cons_ne_nil _ _
  have hdrop : dropNull ("/null" ++ path).toList = path.toList := by
    rw [toList_null]
    show (if path.toList = [] ∨ path.toList.head? = some '/' then path.toList else _) = _
    rw [if_pos (.inr hp.1)]
  have hhost : (none : Option String) ≠ some "null" := nofun
  simp only [pathOf, if_neg hhost, hdrop, if_neg hne, String.ofList_toList]

/-! ## Three ways to write a URL -/

/-- A URL of words is read as the path that is shown for its host and path, and its query. -/
theorem splitUrl_words (hp : WordPath path) (host : List Char) (hhost : ∀ c ∈ host, isWordChar c = true)
    {name : Option String} (hname : ∀ more, authority .other host more = .ok (name, []))
    {shown : String} (hshown : ∀ query, pathOf ⟨name, path, query⟩ = shown) (hq : '#' ∉ q.toList) :
    splitUrl ("prefs://" ++ String.ofList host ++ path ++ "?" ++ q) = .ok (shown, readQuery q.toList) := by
  have hurl : "prefs://" ++ String.ofList host ++ path ++ "?" ++ q =
      String.ofList (plainBase ++ (host ++ (path.toList ++ '?' :: q.toList))) := by
    rw [← String.toList_inj]
    simp [plainBase]
  have hhash : '#' ∉ '?' :: q.toList := by simpa using hq
  rw [splitUrl, hurl, parse_words hp hhost hname (.inr rfl) hhash]
  simp only [hshown, readQuery]

theorem splitUrl_hosted (hp : WordPath path) (hq : '#' ∉ q.toList) :
    splitUrl ("prefs://null" ++ path ++ "?" ++ q) = .ok (path, readQuery q.toList) :=
  splitUrl_words hp ['n', 'u', 'l', 'l'] isWordChar_null (fun _ => rfl) (pathOf_hosted hp) hq

theorem splitUrl_bare (hp : WordPath path) (hfirst : (pathSegments path).head? ≠ some ['n', 'u', 'l', 'l'])
    (hq : '#' ∉ q.toList) : splitUrl ("prefs://" ++ path ++ "?" ++ q) = .ok (path, readQuery q.toList) :=
  splitUrl_words hp [] (List.forall_mem_nil _) (fun _ => rfl) (pathOf_plain ⟨hp.1, hfirst, hp.2⟩) hq

theorem splitUrl_prefixed (hp : WordPath path) (hq : '#' ∉ q.toList) :
    splitUrl ("prefs:///null" ++ path ++ "?" ++ q) = .ok (path, readQuery q.toList) := by
  have h := splitUrl_words (wordPath_null hp) [] (List.forall_mem_nil _) (fun _ => rfl) (pathOf_prefixed hp) hq
  rw [← h, ← String.append_assoc]
  rfl

end Request

namespace Codec

open Request

variable {c : Codec}

/-! ## Path and query -/

/-- The request of a path and a query. -/
def decodeParts (c : Codec) (path : String) (query : List Char) : Except DecodeError Request :=
  match c.encoding with
  | .b64Json => c.decodePairs path query
  | .jsonQuery => c.decodeObject path query
  | .argsArray => decodeArray path query

theorem decode_of_splitUrl {url path : String} {query : List Char} (h : splitUrl url = .ok (path, query)) :
    c.decode url = c.decodeParts path query := by
  rw [decode, h]
  rfl

/-- A request that is read from a query is one of the path that it was read for. -/
theorem path_of_decodeParts {path : String} {query : List Char} {r : Request}
    (h : c.decodeParts path query = .ok r) : r.path = path := by
  rw [decodeParts] at h
  -- all layouts take the path as it is
  cases henc : c.encoding with
  | b64Json =>
    rw [henc] at h
    obtain ⟨read, -, h⟩ := bind_eq_ok h
    rw [← Except.ok.inj h]
  | jsonQuery =>
    simp only [henc, decodeObject] at h
    split at h
    · cases h
    · obtain ⟨v, -, h⟩ := bind_eq_ok h
      cases v with
      | object members => rw [← Except.ok.inj h]
      | _ => cases h
  | argsArray =>
    simp only [henc, decodeArray] at h
    split at h
    · rw [← Except.ok.inj h]
    · obtain ⟨v, -, h⟩ := bind_eq_ok h
      cases v with
      | array items => rw [← Except.ok.inj h]
      | _ => cases h

/-- **One `null` is passed over.** For a path of words and a query that ends at no `#`, a URL says the same whether
`null` stands in it as the host or as a segment before the path, and the same as one without it if the path does not
begin with `null` itself. What is read as a request is one of that path. -/
theorem null_passed_over (c : Codec) {path q : String} (hp : Url.WordPath path) (hq : '#' ∉ q.toList) :
    c.decode ("prefs:///null" ++ path ++ "?" ++ q) = c.decode ("prefs://null" ++ path ++ "?" ++ q) ∧
    ((Url.pathSegments path).head? ≠ some "null".toList →
      c.decode ("prefs://" ++ path ++ "?" ++ q) = c.decode ("prefs://null" ++ path ++ "?" ++ q)) ∧
    ∀ r, c.decode ("prefs://null" ++ path ++ "?" ++ q) = .ok r → r.path = path := by
  have hhosted := decode_of_splitUrl (c := c) (splitUrl_hosted hp hq)
  refine ⟨?_, fun hfirst => ?_, fun r hr => ?_⟩
  · rw [decode_of_splitUrl (splitUrl_prefixed hp hq), hhosted]
  · rw [decode_of_splitUrl (splitUrl_bare hp hfirst hq), hhosted]
  · rw [hhosted] at hr
    exact path_of_decodeParts hr

/-- A name that begins with `null` is kept, and the blank and the mark in the query stand where they stood. -/
theorem null_passed_over_name :
    let c : Codec := ⟨.b64Json, "prefs://", "callback"⟩
    let read : Except DecodeError Request := .ok ⟨"/nullable/null", .named [("k", .string "a b?")], some "7"⟩
    c.decode "prefs:///null/nullable/null?k=a b?&callback=7\t" = read ∧
      c.decode "prefs://null/nullable/null?k=a b?&callback=7\t" = read ∧
      c.decode "prefs:///nullable/null?k=a b?&callback=7\t" = read := by
  intro c read
  have hread : c.decode "prefs://null/nullable/null?k=a b?&callback=7\t" = read := rfl
  obtain ⟨hprefixed, hbare, -⟩ :=
    @null_passed_over c "/nullable/null" "k=a b?&callback=7\t" (by decide) (by decide)
  exact ⟨hprefixed.trans hread, hread, (hbare (by decide)).trans hread⟩

end Codec

end Hostlink
