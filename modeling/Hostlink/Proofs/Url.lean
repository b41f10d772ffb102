import Hostlink.Proofs.Text.Component
import Hostlink.Proofs.Text.Parts
import Hostlink.Request
import Mathlib.Data.List.TakeWhile

/-!
# Plain paths and safe queries

A path of words, and a query that holds nothing a URL would write in another way, come through a URL
unchanged.

* `Url.WordPath`, `Url.PlainPath` — words between slashes;
* `Url.isSafe` — characters of a query that nothing happens to;
* `Url.parse_words`, `Url.parse_plain` — what a URL of words, and a plain one, is read as;
* `Request.splitUrl_plain` — **path and query are found again**.
-/

namespace Hostlink

namespace Url

/-! ## Words -/

/-- Letters, digits, `-` and `_`. -/
def isWordChar (c : Char) : Bool := c.isAlphanum || c = '-' || c = '_'

/-- The segments of a path that begins with a slash. -/
def pathSegments (path : String) : List (List Char) := Text.splitWhere (· = '/') (path.toList.drop 1)

/-- A slash, and then words between slashes. -/
def WordPath (path : String) : Prop :=
  path.toList.head? = some '/' ∧ ∀ s ∈ pathSegments path, s ≠ [] ∧ ∀ c ∈ s, isWordChar c = true

instance (path : String) : Decidable (WordPath path) :=
  haveI (s : List Char) : Decidable (∀ c ∈ s, isWordChar c = true) := List.decidableBAll _ s
  inferInstanceAs (Decidable (_ ∧ _))

/-- A slash, and then words between slashes. The first word is not `null`. -/
def PlainPath (path : String) : Prop :=
  path.toList.head? = some '/' ∧ (pathSegments path).head? ≠ some ['n', 'u', 'l', 'l'] ∧
    ∀ s ∈ pathSegments path, s ≠ [] ∧ ∀ c ∈ s, isWordChar c = true

instance (path : String) : Decidable (PlainPath path) :=
  haveI (s : List Char) : Decidable (∀ c ∈ s, isWordChar c = true) := List.decidableBAll _ s
  inferInstanceAs (Decidable (_ ∧ _ ∧ _))

/-- What a URL keeps as it is in a query, and that ends no query. -/
def isSafe (c : Char) : Bool := 33 ≤ c.toNat && c.toNat < 127 && ! ['"', '#', '<', '>', '?'].contains c

theorem toNat_of_isWordChar {c : Char} (hc : isWordChar c = true) :
    (48 ≤ c.toNat ∧ c.toNat ≤ 57) ∨ (65 ≤ c.toNat ∧ c.toNat ≤ 90) ∨ (97 ≤ c.toNat ∧ c.toNat ≤ 122) ∨
      c.toNat = 45 ∨ c.toNat = 95 := by
  have hupper : c.isUpper = decide (65 ≤ c.val ∧ c.val ≤ 90) := rfl
  have hlower : c.isLower = (decide (97 ≤ c.val) && decide (c.val ≤ 122)) := rfl
  have halnum : c.isAlphanum = ((c.isUpper || c.isLower) || c.isDigit) := rfl
  simp only [isWordChar, halnum, hupper, hlower, Bool.or_eq_true, Bool.and_eq_true, decide_eq_true_eq,
    UInt32.le_iff_toNat_le, Char.isDigit_iff_toNat] at hc
  rcases hc with (((hc | hc) | hc) | rfl) | rfl
  · exact .inr (.inl hc)
  · exact .inr (.inr (.inl hc))
  · exact .inl hc
  · exact .inr (.inr (.inr (.inl rfl)))
  · exact .inr (.inr (.inr (.inr rfl)))

/-- A character between two numbers is none outside. -/
theorem ne_of_isWordChar {c d : Char} (hc : isWordChar c = true) (hd : isWordChar d = false) : c ≠ d := by
  rintro rfl
  rw [hc] at hd
  cases hd

theorem ne_of_isSafe {c d : Char} (hc : isSafe c = true) (hd : isSafe d = false) : c ≠ d := by
  rintro rfl
  rw [hc] at hd
  cases hd

theorem isSafe_of_isWordChar {c : Char} (hc : isWordChar c = true) : isSafe c = true := by
  have hrange := toNat_of_isWordChar hc
  have hne : ∀ d : Char, isWordChar d = false → c ≠ d := fun d hd => ne_of_isWordChar hc hd
  simp only [isSafe, Bool.and_eq_true, decide_eq_true_eq]
  refine ⟨⟨by omega, by omega⟩, ?_⟩
  simp [hne '"' rfl, hne '#' rfl, hne '<' rfl, hne '>' rfl, hne '?' rfl]

theorem isPathKept_of_isWordChar {c : Char} (hc : isWordChar c = true) :
    c.toNat < 128 ∧ Path.isKept (UInt8.ofNat c.toNat) = true := by
  have hlt : c.toNat < 128 := by
    have := toNat_of_isWordChar hc
    omega
  have key : ∀ n : Fin 128, isWordChar (Char.ofNat n) = true → Path.isKept (UInt8.ofNat n) = true := by
    decide +kernel
  refine ⟨hlt, key ⟨c.toNat, hlt⟩ ?_⟩
  rw [Char.ofNat_toNat]
  exact hc

theorem isQueryKept_of_isSafe {c : Char} (hc : isSafe c = true) :
    c.toNat < 128 ∧ isQueryKept .other (UInt8.ofNat c.toNat) = true := by
  have hlt : c.toNat < 128 := by
    simp only [isSafe, Bool.and_eq_true, decide_eq_true_eq] at hc
    omega
  have key : ∀ n : Fin 128, isSafe (Char.ofNat n) = true → isQueryKept .other (UInt8.ofNat n) = true := by
    decide +kernel
  refine ⟨hlt, key ⟨c.toNat, hlt⟩ ?_⟩
  rw [Char.ofNat_toNat]
  exact hc

/-! ## Paths of words -/

namespace Path

theorem encode_word {s : List Char} (hs : ∀ c ∈ s, isWordChar c = true) : encode s = s := by
  rw [encode, Utf8.encode_ofList, Percent.encodeOctets_of_kept fun c hc => isPathKept_of_isWordChar (hs c hc)]

theorem unescapePoints_word {s : List Char} (hs : ∀ c ∈ s, isWordChar c = true) : unescapePoints s = s := by
  induction s with
  | nil => rfl
  | cons c s ih =>
    have hc : c ≠ '%' := ne_of_isWordChar (hs c List.mem_cons_self) rfl
    rw [unescapePoints, ih fun c hc => hs c (List.mem_cons_of_mem _ hc)]
    · rintro rest rfl; exact absurd rfl hc
    · rintro rest rfl; exact absurd rfl hc

/-- Words are segments as they are. -/
theorem close_word {s : List Char} (hs : ∀ c ∈ s, isWordChar c = true) (segments : List (List Char))
    (last : Bool) : close .other segments s last = s :: segments := by
  have hpoint : ∀ more, s ≠ '.' :: more := by
    rintro more rfl
    exact ne_of_isWordChar (hs '.' List.mem_cons_self) (d := '.') rfl rfl
  have habove : isAbove s = false := by
    rw [isAbove, unescapePoints_word hs]
    exact decide_eq_false (hpoint _)
  have hsame : isSame s = false := by
    rw [isSame, unescapePoints_word hs]
    exact decide_eq_false (hpoint _)
  rw [close, habove, hsame]
  rfl

theorem ofSegments_words {words : List (List Char)} (hw : ∀ s ∈ words, ∀ c ∈ s, isWordChar c = true)
    (done : List (List Char)) : ofSegments .other done words = done.reverse ++ words := by
  induction words generalizing done with
  | nil => rw [ofSegments, List.append_nil]
  | cons s words ih =>
    have hs := hw s List.mem_cons_self
    rw [ofSegments, encode_word hs, close_word hs, ih fun s hs => hw s (List.mem_cons_of_mem _ hs),
      List.reverse_cons, List.append_assoc, List.singleton_append]

/-- A text of words is a path as it is. -/
theorem resolve_words {text : List Char} (hw : ∀ s ∈ Text.splitWhere (· = '/') text, ∀ c ∈ s, isWordChar c = true) :
    resolve .other text = '/' :: text := by
  have hslash : Kind.isSlash .other = fun c => decide (c = '/') := by
    funext c
    simp [Kind.isSlash]
  simp only [resolve, hslash]
  rw [ofSegments_words hw, if_neg (by decide), List.reverse_nil, List.nil_append, Text.intercalate_splitWhere]

end Path

/-! ## Words between slashes -/

section

variable {path : String} (hp : WordPath path)
include hp

theorem WordPath.toList_eq : path.toList = '/' :: path.toList.drop 1 := by
  have h := hp.1
  cases hl : path.toList with
  | nil => rw [hl] at h; cases h
  | cons c text =>
    rw [hl] at h
    rw [Option.some.inj h]
    rfl

/-- Words and slashes. -/
theorem WordPath.char {c : Char} (hc : c ∈ path.toList) : c = '/' ∨ isWordChar c = true := by
  rw [hp.toList_eq] at hc
  rcases List.mem_cons.mp hc with rfl | hc
  · exact .inl rfl
  · rw [← Text.intercalate_splitWhere '/' (path.toList.drop 1)] at hc
    rcases Text.mem_intercalate hc with hc | ⟨s, hs, hc⟩
    · exact .inl hc
    · exact .inr ((hp.2 s hs).2 c hc)

theorem WordPath.ne {c d : Char} (hc : c ∈ path.toList) (hslash : d ≠ '/') (hword : isWordChar d = false) :
    c ≠ d := by
  rcases hp.char hc with rfl | hc
  · exact hslash.symm
  · exact ne_of_isWordChar hc hword

end

section

variable {path : String} (hp : PlainPath path)
include hp

theorem PlainPath.words : WordPath path := ⟨hp.1, hp.2.2⟩

theorem PlainPath.toList_eq : path.toList = '/' :: path.toList.drop 1 := hp.words.toList_eq

theorem PlainPath.ne {c d : Char} (hc : c ∈ path.toList) (hslash : d ≠ '/') (hword : isWordChar d = false) :
    c ≠ d :=
  hp.words.ne hc hslash hword

end

/-! ## Blanks -/

theorem isBlank_eq_false {c : Char} (h : 33 ≤ c.toNat) : isBlank c = false :=
  decide_eq_false (by omega)

theorem isBlank_of_isWordChar {c : Char} (hc : isWordChar c = true) : isBlank c = false := by
  have := toNat_of_isWordChar hc
  exact isBlank_eq_false (by omega)

/-- The end of a text as it is read: without blanks behind it, and without ignored characters. -/
def trimEnd (text : List Char) : List Char := (text.reverse.dropWhile isBlank).reverse.filter (! isIgnored ·)

/-- Nothing is cut off before a character that is no blank, and none of these is ignored. -/
theorem trimEnd_append {front : List Char} (h : ∀ c ∈ front, isBlank c = false) (text : List Char) :
    trimEnd (front ++ text) = front ++ trimEnd text := by
  have hstop : front.reverse.dropWhile isBlank = front.reverse := by
    cases hback : front.reverse with
    | nil => rfl
    | cons c back =>
      have hc : c ∈ front := List.mem_reverse.mp (hback ▸ List.mem_cons_self)
      rw [List.dropWhile_cons_of_neg (by simp [h c hc])]
  have hkept : front.filter (! isIgnored ·) = front := by
    rw [List.filter_eq_self]
    intro c hc
    have hne : ∀ d : Char, isBlank d = true → c ≠ d := by
      rintro d hd rfl
      rw [h c hc] at hd
      cases hd
    simp [isIgnored, hne '\t' rfl, hne '\n' rfl, hne '\r' rfl]
  have hdrop : (text.reverse ++ front.reverse).dropWhile isBlank =
      text.reverse.dropWhile isBlank ++ front.reverse := by
    rw [List.dropWhile_append]
    split
    · next hnil => rw [hstop, List.isEmpty_iff.mp hnil, List.nil_append]
    · rfl
  rw [trimEnd, List.reverse_append, hdrop, List.reverse_append, List.reverse_reverse, List.filter_append, hkept, trimEnd]

theorem trimEnd_eq {text : List Char} (h : ∀ c ∈ text, isBlank c = false) : trimEnd text = text := by
  have := trimEnd_append h []
  rwa [List.append_nil, show trimEnd [] = [] from rfl, List.append_nil] at this

/-- A text that begins with no blank is trimmed at its end alone. -/
theorem trim_append {front : List Char} (h : ∀ c ∈ front, isBlank c = false) (hne : front ≠ []) (text : List Char) :
    trim (front ++ text) = front ++ trimEnd text := by
  obtain ⟨c, front, rfl⟩ := List.exists_cons_of_ne_nil hne
  have hc := h c List.mem_cons_self
  show trimEnd ((c :: front ++ text).dropWhile isBlank) = _
  rw [List.cons_append, List.dropWhile_cons_of_neg (by simp [hc]), ← List.cons_append, trimEnd_append h]

theorem mem_of_mem_trimEnd {text : List Char} {c : Char} (hc : c ∈ trimEnd text) : c ∈ text := by
  have hback := List.mem_reverse.mp (List.mem_filter.mp hc).1
  exact List.mem_reverse.mp ((List.dropWhile_suffix isBlank).subset hback)

/-! ## Plain URLs -/

/-- `prefs://` -/
def plainBase : List Char := ['p', 'r', 'e', 'f', 's', ':', '/', '/']

/-- What stands behind a path: a query if there is one. -/
def queryTail (query : List Char) : List Char := if query = [] then [] else '?' :: query

/-- What may stand behind a path: nothing, or a query, which may be empty. A mark in the query is no other query. -/
def IsTail (tail : List Char) : Prop :=
  tail = [] ∨ ∃ query, tail = '?' :: query ∧ ∀ c ∈ query, isSafe c = true ∨ c = '?'

theorem isTail_queryTail {query : List Char} (hq : ∀ c ∈ query, isSafe c = true) : IsTail (queryTail query) := by
  unfold queryTail
  split
  · exact .inl rfl
  · exact .inr ⟨query, rfl, fun c hc => .inl (hq c hc)⟩

namespace IsTail

variable {tail : List Char} (ht : IsTail tail)
include ht

theorem char {c : Char} (hc : c ∈ tail) : isBlank c = false ∧ c ≠ '#' := by
  rcases ht with rfl | ⟨query, rfl, hq⟩
  · cases hc
  · rcases List.mem_cons.mp hc with rfl | hc
    · exact ⟨rfl, by decide⟩
    · rcases hq c hc with hsafe | rfl
      · refine ⟨isBlank_eq_false ?_, ne_of_isSafe hsafe rfl⟩
        simp only [isSafe, Bool.and_eq_true, decide_eq_true_eq] at hsafe
        exact hsafe.1.1
      · exact ⟨rfl, by decide⟩

/-- A tail begins with the mark of a query. -/
theorem start : tail = [] ∨ tail.head? = some '?' := by
  rcases ht with rfl | ⟨query, rfl, -⟩
  · exact .inl rfl
  · exact .inr rfl

/-- The query is as it was written. -/
theorem queryOf_eq : queryOf .other tail = tail.head?.map fun _ => String.ofList (tail.drop 1) := by
  rcases ht with rfl | ⟨query, rfl, hq⟩
  · rfl
  · have hkept : ∀ c ∈ query, c.toNat < 128 ∧ isQueryKept .other (UInt8.ofNat c.toNat) = true := by
      intro c hc
      rcases hq c hc with hsafe | rfl
      · exact isQueryKept_of_isSafe hsafe
      · decide
    rw [queryOf, Utf8.encode_ofList, Percent.encodeOctets_of_kept hkept]
    rfl

end IsTail

section

variable {path : String} (hp : WordPath path) {host : List Char} (hhost : ∀ c ∈ host, isWordChar c = true)
  {name : Option String} (hname : ∀ more, authority .other host more = .ok (name, []))
include hp hhost

/-- Before the query of a URL of words there is nothing that ends anything. -/
theorem words_char {c : Char} (hc : c ∈ plainBase ++ (host ++ path.toList)) : isBlank c = false ∧ c ≠ '#' ∧ c ≠ '?' := by
  have hword : ∀ {c : Char}, isWordChar c = true → isBlank c = false ∧ c ≠ '#' ∧ c ≠ '?' := fun hc =>
    ⟨isBlank_of_isWordChar hc, ne_of_isWordChar hc rfl, ne_of_isWordChar hc rfl⟩
  rcases List.mem_append.mp hc with hc | hc
  · have key : plainBase.all (fun c => !isBlank c && c != '#' && c != '?') = true := by decide
    simpa [and_assoc] using List.all_eq_true.mp key c hc
  rcases List.mem_append.mp hc with hc | hc
  · exact hword (hhost c hc)
  · rcases hp.char hc with rfl | hc
    · decide
    · exact hword hc

include hname

/-- Host and path are found where they were put. -/
theorem hostAndPath_words (more : Bool) :
    hostAndPath .other ('/' :: '/' :: (host ++ path.toList)) more = .ok (name, path) := by
  have htext := hp.toList_eq
  have hinside : ∀ c ∈ host, (! Kind.isSlash .other c) = true := by
    intro c hc
    have hslash : c ≠ '/' := ne_of_isWordChar (hhost c hc) rfl
    simp [Kind.isSlash, hslash]
  have htake : (host ++ path.toList).takeWhile (fun c => ! Kind.isSlash .other c) = host := by
    rw [List.takeWhile_append_of_pos hinside, htext]
    exact List.append_nil host
  have hdrop : (host ++ path.toList).dropWhile (fun c => ! Kind.isSlash .other c) = path.toList := by
    rw [List.dropWhile_append_of_pos hinside, htext]
    rfl
  have hresolve : Path.resolve .other (path.toList.drop 1) = path.toList := by
    rw [Path.resolve_words fun s hs => (hp.2 s hs).2, ← htext]
  have hafter : pathAfterHost .other path.toList = path := by
    have hne : path.toList ≠ [] := by
      rw [htext]
      exact List.cons_ne_nil _ _
    have hdropSlash : dropSlash .other path.toList = path.toList.drop 1 := by
      rw [htext]
      rfl
    rw [pathAfterHost, if_neg fun h => hne h.2, hdropSlash, hresolve, String.ofList_toList]
  simp only [hostAndPath, withAuthority, htake, hdrop, hname, bind, Except.bind, List.nil_append, hafter]
  rfl

/-- **A URL of words** has the host and the path that it was made of, and its query is what its end is read as. -/
theorem parse_words {tail : List Char} (hmark : tail = [] ∨ tail.head? = some '?') (hhash : '#' ∉ tail) :
    parse (String.ofList (plainBase ++ (host ++ (path.toList ++ tail)))) =
      .ok ⟨name, path, queryOf .other (trimEnd tail)⟩ := by
  have hchar := fun c => words_char hp hhost (c := c)
  have hne : plainBase ++ (host ++ path.toList) ≠ [] := List.cons_ne_nil _ _
  have htrim : trim (plainBase ++ (host ++ (path.toList ++ tail))) =
      plainBase ++ (host ++ path.toList ++ trimEnd tail) := by
    have h := trim_append (fun c hc => (hchar c hc).1) hne tail
    rwa [List.append_assoc, List.append_assoc, List.append_assoc plainBase] at h
  have hscheme : splitScheme? (plainBase ++ (host ++ path.toList ++ trimEnd tail)) =
      some (['p', 'r', 'e', 'f', 's'], '/' :: '/' :: (host ++ path.toList) ++ trimEnd tail) := rfl
  -- characters behind the scheme are characters of the whole
  have hfront : ∀ c ∈ '/' :: '/' :: (host ++ path.toList), c ≠ '#' ∧ c ≠ '?' := fun c hc =>
    (hchar c (List.mem_append_right ['p', 'r', 'e', 'f', 's', ':'] hc)).2
  have hbody : ('/' :: '/' :: (host ++ path.toList) ++ trimEnd tail).takeWhile (· ≠ '#') =
      '/' :: '/' :: (host ++ path.toList) ++ trimEnd tail := by
    rw [List.takeWhile_eq_self_iff]
    intro c hc
    rcases List.mem_append.mp hc with hc | hc
    · exact decide_eq_true (hfront c hc).1
    · exact decide_eq_true fun h => hhash (h ▸ mem_of_mem_trimEnd hc)
  have hpass : ∀ c ∈ '/' :: '/' :: (host ++ path.toList), decide (c ≠ '?') = true := fun c hc =>
    decide_eq_true (hfront c hc).2
  have hend : (trimEnd tail).takeWhile (· ≠ '?') = [] ∧ (trimEnd tail).dropWhile (· ≠ '?') = trimEnd tail := by
    cases tail with
    | nil => exact ⟨rfl, rfl⟩
    | cons c query =>
      have hc : c = '?' := by simpa using hmark
      have hblank : ∀ d ∈ [c], isBlank d = false := List.forall_mem_singleton.mpr (hc ▸ rfl)
      have hkept : trimEnd (c :: query) = c :: trimEnd query := trimEnd_append hblank query
      rw [hkept, hc]
      exact ⟨rfl, rfl⟩
  have hkind : Kind.ofScheme ['p', 'r', 'e', 'f', 's'] = .other := by decide
  rw [parse, String.toList_ofList, htrim, ofChars, hscheme]
  simp only [hkind, hbody, List.takeWhile_append_of_pos hpass, List.dropWhile_append_of_pos hpass, hend.1, hend.2,
    List.append_nil, hostAndPath_words hp hhost hname, bind, Except.bind]
  rfl

end

/-- A plain URL has no host, and its path and query are as they were written. -/
theorem parse_plain {path : String} (hp : PlainPath path) {tail : List Char} (ht : IsTail tail) :
    parse (String.ofList (plainBase ++ (path.toList ++ tail))) =
      .ok ⟨none, path, tail.head?.map fun _ => String.ofList (tail.drop 1)⟩ := by
  have hname : ∀ more, authority .other [] more = .ok (none, []) := fun _ => rfl
  have hhash : '#' ∉ tail := fun hc => (ht.char hc).2 rfl
  have h := parse_words hp.words (by simp) hname ht.start hhash
  rwa [trimEnd_eq fun c hc => (ht.char hc).1, ht.queryOf_eq] at h

/-- A text that begins with a slash has no scheme. -/
theorem parse_slash (text : List Char) : parse (String.ofList ('/' :: text)) = .error .relative := by
  have hdrop : ('/' :: text).dropWhile isBlank = '/' :: text := rfl
  have hback : ∃ rest, (('/' :: text).reverse.dropWhile isBlank).reverse = '/' :: rest := by
    rw [List.reverse_cons]
    generalize text.reverse = front
    induction front with
    | nil => exact ⟨[], rfl⟩
    | cons c front ih =>
      rw [List.cons_append, List.dropWhile_cons]
      split
      · exact ih
      · exact ⟨front.reverse ++ [c], by simp⟩
  obtain ⟨rest, hrest⟩ := hback
  have htrim : trim ('/' :: text) = '/' :: rest.filter (! isIgnored ·) := by
    rw [trim, hdrop, hrest]
    rfl
  rw [parse, String.toList_ofList, htrim]
  rfl

end Url

namespace Request

open Url

/-! ## Putting a URL together -/

theorem not_holds {α : Type} [BEq α] [LawfulBEq α] {a : α} {l : List α} (h : a ∉ l) (pattern : List α) :
    Text.holds (a :: pattern) l = false := by
  induction l with
  | nil => rfl
  | cons b l ih =>
    have hb : (a == b) = false := beq_eq_false_iff_ne.mpr fun hab => h (hab ▸ List.mem_cons_self)
    rw [Text.holds, ih fun hl => h (List.mem_cons_of_mem _ hl), List.isPrefixOf, hb]
    rfl

/-- Only a mark with a separator behind it is changed. -/
theorem dropEmptyPair_cons {c : Char} {rest : List Char} (h : c ≠ '?' ∨ rest.head? ≠ some '&') :
    dropEmptyPair (c :: rest) = c :: dropEmptyPair rest := by
  rw [dropEmptyPair]
  rintro more rfl rfl
  rcases h with h | h
  · exact h rfl
  · exact h rfl

theorem mem_of_mem_dropEmptyPair {l : List Char} {c : Char} (hc : c ∈ dropEmptyPair l) : c ∈ l := by
  fun_induction dropEmptyPair l with
  | case1 => exact hc
  | case2 rest ih =>
    rcases List.mem_cons.mp hc with rfl | hc
    · exact List.mem_cons_self
    · exact List.mem_cons_of_mem _ (List.mem_cons_of_mem _ (ih hc))
  | case3 d rest _ ih =>
    rcases List.mem_cons.mp hc with rfl | hc
    · exact List.mem_cons_self
    · exact List.mem_cons_of_mem _ (ih hc)

theorem dropEmptyPair_append {l : List Char} (h : '?' ∉ l) (m : List Char) :
    dropEmptyPair (l ++ m) = l ++ dropEmptyPair m := by
  induction l with
  | nil => rfl
  | cons c l ih =>
    have hc : c ≠ '?' := fun hc => h (hc ▸ List.mem_cons_self)
    rw [List.cons_append, dropEmptyPair_cons (.inl hc), ih fun hl => h (List.mem_cons_of_mem _ hl)]
    rfl

theorem dropEmptyPair_eq {query : List Char} (h : '?' ∉ query) : dropEmptyPair query = query := by
  have := dropEmptyPair_append h []
  rwa [dropEmptyPair, List.append_nil] at this

/-- Nothing is dropped of a query that begins with something. -/
theorem dropEmptyPair_mark {query : List Char} (h : '?' ∉ query) (hstart : query.head? ≠ some '&') :
    dropEmptyPair ('?' :: query) = '?' :: query := by
  rw [dropEmptyPair_cons (.inr hstart), dropEmptyPair_eq h]

theorem dropEmptyPair_queryTail {query : List Char} (h : '?' ∉ query) (hstart : query.head? ≠ some '&') :
    dropEmptyPair (queryTail query) = queryTail query := by
  unfold queryTail
  split
  · rfl
  · exact dropEmptyPair_mark h hstart

section

variable {path : String} (hp : PlainPath path)
include hp

theorem base_plain : base plainBase path.toList = plainBase := by
  have hauthority : hasAuthority path.toList = false :=
    not_holds (fun hc => hp.ne hc (by decide) (d := ':') rfl rfl) _
  rw [base, hauthority, hp.1]
  rfl

theorem joinUrl_plain {query : List Char} (h : '?' ∉ query) (hstart : query.head? ≠ some '&') :
    joinUrl plainBase path.toList query = plainBase ++ (path.toList ++ queryTail query) := by
  have hmark : '?' ∉ path.toList := fun hc => hp.ne hc (by decide) (d := '?') rfl rfl
  have hcontains : path.toList.contains '?' = false := by simpa using hmark
  have hbase : '?' ∉ plainBase := by decide
  rw [joinUrl, base_plain hp, hcontains, List.append_assoc, dropEmptyPair_append hbase, dropEmptyPair_append hmark]
  congr 2
  exact dropEmptyPair_queryTail h hstart

/-- A path with a query of its own is a URL itself only by what stands in that query. -/
theorem hasAuthority_own (own : List Char) : hasAuthority (path.toList ++ '?' :: own) = hasAuthority own := by
  have hpath : Text.holds "://".toList path.toList = false :=
    not_holds (fun hc => hp.ne hc (by decide) (d := ':') rfl rfl) _
  rw [hasAuthority, hasAuthority, Text.holds_append_cons (by decide) (by decide), hpath, Bool.false_or]

/-- What is added to a path with a query of its own stands behind that query. -/
theorem joinUrl_own {own : List Char} (hown : hasAuthority own = false) (query : List Char) :
    joinUrl plainBase (path.toList ++ '?' :: own) query =
      plainBase ++ (path.toList ++ dropEmptyPair ('?' :: (own ++ if query = [] then [] else '&' :: query))) := by
  have hbase : '?' ∉ plainBase := by decide
  have hmark : '?' ∉ path.toList := fun hc => hp.ne hc (by decide) (d := '?') rfl rfl
  have hcontains : (path.toList ++ '?' :: own).contains '?' = true := by simp
  have hsame : base plainBase (path.toList ++ '?' :: own) = plainBase := by
    rw [base, hasAuthority_own hp, hown, List.head?_append, hp.1]
    rfl
  rw [joinUrl, hsame, hcontains, if_pos rfl, List.append_assoc, List.append_assoc, dropEmptyPair_append hbase,
    dropEmptyPair_append hmark]
  rfl

/-! ## Taking it apart -/

/-- The first word of a plain path is kept. -/
theorem dropNull_plain : dropNull path.toList = path.toList := by
  have hslash : ∀ rest : List Char, (rest = [] ∨ rest.head? = some '/') →
      (Text.splitWhere (· = '/') (['n', 'u', 'l', 'l'] ++ rest)).head? = some ['n', 'u', 'l', 'l'] := by
    intro rest hrest
    have hword : ∀ c ∈ ['n', 'u', 'l', 'l'], decide (c = '/') = false := by simp
    cases rest with
    | nil => rw [List.append_nil, Text.splitWhere_of_none hword]; rfl
    | cons c rest =>
      have hc : c = '/' := by simpa using hrest
      rw [hc, Text.splitWhere_append_cons hword rfl]
      rfl
  unfold dropNull
  split
  · next rest heq =>
    have hlonger : ¬ (rest = [] ∨ rest.head? = some '/') := fun hrest => hp.2.1 <| by
      rw [pathSegments, heq]
      exact hslash rest hrest
    rw [if_neg hlonger, heq]
  · rfl

/-- The path of a plain URL is kept. -/
theorem pathOf_plain (query : Option String) : pathOf ⟨none, path, query⟩ = path := by
  have hne : path.toList ≠ [] := by
    rw [hp.toList_eq]
    exact List.cons_ne_nil _ _
  dsimp only [pathOf]
  rw [dropNull_plain hp, ite_self, if_neg hne, String.ofList_toList]

/-- Path and query of a plain URL are found again, also a query that is empty. -/
theorem splitUrl_tail {tail : List Char} (ht : IsTail tail) :
    splitUrl (String.ofList (plainBase ++ (path.toList ++ tail))) = .ok (path, tail.drop 1) := by
  rw [splitUrl, parse_plain hp ht]
  dsimp only
  rw [pathOf_plain hp]
  cases tail with
  | nil => rfl
  | cons c query => simp

/-- **Path and query of a plain URL are found again.** -/
theorem splitUrl_plain {query : List Char} (hq : ∀ c ∈ query, isSafe c = true) :
    splitUrl (String.ofList (plainBase ++ (path.toList ++ queryTail query))) = .ok (path, query) := by
  rw [splitUrl_tail hp (isTail_queryTail hq)]
  unfold queryTail
  split
  · next h => rw [h]; rfl
  · rfl

end

end Request

end Hostlink
