import Hostlink.Proofs.Request.Layouts
import Hostlink.Proofs.Request.Merged

/-!
# Links with a query of their own

The query of a link holds what a URL allows there as it is, so its values may look like the things a URL is
put together from: `://` in a value makes the whole link a URL of its own, and a value that ends in `?` runs
together with what stands behind it.

* `Request.Link` — a plain path, and pairs behind it;
* `Request.Link.splitUrl_joinUrl` — what is read of a link that is no URL itself;
* `Codec.KeepsApart` — nothing runs together that a layout has to keep apart;
* `Codec.link_read_back` — **exactly these links are read back**.
-/

namespace Hostlink

open Request

namespace Request

/-! ## Links -/

/-- Characters that a URL allows in a query as they are. -/
def isRaw (c : Char) : Bool := c.isAlphanum || "-_.~/:?@".toList.contains c

/-- A pair that a URL takes as it is. -/
structure RawPair (p : String × String) : Prop where
  key : ∀ x ∈ p.1.toList, x.isAlphanum = true
  value : ∀ x ∈ p.2.toList, isRaw x = true

/-- A plain path with a query of its own. -/
structure Link where
  path : String
  /-- The pairs behind the `?`. -/
  own : List (String × String)
  plain : Url.PlainPath path
  ne_nil : own ≠ []
  raw : ∀ p ∈ own, RawPair p

namespace Link

/-- A link as it stands in a page. -/
def text (l : Link) : String := l.path ++ "?" ++ "&".intercalate (l.own.map wordPair)

/-- The parts of its query. -/
def ownParts (l : Link) : List (List Char) := l.own.map fun p => (wordPair p).toList

/-- The pairs of its query as arguments. -/
def pairs (l : Link) : List (String × Json) := l.own.map fun p => (p.1, .string p.2)

/-- The parts of its query and further ones, as a URL holds them. -/
def joined (l : Link) (more : List (List Char)) : List (List Char) := merged (l.ownParts ++ more)

end Link

/-! ## Characters -/

theorem alphanum_facts {c : Char} (hc : c.isAlphanum = true) :
    c.toNat < 128 ∧ c ≠ '%' ∧ c ≠ '=' ∧ c ≠ '_' ∧ c ≠ ':' ∧ c ≠ '&' ∧ Url.isSafe c = true := by
  have hword : Url.isWordChar c = true := by
    rw [Url.isWordChar, hc]
    rfl
  have hne : ∀ d : Char, d.isAlphanum = false → c ≠ d := by
    rintro d hd rfl
    rw [hc] at hd
    cases hd
  exact ⟨(Url.isPathKept_of_isWordChar hword).1, hne _ rfl, hne _ rfl, hne _ rfl, hne _ rfl, hne _ rfl,
    Url.isSafe_of_isWordChar hword⟩

theorem raw_facts {c : Char} (hc : isRaw c = true) :
    c.toNat < 128 ∧ c ≠ '%' ∧ c ≠ '&' ∧ (Url.isSafe c = true ∨ c = '?') := by
  rw [isRaw, Bool.or_eq_true] at hc
  rcases hc with hc | hc
  · obtain ⟨hlt, hpercent, -, -, -, hsep, hsafe⟩ := alphanum_facts hc
    exact ⟨hlt, hpercent, hsep, .inl hsafe⟩
  · have key : "-_.~/:?@".toList.all (fun d =>
        d.toNat < 128 && d != '%' && d != '&' && (Url.isSafe d || d == '?')) = true := by decide
    have hfacts := List.all_eq_true.mp key c (List.contains_iff_mem.mp hc)
    simpa [and_assoc] using hfacts

theorem toList_wordPair (p : String × String) : (wordPair p).toList = p.1.toList ++ '=' :: p.2.toList := by
  rw [wordPair, String.toList_append, String.toList_append, List.append_assoc]
  rfl

/-- A pair ends in `?` if its value does. -/
theorem endsInMark_wordPair (p : String × String) :
    EndsInMark (wordPair p).toList ↔ EndsInMark p.2.toList := by
  rw [toList_wordPair, EndsInMark, EndsInMark, List.getLast?_append, List.getLast?_cons]
  cases p.2.toList.getLast? with
  | none => exact ⟨fun h => (by cases h), fun h => (by cases h)⟩
  | some c => rfl

namespace Link

variable (l : Link)

/-! ## The parts of a link -/

/-- A link is its path, and the pairs behind it. -/
theorem toList_text : l.text.toList = l.path.toList ++ '?' :: List.intercalate ['&'] l.ownParts := by
  rw [text, String.toList_append, String.toList_append, String.toList_intercalate, List.map_map, List.append_assoc]
  rfl

theorem ownParts_ne_nil : l.ownParts ≠ [] := fun h => l.ne_nil (List.map_eq_nil_iff.mp h)

theorem char_own {part : List Char} (hpart : part ∈ l.ownParts) :
    '=' ∈ part ∧ ∀ x ∈ part, x ≠ '&' ∧ (Url.isSafe x = true ∨ x = '?') := by
  obtain ⟨p, hp, rfl⟩ := List.mem_map.mp hpart
  rw [toList_wordPair]
  refine ⟨by simp, fun x hx => ?_⟩
  rcases List.mem_append.mp hx with hx | hx
  · obtain ⟨-, -, -, -, -, hsep, hsafe⟩ := alphanum_facts ((l.raw p hp).key x hx)
    exact ⟨hsep, .inl hsafe⟩
  · rcases List.mem_cons.mp hx with rfl | hx
    · exact ⟨by decide, .inl rfl⟩
    · exact (raw_facts ((l.raw p hp).value x hx)).2.2

theorem segment_own {part : List Char} (hpart : part ∈ l.ownParts) : Segment part :=
  ⟨List.ne_nil_of_mem (l.char_own hpart).1, fun hx => ((l.char_own hpart).2 '&' hx).1 rfl⟩

/-- `://` stands in a pair if it stands in its value. -/
theorem hasAuthority_wordPair {p : String × String} (hp : p ∈ l.own) :
    hasAuthority (wordPair p).toList = hasAuthority p.2.toList := by
  have hkey : Text.holds "://".toList p.1.toList = false :=
    not_holds (fun hx => (alphanum_facts ((l.raw p hp).key ':' hx)).2.2.2.2.1 rfl) _
  rw [toList_wordPair, hasAuthority, hasAuthority, Text.holds_append_cons (by decide) (by decide), hkey,
    Bool.false_or]

/-- A link is a URL itself if one of its values holds `://`. -/
theorem hasAuthority_text : hasAuthority l.text.toList = l.own.any fun p => hasAuthority p.2.toList := by
  rw [l.toList_text, Request.hasAuthority_own l.plain, hasAuthority, Text.holds_intercalate (by decide) (by decide),
    ownParts, List.any_map]
  have hsame : ∀ p ∈ l.own, hasAuthority (wordPair p).toList = hasAuthority p.2.toList :=
    fun _ => l.hasAuthority_wordPair
  rw [Bool.eq_iff_iff, List.any_eq_true, List.any_eq_true]
  exact exists_congr fun p => and_congr_right fun hp => by rw [← hsame p hp]; rfl

section

variable {more : List (List Char)} (hmore : ∀ part ∈ more, Part part)
include hmore

theorem segment_all {part : List Char} (hpart : part ∈ l.ownParts ++ more) : Segment part :=
  (List.mem_append.mp hpart).elim l.segment_own fun h => (hmore part h).segment

theorem char_joined {x : Char} (hx : x ∈ List.intercalate ['&'] (l.joined more)) : Url.isSafe x = true ∨ x = '?' := by
  rw [joined, ← dropEmptyPair_intercalate fun part hpart => (l.segment_all hmore hpart).whole] at hx
  rcases Text.mem_intercalate (mem_of_mem_dropEmptyPair hx) with rfl | ⟨part, hpart, hx⟩
  · exact .inl rfl
  · rcases List.mem_append.mp hpart with hpart | hpart
    · exact ((l.char_own hpart).2 x hx).2
    · exact .inl ((hmore part hpart).safe x hx).1

/-- The parts of a link are found again, together with what is put behind them. -/
theorem parts_joined : (parts (List.intercalate ['&'] (l.joined more))).filter (· ≠ []) = l.joined more :=
  parts_intercalate (segment_merged fun _ hpart => l.segment_all hmore hpart)

/-! ## The URL of a link -/

/-- What is put behind a link that is no URL itself. -/
theorem joinUrl_text (hown : ∀ p ∈ l.own, hasAuthority p.2.toList = false) :
    joinUrl Url.plainBase l.text.toList (List.intercalate ['&'] more) =
      Url.plainBase ++ (l.path.toList ++ '?' :: List.intercalate ['&'] (l.joined more)) := by
  have hno : hasAuthority (List.intercalate ['&'] l.ownParts) = false := by
    rw [← Request.hasAuthority_own l.plain, ← l.toList_text, l.hasAuthority_text, List.any_eq_false]
    exact fun p hp => Bool.eq_false_iff.mp (hown p hp)
  have hsegment : ∀ part ∈ l.ownParts ++ more, Segment part := fun _ => l.segment_all hmore
  rw [l.toList_text, joinUrl_own l.plain hno,
    Text.intercalate_append_if '&' l.ownParts_ne_nil fun part hpart => (hmore part hpart).ne_nil,
    dropEmptyPair_cons (.inr (head_intercalate hsegment)),
    dropEmptyPair_intercalate fun part hpart => (hsegment part hpart).whole, joined]

/-- Path and parts of a link that is no URL itself are found again. -/
theorem splitUrl_joinUrl (hown : ∀ p ∈ l.own, hasAuthority p.2.toList = false) :
    splitUrl (String.ofList (joinUrl Url.plainBase l.text.toList (List.intercalate ['&'] more))) =
      .ok (l.path, List.intercalate ['&'] (l.joined more)) := by
  have htail : Url.IsTail ('?' :: List.intercalate ['&'] (l.joined more)) :=
    .inr ⟨_, rfl, fun _ => l.char_joined hmore⟩
  rw [l.joinUrl_text hmore hown, splitUrl_tail l.plain htail, List.drop_one, List.tail_cons]

end

/-- A link that is a URL itself has no scheme. -/
theorem splitUrl_of_authority {p : String × String} (hp : p ∈ l.own) (hown : hasAuthority p.2.toList = true)
    (query : List Char) :
    ∃ fault, splitUrl (String.ofList (joinUrl Url.plainBase l.text.toList query)) = .error fault := by
  have hauthority : hasAuthority l.text.toList = true := by
    rw [l.hasAuthority_text, List.any_eq_true]
    exact ⟨p, hp, hown⟩
  have hstart : ∃ rest, l.text.toList = '/' :: rest := by
    rw [l.toList_text, l.plain.toList_eq]
    exact ⟨_, rfl⟩
  obtain ⟨rest, hrest⟩ := hstart
  rw [joinUrl, base, hauthority, if_pos rfl, List.nil_append, hrest, List.cons_append,
    dropEmptyPair_cons (.inl (by decide)), splitUrl, Url.parse_slash]
  exact ⟨_, rfl⟩

/-! ## Parts that run together -/

/-- All parts stay apart if no value of the link ends in `?`. -/
theorem joined_eq {more : List (List Char)} (hmore : ∀ part ∈ more, Part part)
    (hown : ∀ p ∈ l.own, ¬ EndsInMark p.2.toList) : l.joined more = l.ownParts ++ more := by
  refine merged_eq fun part hpart => ?_
  rcases List.mem_append.mp (List.dropLast_subset _ hpart) with hpart | hpart
  · obtain ⟨p, hp, rfl⟩ := List.mem_map.mp hpart
    rw [endsInMark_wordPair]
    exact hown p hp
  · exact not_endsInMark (hmore part hpart).not_mark

/-- Some run together otherwise, if anything is put behind the link. -/
theorem length_joined_lt {more : List (List Char)} (hne : more ≠ []) {p : String × String} (hp : p ∈ l.own)
    (hend : EndsInMark p.2.toList) : (l.joined more).length < l.own.length + more.length := by
  have hpart : (wordPair p).toList ∈ (l.ownParts ++ more).dropLast := by
    rw [List.dropLast_append_of_ne_nil hne]
    exact List.mem_append_left _ (List.mem_map_of_mem hp)
  have hlt := length_merged_lt hpart ((endsInMark_wordPair p).mpr hend)
  rwa [List.length_append, ownParts, List.length_map] at hlt

/-- The last pair of a link. -/
theorem exists_last : ∃ front p, l.own = front ++ [p] ∧ l.own.getLast? = some p := by
  obtain ⟨front, p, hown⟩ := (List.eq_nil_or_concat' l.own).resolve_left l.ne_nil
  exact ⟨front, p, hown, by rw [hown, List.getLast?_concat]⟩

/-- A link alone holds no payload. -/
theorem payload?_joined_nil : payload? (List.intercalate ['&'] (l.joined [])) = none := by
  obtain ⟨front, p, hown, -⟩ := l.exists_last
  obtain ⟨others, whole, hsuffix, hmerged, -⟩ :=
    merged_concat (front.map fun p => (wordPair p).toList) (wordPair p).toList []
  have hjoined : l.joined [] = others ++ [whole] := by
    rw [joined, List.append_nil, ownParts, hown, List.map_append]
    exact hmerged
  have hequals : '=' ∈ whole := hsuffix.subset (by rw [toList_wordPair]; simp)
  have hsegment : ∀ part ∈ l.joined [], Segment part :=
    segment_merged fun _ => l.segment_all fun _ h => (by cases h)
  rw [payload?_intercalate hsegment, hjoined, List.getLast?_concat]
  simp [hequals]

/-- A payload behind a link is found, unless the last value of the link takes it in. -/
theorem payload?_joined {part : List Char} (hpart : Part part) (hpair : '=' ∉ part) :
    payload? (List.intercalate ['&'] (l.joined [part])) =
      if ∃ p ∈ l.own.getLast?, EndsInMark p.2.toList then none else some part := by
  obtain ⟨front, p, hown, hlast⟩ := l.exists_last
  obtain ⟨others, whole, hsuffix, -, hmerged⟩ :=
    merged_concat (front.map fun p => (wordPair p).toList) (wordPair p).toList part
  have hjoined : l.joined [part] =
      if EndsInMark p.2.toList then others ++ [whole ++ part] else others ++ [whole, part] := by
    simp only [← endsInMark_wordPair]
    rw [joined, ownParts, hown, List.map_append, List.append_assoc]
    exact hmerged
  have hequals : '=' ∈ whole := hsuffix.subset (by rw [toList_wordPair]; simp)
  have hone : ∀ part' ∈ [part], Part part' := fun _ h => List.mem_singleton.mp h ▸ hpart
  have hsegment : ∀ part' ∈ l.joined [part], Segment part' := segment_merged fun _ => l.segment_all hone
  rw [payload?_intercalate hsegment, hjoined, hlast]
  by_cases hend : EndsInMark p.2.toList
  · simp [hend, hequals]
  · simp [hend, hpair]

end Link

/-! ## Reading pairs -/

/-- A pair of a link is read as a text under its key. -/
theorem readPair_raw {callbackKey : String} {p : String × String} (hp : RawPair p) (hkey : p.1 ≠ callbackKey)
    (read : Pairs) : readPair callbackKey read (wordPair p).toList =
      .ok { read with reversed := (p.1, .string p.2) :: read.reversed } := by
  have hequals : ∀ x ∈ p.1.toList, x ≠ '=' := fun x hx => (alphanum_facts (hp.key x hx)).2.2.1
  have hname : component p.1.toList = .ok p.1 := by
    rw [component, String.ofList_toList, Component.decode_plain fun x hx =>
      ⟨(alphanum_facts (hp.key x hx)).1, (alphanum_facts (hp.key x hx)).2.1⟩]
  have htext : component p.2.toList = .ok p.2 := by
    rw [component, String.ofList_toList, Component.decode_plain fun x hx =>
      ⟨(raw_facts (hp.value x hx)).1, (raw_facts (hp.value x hx)).2.1⟩]
  have hmark : isMarked p.1 = false := by
    refine Bool.eq_false_iff.mpr fun hmarked => ?_
    obtain ⟨stem, hstem⟩ := (isMarked_iff p.1).mp hmarked
    have hline : '_' ∈ p.1.toList := by
      rw [hstem, String.toList_append]
      exact List.mem_append_right _ (by decide)
    exact (alphanum_facts (hp.key '_' hline)).2.2.2.1 rfl
  rw [readPair, toList_wordPair, splitPair_append hequals]
  simp only [hname, htext, bind, Except.bind, if_neg hkey, hmark]
  rfl

/-- All pairs of a link are read, the last of them first. -/
theorem foldlM_raw {callbackKey : String} {own : List (String × String)}
    (hown : ∀ p ∈ own, RawPair p ∧ p.1 ≠ callbackKey) (read : Pairs) :
    (own.map fun p => (wordPair p).toList).foldlM (readPair callbackKey) read =
      .ok { read with reversed := (own.map fun p => (p.1, Json.string p.2)).reverse ++ read.reversed } := by
  induction own generalizing read with
  | nil => rfl
  | cons p own ih =>
    obtain ⟨hraw, hkey⟩ := hown p List.mem_cons_self
    rw [List.map_cons, List.foldlM_cons, readPair_raw hraw hkey]
    refine (ih (fun p hp => hown p (List.mem_cons_of_mem _ hp)) _).trans ?_
    rw [List.map_cons, List.reverse_cons, List.append_assoc]
    rfl

/-- How much has been read: arguments, and the name of the request. -/
def Pairs.count (read : Pairs) : Nat := read.reversed.length + read.callback.toList.length

/-- A part of a query makes one argument, or the name. -/
theorem count_readPair {callbackKey : String} {read next : Pairs} {part : List Char}
    (h : readPair callbackKey read part = .ok next) : next.count ≤ read.count + 1 := by
  obtain ⟨key, -, h⟩ := bind_eq_ok h
  obtain ⟨text, -, h⟩ := bind_eq_ok h
  split at h
  · obtain rfl := Except.ok.inj h
    simp only [Pairs.count, Option.toList_some, List.length_singleton]
    omega
  · split at h
    · obtain ⟨v, -, h⟩ := bind_eq_ok h
      obtain rfl := Except.ok.inj h
      simp only [Pairs.count, List.length_cons]
      omega
    · obtain rfl := Except.ok.inj h
      simp only [Pairs.count, List.length_cons]
      omega

/-- There are not more arguments than parts. -/
theorem count_foldlM {callbackKey : String} {ps : List (List Char)} {read last : Pairs}
    (h : ps.foldlM (readPair callbackKey) read = .ok last) : last.count ≤ read.count + ps.length := by
  induction ps generalizing read with
  | nil =>
    obtain rfl := Except.ok.inj h
    exact Nat.le_refl _
  | cons part ps ih =>
    rw [List.foldlM_cons] at h
    obtain ⟨next, hread, h⟩ := bind_eq_ok h
    have hfirst := count_readPair hread
    have hrest := ih h
    rw [List.length_cons]
    omega

end Request

namespace Codec

variable {c : Codec} {args : Args} {id q : String} (l : Link)

/-! ## The layouts -/

/-- Nothing runs together that a layout has to keep apart: pairs from each other, and one JSON value from the last
pair of the link, if there is such a value. -/
def KeepsApart (c : Codec) (l : Link) (args : Args) : Prop :=
  match c.encoding with
  | .b64Json => ∀ p ∈ l.own, ¬ EndsInMark p.2.toList
  | .jsonQuery => ¬ ∃ p ∈ l.own.getLast?, EndsInMark p.2.toList
  | .argsArray => args.isEmpty = true ∨ ¬ ∃ p ∈ l.own.getLast?, EndsInMark p.2.toList

/-- The arguments that are read behind a link: in a layout of pairs, its own pairs come first. -/
def withOwn (c : Codec) (l : Link) (read : Args) : Args :=
  if c.encoding = .b64Json then namedArgs (l.pairs ++ read.pairs) else read

/-- **Pairs.** The pairs of a link are read before the arguments if all of them stay apart. -/
theorem decodePairs_link (henc : c.encoding = .b64Json) (hcallback : isMarked c.callbackKey = false)
    (hkeys : ∀ p ∈ l.own, p.1 ≠ c.callbackKey) (hv : ∀ v ∈ args.values, v.Portable Json.maxDepth)
    (hq : c.query args id = .ok q) :
    c.decodePairs l.path (List.intercalate ['&'] (l.joined (queryParts c.callbackKey id args.pairs))) =
        .ok ⟨l.path, namedArgs (l.pairs ++ args.pairs), some id⟩ ↔
      ∀ p ∈ l.own, ¬ EndsInMark p.2.toList := by
  obtain ⟨hvalues, hfree, -⟩ := pairsQuery_ok henc hq
  have hpairs : ∀ p ∈ args.pairs, p.1 ≠ c.callbackKey ∧ isMarked p.1 = false ∧ p.2.Portable Json.maxDepth :=
    fun p hp => ⟨(hfree p hp).1, (hfree p hp).2, hv p.2 (hvalues ▸ List.mem_map_of_mem hp)⟩
  have hkept : freePairs c.callbackKey args.pairs = args.pairs := kept_eq henc hcallback hq
  rw [decodePairs, l.parts_joined fun _ => part_queryParts]
  constructor
  · -- a pair that ends in a mark takes in the next one, and then there are fewer than should be read
    intro h p hp hend
    rcases hread : (l.joined (queryParts c.callbackKey id args.pairs)).foldlM (readPair c.callbackKey) ⟨[], none⟩
      with e | last
    · rw [hread] at h
      cases h
    rw [hread] at h
    have hsame := Except.ok.inj h
    have hcount := count_foldlM hread
    have hne : queryParts c.callbackKey id args.pairs ≠ [] :=
      List.append_ne_nil_of_right_ne_nil _ (List.cons_ne_nil _ _)
    have hlt := l.length_joined_lt hne hp hend
    have hname : last.callback = some id := congrArg Request.callback hsame
    have hargs : last.reversed.reverse = l.pairs ++ args.pairs := by
      have h := congrArg (fun r : Request => r.args.pairs) hsame
      simpa using h
    have hlength := congrArg List.length hargs
    simp only [Pairs.count, hname, List.length_reverse, List.length_append, Link.pairs, List.length_map, queryParts,
      Option.toList_some, Option.toList_none, List.length_singleton, List.length_nil] at hcount hlt hlength
    omega
  · intro hown
    rw [l.joined_eq (fun _ => part_queryParts) hown, List.foldlM_append, Link.ownParts,
      foldlM_raw fun p hp => ⟨l.raw p hp, hkeys p hp⟩]
    show (List.foldlM (readPair c.callbackKey) _ (queryParts c.callbackKey id args.pairs) >>= _) = _
    rw [foldlM_queryParts hpairs, hkept]
    dsimp only [bind, Except.bind]
    simp [Link.pairs]

/-- **One object.** It is found behind the pairs of a link, unless the last of them takes it in. -/
theorem decodeObject_link (henc : c.encoding = .jsonQuery) (hv : ∀ v ∈ args.values, v.Portable 126)
    (hq : c.query args id = .ok q) :
    ∃ more, (∀ part ∈ more, Request.Part part) ∧ q.toList = List.intercalate ['&'] more ∧
      (c.decodeObject l.path (List.intercalate ['&'] (l.joined more)) =
          .ok ⟨l.path, c.received args, some id⟩ ↔
        ¬ ∃ p ∈ l.own.getLast?, EndsInMark p.2.toList) := by
  have hread := (decodeObject_query henc hv hq l.path).2
  rcases isPayload_query (by rw [henc]; decide) hq with hnil | ⟨hpart, hpair⟩
  · -- one object is never written as nothing, as it holds at least the name of the request
    rw [hnil] at hread
    cases hread
  have hone : ∀ part ∈ [q.toList], Request.Part part := fun _ h => List.mem_singleton.mp h ▸ hpart
  refine ⟨[q.toList], hone, (List.intercalate_singleton ..).symm, ?_⟩
  rw [decodeObject, payload?_part hpart hpair] at hread
  rw [decodeObject, l.payload?_joined hpart hpair, received, henc]
  by_cases hend : ∃ p ∈ l.own.getLast?, EndsInMark p.2.toList
  · rw [if_pos hend]
    exact ⟨fun h => (by cases h), fun h => absurd hend h⟩
  · rw [if_neg hend]
    exact ⟨fun _ => hend, fun _ => hread⟩

/-- **One array.** It is found behind the pairs of a link, unless the last of them takes it in. -/
theorem decodeArray_link (henc : c.encoding = .argsArray) (hv : ∀ v ∈ args.values, v.Portable 126)
    (hq : c.query args id = .ok q) :
    ∃ more, (∀ part ∈ more, Request.Part part) ∧ q.toList = List.intercalate ['&'] more ∧
      (decodeArray l.path (List.intercalate ['&'] (l.joined more)) = .ok ⟨l.path, c.received args, none⟩ ↔
        args.isEmpty = true ∨ ¬ ∃ p ∈ l.own.getLast?, EndsInMark p.2.toList) := by
  have hread := (decodeArray_query henc hv hq l.path).2
  have hnone : (.ok ⟨l.path, .none, none⟩ : Except DecodeError Request) =
      .ok ⟨l.path, if args.isEmpty then .none else .positional args.values, none⟩ ↔ args.isEmpty = true := by
    by_cases hempty : args.isEmpty <;> simp [hempty]
  simp only [received, henc]
  rcases isPayload_query (by rw [henc]; decide) hq with hnil | ⟨hpart, hpair⟩
  · -- without arguments there is nothing that could run together
    rw [hnil] at hread
    refine ⟨[], fun _ h => (by cases h), hnil, ?_⟩
    rw [decodeArray, l.payload?_joined_nil]
    exact ⟨fun h => .inl (hnone.mp h), fun _ => hread⟩
  have hone : ∀ part ∈ [q.toList], Request.Part part := fun _ h => List.mem_singleton.mp h ▸ hpart
  refine ⟨[q.toList], hone, (List.intercalate_singleton ..).symm, ?_⟩
  rw [decodeArray, payload?_part hpart hpair] at hread
  rw [decodeArray, l.payload?_joined hpart hpair]
  by_cases hend : ∃ p ∈ l.own.getLast?, EndsInMark p.2.toList
  · rw [if_pos hend]
    exact hnone.trans ⟨.inl, fun h => h.resolve_right fun h => h hend⟩
  · rw [if_neg hend]
    exact ⟨fun _ => .inr hend, fun _ => hread⟩

/-! ## Links -/

/-- What is read of a link that is no URL itself. -/
theorem decode_url (hbase : c.baseUrl = "prefs://") (hown : ∀ p ∈ l.own, hasAuthority p.2.toList = false)
    {more : List (List Char)} (hmore : ∀ part ∈ more, Request.Part part) (hq : q.toList = List.intercalate ['&'] more) :
    c.decode (c.url l.text q) =
      match c.encoding with
      | .b64Json => c.decodePairs l.path (List.intercalate ['&'] (l.joined more))
      | .jsonQuery => c.decodeObject l.path (List.intercalate ['&'] (l.joined more))
      | .argsArray => decodeArray l.path (List.intercalate ['&'] (l.joined more)) := by
  have hplain : "prefs://".toList = Url.plainBase := by decide
  rw [decode, Codec.url, hbase, hplain, hq, l.splitUrl_joinUrl hmore hown]
  rfl

/-- A link that is no URL itself is read back exactly if nothing runs together. -/
theorem decode_url_iff (hbase : c.baseUrl = "prefs://") (hcallback : isMarked c.callbackKey = false)
    (hkeys : ∀ p ∈ l.own, p.1 ≠ c.callbackKey) (hown : ∀ p ∈ l.own, hasAuthority p.2.toList = false)
    (hv : ∀ v ∈ args.values, v.Portable 126) (hq : c.query args id = .ok q) :
    c.decode (c.url l.text q) = .ok ⟨l.path, c.withOwn l (c.received args), c.receivedName id⟩ ↔
      c.KeepsApart l args := by
  rw [KeepsApart, receivedName, withOwn]
  cases henc : c.encoding with
  | b64Json =>
    have hread := decodePairs_link l henc hcallback hkeys (fun v hmem => (hv v hmem).mono (by decide)) hq
    rw [decode_url l hbase hown (fun _ => part_queryParts) (pairsQuery_ok henc hq).2.2, henc, received, henc]
    simpa using hread
  | jsonQuery =>
    obtain ⟨more, hmore, htext, hread⟩ := decodeObject_link l henc hv hq
    rw [decode_url l hbase hown hmore htext, henc]
    simpa using hread
  | argsArray =>
    obtain ⟨more, hmore, htext, hread⟩ := decodeArray_link l henc hv hq
    rw [decode_url l hbase hown hmore htext, henc]
    simpa using hread

/-- **Links.** Behind a link a request is written as it is behind its path alone, and it is read as it is there,
with the pairs of the link before the arguments in a layout of pairs, exactly if no value of the link holds `://`
and nothing runs together that has to be kept apart. -/
theorem link_read_back (hbase : c.baseUrl = "prefs://") (hmark : ¬ ∃ stem, c.callbackKey = stem ++ "_b64json")
    (l : Link) (hkeys : ∀ p ∈ l.own, p.1 ≠ c.callbackKey) (hv : ∀ v ∈ args.values, v.Portable 126) {alone : String}
    (he : c.encode l.path args id = .ok alone) :
    ∃ read url, c.decode alone = .ok read ∧ read.path = l.path ∧ c.encode l.text args id = .ok url ∧
      (c.decode url = .ok { read with args := c.withOwn l read.args } ↔
        (∀ p ∈ l.own, hasAuthority p.2.toList = false) ∧ c.KeepsApart l args) := by
  have hcallback : isMarked c.callbackKey = false :=
    Bool.eq_false_iff.mpr fun hmarked => hmark ((isMarked_iff _).mp hmarked)
  have hread := decode_encode hbase hcallback l.plain hv he
  obtain ⟨q, hq, -⟩ := encode_eq_ok he
  have hurl : c.encode l.text args id = .ok (c.url l.text q) := by
    rw [encode, hq]
    rfl
  refine ⟨_, _, hread, rfl, hurl, ?_⟩
  -- a value with an authority makes a URL of the whole link, and that is refused
  by_cases hown : ∀ p ∈ l.own, hasAuthority p.2.toList = false
  · rw [decode_url_iff l hbase hcallback hkeys hown hv hq]
    exact ⟨fun h => ⟨hown, h⟩, fun h => h.2⟩
  · refine ⟨fun h => ?_, fun h => absurd h.1 hown⟩
    obtain ⟨p, hp, hauthority⟩ : ∃ p ∈ l.own, hasAuthority p.2.toList = true := by
      simpa using hown
    obtain ⟨fault, hfault⟩ := l.splitUrl_of_authority hp hauthority q.toList
    have hplain : "prefs://".toList = Url.plainBase := by decide
    rw [decode, Codec.url, hbase, hplain, hfault] at h
    cases h

/-- A value that names a path with a query of its own, and one that is empty. -/
theorem link_read_back_nested :
    let c : Codec := ⟨.b64Json, "prefs://", "callback"⟩
    let args : Args := .named [("on", .bool true)]
    ∃ url, c.encode "/open?next=/a?b:@c&n=" args "7" = .ok url ∧
      c.decode url =
        .ok ⟨"/open", .named [("next", .string "/a?b:@c"), ("n", .string ""), ("on", .bool true)], some "7"⟩ := by
  intro c args
  have hown : ∀ p ∈ [("next", "/a?b:@c"), ("n", "")],
      (p.1.toList.all Char.isAlphanum = true ∧ p.2.toList.all isRaw = true) ∧
        p.1 ≠ "callback" ∧ hasAuthority p.2.toList = false ∧ ¬ EndsInMark p.2.toList := by decide
  let l : Link :=
    ⟨"/open", [("next", "/a?b:@c"), ("n", "")], by decide, List.cons_ne_nil _ _,
      fun p hp => ⟨List.all_eq_true.mp (hown p hp).1.1, List.all_eq_true.mp (hown p hp).1.2⟩⟩
  have hmark : ¬ ∃ stem, c.callbackKey = stem ++ "_b64json" := fun hstem =>
    absurd ((isMarked_iff _).mpr hstem) (by decide)
  have hportable : ∀ v ∈ args.values, v.Portable 126 := fun v hv => by
    obtain rfl : v = .bool true := List.mem_singleton.mp hv
    exact ⟨trivial, trivial, by decide⟩
  have haccepts : c.Accepts args := ⟨⟨fun _ => Args.noConfusion, by decide⟩, by decide⟩
  obtain ⟨alone, he⟩ := (@encode_ok_iff c args "/open" "7").mpr haccepts
  have halone : c.decode alone = .ok ⟨"/open", args, some "7"⟩ :=
    decode_encode rfl (by decide) l.plain hportable he
  obtain ⟨read, url, hread, -, hurl, hlinked⟩ :=
    link_read_back rfl hmark l (fun p hp => (hown p hp).2.1) hportable he
  obtain rfl := Except.ok.inj (hread.symm.trans halone)
  have hapart : (∀ p ∈ l.own, hasAuthority p.2.toList = false) ∧ c.KeepsApart l args :=
    ⟨fun p hp => (hown p hp).2.2.1, fun p hp => (hown p hp).2.2.2⟩
  exact ⟨url, hurl, hlinked.mpr hapart⟩

/-- A value that ends in `?` takes the argument behind it in, and a value that holds `://` makes a URL that is not
read at all. -/
theorem link_runs_together :
    let c : Codec := ⟨.b64Json, "prefs://", "callback"⟩
    let args : Args := .named [("a", .string "1")]
    c.encode "/a?k=v?" args "__jp1" = .ok "prefs:///a?k=v?a=1&callback=__jp1" ∧
      c.decode "prefs:///a?k=v?a=1&callback=__jp1" = .ok ⟨"/a", .named [("k", .string "v?a=1")], some "__jp1"⟩ ∧
      c.encode "/a?k=x://y" args "__jp1" = .ok "/a?k=x://y&a=1&callback=__jp1" ∧
      c.decode "/a?k=x://y&a=1&callback=__jp1" =
        .error (.invalidUrl "/a?k=x://y&a=1&callback=__jp1" "relative URL without a base") :=
  ⟨rfl, rfl, rfl, rfl⟩

end Codec

end Hostlink
