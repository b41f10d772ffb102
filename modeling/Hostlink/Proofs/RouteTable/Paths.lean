import Hostlink.Proofs.RouteTable
import Hostlink.Proofs.Text.Order
import Mathlib.Data.List.DropRight

/-!
# A route table is a map over paths

Slashes around a path do not count. What is left of a path is the key of its route, and a path of which nothing is
left has none.

* `RouteTable.Trims`, `RouteTable.normalize_eq_iff` — what is left of a path;
* `RouteTable.SameRoute`, `RouteTable.LastOf` — the registrations of a path, and the one that counts;
* `RouteTable.Ordered.withRoute`, `RouteTable.ordered_ofRoutes` — no key stands twice, and keys are in order;
* `RouteTable.mem_keys_withRoute`, `RouteTable.mem_keys_ofRoutes` — the keys of registrations;
* `RouteTable.table_of_registrations` — **what a table does and lists after any registrations**.
-/

namespace Hostlink.RouteTable

variable {σ : Type}

/-! ## Slashes around a path -/

/-- A path is a key with slashes around it, and the key itself neither begins nor ends with one. -/
structure Trims (path key : String) : Prop where
  split : ∃ m n, path.toList = List.replicate m '/' ++ (key.toList ++ List.replicate n '/')
  head : key.toList.head? ≠ some '/'
  last : key.toList.getLast? ≠ some '/'

theorem toList_normalize (path : String) :
    (normalize path).toList = (path.toList.dropWhile (· = '/')).rdropWhile (· = '/') := by
  rw [normalize, String.toList_ofList]
  rfl

/-- Slashes at the start of a text, and the rest of it. -/
theorem split_front (l : List Char) :
    (∃ m, l = List.replicate m '/' ++ l.dropWhile (· = '/')) ∧ (l.dropWhile (· = '/')).head? ≠ some '/' := by
  induction l with
  | nil => exact ⟨⟨0, rfl⟩, by simp⟩
  | cons c l ih =>
    by_cases hc : c = '/'
    · obtain ⟨⟨m, hm⟩, hhead⟩ := ih
      rw [List.dropWhile_cons_of_pos (by simp [hc])]
      refine ⟨⟨m + 1, ?_⟩, hhead⟩
      rw [List.replicate_succ, List.cons_append, ← hm, hc]
    · rw [List.dropWhile_cons_of_neg (by simp [hc])]
      exact ⟨⟨0, rfl⟩, by simpa using hc⟩

/-- Slashes at the end of a text, and what stands before them. -/
theorem split_back (l : List Char) :
    (∃ n, l = l.rdropWhile (· = '/') ++ List.replicate n '/') ∧ (l.rdropWhile (· = '/')).getLast? ≠ some '/' := by
  obtain ⟨⟨n, hn⟩, hhead⟩ := split_front l.reverse
  refine ⟨⟨n, ?_⟩, ?_⟩
  · have h := congrArg List.reverse hn
    rwa [List.reverse_append, List.reverse_replicate, List.reverse_reverse] at h
  · rwa [List.rdropWhile, List.getLast?_reverse]

theorem dropWhile_slashes (m : Nat) {l : List Char} (h : l.head? ≠ some '/') :
    (List.replicate m '/' ++ l).dropWhile (· = '/') = l := by
  rw [List.dropWhile_append_of_pos (by simp)]
  cases l with
  | nil => rfl
  | cons c l =>
    have hc : c ≠ '/' := by simpa using h
    rw [List.dropWhile_cons_of_neg (by simp [hc])]

theorem rdropWhile_slashes (n : Nat) {l : List Char} (h : l.getLast? ≠ some '/') :
    (l ++ List.replicate n '/').rdropWhile (· = '/') = l := by
  rw [List.rdropWhile, List.reverse_append, List.reverse_replicate,
    dropWhile_slashes n (by rwa [List.head?_reverse]), List.reverse_reverse]

theorem trims_normalize (path : String) : Trims path (normalize path) := by
  obtain ⟨⟨m, hfront⟩, hhead⟩ := split_front path.toList
  obtain ⟨⟨n, hback⟩, hlast⟩ := split_back (path.toList.dropWhile (· = '/'))
  rw [← toList_normalize] at hback hlast
  refine ⟨⟨m, n, by rw [← hback]; exact hfront⟩, fun h => hhead ?_, hlast⟩
  -- a key that is not empty begins where the path does
  rw [hback, List.head?_append, h]
  rfl

/-- **What is left of a path** without the slashes around it. -/
theorem normalize_eq_iff {path key : String} : normalize path = key ↔ Trims path key := by
  refine ⟨fun h => h ▸ trims_normalize path, fun h => ?_⟩
  obtain ⟨⟨m, n, hsplit⟩, hhead, hlast⟩ := h
  rw [← String.toList_inj, toList_normalize, hsplit]
  by_cases hkey : key.toList = []
  · -- nothing but slashes
    rw [hkey, List.nil_append, List.replicate_append_replicate, ← List.append_nil (List.replicate _ _),
      dropWhile_slashes _ (by simp)]
    rfl
  · have hmiddle : (key.toList ++ List.replicate n '/').head? ≠ some '/' := by
      rwa [List.head?_append_of_ne_nil _ hkey]
    rw [dropWhile_slashes m hmiddle, rdropWhile_slashes n hlast]

/-- Nothing is left of slashes. -/
theorem normalize_eq_empty_iff {path : String} : normalize path = "" ↔ ∀ c ∈ path.toList, c = '/' := by
  rw [normalize_eq_iff]
  constructor
  · rintro ⟨⟨m, n, hsplit⟩, -, -⟩ c hc
    have hnil : "".toList = [] := rfl
    rw [hsplit, hnil, List.nil_append, List.replicate_append_replicate] at hc
    exact List.eq_of_mem_replicate hc
  · intro h
    refine ⟨⟨path.toList.length, 0, ?_⟩, by simp, by simp⟩
    simpa using List.eq_replicate_iff.mpr ⟨rfl, h⟩

/-! ## Registrations of a path -/

/-- Two paths are of one route: something is left of them, and it is the same. -/
def SameRoute (path other : String) : Prop := ∃ key, key ≠ "" ∧ Trims path key ∧ Trims other key

theorem sameRoute_iff {path other : String} :
    SameRoute path other ↔ normalize path ≠ "" ∧ normalize path = normalize other := by
  constructor
  · rintro ⟨key, hne, hpath, hother⟩
    rw [normalize_eq_iff.mpr hpath, normalize_eq_iff.mpr hother]
    exact ⟨hne, rfl⟩
  · rintro ⟨hne, heq⟩
    exact ⟨normalize path, hne, trims_normalize path, heq ▸ trims_normalize other⟩

/-- The last registration of a path. -/
def LastOf (routes : List (String × RouteHandler σ)) (path : String) (h : RouteHandler σ) : Prop :=
  ∃ front own back, routes = front ++ (own, h) :: back ∧ SameRoute own path ∧
    ∀ later ∈ back, ¬ SameRoute later.1 path

/-- The table of registrations, one after the other. -/
def ofRoutes (routes : List (String × RouteHandler σ)) : RouteTable σ :=
  routes.foldl (fun t route => t.withRoute route.1 route.2) empty

theorem ofRoutes_concat (routes : List (String × RouteHandler σ)) (route : String × RouteHandler σ) :
    ofRoutes (routes ++ [route]) = (ofRoutes routes).withRoute route.1 route.2 := by
  rw [ofRoutes, List.foldl_concat]
  rfl

theorem handler?_ofRoutes (routes : List (String × RouteHandler σ)) (path : String) :
    (ofRoutes routes).handler? path =
      (routes.reverse.find? fun route => normalize route.1 ≠ "" ∧ normalize route.1 = normalize path).map (·.2) := by
  have hnone : (empty : RouteTable σ).handler? path = none := rfl
  rw [ofRoutes, handler?_foldl, hnone, Option.or_none]

/-- **The last registration of a path is found.** -/
theorem handler?_of_last {routes : List (String × RouteHandler σ)} {path : String} {h : RouteHandler σ}
    (hlast : LastOf routes path h) : (ofRoutes routes).handler? path = some h := by
  obtain ⟨front, own, back, rfl, hown, hback⟩ := hlast
  have hnone : (back.reverse.find? fun route => normalize route.1 ≠ "" ∧ normalize route.1 = normalize path) = none := by
    rw [List.find?_eq_none]
    intro later hlater
    rw [decide_eq_true_iff, ← sameRoute_iff]
    exact hback later (List.mem_reverse.mp hlater)
  have hfound : normalize own ≠ "" ∧ normalize own = normalize path := sameRoute_iff.mp hown
  rw [handler?_ofRoutes, List.reverse_append, List.reverse_cons, List.append_assoc, List.find?_append, hnone,
    Option.none_or, List.singleton_append, List.find?_cons, decide_eq_true hfound]
  rfl

theorem handler?_eq_none_iff {routes : List (String × RouteHandler σ)} {path : String} :
    (ofRoutes routes).handler? path = none ↔ ∀ route ∈ routes, ¬ SameRoute route.1 path := by
  rw [handler?_ofRoutes, Option.map_eq_none_iff, List.find?_eq_none]
  simp only [List.mem_reverse, decide_eq_true_iff, ← sameRoute_iff]

/-! ## One more registration -/

/-- A path of nothing but slashes is refused, and the table stays as it is. -/
theorem route_slashes {t : RouteTable σ} {path : String} (hslashes : ∀ c ∈ path.toList, c = '/') (h : RouteHandler σ) :
    t.route path h = .error .emptyPath ∧ t.withRoute path h = t := by
  rw [withRoute, route, if_pos (normalize_eq_empty_iff.mpr hslashes)]
  exact ⟨rfl, rfl⟩

/-- Any other path is taken, under its key. -/
theorem route_kept {t : RouteTable σ} {path : String} (hkept : ¬ ∀ c ∈ path.toList, c = '/') (h : RouteHandler σ) :
    t.route path h = .ok (t.withRoute path h) ∧
      (t.withRoute path h).routes = putInOrder (normalize path) h t.routes := by
  rw [withRoute, route, if_neg fun hempty => hkept (normalize_eq_empty_iff.mp hempty), insert_eq]
  exact ⟨rfl, rfl⟩

theorem route_eq_error_iff {t : RouteTable σ} {path : String} {h : RouteHandler σ} :
    (∃ e, t.route path h = .error e) ↔ ∀ c ∈ path.toList, c = '/' := by
  constructor
  · rintro ⟨e, he⟩
    by_contra hkept
    rw [(route_kept hkept h).1] at he
    cases he
  · intro hslashes
    exact ⟨_, (route_slashes hslashes h).1⟩

/-! ## Keys -/

/-- The keys of a table. -/
def keys (t : RouteTable σ) : List String := t.routes.map (·.1)

/-- No key stands twice, and keys are in order. -/
def Ordered (t : RouteTable σ) : Prop := t.routes.Pairwise (·.1 < ·.1)

theorem Ordered.withRoute {t : RouteTable σ} (ho : t.Ordered) (path : String) (h : RouteHandler σ) :
    (t.withRoute path h).Ordered := by
  by_cases hslashes : ∀ c ∈ path.toList, c = '/'
  · rwa [(route_slashes hslashes h).2]
  · rw [Ordered, (route_kept hslashes h).2]
    exact pairwise_putInOrder ho _ _

theorem mem_keys_withRoute {t : RouteTable σ} {path key : String} {h : RouteHandler σ} :
    key ∈ (t.withRoute path h).keys ↔ key ∈ t.keys ∨ key ≠ "" ∧ Trims path key := by
  by_cases hslashes : ∀ c ∈ path.toList, c = '/'
  · have hno : ¬ (key ≠ "" ∧ Trims path key) := by
      rintro ⟨hne, htrims⟩
      exact hne ((normalize_eq_iff.mpr htrims).symm.trans (normalize_eq_empty_iff.mpr hslashes))
    rw [(route_slashes hslashes h).2, or_iff_left hno]
  · have hown : key ≠ "" ∧ Trims path key ↔ key = normalize path := by
      rw [← normalize_eq_iff]
      constructor
      · exact fun hkey => hkey.2.symm
      · rintro rfl
        exact ⟨fun hempty => hslashes (normalize_eq_empty_iff.mp hempty), rfl⟩
    rw [keys, (route_kept hslashes h).2, mem_keys_putInOrder, hown]
    exact or_comm

/-- A table is in order after any registrations. -/
theorem ordered_ofRoutes (routes : List (String × RouteHandler σ)) : (ofRoutes routes).Ordered := by
  induction routes using List.reverseRecOn with
  | nil => exact List.Pairwise.nil
  | append_singleton routes route ih =>
    rw [ofRoutes_concat]
    exact ih.withRoute route.1 route.2

/-- The keys of registrations. -/
theorem mem_keys_ofRoutes {routes : List (String × RouteHandler σ)} {key : String} :
    key ∈ (ofRoutes routes).keys ↔ ∃ route ∈ routes, key ≠ "" ∧ Trims route.1 key := by
  induction routes using List.reverseRecOn with
  | nil => simp [ofRoutes, empty, keys]
  | append_singleton routes route ih =>
    rw [ofRoutes_concat, mem_keys_withRoute, ih]
    simp only [List.mem_append, List.mem_singleton, or_and_right, exists_or, exists_eq_left]

/-! ## Paths -/

theorem trims_slash {path key : String} (h : Trims path key) : Trims ("/" ++ key) key :=
  ⟨⟨1, 0, by simp⟩, h.head, h.last⟩

theorem encode_slash (key : String) : Utf8.encode ("/" ++ key) = 47 :: Utf8.encode key := by
  rw [Utf8.encode_eq, Utf8.encode_eq, String.toList_append]
  exact Utf8.octets_cons_of_ascii (c := '/') (by decide) key.toList

/-- Paths are in the order of their octets. -/
theorem Ordered.paths {t : RouteTable σ} (ho : t.Ordered) : (t.paths.map Utf8.encode).Pairwise (· < ·) := by
  rw [RouteTable.paths, List.map_map, List.pairwise_map]
  refine List.Pairwise.imp (fun hlt => ?_) ho
  simp only [Function.comp_apply, encode_slash]
  exact List.cons_lt_cons_iff.mpr (.inr ⟨rfl, Utf8.encode_lt_iff.mpr hlt⟩)

theorem mem_paths_ofRoutes {routes : List (String × RouteHandler σ)} {entry : String} :
    entry ∈ (ofRoutes routes).paths ↔ ∃ route ∈ routes, ∃ key, key ≠ "" ∧ Trims route.1 key ∧ entry = "/" ++ key := by
  have hpaths : (ofRoutes routes).paths = (ofRoutes routes).keys.map ("/" ++ ·) := by
    rw [paths, keys, List.map_map]
    rfl
  rw [hpaths, List.mem_map]
  constructor
  · rintro ⟨key, hkey, rfl⟩
    obtain ⟨route, hroute, hne, htrims⟩ := mem_keys_ofRoutes.mp hkey
    exact ⟨route, hroute, key, hne, htrims, rfl⟩
  · rintro ⟨route, hroute, key, hne, htrims, rfl⟩
    exact ⟨key, mem_keys_ofRoutes.mpr ⟨route, hroute, hne, htrims⟩, rfl⟩

theorem contains_iff {routes : List (String × RouteHandler σ)} {path : String} :
    (ofRoutes routes).contains path = true ↔ ∃ route ∈ routes, SameRoute route.1 path := by
  rw [contains, Option.isSome_iff_ne_none, Ne, handler?_eq_none_iff]
  simp

/-- **What a table does and lists after any registrations.** One more is refused exactly if its path is nothing but
slashes, and the table stays as it is. A path has a route exactly if one of its route was registered, the last of
these answers, and a path without one is told as it was given. The list of paths is in the order of octets, has one
entry for each key, and each entry has a route. -/
theorem table_of_registrations (routes : List (String × RouteHandler σ)) :
    (∀ path h, ((∃ e, (ofRoutes routes).route path h = .error e) ↔ ∀ c ∈ path.toList, c = '/') ∧
      (∀ e, (ofRoutes routes).route path h = .error e → (ofRoutes routes).withRoute path h = ofRoutes routes)) ∧
    (∀ path, (ofRoutes routes).contains path = true ↔ ∃ route ∈ routes, SameRoute route.1 path) ∧
    (∀ path h args s, LastOf routes path h → (ofRoutes routes).dispatch path args s = (h args).run.run s) ∧
    (∀ path args s, (∀ route ∈ routes, ¬ SameRoute route.1 path) →
      ∃ e : HostError, (ofRoutes routes).dispatch path args s = (.error e, s) ∧ e.type? = some "RouteNotFound" ∧
        e.message = "Route not found for path " ++ path) ∧
    ((ofRoutes routes).paths.map Utf8.encode).Pairwise (· < ·) ∧
    (∀ entry, entry ∈ (ofRoutes routes).paths ↔
      ∃ route ∈ routes, ∃ key, key ≠ "" ∧ Trims route.1 key ∧ entry = "/" ++ key) ∧
    ∀ entry ∈ (ofRoutes routes).paths, (ofRoutes routes).contains entry = true := by
  refine ⟨fun path h => ⟨route_eq_error_iff, fun e he => ?_⟩, fun path => contains_iff,
    fun path h args s hlast => ?_, fun path args s hnone => ?_, (ordered_ofRoutes routes).paths,
    fun entry => mem_paths_ofRoutes, fun entry hentry => ?_⟩
  · exact (route_slashes (route_eq_error_iff.mp ⟨e, he⟩) h).2
  · rw [dispatch, handler?_of_last hlast]
  · rw [dispatch, handler?_eq_none_iff.mpr hnone]
    exact ⟨_, rfl, rfl, rfl⟩
  · obtain ⟨route, hroute, key, hne, htrims, rfl⟩ := mem_paths_ofRoutes.mp hentry
    exact contains_iff.mpr ⟨route, hroute, key, hne, htrims, trims_slash htrims⟩

end Hostlink.RouteTable
