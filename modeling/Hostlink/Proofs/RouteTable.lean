import Hostlink.RouteTable
import Hostlink.Proofs.Lists
import Mathlib.Data.List.Induction

/-!
# What a route table finds

* `RouteTable.lookup_insert` — one more handler under a key;
* `RouteTable.handler?_withRoute` — one more route, unless it is refused;
* `RouteTable.handler?_foldl` — **of all routes of a path the last is found**;
* `RouteTable.mem_of_handler?` — a table finds nothing but what it was given.
-/

namespace Hostlink.RouteTable

variable {σ : Type}

theorem insert_eq (key : String) (h : RouteHandler σ) (routes : List (String × RouteHandler σ)) :
    insert key h routes = putInOrder key h routes := by
  induction routes with
  | nil => rfl
  | cons route routes ih => rw [insert, putInOrder, ih]

theorem lookup_insert (key : String) (h : RouteHandler σ) (routes : List (String × RouteHandler σ)) (k : String) :
    (insert key h routes).lookup k = if k = key then some h else routes.lookup k := by
  rw [insert_eq]
  exact lookup_putInOrder key h routes k

/-- A path has a route of its own, if slashes do not count and some of it is left. -/
theorem handler?_withRoute (t : RouteTable σ) (path : String) (h : RouteHandler σ) (other : String) :
    (t.withRoute path h).handler? other =
      if normalize path ≠ "" ∧ normalize path = normalize other then some h else t.handler? other := by
  rw [withRoute, route]
  by_cases hempty : normalize path = ""
  · rw [if_pos hempty, if_neg fun h => h.1 hempty]
  · rw [if_neg hempty, handler?, lookup_insert]
    by_cases hother : normalize other = normalize path
    · rw [if_pos hother, if_pos ⟨hempty, hother.symm⟩]
    · rw [if_neg hother, if_neg fun h => hother h.2.symm]
      rfl

/-- **Of all routes of a path the last is found**, else what was found before. -/
theorem handler?_foldl (t : RouteTable σ) (routes : List (String × RouteHandler σ)) (path : String) :
    (routes.foldl (fun t route => t.withRoute route.1 route.2) t).handler? path =
      ((routes.reverse.find? fun route => normalize route.1 ≠ "" ∧ normalize route.1 = normalize path).map (·.2)).or
        (t.handler? path) := by
  induction routes using List.reverseRecOn with
  | nil => rfl
  | append_singleton routes route ih =>
    rw [List.foldl_concat, handler?_withRoute, ih, List.reverse_append, List.reverse_singleton, List.singleton_append,
      List.find?_cons]
    by_cases h : normalize route.1 ≠ "" ∧ normalize route.1 = normalize path
    · rw [if_pos h, decide_eq_true h]
      rfl
    · rw [if_neg h, decide_eq_false h]

/-- A table finds nothing but what it was given. -/
theorem mem_of_handler? {routes : List (String × RouteHandler σ)} {path : String} {h : RouteHandler σ}
    (hfound : (routes.foldl (fun t route => t.withRoute route.1 route.2) empty).handler? path = some h) :
    ∃ route ∈ routes, normalize route.1 = normalize path ∧ route.2 = h := by
  rw [handler?_foldl] at hfound
  -- an empty table finds nothing
  have hnone : (empty : RouteTable σ).handler? path = none := rfl
  rw [hnone, Option.or_none] at hfound
  obtain ⟨route, hroute, rfl⟩ := Option.map_eq_some_iff.mp hfound
  have hpath := List.find?_some hroute
  rw [decide_eq_true_iff] at hpath
  exact ⟨route, List.mem_reverse.mp (List.mem_of_find?_eq_some hroute), hpath.2, rfl⟩

end Hostlink.RouteTable
