import Hostlink.Proofs.Document
import Hostlink.Proofs.Lists
import Mathlib.Data.List.Infix
import Mathlib.Data.List.Nodup
import Mathlib.Data.List.Perm.Subperm
import Mathlib.Order.WellFounded

/-!
# Documents as forests

The elements of a document are told to have parents and children. Where both say the same, no child stands twice, and
nobody is below himself, they are a forest, and the elements of a tree can be listed, each before its children.

* `Document.parent?`, `Document.children`, `Document.Under` — how elements are related;
* `Document.Forest` — parents and children agree;
* `Forest.mem_below`, `Forest.nodup_below`, `Forest.below_eq` — **what is listed below an element**: all that is under
  it, each once, and before its children;
* `Forest.isConnected_iff` — whether a chain of parents leads to the root;
* `Document.Visits`, `Forest.visits_iff` — **a stack of elements is worked off in that order**;
* `Forest.count_children` — an element with a parent is a child of that one, once.
-/

namespace Hostlink.Document

variable {d : Document} {a b c e p x : Element}

/-! ## Parents and children -/

/-- The parent of an element, if it has one. -/
def parent? (d : Document) (e : Element) : Option Element := (d.node? e).bind (·.parent)

/-- The children of an element, in order. -/
def children (d : Document) (e : Element) : List Element := ((d.node? e).map (·.children)).getD []

theorem mem_keys_of_parent? (h : d.parent? e = some p) : e ∈ d.keys := by
  obtain ⟨n, hn, -⟩ := Option.bind_eq_some_iff.mp h
  exact mem_keys_of_node? hn

theorem mem_keys_of_mem_children (h : c ∈ d.children p) : p ∈ d.keys := by
  cases hn : d.node? p with
  | none =>
    rw [children, hn] at h
    cases h
  | some n => exact mem_keys_of_node? hn

/-- Parents lead from an element up to another one, or it is that one. -/
inductive Under (d : Document) (a : Element) : Element → Prop
  | self : Under d a a
  | child {e p : Element} (hparent : d.parent? e = some p) (hp : Under d a p) : Under d a e

namespace Under

theorem trans (hab : d.Under a b) (hbc : d.Under b c) : d.Under a c := by
  induction hbc with
  | self => exact hab
  | child hparent _ ih => exact .child hparent ih

theorem of_parent (h : d.parent? e = some p) : d.Under p e := .child h .self

/-- Whoever is under another is that one, or has a parent that is. -/
theorem cases_parent (h : d.Under a e) : e = a ∨ ∃ p, d.parent? e = some p ∧ d.Under a p := by
  cases h with
  | self => exact .inl rfl
  | child hparent hp => exact .inr ⟨_, hparent, hp⟩

/-- Of two that an element is under, one is under the other: there is one way up. -/
theorem total (ha : d.Under a x) (hb : d.Under b x) : d.Under a b ∨ d.Under b a := by
  induction ha with
  | self => exact .inr hb
  | child hparent ha ih =>
    rcases hb.cases_parent with rfl | ⟨p, hparent', hp⟩
    · exact .inl (.child hparent ha)
    · obtain rfl := Option.some.inj (hparent.symm.trans hparent')
      exact ih hp

theorem mem_keys (h : d.Under a e) (ha : a ∈ d.keys) : e ∈ d.keys := by
  cases h with
  | self => exact ha
  | child hparent _ => exact mem_keys_of_parent? hparent

end Under

/-! ## Forests -/

/-- Parents and children agree, no child stands twice, and nobody is below himself. The root and the body have their
places. -/
structure Forest (d : Document) : Prop where
  links : ∀ {p e}, e ∈ d.children p ↔ d.parent? e = some p
  distinct : ∀ p, (d.children p).Nodup
  ranked : ∃ rank : Element → Nat, ∀ p, ∀ e ∈ d.children p, rank e < rank p
  fresh : d.Fresh
  keys_nodup : d.keys.Nodup
  root_eq : ∃ cs, d.node? root = some ⟨.page, none, cs⟩
  body_eq : ∃ cs, d.node? d.body = some ⟨.body, some root, cs⟩

/-! ## Listing a tree -/

theorem self_mem_walkFrom (d : Document) (depth : Nat) (e : Element) : e ∈ d.walkFrom depth e := by
  cases depth with
  | zero => exact List.mem_singleton_self e
  | succ depth =>
    rw [walkFrom]
    cases d.node? e <;> exact List.mem_cons_self

theorem walkFrom_succ (d : Document) (depth : Nat) (e : Element) :
    d.walkFrom (depth + 1) e = e :: (d.children e).flatMap (d.walkFrom depth) := by
  rw [walkFrom, children]
  cases d.node? e <;> rfl

section

variable {rank : Element → Nat} (hrank : ∀ p, ∀ e ∈ d.children p, rank e < rank p)
include hrank

theorem children_eq_nil (h : rank e = 0) : d.children e = [] := by
  apply List.eq_nil_iff_forall_not_mem.mpr
  intro c hc
  have := hrank e c hc
  omega

/-- To look as deep as there are elements in the list brings all of them. -/
theorem walkFrom_of_length {k n : Nat} (hk : rank e ≤ k) (hn : (d.walkFrom k e).length ≤ n) :
    d.walkFrom n e = d.walkFrom k e := by
  induction n generalizing e k with
  | zero =>
    cases k with
    | zero => rfl
    | succ k =>
      rw [walkFrom_succ] at hn
      cases hn
  | succ n ih =>
    cases k with
    | zero =>
      rw [walkFrom_succ, children_eq_nil hrank (Nat.le_zero.mp hk)]
      rfl
    | succ k =>
      rw [walkFrom_succ, List.length_cons] at hn
      rw [walkFrom_succ, walkFrom_succ]
      refine congrArg _ (List.flatMap_congr fun c hc => ?_)
      have := hrank e c hc
      have hpart : (d.walkFrom k c).length ≤ ((d.children e).flatMap (d.walkFrom k)).length :=
        (List.sublist_flatten_of_mem (List.mem_map_of_mem hc)).length_le
      exact ih (by omega) (by omega)

end

namespace Forest

variable (hd : d.Forest)
include hd

/-! ### Who is under whom -/

theorem rank_le {rank : Element → Nat} (hrank : ∀ p, ∀ e ∈ d.children p, rank e < rank p) (h : d.Under a x) :
    rank x ≤ rank a := by
  induction h with
  | self => exact Nat.le_refl _
  | child hparent _ ih => exact Nat.le_trans (Nat.le_of_lt (hrank _ _ (hd.links.mpr hparent))) ih

/-- Nobody is under his own child. -/
theorem not_under_child (h : d.parent? e = some p) : ¬ d.Under e p := by
  obtain ⟨rank, hrank⟩ := hd.ranked
  intro hp
  exact Nat.not_lt.mpr (hd.rank_le hrank hp) (hrank p e (hd.links.mpr h))

/-- What is under two children of one parent is under one and the same child. -/
theorem eq_of_under (hb : b ∈ d.children p) (hc : c ∈ d.children p) (hbx : d.Under b x) (hcx : d.Under c x) :
    b = c := by
  have hone : ∀ {b c}, b ∈ d.children p → c ∈ d.children p → d.Under b c → b = c := by
    intro b c hb hc hbc
    rcases hbc.cases_parent with rfl | ⟨q, hq, hbq⟩
    · rfl
    · obtain rfl := Option.some.inj (hq.symm.trans (hd.links.mp hc))
      exact absurd hbq (hd.not_under_child (hd.links.mp hb))
  rcases hbx.total hcx with h | h
  · exact hone hb hc h
  · exact (hone hc hb h).symm

/-- Whoever is above another is above one of the children on the way. -/
theorem under_child (h : d.Under a x) : x = a ∨ ∃ c ∈ d.children a, d.Under c x := by
  induction h with
  | self => exact .inl rfl
  | child hparent _ ih =>
    right
    rcases ih with rfl | ⟨c, hc, hx⟩
    · exact ⟨_, hd.links.mpr hparent, .self⟩
    · exact ⟨c, hc, .child hparent hx⟩

/-- Children come before their parents in some order, so what passes from children to parents holds of all. -/
theorem induction {P : Element → Prop} (hstep : ∀ e, (∀ c ∈ d.children e, P c) → P e) (e : Element) : P e := by
  obtain ⟨rank, hrank⟩ := hd.ranked
  induction hr : rank e using Nat.strong_induction_on generalizing e with
  | _ r ih =>
    subst hr
    exact hstep e fun c hc => ih _ (hrank e c hc) c rfl

/-! ### What is listed -/

section

variable {rank : Element → Nat} (hrank : ∀ p, ∀ e ∈ d.children p, rank e < rank p) {k : Nat} (hk : rank a ≤ k)
include hrank hk

omit hd in
theorem child_mem_walkFrom (hp : p ∈ d.walkFrom k a) (he : e ∈ d.children p) : e ∈ d.walkFrom k a := by
  induction k generalizing a with
  | zero =>
    obtain rfl := List.mem_singleton.mp hp
    rw [children_eq_nil hrank (Nat.le_zero.mp hk)] at he
    cases he
  | succ k ih =>
    rw [walkFrom_succ] at hp ⊢
    rcases List.mem_cons.mp hp with rfl | hp
    · exact List.mem_cons_of_mem _ (List.mem_flatMap.mpr ⟨e, he, d.self_mem_walkFrom k e⟩)
    · obtain ⟨c, hc, hp⟩ := List.mem_flatMap.mp hp
      have := hrank a c hc
      exact List.mem_cons_of_mem _ (List.mem_flatMap.mpr ⟨c, hc, ih (by omega) hp⟩)

theorem mem_walkFrom : x ∈ d.walkFrom k a ↔ d.Under a x := by
  constructor
  · intro hx
    induction k generalizing a with
    | zero =>
      obtain rfl := List.mem_singleton.mp hx
      exact .self
    | succ k ih =>
      rw [walkFrom_succ] at hx
      rcases List.mem_cons.mp hx with rfl | hx
      · exact .self
      · obtain ⟨c, hc, hx⟩ := List.mem_flatMap.mp hx
        have := hrank a c hc
        exact (Under.of_parent (hd.links.mp hc)).trans (ih (by omega) hx)
  · intro h
    induction h with
    | self => exact d.self_mem_walkFrom k a
    | child hparent _ ih => exact child_mem_walkFrom hrank hk ih (hd.links.mpr hparent)

theorem nodup_walkFrom : (d.walkFrom k a).Nodup := by
  induction k generalizing a with
  | zero => exact List.nodup_singleton a
  | succ k ih =>
    have hlt := hrank a
    rw [walkFrom_succ, List.nodup_cons, List.nodup_flatMap]
    refine ⟨fun hmem => ?_, fun c hc => ih (by have := hlt c hc; omega), ?_⟩
    · obtain ⟨c, hc, ha⟩ := List.mem_flatMap.mp hmem
      have := hlt c hc
      exact hd.not_under_child (hd.links.mp hc) ((hd.mem_walkFrom hrank (by omega)).mp ha)
    · -- whoever is below two children is below one and the same
      refine (hd.distinct a).imp_of_mem fun {b c} hb hc hne x hbx hcx => hne ?_
      have := hlt b hb
      have := hlt c hc
      exact hd.eq_of_under hb hc ((hd.mem_walkFrom hrank (by omega)).mp hbx)
        ((hd.mem_walkFrom hrank (by omega)).mp hcx)

theorem length_walkFrom_le : (d.walkFrom k a).length ≤ d.nodes.length := by
  have hkeys : d.keys.length = d.nodes.length := List.length_map _
  obtain ⟨cs, hroot⟩ := hd.root_eq
  by_cases ha : a ∈ d.keys
  · have hsubset : d.walkFrom k a ⊆ d.keys := fun x hx => ((hd.mem_walkFrom hrank hk).mp hx).mem_keys ha
    exact hkeys ▸ (List.subperm_of_subset (hd.nodup_walkFrom hrank hk) hsubset).length_le
  · have hchildren : d.children a = [] :=
      List.eq_nil_iff_forall_not_mem.mpr fun c hc => ha (mem_keys_of_mem_children hc)
    have hone : d.walkFrom k a = [a] := by
      cases k with
      | zero => rfl
      | succ k => rw [walkFrom_succ, hchildren, List.flatMap_nil]
    rw [hone, ← hkeys]
    exact List.length_pos_of_mem (mem_keys_of_node? hroot)

theorem below_eq_walkFrom : d.below a = d.walkFrom k a :=
  walkFrom_of_length hrank hk (hd.length_walkFrom_le hrank hk)

end

/-- **An element is listed before what is below its children**, one after the other. -/
theorem below_eq (e : Element) : d.below e = e :: (d.children e).flatMap d.below := by
  obtain ⟨rank, hrank⟩ := hd.ranked
  rw [hd.below_eq_walkFrom hrank (Nat.le_succ (rank e)), walkFrom_succ]
  refine congrArg _ (List.flatMap_congr fun c hc => ?_)
  exact (hd.below_eq_walkFrom hrank (Nat.le_of_lt (hrank e c hc))).symm

theorem mem_below : x ∈ d.below a ↔ d.Under a x := by
  obtain ⟨rank, hrank⟩ := hd.ranked
  rw [hd.below_eq_walkFrom hrank (Nat.le_refl _)]
  exact hd.mem_walkFrom hrank (Nat.le_refl _)

theorem nodup_below (a : Element) : (d.below a).Nodup := by
  obtain ⟨rank, hrank⟩ := hd.ranked
  rw [hd.below_eq_walkFrom hrank (Nat.le_refl _)]
  exact hd.nodup_walkFrom hrank (Nat.le_refl _)

theorem length_below_le (a : Element) : (d.below a).length ≤ d.nodes.length := by
  obtain ⟨rank, hrank⟩ := hd.ranked
  rw [hd.below_eq_walkFrom hrank (Nat.le_refl _)]
  exact hd.length_walkFrom_le hrank (Nat.le_refl _)

/-- What is below a child stands together between what is below its siblings. -/
theorem below_split {front back : List Element} (h : d.children p = front ++ c :: back) :
    d.below p = (p :: front.flatMap d.below) ++ d.below c ++ back.flatMap d.below := by
  rw [hd.below_eq, h]
  simp

/-- What is below an element stands together in what is below those above it. -/
theorem below_infix (h : d.Under a b) : d.below b <:+: d.below a := by
  induction h with
  | self => exact List.infix_rfl
  | child hparent _ ih =>
    obtain ⟨front, back, hsplit⟩ := List.append_of_mem (hd.links.mpr hparent)
    exact List.IsInfix.trans ⟨_, _, (hd.below_split hsplit).symm⟩ ih

theorem length_below_lt (h : d.parent? e = some p) : (d.below e).length < (d.below p).length := by
  obtain ⟨front, back, hsplit⟩ := List.append_of_mem (hd.links.mpr h)
  rw [hd.below_split hsplit]
  simp only [List.length_append, List.length_cons]
  omega

/-! ### The way to the root -/

omit hd in
theorem under_root_of_reachesRoot {k : Nat} (h : d.reachesRoot k e = true) : d.Under root e := by
  induction k generalizing e with
  | zero =>
    obtain rfl := of_decide_eq_true h
    exact .self
  | succ k ih =>
    rw [reachesRoot, Bool.or_eq_true, decide_eq_true_eq] at h
    rcases h with rfl | h
    · exact .self
    · split at h
      · next p hp => exact .child hp (ih h)
      · cases h

/-- A way to the root has no more steps than what is below grows by. -/
theorem reachesRoot_of_under (h : d.Under root e) {k : Nat}
    (hk : (d.below root).length ≤ k + (d.below e).length) : d.reachesRoot k e = true := by
  induction h generalizing k with
  | self => cases k <;> simp [reachesRoot]
  | @child e p hparent hp ih =>
    have hlt := hd.length_below_lt hparent
    have hle := (hd.below_infix hp).length_le
    obtain ⟨k, rfl⟩ : ∃ k', k = k' + 1 := ⟨k - 1, by omega⟩
    have hbind : (d.node? e).bind (·.parent) = some p := hparent
    rw [reachesRoot, hbind]
    simp [ih (k := k) (by omega)]

/-- **An element is in the tree if its parents lead to the root.** -/
theorem isConnected_iff : d.isConnected e = true ↔ d.Under root e := by
  refine ⟨under_root_of_reachesRoot, fun h => hd.reachesRoot_of_under h ?_⟩
  have := hd.length_below_le root
  omega

end Forest

/-! ## A stack of elements -/

/-- How a stack of elements is worked off: the first is visited, and its children take its place. -/
inductive Visits (d : Document) : List Element → List Element → Prop
  | done : Visits d [] []
  | visit {e : Element} {stack order : List Element} (h : Visits d (d.children e ++ stack) order) :
    Visits d (e :: stack) (e :: order)

/-- **A stack is worked off, and each of its elements is listed before its children.** -/
theorem Forest.visits_iff (hd : d.Forest) {stack order : List Element} :
    d.Visits stack order ↔ order = stack.flatMap d.below := by
  constructor
  · intro h
    induction h with
    | done => rfl
    | @visit e stack order _ ih => rw [ih, List.flatMap_cons, hd.below_eq e, List.flatMap_append, List.cons_append]
  · rintro rfl
    -- the way back is by the number of elements that are still to be visited
    induction hn : (stack.flatMap d.below).length generalizing stack with
    | zero =>
      cases stack with
      | nil => exact .done
      | cons e stack =>
        rw [List.flatMap_cons, hd.below_eq e] at hn
        cases hn
    | succ n ih =>
      cases stack with
      | nil => cases hn
      | cons e stack =>
        have hlist : (e :: stack).flatMap d.below = e :: (d.children e ++ stack).flatMap d.below := by
          rw [List.flatMap_cons, hd.below_eq e, List.flatMap_append, List.cons_append]
        rw [hlist] at hn ⊢
        exact .visit (ih (Nat.succ.inj hn))

/-! ## All children -/

/-- **An element with a parent is a child once**, and of that one. -/
theorem Forest.count_children (hd : d.Forest) (h : d.parent? e = some p) :
    (d.nodes.flatMap (·.2.children)).count e = 1 := by
  have hchildren : ∀ q ∈ d.nodes, q.2.children = d.children q.1 := by
    intro q hq
    have hnode : d.node? q.1 = some q.2 := lookup_of_nodup hd.keys_nodup hq
    rw [children, hnode]
    rfl
  have hall : d.nodes.flatMap (·.2.children) = d.keys.flatMap d.children := by
    rw [keys, List.flatMap_map]
    exact List.flatMap_congr hchildren
  have hnodup : (d.keys.flatMap d.children).Nodup := by
    refine List.nodup_flatMap.mpr ⟨fun q _ => hd.distinct q, hd.keys_nodup.imp fun {q r} hne x hxq hxr => hne ?_⟩
    exact Option.some.inj ((hd.links.mp hxq).symm.trans (hd.links.mp hxr))
  have hmem := hd.links.mpr h
  rw [hall]
  exact List.count_eq_one_of_mem hnodup (List.mem_flatMap.mpr ⟨p, mem_keys_of_mem_children hmem, hmem⟩)

end Hostlink.Document
