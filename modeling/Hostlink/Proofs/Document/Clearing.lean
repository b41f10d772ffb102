import Hostlink.Proofs.Document.Changes

/-!
# Clearing away a tree

An element is taken out of its place, and its children are put on a stack. Whatever is on the stack is taken out, and
its children come on the stack in its place, until there is nothing left. What goes this way is what is below the
element.

* `Document.Clears` — how a stack of elements is cleared away;
* `Document.severed` — a document without one element, whose children have lost their parent;
* `Forest.clears_left` — **a stack is cleared away, with all that is below it**;
* `Forest.clears_iff` — a script is taken out so.
-/

namespace Hostlink.Document

variable {d d' base : Document} {e x : Element} {stack gone : List Element} {src : String}

/-- A document without some elements. -/
def left (d : Document) (gone : List Element) : Document :=
  { d with nodes := d.nodes.filter (! gone.contains ·.1) }

/-- How a stack of elements is cleared away: the first is taken out, if it is there, and its children take its place,
the last of them first. -/
inductive Clears : Document → List Element → Document → Prop
  | done {d : Document} : Clears d [] d
  | skip {d d' : Document} {e : Element} {stack : List Element} (hnode : d.node? e = none) (h : Clears d stack d') :
    Clears d (e :: stack) d'
  | take {d d' : Document} {e : Element} {n : Node} {stack : List Element} (hnode : d.node? e = some n)
    (h : Clears (d.left [e]) (n.children.reverse ++ stack) d') : Clears d (e :: stack) d'

/-- There is one way to do so. -/
theorem Clears.unique {d₁ d₂ : Document} (h : Clears d stack d₁) (h' : Clears d stack d₂) : d₁ = d₂ := by
  induction h with
  | done =>
    cases h'
    rfl
  | skip hnode _ ih =>
    cases h' with
    | skip _ h => exact ih h
    | take hnode' _ => cases hnode.symm.trans hnode'
  | take hnode _ ih =>
    cases h' with
    | skip hnode' _ => cases hnode.symm.trans hnode'
    | take hnode' h =>
      obtain rfl := Option.some.inj (hnode.symm.trans hnode')
      exact ih h

/-- A document that an element has been taken out of: it is no child any more, and what was below it is still there. -/
def severed (d : Document) (e : Element) : Document :=
  match d.parent? e with
  | some p => (d.left [e]).update p fun n => { n with children := n.children.filter (· ≠ e) }
  | none => d.left [e]

/-! ## Documents without some elements -/

theorem node?_left (d : Document) (gone : List Element) (x : Element) :
    (d.left gone).node? x = if x ∈ gone then none else d.node? x := by
  rw [node?, left, lookup_filter d.nodes (fun k => ! gone.contains k)]
  by_cases hx : x ∈ gone <;> simp [hx, node?]

theorem left_nil (d : Document) : d.left [] = d := by simp [left]

theorem left_left (d : Document) (gone more : List Element) : (d.left gone).left more = d.left (gone ++ more) := by
  simp only [left, List.filter_filter, List.contains_append, Bool.not_or, Bool.and_comm]

/-- It does not matter in which order they went. -/
theorem left_congr {gone gone' : List Element} (h : ∀ x, x ∈ gone ↔ x ∈ gone') : d.left gone = d.left gone' := by
  have hsame : ∀ q : Element × Node, (! gone.contains q.1) = ! gone'.contains q.1 := by
    intro q
    rw [Bool.eq_iff_iff]
    simp [h q.1]
  simp only [left, hsame]

theorem left_update (d : Document) (p : Element) (f : Node → Node) (gone : List Element) :
    (d.update p f).left gone = (d.left gone).update p f := by
  have hkey : ∀ q : Element × Node, (if q.1 = p then (q.1, f q.2) else q).1 = q.1 := by
    intro q
    split <;> rfl
  simp only [left, update, List.filter_map, Function.comp_def, hkey]

theorem node?_severed (hx : x ≠ e) (hparent : d.parent? e ≠ some x) : (d.severed e).node? x = d.node? x := by
  have hout : x ∉ [e] := fun h => hx (List.mem_singleton.mp h)
  unfold severed
  split
  · next p hp =>
    have hne : x ≠ p := fun heq => hparent (heq ▸ hp)
    rw [node?_update, if_neg hne, node?_left, if_neg hout]
  · rw [node?_left, if_neg hout]

namespace Forest

variable (hd : d.Forest)
include hd

/-- **A stack is cleared away, with all that is below it**, from whatever is left of a forest. -/
theorem clears_left (hnodup : (stack.flatMap d.below).Nodup) (hgone : ∀ x ∈ stack.flatMap d.below, x ∉ gone)
    (hbase : ∀ x ∈ stack.flatMap d.below, ∃ n, base.node? x = some n ∧ n.children = d.children x) :
    Clears (base.left gone) stack (base.left (gone ++ stack.flatMap d.below)) := by
  induction hn : (stack.flatMap d.below).length generalizing stack gone with
  | zero =>
    cases stack with
    | nil =>
      rw [List.flatMap_nil, List.append_nil]
      exact .done
    | cons e stack =>
      rw [List.flatMap_cons, hd.below_eq e] at hn
      cases hn
  | succ n ih =>
    cases stack with
    | nil => cases hn
    | cons e stack =>
      -- the children come on the stack in turn, and the same elements are below it
      have hperm : ((e :: stack).flatMap d.below).Perm
          (e :: ((d.children e).reverse ++ stack).flatMap d.below) := by
        rw [List.flatMap_cons, hd.below_eq e, List.flatMap_append, List.cons_append]
        exact (((List.reverse_perm _).symm.flatMap_right d.below).append_right _).cons e
      have hmem : ∀ x, x ∈ (e :: stack).flatMap d.below ↔
          x = e ∨ x ∈ ((d.children e).reverse ++ stack).flatMap d.below := by
        intro x
        rw [hperm.mem_iff, List.mem_cons]
      obtain ⟨hfresh, hrest⟩ := List.nodup_cons.mp (hperm.nodup_iff.mp hnodup)
      obtain ⟨m, hm, hchildren⟩ := hbase e ((hmem e).mpr (.inl rfl))
      have hnode : (base.left gone).node? e = some m := by
        rw [node?_left, if_neg (hgone e ((hmem e).mpr (.inl rfl))), hm]
      have hlength : (((d.children e).reverse ++ stack).flatMap d.below).length = n := by
        have := hperm.length_eq
        rw [List.length_cons] at this
        omega
      have hcleared : Clears (base.left (gone ++ [e])) ((d.children e).reverse ++ stack)
          (base.left (gone ++ [e] ++ ((d.children e).reverse ++ stack).flatMap d.below)) := by
        apply ih hrest _ _ hlength
        · intro x hx hxg
          rcases List.mem_append.mp hxg with hxg | hxe
          · exact hgone x ((hmem x).mpr (.inr hx)) hxg
          · exact hfresh (List.mem_singleton.mp hxe ▸ hx)
        · intro x hx
          exact hbase x ((hmem x).mpr (.inr hx))
      have hlast : base.left (gone ++ (e :: stack).flatMap d.below) =
          base.left (gone ++ [e] ++ ((d.children e).reverse ++ stack).flatMap d.below) :=
        left_congr fun x => by simp only [List.mem_append, hmem, List.mem_singleton, or_assoc]
      refine .take hnode ?_
      rw [left_left, hchildren, hlast]
      exact hcleared

theorem remove_eq_severed (he : d.src? e = some src) :
    d.remove e = (d.severed e).left ((d.children e).reverse.flatMap d.below) := by
  obtain ⟨n, hn⟩ := exists_node_of_src? he
  have hparent : d.parent? e = n.parent := by
    rw [parent?, hn]
    rfl
  have hbelow : d.left (d.below e) = d.left ([e] ++ (d.children e).reverse.flatMap d.below) := by
    refine left_congr fun x => ?_
    rw [hd.below_eq e, List.mem_cons, List.mem_append, List.mem_singleton,
      ((List.reverse_perm (d.children e)).flatMap_right d.below).mem_iff]
  rw [Document.remove, if_neg (hd.script_ne he).1, severed, hparent]
  simp only [hn]
  cases n.parent with
  | none =>
    simp only [left_left]
    exact hbelow
  | some p =>
    simp only [left_update, left_left]
    rw [← hbelow]
    rfl

/-- **A script is taken out with all that is below it**, as its children are cleared away. -/
theorem clears_iff (he : d.src? e = some src) :
    Clears (d.severed e) (d.children e).reverse d' ↔ d' = d.remove e := by
  have hlist : d.below e = e :: (d.children e).flatMap d.below := hd.below_eq e
  -- the stack holds the children in reverse, but what is below them is the same
  have hperm : ((d.children e).reverse.flatMap d.below).Perm ((d.children e).flatMap d.below) :=
    (List.reverse_perm _).flatMap_right d.below
  obtain ⟨hfresh, hnodup⟩ := List.nodup_cons.mp (hlist ▸ hd.nodup_below e)
  have hremove := hd.remove_eq_severed he
  have hclears : Clears ((d.severed e).left []) (d.children e).reverse
      ((d.severed e).left ([] ++ (d.children e).reverse.flatMap d.below)) := by
    refine hd.clears_left (hperm.nodup_iff.mpr hnodup) (fun _ _ => List.not_mem_nil) fun x hx => ?_
    have hx := hperm.mem_iff.mp hx
    have hunder : d.Under e x := hd.mem_below.mp (hlist ▸ List.mem_cons_of_mem e hx)
    obtain ⟨m, hm⟩ := exists_node_of_src? he
    obtain ⟨n, hn⟩ := exists_node_of_mem_keys (hunder.mem_keys (mem_keys_of_node? hm))
    refine ⟨n, ?_, by rw [children, hn]; rfl⟩
    rw [node?_severed ?_ ?_, hn]
    · rintro rfl
      exact hfresh hx
    · exact fun hparent => hd.not_under_child hparent hunder
  rw [left_nil, List.nil_append, ← hremove] at hclears
  exact ⟨fun h => h.unique hclears, fun h => h ▸ hclears⟩

end Forest

end Hostlink.Document
