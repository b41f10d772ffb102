import Hostlink.Proofs.Document.Clearing

/-!
# Surgery on documents

Whatever becomes of a page by scripts that are made, put in and taken out, it is a forest, and whoever walks it meets
each element of the tree once. What is put in stands together where it was put; what is taken out is gone, and nothing
else is.

* `Document.Reached` — what becomes of a page by surgery, `Reached.forest` — **it stays a forest**;
* `Document.Walked` — how it is walked;
* `Document.InsertedBefore`, `Document.Appended`, `Document.Removed` — what each operation does;
* `Document.surgery` — **a document after any surgery, and what the next one does to it**.
-/

namespace Hostlink.Document

variable {d d' : Document} {e p r x : Element} {src : String}

/-! ## Insertions -/

theorem below_of_nodes (h : d'.nodes = d.nodes) : d'.below = d.below :=
  funext fun x => by rw [below, below, walkFrom_of_nodes h, h]

theorem isConnected_of_nodes (h : d'.nodes = d.nodes) (e : Element) : d'.isConnected e = d.isConnected e := by
  have hreach : ∀ k e, d'.reachesRoot k e = d.reachesRoot k e := by
    intro k
    induction k with
    | zero => exact fun _ => rfl
    | succ k ih =>
      intro e
      simp only [reachesRoot, node?, h, ih]
  rw [isConnected, isConnected, hreach, h]

/-- A script is loaded if it is in the tree. -/
theorem loads_load_of (he : d.src? e = some src) :
    (d.load e).loads = d.loads ++ if (d.load e).isConnected e then [src] else [] := by
  rw [isConnected_of_nodes (nodes_load d e), load, he]
  split
  · rfl
  · rw [List.append_nil]

theorem append_of_mem (d : Document) (e : Element) (hp : p ∈ d.keys) :
    d.append p e = (true, (d.attach p e none).load e) := by
  obtain ⟨n, hn⟩ := exists_node_of_mem_keys hp
  simp [append, hn]

theorem append_of_notMem (d : Document) (e : Element) (hp : p ∉ d.keys) : d.append p e = (false, d) := by
  simp [append, node?_eq_none.mpr hp]

/-- The place before an element is found among its siblings. -/
theorem exists_placed_before {l : List Element} (h : r ∈ l) (e : Element) : ∃ i front back,
    l.idxOf? r = some i ∧ l = front ++ r :: back ∧ placed l e (some i) = front ++ e :: r :: back := by
  cases hi : l.idxOf? r with
  | none => exact absurd h (List.idxOf?_eq_none_iff.mp hi)
  | some i =>
    obtain ⟨hlt, hget, -⟩ := List.idxOf?_eq_some_iff.mp hi
    have hdrop : l.drop i = r :: l.drop (i + 1) := by rw [List.drop_eq_getElem_cons hlt, hget]
    refine ⟨i, l.take i, l.drop (i + 1), rfl, ?_, ?_⟩
    · rw [← hdrop, List.take_append_drop]
    · rw [placed, hdrop]

namespace Forest

variable (hd : d.Forest)
include hd

theorem insertBefore_of_parent (e : Element) (hr : d.parent? r = some p) : ∃ i front back,
    d.children p = front ++ r :: back ∧ placed (d.children p) e (some i) = front ++ e :: r :: back ∧
      d.insertBefore e r = (true, (d.attach p e (some i)).load e) := by
  obtain ⟨i, front, back, hi, hsplit, hplaced⟩ := exists_placed_before (hd.links.mpr hr) e
  have hparent : (d.node? r).bind (·.parent) = some p := hr
  have hindex : (d.node? p).bind (·.children.idxOf? r) = some i := by
    rw [children] at hi
    cases hn : d.node? p with
    | none =>
      rw [hn] at hi
      cases hi
    | some n =>
      rw [hn] at hi
      exact hi
  refine ⟨i, front, back, hsplit, hplaced, ?_⟩
  rw [insertBefore, hparent]
  simp only [hindex]

omit hd in
theorem insertBefore_of_none (e : Element) (hr : d.parent? r = none) : d.insertBefore e r = (false, d) := by
  have hparent : (d.node? r).bind (·.parent) = none := hr
  rw [insertBefore, hparent]

theorem load (e : Element) : (d.load e).Forest := by
  refine hd.congr (nodes_load d e) ?_ ?_ <;>
    · unfold Document.load
      split <;> rfl

theorem insertBefore (he : d.Loose e src) (hout : ∀ p, d.parent? r = some p → p ∉ d.below e) :
    (d.insertBefore e r).2.Forest := by
  cases hr : d.parent? r with
  | none =>
    rw [insertBefore_of_none e hr]
    exact hd
  | some p =>
    obtain ⟨i, front, back, -, -, hinsert⟩ := hd.insertBefore_of_parent e hr
    rw [hinsert]
    exact (hd.attach he (mem_keys_of_mem_children (hd.links.mpr hr)) (hout p hr) (some i)).load e

theorem append (he : d.Loose e src) (hout : p ∉ d.below e) : (d.append p e).2.Forest := by
  by_cases hp : p ∈ d.keys
  · rw [append_of_mem d e hp]
    exact (hd.attach he hp hout none).load e
  · rw [append_of_notMem d e hp]
    exact hd

/-- A script of the page itself is put at the end of the body. -/
theorem addPageScript (src : String) : (d.addPageScript src).2.Forest := by
  have hnew := hd.createScript src
  have hloose : (d.createScript src).2.Loose d.next src := ⟨[], node?_create_self _ hd.fresh.next_notMem⟩
  have hbody : d.body ∈ (d.createScript src).2.keys := hnew.body_mem
  have hout : d.body ∉ (d.createScript src).2.below d.next := by
    intro hmem
    have hne : d.body ≠ d.next := Nat.ne_of_lt (hd.fresh _ hd.body_mem)
    rcases hnew.under_child (hnew.mem_below.mp hmem) with heq | ⟨c, hc, -⟩
    · exact hne heq
    · rw [Document.createScript, children_create hd.fresh.next_notMem, children,
        node?_eq_none.mpr hd.fresh.next_notMem] at hc
      cases hc
  exact hnew.attach hloose hbody hout none

end Forest

/-! ## Surgery -/

/-- What becomes of a new page: scripts are made, come with the page and are taken out, and loose ones are put in at
places that are not below them. Sources that have been loaded may be taken at any time. -/
inductive Reached : Document → Prop
  | build (withHead : Bool) : Reached (build withHead)
  | createScript {d : Document} (h : Reached d) (src : String) : Reached (d.createScript src).2
  | addPageScript {d : Document} (h : Reached d) (src : String) : Reached (d.addPageScript src).2
  | remove {d : Document} {e : Element} {src : String} (h : Reached d) (he : d.src? e = some src) :
    Reached (d.remove e)
  | insertBefore {d : Document} {e r : Element} {src : String} (h : Reached d) (he : d.Loose e src)
    (hout : ∀ p, d.parent? r = some p → p ∉ d.below e) : Reached (d.insertBefore e r).2
  | append {d : Document} {e p : Element} {src : String} (h : Reached d) (he : d.Loose e src)
    (hout : p ∉ d.below e) : Reached (d.append p e).2
  | takeLoads {d : Document} (h : Reached d) : Reached d.takeLoads.2

/-- **A document stays a forest**, whatever surgery is done. -/
theorem Reached.forest (h : Reached d) : d.Forest := by
  induction h with
  | build withHead => exact .build withHead
  | createScript _ src ih => exact ih.createScript src
  | addPageScript _ src ih => exact ih.addPageScript src
  | remove _ he ih => exact ih.remove he
  | insertBefore _ he hout ih => exact ih.insertBefore he hout
  | append _ he hout ih => exact ih.append he hout
  | takeLoads _ ih => exact ih.congr rfl rfl rfl

/-- How a document is walked: as a stack that holds the root is worked off, each element that is in the tree once, and
before its children. -/
structure Walked (d : Document) : Prop where
  order : ∀ order, d.Visits [root] order ↔ order = d.walk
  nodup : d.walk.Nodup
  complete : ∀ e, e ∈ d.walk ↔ d.isConnected e = true
  connected : ∀ e, d.isConnected e = true ↔ d.Under root e
  below : ∀ e x, x ∈ d.below e ↔ d.Under e x
  preorder : ∀ e, d.below e = e :: (d.children e).flatMap d.below

/-- What it comes to, if a script is put before an element. -/
structure InsertedBefore (d : Document) (e r : Element) (src : String) : Prop where
  succeeds : (d.insertBefore e r).1 = true ↔ ∃ p, d.parent? r = some p
  fails : (d.insertBefore e r).1 = false → (d.insertBefore e r).2 = d
  order : ∀ p, d.parent? r = some p → ∀ x, p ∈ d.below x → ∃ front back,
    d.below x = front ++ r :: back ∧ (d.insertBefore e r).2.below x = front ++ d.below e ++ r :: back
  others : ∀ x, (∀ p, d.parent? r = some p → p ∉ d.below x) → (d.insertBefore e r).2.below x = d.below x
  loaded : (d.insertBefore e r).2.loads =
    d.loads ++ if (d.insertBefore e r).2.isConnected e then [src] else []

/-- What it comes to, if a script is put behind the children of an element. -/
structure Appended (d : Document) (e p : Element) (src : String) : Prop where
  succeeds : (d.append p e).1 = true ↔ (d.node? p).isSome
  fails : (d.append p e).1 = false → (d.append p e).2 = d
  order : (d.node? p).isSome → ∀ x, p ∈ d.below x → ∃ front back,
    d.below x = front ++ d.below p ++ back ∧ (d.append p e).2.below x = front ++ d.below p ++ d.below e ++ back
  others : ∀ x, p ∉ d.below x → (d.append p e).2.below x = d.below x
  loaded : (d.append p e).2.loads = d.loads ++ if (d.append p e).2.isConnected e then [src] else []

/-- What it comes to, if a script is taken out. -/
structure Removed (d : Document) (e : Element) : Prop where
  gone : ∀ x, (d.remove e).node? x = none ↔ d.node? x = none ∨ x ∈ d.below e
  kept : ∀ x, x ∉ d.below e → (d.remove e).src? x = d.src? x ∧ (d.remove e).parent? x = d.parent? x
  order : ∀ x, x ∉ d.below e → (d.remove e).below x = (d.below x).filter (· ∉ d.below e)
  walked : (d.remove e).walk = d.walk.filter (· ∉ d.below e)
  cleared : ∀ d', Clears (d.severed e) (d.children e).reverse d' ↔ d' = d.remove e
  loaded : (d.remove e).loads = d.loads

namespace Forest

variable (hd : d.Forest)
include hd

theorem walked : d.Walked where
  order := fun order => by rw [hd.visits_iff, List.flatMap_cons, List.flatMap_nil, List.append_nil, walk]
  nodup := hd.nodup_below root
  complete := fun e => by rw [hd.isConnected_iff, walk, hd.mem_below]
  connected := fun _ => hd.isConnected_iff
  below := fun _ _ => hd.mem_below
  preorder := hd.below_eq

/-- A loose script is not in the tree. -/
theorem not_connected_of_loose (he : d.Loose e src) : d.isConnected e = false := by
  rw [Bool.eq_false_iff, Ne, hd.isConnected_iff]
  intro h
  rcases h.cases_parent with heq | ⟨p, hp, -⟩
  · exact (hd.script_ne he.src?_eq).1 heq
  · cases he.parent?_eq.symm.trans hp

/-- **A script goes immediately before the element, with all that is below it.** -/
theorem insertedBefore (he : d.Loose e src) (hout : ∀ p, d.parent? r = some p → p ∉ d.below e) :
    d.InsertedBefore e r src := by
  cases hr : d.parent? r with
  | none =>
    -- an element without a parent has no place before it
    have hinsert := insertBefore_of_none e hr
    refine ⟨?_, ?_, ?_, ?_, ?_⟩
    · simp [hinsert, hr]
    · exact fun _ => by rw [hinsert]
    · exact fun p hp => by cases hr.symm.trans hp
    · exact fun x _ => by rw [hinsert]
    · simp [hinsert, hd.not_connected_of_loose he]
  | some p =>
    obtain ⟨i, front, back, hsplit, hplaced, hinsert⟩ := hd.insertBefore_of_parent e hr
    have hp := mem_keys_of_mem_children (hd.links.mpr hr)
    have hbelow : (d.insertBefore e r).2.below = (d.attach p e (some i)).below := by
      rw [hinsert]
      exact below_of_nodes (nodes_load _ e)
    refine ⟨?_, ?_, ?_, ?_, ?_⟩
    · simp [hinsert, hr]
    · exact fun hfalse => by simp [hinsert] at hfalse
    · intro p' hp' x hx
      -- the subtree of the parent is opened up where the element begins
      obtain rfl := Option.some.inj (hr.symm.trans hp')
      obtain ⟨before, behind, hold, hnew⟩ := hd.below_attach he hp (hout p hr) (some i) hx
      refine ⟨before ++ p :: front.flatMap d.below,
        (d.children r).flatMap d.below ++ back.flatMap d.below ++ behind, ?_, ?_⟩
      · rw [hold, hd.below_split hsplit, hd.below_eq r]
        simp
      · rw [hbelow, hnew, hplaced, List.flatMap_append, List.flatMap_cons, List.flatMap_cons, hd.below_eq r]
        simp
    · intro x hx
      rw [hbelow]
      exact hd.below_attach_of_notMem he hp (hout p hr) (some i) (hx p hr)
    · rw [hinsert]
      exact loads_load_of ((src?_attach d p e (some i) e).trans he.src?_eq)

/-- **A script goes behind the last descendant of its parent, with all that is below it.** -/
theorem appended (he : d.Loose e src) (hout : p ∉ d.below e) : d.Appended e p src := by
  have hsome : (d.node? p).isSome ↔ p ∈ d.keys := by
    rw [← not_iff_not, ← node?_eq_none, Option.not_isSome_iff_eq_none]
  by_cases hp : p ∈ d.keys
  · have happend := append_of_mem d e hp
    have hbelow : (d.append p e).2.below = (d.attach p e none).below := by
      rw [happend]
      exact below_of_nodes (nodes_load _ e)
    refine ⟨?_, ?_, ?_, ?_, ?_⟩
    · simp [happend, hsome, hp]
    · exact fun hfalse => by simp [happend] at hfalse
    · intro _ x hx
      obtain ⟨before, behind, hold, hnew⟩ := hd.below_attach he hp hout none hx
      refine ⟨before, behind, hold, ?_⟩
      rw [hbelow, hnew, hd.below_eq p, placed, List.flatMap_append]
      simp
    · intro x hx
      rw [hbelow]
      exact hd.below_attach_of_notMem he hp hout none hx
    · rw [happend]
      exact loads_load_of ((src?_attach d p e none e).trans he.src?_eq)
  · -- an element that is not on the page takes nothing
    have happend := append_of_notMem d e hp
    refine ⟨?_, ?_, ?_, ?_, ?_⟩
    · simp [happend, hsome, hp]
    · exact fun _ => by rw [happend]
    · exact fun h => absurd (hsome.mp h) hp
    · exact fun x _ => by rw [happend]
    · simp [happend, hd.not_connected_of_loose he]

/-- **A script is taken out with all that is below it, and nothing else.** -/
theorem removed (he : d.src? e = some src) : d.Removed e := by
  refine ⟨?_, ?_, fun x => hd.below_remove he, hd.below_remove he (hd.notMem_below_script he).1,
    fun _ => hd.clears_iff he, ?_⟩
  · intro x
    rw [hd.node?_remove he]
    by_cases hx : x ∈ d.below e <;> simp [hx]
  · intro x hx
    rw [hd.parent?_remove he, if_neg hx, src?, hd.node?_remove he, if_neg hx, src?]
    refine ⟨?_, rfl⟩
    cases d.node? x with
    | none => rfl
    | some n => obtain ⟨_ | _ | _ | _, parent, children⟩ := n <;> rfl
  · obtain ⟨nodes, hremove⟩ := d.remove_eq e
    rw [hremove]

end Forest

/-- **Surgery on documents.** After any surgery, an element with a parent is a child once, and of that one; to walk the
document comes to an end, and lists each element of the tree once, before its children. To put a loose script, at a
place that is not below it, before another or behind the children of another does so exactly if that one has a parent,
or is there, and nothing otherwise; the script stands with all that is below it where it was put, and all others keep
their order; and its source is loaded once if it is in the tree. To take out a script takes out what is below it, and
the rest keeps its order; it comes to an end as well. -/
theorem surgery (h : Reached d) :
    (∀ e p, d.parent? e = some p → e ∈ d.children p ∧ (d.nodes.flatMap (·.2.children)).count e = 1) ∧
    d.Walked ∧
    (∀ e r src, d.Loose e src → (∀ p, d.parent? r = some p → p ∉ d.below e) → d.InsertedBefore e r src) ∧
    (∀ e p src, d.Loose e src → p ∉ d.below e → d.Appended e p src) ∧
    ∀ e src, d.src? e = some src → d.Removed e := by
  have hd := h.forest
  exact ⟨fun e p hp => ⟨hd.links.mpr hp, hd.count_children hp⟩, hd.walked, fun e r src => hd.insertedBefore,
    fun e p src => hd.appended, fun e src => hd.removed⟩

/-- A script with another one below it is put before one of the page, and taken out again. -/
theorem surgery_nested :
    let d := ((((new.addPageScript "app").2.createScript "outer").2.createScript "inner").2.append 4 5).2
    let shown := (d.insertBefore 4 3).2
    Reached d ∧ d.Loose 4 "outer" ∧ d.InsertedBefore 4 3 "outer" ∧
      (shown.scriptSrcs = ["outer", "inner", "app"] ∧ shown.loads = ["outer"]) ∧
      shown.Removed 4 ∧ (shown.remove 4).scriptSrcs = ["app"] := by
  intro d shown
  let made := (((new.addPageScript "app").2.createScript "outer").2.createScript "inner").2
  have hmade : Reached made := .createScript (.createScript (.addPageScript (.build true) "app") "outer") "inner"
  have hinner : made.Loose 5 "inner" := ⟨[], rfl⟩
  have hd : Reached d := hmade.append hinner (by decide)
  have hdoc : d = ⟨[(0, ⟨.page, none, [1, 2]⟩), (1, ⟨.head, some 0, []⟩), (2, ⟨.body, some 0, [3]⟩),
      (3, ⟨.script "app", some 2, []⟩), (4, ⟨.script "outer", none, [5]⟩), (5, ⟨.script "inner", some 4, []⟩)],
      6, some 1, 2, []⟩ := rfl
  have hloose : d.Loose 4 "outer" := by
    rw [hdoc]
    exact ⟨[5], rfl⟩
  have hout : ∀ p, d.parent? 3 = some p → p ∉ d.below 4 := by
    rw [hdoc]
    intro p hp
    obtain rfl := Option.some.inj (hp : some 2 = some p)
    decide
  have hshown : Reached shown := hd.insertBefore hloose hout
  have hpage : shown = ⟨[(0, ⟨.page, none, [1, 2]⟩), (1, ⟨.head, some 0, []⟩), (2, ⟨.body, some 0, [4, 3]⟩),
      (3, ⟨.script "app", some 2, []⟩), (4, ⟨.script "outer", some 2, [5]⟩), (5, ⟨.script "inner", some 4, []⟩)],
      6, some 1, 2, ["outer"]⟩ := by
    show (d.insertBefore 4 3).2 = _
    rw [hdoc]
    rfl
  have hscript : shown.src? 4 = some "outer" := by
    rw [hpage]
    rfl
  obtain ⟨-, -, hinsert, -, -⟩ := surgery hd
  obtain ⟨-, -, -, -, hremove⟩ := surgery hshown
  refine ⟨hd, hloose, hinsert 4 3 "outer" hloose hout, ?_, hremove 4 "outer" hscript, ?_⟩
  · rw [hpage]
    decide
  · rw [hpage]
    decide

end Hostlink.Document
