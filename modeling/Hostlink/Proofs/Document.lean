import Hostlink.Document
import Mathlib.Data.List.Induction
import Mathlib.Data.List.Perm.Basic
import Mathlib.Data.List.Nodup
import Mathlib.Tactic.ByContra

/-!
# Pages with scripts in head and body

A page whose head and body hold scripts and nothing else shows the scripts of its head, then those of
its body.

* `Document.Flat` — such a page, with the scripts of its head and of its body;
* `Tree.scriptSrcs_eq`, `Tree.firstScript_eq`, `Flat.scriptCount_eq` — what is seen of it.
-/

namespace Hostlink.Document

variable {d : Document}

/-! ## Single elements -/

/-- The numbers of all elements, in the tree or outside. -/
def keys (d : Document) : List Element := d.nodes.map Prod.fst

theorem node?_eq_none {e : Element} : d.node? e = none ↔ e ∉ d.keys := by
  rw [node?, List.lookup_eq_none_iff, keys, List.mem_map]
  constructor
  · rintro h ⟨p, hp, rfl⟩
    simpa using h p hp
  · rintro h p hp
    simp only [bne_iff_ne]
    exact fun he => h ⟨p, hp, he.symm⟩

theorem mem_keys_of_node? {e : Element} {n : Node} (h : d.node? e = some n) : e ∈ d.keys := by
  by_contra hn
  rw [node?_eq_none.mpr hn] at h
  cases h

@[simp] theorem keys_update (d : Document) (e : Element) (f : Node → Node) :
    (d.update e f).keys = d.keys := by
  simp only [keys, update, List.map_map]
  refine List.map_congr_left fun p _ => ?_
  simp only [Function.comp_apply]
  split <;> rfl

theorem node?_update (d : Document) (e : Element) (f : Node → Node) (x : Element) :
    (d.update e f).node? x = if x = e then (d.node? x).map f else d.node? x := by
  simp only [node?, update]
  induction d.nodes with
  | nil => simp
  | cons p ps ih =>
    obtain ⟨k, n⟩ := p
    simp only [List.map_cons]
    by_cases hx : x = k
    · subst hx
      by_cases he : x = e <;> simp [he]
    · have hx' : (x == k) = false := by simpa using hx
      have hhead : ∀ m, List.lookup x ((k, m) :: ps) = List.lookup x ps := fun m => by
        simp [List.lookup_cons, hx']
      rw [hhead]
      by_cases he : k = e
      · rw [if_pos he, List.lookup_cons, hx']; exact ih
      · rw [if_neg he, List.lookup_cons, hx']; exact ih

theorem node?_create_self (tag : Tag) (hfresh : d.next ∉ d.keys) :
    (d.create tag).2.node? d.next = some ⟨tag, none, []⟩ := by
  have h : d.nodes.lookup d.next = none := node?_eq_none.mpr hfresh
  simp [create, node?, List.lookup_append, h]

theorem node?_create_of_ne (d : Document) (tag : Tag) {x : Element} (hx : x ≠ d.next) :
    (d.create tag).2.node? x = d.node? x := by
  have h : (x == d.next) = false := by simpa using hx
  simp [create, node?, List.lookup_append, List.lookup_cons, h]

@[simp] theorem keys_create (d : Document) (tag : Tag) :
    (d.create tag).2.keys = d.keys ++ [d.next] := by simp [create, keys]

/-- Elements that are taken out are gone, and the others are as they were. -/
theorem lookup_filter (nodes : List (Element × Node)) (p : Element → Bool) (x : Element) :
    (nodes.filter fun q => p q.1).lookup x = if p x then nodes.lookup x else none := by
  induction nodes with
  | nil => simp
  | cons q qs ih =>
    obtain ⟨k, n⟩ := q
    simp only [List.filter_cons]
    by_cases hx : x = k
    · subst hx
      by_cases hp : p x
      · simp [hp]
      · simpa [hp] using ih
    · have hx' : (x == k) = false := by simpa using hx
      by_cases hp : p k <;> simp [List.lookup_cons, hp, hx', ih]

/-! ## The tree -/

section

variable {d' : Document} (h : d'.nodes = d.nodes)
include h

theorem walkFrom_of_nodes (depth : Nat) (e : Element) : d'.walkFrom depth e = d.walkFrom depth e := by
  induction depth generalizing e with
  | zero => rfl
  | succ depth ih =>
    have hbelow : d'.walkFrom depth = d.walkFrom depth := funext ih
    simp only [walkFrom, node?, h, hbelow]

/-- Which scripts are in the tree is a matter of the elements alone. -/
theorem scriptSrcs_of_nodes : d'.scriptSrcs = d.scriptSrcs := by
  have hsrc : d'.src? = d.src? := funext fun e => by rw [src?, src?, node?, node?, h]
  rw [scriptSrcs, scriptSrcs, hsrc, walk, walk, below, below, walkFrom_of_nodes h, h]

end

/-- To take out an element changes nothing but the elements. -/
theorem remove_eq (d : Document) (e : Element) : ∃ nodes, d.remove e = { d with nodes := nodes } := by
  unfold remove
  split
  · exact ⟨d.nodes, rfl⟩
  · split
    · exact ⟨d.nodes, rfl⟩
    · dsimp only
      split <;> exact ⟨_, rfl⟩

/-! ## Fresh numbers -/

/-- No element has the number of the next one, or a later one. -/
def Fresh (d : Document) : Prop := ∀ e ∈ d.keys, e < d.next

namespace Fresh

variable (hd : d.Fresh)
include hd

theorem next_notMem : d.next ∉ d.keys := fun h => Nat.lt_irrefl _ (hd _ h)

theorem createScript (src : String) : (d.createScript src).2.Fresh := by
  intro e he
  rw [Document.createScript, keys_create] at he
  rcases List.mem_append.mp he with he | he
  · exact Nat.lt_succ_of_lt (hd e he)
  · rw [List.mem_singleton.mp he]
    exact Nat.lt_succ_self _

theorem attach (parent child : Element) (place : Option Nat) : (d.attach parent child place).Fresh := by
  intro e he
  rw [Document.attach, keys_update, keys_update] at he
  exact hd e he

theorem load (e : Element) : (d.load e).Fresh := by
  unfold Document.load
  split <;> exact hd

theorem remove (e : Element) : (d.remove e).Fresh := by
  have hfilter : ∀ p : Element × Node → Bool, ({ d with nodes := d.nodes.filter p } : Document).Fresh := by
    intro p x hx
    obtain ⟨q, hq, rfl⟩ := List.mem_map.mp hx
    exact hd _ (List.mem_map_of_mem (List.mem_filter.mp hq).1)
  unfold Document.remove
  split
  · exact hd
  · split
    · exact hd
    · dsimp only
      split
      · intro x hx
        rw [keys_update] at hx
        exact hfilter _ x hx
      · exact hfilter _

/-- A new script that is taken out again leaves nothing but its number. -/
theorem remove_createScript (hroot : d.next ≠ root) (src : String) :
    (d.createScript src).2.remove d.next = { d with next := d.next + 1 } := by
  have hnode : (d.createScript src).2.node? d.next = some ⟨.script src, none, []⟩ :=
    node?_create_self _ hd.next_notMem
  have hbelow : (d.createScript src).2.below d.next = [d.next] := by
    unfold below
    cases (d.createScript src).2.nodes.length with
    | zero => rfl
    | succ depth => simp [walkFrom, hnode]
  have hkeep : d.nodes.filter (fun p => ! [d.next].contains p.1) = d.nodes := by
    refine List.filter_eq_self.mpr fun p hp => ?_
    have hne : p.1 ≠ d.next := fun h => hd.next_notMem (h ▸ List.mem_map_of_mem hp)
    simpa using hne
  have hnodes : (d.createScript src).2.nodes.filter (fun p => ! [d.next].contains p.1) = d.nodes := by
    rw [Document.createScript, create, List.filter_append, hkeep]
    simp
  simp only [Document.remove, if_neg hroot, hnode, hbelow, hnodes]
  rfl

end Fresh

/-! ## Flat pages -/

/-- The tree of a page whose head holds the scripts `hs`, and its body the scripts `bs`, and nothing
else. -/
structure Tree (d : Document) (hs bs : List Element) : Prop where
  size : 2 ≤ d.nodes.length
  root_eq : d.node? root = some ⟨.page, none, d.head.toList ++ [d.body]⟩
  head_eq : ∀ h, d.head = some h → d.node? h = some ⟨.head, some root, hs⟩
  headless : d.head = none → hs = []
  body_eq : d.node? d.body = some ⟨.body, some root, bs⟩
  script_head : ∀ e ∈ hs, ∃ h src, d.head = some h ∧ d.node? e = some ⟨.script src, some h, []⟩
  script_body : ∀ e ∈ bs, ∃ src, d.node? e = some ⟨.script src, some d.body, []⟩

/-- A page with such a tree, and nothing outside of it. -/
structure Flat (d : Document) (hs bs : List Element) : Prop extends Tree d hs bs where
  keys_perm : d.keys.Perm (root :: (d.head.toList ++ d.body :: (hs ++ bs)))
  keys_nodup : d.keys.Nodup
  fresh : d.Fresh

namespace Tree

variable {hs bs : List Element} (hd : d.Tree hs bs)
include hd

/-- Only the elements of the tree count. -/
theorem congr {d' : Document} (hsize : 2 ≤ d'.nodes.length) (hhead : d'.head = d.head)
    (hbody : d'.body = d.body) (hnode : ∀ e ∈ d.keys, d'.node? e = d.node? e) : d'.Tree hs bs := by
  have hkeep : ∀ {e n}, d.node? e = some n → d'.node? e = some n := fun h =>
    (hnode _ (mem_keys_of_node? h)).trans h
  refine ⟨hsize, ?_, ?_, ?_, ?_, ?_, ?_⟩
  · rw [hhead, hbody]; exact hkeep hd.root_eq
  · rw [hhead]; exact fun h hh => hkeep (hd.head_eq h hh)
  · rw [hhead]; exact hd.headless
  · rw [hbody]; exact hkeep hd.body_eq
  · intro e he
    obtain ⟨h, src, hh, hn⟩ := hd.script_head e he
    exact ⟨h, src, hhead.trans hh, hkeep hn⟩
  · intro e he
    obtain ⟨src, hn⟩ := hd.script_body e he
    exact ⟨src, hbody ▸ hkeep hn⟩

/-! ## What is seen -/

/-- Scripts have a source. -/
theorem src_of_mem {e : Element} (he : e ∈ hs ++ bs) : ∃ src, d.src? e = some src := by
  rcases List.mem_append.mp he with he | he
  · obtain ⟨h, src, -, hn⟩ := hd.script_head e he
    exact ⟨src, by simp [src?, hn]⟩
  · obtain ⟨src, hn⟩ := hd.script_body e he
    exact ⟨src, by simp [src?, hn]⟩

theorem src_root : d.src? root = none := by simp [src?, hd.root_eq]

theorem src_head {h : Element} (hh : d.head = some h) : d.src? h = none := by
  simp [src?, hd.head_eq h hh]

theorem src_body : d.src? d.body = none := by simp [src?, hd.body_eq]

theorem walkFrom_script {e : Element} (he : e ∈ hs ++ bs) (depth : Nat) :
    d.walkFrom depth e = [e] := by
  obtain ⟨n, hn, hc⟩ : ∃ n, d.node? e = some n ∧ n.children = [] := by
    rcases List.mem_append.mp he with he | he
    · obtain ⟨h, src, -, hn⟩ := hd.script_head e he
      exact ⟨_, hn, rfl⟩
    · obtain ⟨src, hn⟩ := hd.script_body e he
      exact ⟨_, hn, rfl⟩
  cases depth with
  | zero => rfl
  | succ depth => simp [walkFrom, hn, hc]

theorem flatMap_walkFrom {es : List Element} (hes : ∀ e ∈ es, e ∈ hs ++ bs) (depth : Nat) :
    es.flatMap (d.walkFrom depth) = es := by
  induction es with
  | nil => rfl
  | cons e es ih =>
    rw [List.flatMap_cons, hd.walkFrom_script (hes e List.mem_cons_self),
      ih fun e he => hes e (List.mem_cons_of_mem _ he)]
    rfl

/-- The head comes with its scripts, then the body with its own. -/
theorem walk_eq :
    d.walk = root :: (d.head.toList.flatMap (fun h => h :: hs) ++ d.body :: bs) := by
  obtain ⟨depth, hdepth⟩ : ∃ depth, d.nodes.length = depth + 2 :=
    ⟨d.nodes.length - 2, by have := hd.size; omega⟩
  have hscripts : ∀ {es : List Element}, (∀ e ∈ es, e ∈ hs ++ bs) →
      es.flatMap (d.walkFrom depth) = es := fun hes => hd.flatMap_walkFrom hes depth
  have hbody : d.walkFrom (depth + 1) d.body = d.body :: bs := by
    simp only [walkFrom, hd.body_eq]
    rw [hscripts fun e he => List.mem_append_right _ he]
  have hhead : ∀ h, d.head = some h → d.walkFrom (depth + 1) h = h :: hs := by
    intro h hh
    simp only [walkFrom, hd.head_eq h hh]
    rw [hscripts fun e he => List.mem_append_left _ he]
  rw [walk, below, hdepth, walkFrom, hd.root_eq]
  simp only [List.flatMap_append, List.flatMap_cons, List.flatMap_nil, hbody, List.append_nil]
  cases hh : d.head with
  | none => rfl
  | some h => simp [hhead h hh]

/-- The walk leaves out nothing, as far as scripts go. -/
theorem walk_filterMap {α : Type} (f : Element → Option α) (hroot : f root = none)
    (hhead : ∀ h, d.head = some h → f h = none) (hbody : f d.body = none) :
    d.walk.filterMap f = (hs ++ bs).filterMap f := by
  rw [hd.walk_eq]
  cases hh : d.head with
  | none => simp [hroot, hbody, hd.headless hh]
  | some h => simp [hroot, hbody, hhead h hh]

/-- Sources are those of the scripts in the head, then of those in the body. -/
theorem scriptSrcs_eq : d.scriptSrcs = (hs ++ bs).filterMap d.src? :=
  hd.walk_filterMap d.src? hd.src_root (fun _ => hd.src_head) hd.src_body

theorem firstScript_eq : d.firstScript = (hs ++ bs).head? := by
  have hfind : ∀ (l : List Element) (p : Element → Bool), l.find? p = (l.filterMap (Option.guard p)).head? := by
    intro l p
    rw [List.filterMap_eq_filter, List.head?_filter]
  have hall : (hs ++ bs).filter (fun e => (d.src? e).isSome) = hs ++ bs := by
    refine List.filter_eq_self.mpr fun e he => ?_
    obtain ⟨src, hsrc⟩ := hd.src_of_mem he
    simp [hsrc]
  rw [firstScript, hfind, hd.walk_filterMap (Option.guard fun e => (d.src? e).isSome),
    List.filterMap_eq_filter, hall]
  · simp [Option.guard, hd.src_root]
  · exact fun h hh => by simp [Option.guard, hd.src_head hh]
  · simp [Option.guard, hd.src_body]

/-- Scripts are in the tree. -/
theorem isConnected {e : Element} (he : e ∈ hs ++ bs) : d.isConnected e = true := by
  obtain ⟨depth, hdepth⟩ : ∃ depth, d.nodes.length + 1 = depth + 3 :=
    ⟨d.nodes.length - 2, by have := hd.size; omega⟩
  rw [Document.isConnected, hdepth]
  rcases List.mem_append.mp he with he | he
  · obtain ⟨h, src, hh, hn⟩ := hd.script_head e he
    simp [reachesRoot, hn, hd.head_eq h hh]
  · obtain ⟨src, hn⟩ := hd.script_body e he
    simp [reachesRoot, hn, hd.body_eq]

end Tree

namespace Flat

variable {hs bs : List Element} (hd : d.Flat hs bs)
include hd

theorem nodup : (root :: (d.head.toList ++ d.body :: (hs ++ bs))).Nodup :=
  hd.keys_perm.nodup_iff.mp hd.keys_nodup

theorem next_fresh : d.next ∉ d.keys := hd.fresh.next_notMem

theorem mem_keys {e : Element} : e ∈ d.keys ↔ e ∈ root :: (d.head.toList ++ d.body :: (hs ++ bs)) :=
  hd.keys_perm.mem_iff

theorem congr {d' : Document} (hnodes : d'.nodes = d.nodes) (hnext : d.next ≤ d'.next)
    (hhead : d'.head = d.head) (hbody : d'.body = d.body) : d'.Flat hs bs := by
  have hkeys : d'.keys = d.keys := by rw [keys, keys, hnodes]
  refine ⟨hd.toTree.congr (hnodes ▸ hd.size) hhead hbody fun e _ => by rw [node?, node?, hnodes],
    ?_, hkeys ▸ hd.keys_nodup, fun e he => Nat.lt_of_lt_of_le (hd.fresh e (hkeys ▸ he)) hnext⟩
  rw [hkeys, hhead, hbody]
  exact hd.keys_perm

/-- Only scripts have a source. -/
theorem filterMap_src :
    (root :: (d.head.toList ++ d.body :: (hs ++ bs))).filterMap d.src? = (hs ++ bs).filterMap d.src? := by
  have hhead : d.head.toList.filterMap d.src? = [] := by
    cases hh : d.head with
    | none => rfl
    | some h => simp [hd.src_head hh]
  simp [List.filterMap_append, hd.src_root, hd.src_body, hhead]

theorem scriptCount_eq : d.scriptCount = (hs ++ bs).length := by
  have hcount : d.scriptCount = (d.keys.filterMap d.src?).length := by
    rw [scriptCount, keys, List.filterMap_map, List.length_filterMap_eq_countP, List.countP_eq_length_filter]
    rfl
  have hsome : ∀ es : List Element, (∀ e ∈ es, ∃ src, d.src? e = some src) →
      (es.filterMap d.src?).length = es.length := by
    intro es hes
    rw [List.length_filterMap_eq_countP, List.countP_eq_length]
    intro e he
    obtain ⟨src, hsrc⟩ := hes e he
    simp [hsrc]
  rw [hcount, (hd.keys_perm.filterMap d.src?).length_eq, hd.filterMap_src,
    hsome _ fun e he => hd.src_of_mem he]

/-! ## Who is who -/

theorem body_ne_root : d.body ≠ root := by
  intro h
  have := hd.nodup
  simp [h] at this

theorem head_ne {h : Element} (hh : d.head = some h) : h ≠ root ∧ h ≠ d.body := by
  have := hd.nodup
  rw [hh] at this
  constructor
  · rintro rfl
    simp at this
  · rintro rfl
    simp at this

theorem script_ne {e : Element} (he : e ∈ hs ++ bs) :
    e ≠ root ∧ e ≠ d.body ∧ ∀ h, d.head = some h → e ≠ h := by
  obtain ⟨src, hsrc⟩ := hd.src_of_mem he
  refine ⟨?_, ?_, ?_⟩
  · rintro rfl
    cases hsrc.symm.trans hd.src_root
  · rintro rfl
    cases hsrc.symm.trans hd.src_body
  · rintro h hh rfl
    cases hsrc.symm.trans (hd.src_head hh)

theorem scripts_nodup : (hs ++ bs).Nodup := by
  have h : (d.head.toList ++ d.body :: (hs ++ bs)).Nodup := hd.nodup.of_cons
  exact (List.nodup_append.mp h).2.1.of_cons

theorem ne_next {e : Element} (he : e ∈ d.keys) : e ≠ d.next := Nat.ne_of_lt (hd.fresh e he)

theorem root_mem : root ∈ d.keys := mem_keys_of_node? hd.root_eq

theorem body_mem : d.body ∈ d.keys := mem_keys_of_node? hd.body_eq

theorem head_mem {h : Element} (hh : d.head = some h) : h ∈ d.keys :=
  mem_keys_of_node? (hd.head_eq h hh)

theorem script_mem {e : Element} (he : e ∈ hs ++ bs) : e ∈ d.keys :=
  hd.mem_keys.mpr (List.mem_cons_of_mem _ (List.mem_append_right _ (List.mem_cons_of_mem _ he)))

end Flat

end Hostlink.Document
