import Hostlink.Proofs.Document.Forest
import Hostlink.Proofs.Document.Scripts

/-!
# Forests that change

Scripts are made, put in with all that is below them, and taken out again. The document stays a forest, and the order in
which elements stand changes only where something is put in or taken out.

* `Document.Loose` — a script that has no parent;
* `Forest.createScript`, `Forest.attach`, `Forest.remove` — **a forest stays one**;
* `Forest.below_of_not_under`, `Forest.below_change` — what is below an element, if one other has new children;
* `Forest.below_attach`, `Forest.below_remove` — what is below an element after a script was put in or taken out.
-/

namespace Hostlink.Document

variable {d d' : Document} {c e p x : Element} {src : String}

/-! ## Operations on single elements -/

/-- A script that has no parent. -/
def Loose (d : Document) (e : Element) (src : String) : Prop := ∃ cs, d.node? e = some ⟨.script src, none, cs⟩

theorem exists_node_of_mem_keys (h : e ∈ d.keys) : ∃ n, d.node? e = some n := by
  cases hn : d.node? e with
  | none => exact absurd h (node?_eq_none.mp hn)
  | some n => exact ⟨n, rfl⟩

theorem exists_node_of_src? (h : d.src? e = some src) : ∃ n, d.node? e = some n := by
  apply exists_node_of_mem_keys
  by_contra hmem
  rw [src?, node?_eq_none.mpr hmem] at h
  cases h

theorem children_of_nodes (h : d'.nodes = d.nodes) : d'.children = d.children :=
  funext fun x => by rw [children, children, node?, node?, h]

theorem parent?_of_nodes (h : d'.nodes = d.nodes) : d'.parent? = d.parent? :=
  funext fun x => by rw [parent?, parent?, node?, node?, h]

theorem nodes_load (d : Document) (e : Element) : (d.load e).nodes = d.nodes := by
  unfold load
  split <;> rfl

theorem parent?_create (hfresh : d.next ∉ d.keys) (tag : Tag) (x : Element) :
    (d.create tag).2.parent? x = d.parent? x := by
  by_cases hx : x = d.next
  · subst hx
    rw [parent?, parent?, node?_create_self tag hfresh, node?_eq_none.mpr hfresh]
    rfl
  · rw [parent?, parent?, node?_create_of_ne d tag hx]

theorem children_create (hfresh : d.next ∉ d.keys) (tag : Tag) (x : Element) :
    (d.create tag).2.children x = d.children x := by
  by_cases hx : x = d.next
  · subst hx
    rw [children, children, node?_create_self tag hfresh, node?_eq_none.mpr hfresh]
    rfl
  · rw [children, children, node?_create_of_ne d tag hx]

theorem node?_attach (hne : e ≠ p) (place : Option Nat) (x : Element) :
    (d.attach p e place).node? x =
      if x = p then (d.node? x).map fun n => { n with children := placed n.children e place }
      else if x = e then (d.node? x).map fun n => { n with parent := some p } else d.node? x := by
  rw [attach, node?_update, node?_update]
  by_cases hx : x = p
  · rw [if_pos hx, if_pos hx, if_neg (hx.trans_ne hne.symm)]
    cases place <;> rfl
  · rw [if_neg hx, if_neg hx]

theorem parent?_attach (hne : e ≠ p) (he : e ∈ d.keys) (place : Option Nat) (x : Element) :
    (d.attach p e place).parent? x = if x = e then some p else d.parent? x := by
  rw [parent?, node?_attach hne]
  by_cases hx : x = e
  · subst hx
    rw [if_neg hne, if_pos rfl, if_pos rfl]
    obtain ⟨n, hn⟩ := exists_node_of_mem_keys he
    rw [hn]
    rfl
  · rw [if_neg hx, if_neg hx, parent?]
    split <;> cases d.node? x <;> rfl

theorem children_attach (hne : e ≠ p) (hp : p ∈ d.keys) (place : Option Nat) (x : Element) :
    (d.attach p e place).children x = if x = p then placed (d.children x) e place else d.children x := by
  rw [children, node?_attach hne]
  by_cases hx : x = p
  · subst hx
    rw [if_pos rfl, if_pos rfl, children]
    obtain ⟨n, hn⟩ := exists_node_of_mem_keys hp
    rw [hn]
    rfl
  · rw [if_neg hx, if_neg hx, children]
    split <;> cases d.node? x <;> rfl

theorem Loose.mem_keys (he : d.Loose e src) : e ∈ d.keys := by
  obtain ⟨cs, hn⟩ := he
  exact mem_keys_of_node? hn

theorem Loose.parent?_eq (he : d.Loose e src) : d.parent? e = none := by
  obtain ⟨cs, hn⟩ := he
  rw [parent?, hn]
  rfl

theorem Loose.src?_eq (he : d.Loose e src) : d.src? e = some src := by
  obtain ⟨cs, hn⟩ := he
  rw [src?, hn]

/-! ## A forest stays one -/

namespace Forest

/-- Only the elements count, and which of them is the body. -/
theorem congr (hd : d.Forest) (hnodes : d'.nodes = d.nodes) (hnext : d'.next = d.next) (hbody : d'.body = d.body) :
    d'.Forest := by
  have hnode : d'.node? = d.node? := funext fun x => by rw [node?, node?, hnodes]
  have hkeys : d'.keys = d.keys := by rw [keys, keys, hnodes]
  refine ⟨?_, ?_, ?_, ?_, hkeys ▸ hd.keys_nodup, hnode ▸ hd.root_eq, ?_⟩
  · rw [children_of_nodes hnodes, parent?_of_nodes hnodes]
    exact hd.links
  · rw [children_of_nodes hnodes]
    exact hd.distinct
  · rw [children_of_nodes hnodes]
    exact hd.ranked
  · intro x hx
    rw [hnext]
    exact hd.fresh x (hkeys ▸ hx)
  · rw [hnode, hbody]
    exact hd.body_eq

/-- A new page holds its head and its body, and nothing else. -/
theorem build (withHead : Bool) : (Document.build withHead).Forest := by
  have hflat := flat_build withHead
  let inside := (Document.build withHead).head.toList ++ [(Document.build withHead).body]
  have hchildren : ∀ p, (Document.build withHead).children p = if p = root then inside else [] := by
    intro p
    cases withHead <;> rcases p with _ | _ | _ | p <;> rfl
  have hparent : ∀ e, (Document.build withHead).parent? e = if e ∈ inside then some root else none := by
    intro e
    cases withHead <;> rcases e with _ | _ | _ | e <;> rfl
  have hroot : root ∉ inside := by cases withHead <;> decide
  -- two levels, so that the root alone has a rank
  refine ⟨?_, ?_, ⟨fun x => if x = root then 1 else 0, ?_⟩, hflat.fresh, hflat.keys_nodup, ⟨_, hflat.root_eq⟩,
    ⟨_, hflat.body_eq⟩⟩
  · intro p e
    rw [hchildren, hparent]
    by_cases hp : p = root <;> by_cases he : e ∈ inside <;> simp [hp, he, eq_comm]
  · intro p
    rw [hchildren]
    split
    · cases withHead <;> decide
    · exact List.nodup_nil
  · intro p e he
    rw [hchildren] at he
    split at he
    · next hp =>
      have hne : e ≠ root := fun heq => hroot (heq ▸ he)
      simp [hp, hne]
    · cases he

variable (hd : d.Forest)
include hd

theorem parent?_root : d.parent? root = none := by
  obtain ⟨cs, hroot⟩ := hd.root_eq
  rw [parent?, hroot]
  rfl

theorem src?_root : d.src? root = none := by
  obtain ⟨cs, hroot⟩ := hd.root_eq
  rw [src?, hroot]

theorem src?_body : d.src? d.body = none := by
  obtain ⟨cs, hbody⟩ := hd.body_eq
  rw [src?, hbody]

/-- Root and body are no scripts. -/
theorem script_ne (he : d.src? e = some src) : e ≠ root ∧ e ≠ d.body := by
  constructor
  · rintro rfl
    cases he.symm.trans hd.src?_root
  · rintro rfl
    cases he.symm.trans hd.src?_body

theorem body_mem : d.body ∈ d.keys := by
  obtain ⟨cs, hbody⟩ := hd.body_eq
  exact mem_keys_of_node? hbody

/-- A new script is no child, and has none. -/
theorem createScript (src : String) : (d.createScript src).2.Forest := by
  have hfresh := hd.fresh.next_notMem
  have hchildren : (d.createScript src).2.children = d.children := funext (children_create hfresh _)
  have hparent : (d.createScript src).2.parent? = d.parent? := funext (parent?_create hfresh _)
  have hkeep : ∀ {x n}, d.node? x = some n → (d.createScript src).2.node? x = some n := fun {x n} hx =>
    (node?_create_of_ne d _ (Nat.ne_of_lt (hd.fresh x (mem_keys_of_node? hx)))).trans hx
  refine ⟨?_, ?_, ?_, hd.fresh.createScript src, ?_, hd.root_eq.imp fun _ => hkeep, hd.body_eq.imp fun _ => hkeep⟩
  · rw [hchildren, hparent]
    exact hd.links
  · rw [hchildren]
    exact hd.distinct
  · rw [hchildren]
    exact hd.ranked
  · rw [Document.createScript, keys_create, ← List.concat_eq_append, List.nodup_concat]
    exact ⟨hfresh, hd.keys_nodup⟩

theorem ne_of_notMem_below (hout : p ∉ d.below e) : e ≠ p := by
  rintro rfl
  exact hout (hd.mem_below.mpr .self)

section

variable (he : d.Loose e src) (hp : p ∈ d.keys) (hout : p ∉ d.below e)
include he hp hout

/-- The ranks of what is put in stay, and all others are above them. -/
theorem ranked_attach (place : Option Nat) :
    ∃ rank : Element → Nat, ∀ q, ∀ c ∈ (d.attach p e place).children q, rank c < rank q := by
  classical
  have hne := hd.ne_of_notMem_below hout
  obtain ⟨rank, hrank⟩ := hd.ranked
  -- parent and child are both below the script, or neither is
  have hold : ∀ q, ∀ c ∈ d.children q, (d.Under e c ↔ d.Under e q) := by
    intro q c hc
    have hparent := hd.links.mp hc
    refine ⟨fun h => ?_, .child hparent⟩
    rcases h.cases_parent with heq | ⟨q', hq', h⟩
    · cases he.parent?_eq.symm.trans (heq ▸ hparent)
    · obtain rfl := Option.some.inj (hq'.symm.trans hparent)
      exact h
  have hlt : ∀ q, ∀ c ∈ d.children q, (if d.Under e c then rank c else rank c + rank e + 1) <
      if d.Under e q then rank q else rank q + rank e + 1 := by
    intro q c hc
    have := hrank q c hc
    simp only [hold q c hc]
    split <;> omega
  refine ⟨fun x => if d.Under e x then rank x else rank x + rank e + 1, fun q c hc => ?_⟩
  rw [children_attach hne hp] at hc
  split at hc
  · next hq =>
    subst hq
    -- the script itself is the only new child, and its new parent is above all that is below it
    rcases List.mem_cons.mp ((placed_perm _ _ _).mem_iff.mp hc) with rfl | hc
    · have hself : d.Under c c := .self
      have hnot : ¬ d.Under c q := fun h => hout (hd.mem_below.mpr h)
      simp only [if_pos hself, if_neg hnot]
      omega
    · exact hlt q c hc
  · exact hlt q c hc

/-- A loose script is put among the children of an element that is not below it. -/
theorem attach (place : Option Nat) : (d.attach p e place).Forest := by
  have hne := hd.ne_of_notMem_below hout
  have hno : ∀ q, e ∉ d.children q := fun q hmem => by cases he.parent?_eq.symm.trans (hd.links.mp hmem)
  obtain ⟨hroot, hbody⟩ := hd.script_ne he.src?_eq
  -- tags and parents of all others stay
  have hkeep : ∀ {x tag parent cs}, x ≠ e → d.node? x = some ⟨tag, parent, cs⟩ →
      ∃ cs, (d.attach p e place).node? x = some ⟨tag, parent, cs⟩ := by
    intro x tag parent cs hx hn
    rw [node?_attach hne, if_neg hx, hn]
    split <;> exact ⟨_, rfl⟩
  refine ⟨?_, ?_, hd.ranked_attach he hp hout place, hd.fresh.attach p e place, ?_, ?_, ?_⟩
  · intro q c
    rw [children_attach hne hp, parent?_attach hne he.mem_keys]
    by_cases hq : q = p
    · subst hq
      rw [if_pos rfl, (placed_perm _ _ _).mem_iff, List.mem_cons]
      by_cases hc : c = e
      · simp [hc]
      · simp [hc, hd.links]
    · rw [if_neg hq]
      by_cases hc : c = e
      · simp [hc, hno, Ne.symm hq]
      · rw [if_neg hc, hd.links]
  · intro q
    rw [children_attach hne hp]
    split
    · exact (placed_perm _ _ _).nodup_iff.mpr (List.nodup_cons.mpr ⟨hno q, hd.distinct q⟩)
    · exact hd.distinct q
  · rw [Document.attach, keys_update, keys_update]
    exact hd.keys_nodup
  · obtain ⟨cs, hn⟩ := hd.root_eq
    exact hkeep hroot.symm hn
  · obtain ⟨cs, hn⟩ := hd.body_eq
    exact hkeep hbody.symm hn

end

/-! ### What is taken out -/

/-- Only its parent has an element for a child. -/
theorem filter_children {n : Node} (hn : d.node? x = some n) (hx : d.parent? e ≠ some x) :
    n.children.filter (· ≠ e) = n.children := by
  have hchildren : d.children x = n.children := by
    rw [children, hn]
    rfl
  refine List.filter_eq_self.mpr fun c hc => decide_eq_true ?_
  rintro rfl
  exact hx (hd.links.mp (hchildren ▸ hc))

section

variable (he : d.src? e = some src)
include he

/-- Neither the root nor the body is below a script. -/
theorem notMem_below_script : root ∉ d.below e ∧ d.body ∉ d.below e := by
  obtain ⟨hroot, hbody⟩ := hd.script_ne he
  have hroot' : ¬ d.Under e root := by
    intro h
    rcases h.cases_parent with heq | ⟨p, hp, -⟩
    · exact hroot heq.symm
    · rw [hd.parent?_root] at hp
      cases hp
  rw [hd.mem_below, hd.mem_below]
  refine ⟨hroot', fun h => ?_⟩
  obtain ⟨cs, hn⟩ := hd.body_eq
  have hparent : d.parent? d.body = some root := by
    rw [parent?, hn]
    rfl
  rcases h.cases_parent with heq | ⟨p, hp, h⟩
  · exact hbody heq.symm
  · obtain rfl := Option.some.inj (hparent.symm.trans hp)
    exact hroot' h

/-- What is below a script is gone, and the script is no child any more. -/
theorem node?_remove (x : Element) : (d.remove e).node? x =
    if x ∈ d.below e then none
    else (d.node? x).map fun n => { n with children := n.children.filter (· ≠ e) } := by
  have hleft : ∀ x, ({ d with nodes := d.nodes.filter (! (d.below e).contains ·.1) } : Document).node? x =
      if x ∈ d.below e then none else d.node? x := by
    intro x
    rw [node?, lookup_filter d.nodes (fun k => ! (d.below e).contains k)]
    by_cases hx : x ∈ d.below e <;> simp [hx, node?]
  obtain ⟨n, hn⟩ := exists_node_of_src? he
  have hparent : d.parent? e = n.parent := by
    rw [parent?, hn]
    rfl
  have hother : d.parent? e ≠ some x →
      (d.node? x).map (fun m => { m with children := m.children.filter (· ≠ e) }) = d.node? x := by
    intro hx
    cases hm : d.node? x with
    | none => rfl
    | some m => rw [Option.map_some, hd.filter_children hm hx]
  rw [Document.remove, if_neg (hd.script_ne he).1]
  simp only [hn]
  -- a parent that there is forgets the child, and nobody else had it
  cases hp : n.parent with
  | none =>
    rw [hleft, hother (by rw [hparent, hp]; simp)]
  | some p =>
    simp only [node?_update, hleft]
    by_cases hxp : x = p
    · rw [if_pos hxp]
      split <;> rfl
    · rw [if_neg hxp, hother (by rw [hparent, hp]; simp [Ne.symm hxp])]

theorem parent?_remove (x : Element) :
    (d.remove e).parent? x = if x ∈ d.below e then none else d.parent? x := by
  rw [parent?, hd.node?_remove he]
  split
  · rfl
  · rw [parent?]
    cases d.node? x <;> rfl

theorem children_remove (x : Element) :
    (d.remove e).children x = if x ∈ d.below e then [] else (d.children x).filter (· ≠ e) := by
  rw [children, hd.node?_remove he]
  split
  · rfl
  · rw [children]
    cases d.node? x <;> rfl

theorem keys_remove : (d.remove e).keys = d.keys.filter fun x => ! (d.below e).contains x := by
  have hleft : ({ d with nodes := d.nodes.filter (! (d.below e).contains ·.1) } : Document).keys =
      d.keys.filter fun x => ! (d.below e).contains x := by
    rw [keys, keys, List.filter_map]
    rfl
  obtain ⟨n, hn⟩ := exists_node_of_src? he
  rw [Document.remove, if_neg (hd.script_ne he).1]
  simp only [hn]
  cases n.parent with
  | none => exact hleft
  | some p => simp only [keys_update, hleft]

/-- A script is taken out with all that is below it. -/
theorem remove : (d.remove e).Forest := by
  have hself : e ∈ d.below e := hd.mem_below.mpr .self
  -- whoever has a parent below the script is below it, and so is the parent of all but the script
  have hdown : ∀ {q c}, d.parent? c = some q → q ∈ d.below e → c ∈ d.below e := fun hparent hq =>
    hd.mem_below.mpr (.child hparent (hd.mem_below.mp hq))
  have hup : ∀ {q c}, d.parent? c = some q → c ∈ d.below e → c ≠ e → q ∈ d.below e := by
    intro q c hparent hc hne
    rcases (hd.mem_below.mp hc).cases_parent with heq | ⟨q', hq', h⟩
    · exact absurd heq hne
    · obtain rfl := Option.some.inj (hq'.symm.trans hparent)
      exact hd.mem_below.mpr h
  have hkeep : ∀ {x tag parent cs}, x ∉ d.below e → d.node? x = some ⟨tag, parent, cs⟩ →
      ∃ cs, (d.remove e).node? x = some ⟨tag, parent, cs⟩ := by
    intro x tag parent cs hx hn
    rw [hd.node?_remove he, if_neg hx, hn]
    exact ⟨_, rfl⟩
  obtain ⟨hroot, hbody⟩ := hd.notMem_below_script he
  obtain ⟨rank, hrank⟩ := hd.ranked
  refine ⟨?_, ?_, ⟨rank, ?_⟩, hd.fresh.remove e, ?_, ?_, ?_⟩
  · intro q c
    rw [hd.children_remove he, hd.parent?_remove he]
    by_cases hq : q ∈ d.below e <;> by_cases hc : c ∈ d.below e <;> simp only [hq, hc, if_true, if_false]
    · simp
    · simp only [List.not_mem_nil, false_iff]
      exact fun hparent => hc (hdown hparent hq)
    · simp only [List.mem_filter, hd.links, decide_eq_true_eq, reduceCtorEq, iff_false, not_and, not_not]
      intro hparent
      by_contra hne
      exact hq (hup hparent hc hne)
    · have hne : c ≠ e := fun heq => hc (heq ▸ hself)
      simp [hd.links, hne]
  · intro q
    rw [hd.children_remove he]
    split
    · exact List.nodup_nil
    · exact (hd.distinct q).filter _
  · intro q c hc
    rw [hd.children_remove he] at hc
    split at hc
    · cases hc
    · exact hrank q c (List.mem_filter.mp hc).1
  · rw [hd.keys_remove he]
    exact hd.keys_nodup.filter _
  · obtain ⟨cs, hn⟩ := hd.root_eq
    exact hkeep hroot hn
  · obtain ⟨cs, hn⟩ := hd.body_eq
    obtain ⟨nodes, hremove⟩ := d.remove_eq e
    have hsame : (d.remove e).body = d.body := by rw [hremove]
    rw [hsame]
    exact hkeep hbody hn

end

/-! ### What is below an element -/

section

variable (hd' : d'.Forest) (hsame : ∀ x, x ≠ p → d'.children x = d.children x)
include hd' hsame

/-- New children of one element are nothing to those that it is not under. -/
theorem below_of_not_under : ∀ {x}, ¬ d.Under x p → d'.below x = d.below x := by
  intro x
  induction x using hd.induction with
  | hstep x ih =>
    intro hx
    have hne : x ≠ p := by
      rintro rfl
      exact hx .self
    rw [hd'.below_eq, hd.below_eq, hsame x hne]
    refine congrArg _ (List.flatMap_congr fun c hc => ih c hc fun h => hx ?_)
    exact (Under.of_parent (hd.links.mp hc)).trans h

/-- What is below those that it is under changes where it stands, and there only. -/
theorem below_change : ∀ {x}, d.Under x p → ∃ front back, d.below x = front ++ d.below p ++ back ∧
    d'.below x = front ++ d'.below p ++ back := by
  intro x
  induction x using hd.induction with
  | hstep x ih =>
    intro hx
    rcases hd.under_child hx with rfl | ⟨c, hc, hcp⟩
    · exact ⟨[], [], by simp, by simp⟩
    · obtain ⟨front, back, hfront, hback⟩ := ih c hc hcp
      obtain ⟨before, behind, hsplit⟩ := List.append_of_mem hc
      have hne : x ≠ p := by
        rintro rfl
        exact hd.not_under_child (hd.links.mp hc) hcp
      -- the way from the element to the other leads through one child only
      have hnodup : (before ++ c :: behind).Nodup := hsplit ▸ hd.distinct x
      have hfresh := (List.nodup_cons.mp (List.nodup_middle.mp hnodup)).1
      have hothers : ∀ b ∈ before ++ behind, d'.below b = d.below b := by
        intro b hb
        have hbx : b ∈ d.children x := by
          rw [hsplit]
          exact List.perm_middle.mem_iff.mpr (List.mem_cons_of_mem _ hb)
        refine hd.below_of_not_under hd' hsame fun hbp => ?_
        exact hfresh (hd.eq_of_under hbx hc hbp hcp ▸ hb)
      have hbefore : before.flatMap d'.below = before.flatMap d.below :=
        List.flatMap_congr fun b hb => hothers b (List.mem_append_left _ hb)
      have hbehind : behind.flatMap d'.below = behind.flatMap d.below :=
        List.flatMap_congr fun b hb => hothers b (List.mem_append_right _ hb)
      refine ⟨(x :: before.flatMap d.below) ++ front, back ++ behind.flatMap d.below, ?_, ?_⟩
      · rw [hd.below_split hsplit, hfront]
        simp only [List.append_assoc]
      · rw [hd'.below_split ((hsame x hne).trans hsplit), hbefore, hbehind, hback]
        simp only [List.append_assoc]

end

section

variable (he : d.Loose e src) (hp : p ∈ d.keys) (hout : p ∉ d.below e)
include he hp hout

omit he in
theorem children_attach_of_ne (place : Option Nat) (x : Element) (hx : x ≠ p) :
    (d.attach p e place).children x = d.children x := by
  rw [children_attach (hd.ne_of_notMem_below hout) hp, if_neg hx]

/-- The new parent comes before what is below its children, the new one among them. -/
theorem below_attach_parent (place : Option Nat) :
    (d.attach p e place).below p = p :: (placed (d.children p) e place).flatMap d.below := by
  have hd' := hd.attach he hp hout place
  have hne := hd.ne_of_notMem_below hout
  rw [hd'.below_eq, children_attach hne hp, if_pos rfl]
  refine congrArg _ (List.flatMap_congr fun c hc => ?_)
  refine hd.below_of_not_under hd' (hd.children_attach_of_ne hp hout place) fun h => ?_
  rcases List.mem_cons.mp ((placed_perm _ _ _).mem_iff.mp hc) with rfl | hc
  · exact hout (hd.mem_below.mpr h)
  · exact hd.not_under_child (hd.links.mp hc) h

theorem below_attach_of_notMem (place : Option Nat) (hx : p ∉ d.below x) :
    (d.attach p e place).below x = d.below x :=
  hd.below_of_not_under (hd.attach he hp hout place) (hd.children_attach_of_ne hp hout place)
    fun h => hx (hd.mem_below.mpr h)

theorem below_attach (place : Option Nat) (hx : p ∈ d.below x) : ∃ front back,
    d.below x = front ++ d.below p ++ back ∧
      (d.attach p e place).below x = front ++ (p :: (placed (d.children p) e place).flatMap d.below) ++ back := by
  rw [← hd.below_attach_parent he hp hout place]
  exact hd.below_change (hd.attach he hp hout place) (hd.children_attach_of_ne hp hout place)
    (hd.mem_below.mp hx)

end

/-- **What is taken out is left out**, and the others keep their order. -/
theorem below_remove (he : d.src? e = some src) : ∀ {x}, x ∉ d.below e →
    (d.remove e).below x = (d.below x).filter (· ∉ d.below e) := by
  intro x
  induction x using hd.induction with
  | hstep x ih =>
    intro hx
    have hgone : (d.below e).filter (· ∉ d.below e) = [] := by simp
    have hleft : ∀ l : List Element, l ⊆ d.children x → (l.filter (· ≠ e)).flatMap (d.remove e).below =
        l.flatMap fun c => (d.below c).filter (· ∉ d.below e) := by
      intro l hl
      induction l with
      | nil => rfl
      | cons c l ihl =>
        have hc := hl List.mem_cons_self
        have hrest := ihl fun b hb => hl (List.mem_cons_of_mem _ hb)
        by_cases hce : c = e
        · rw [List.filter_cons_of_neg (by simp [hce]), List.flatMap_cons, hce, hgone, hrest, List.nil_append]
        · -- a child that is below the script would have a parent that is, which is the element itself
          have hout : c ∉ d.below e := by
            intro hmem
            rcases (hd.mem_below.mp hmem).cases_parent with heq | ⟨q, hq, h⟩
            · exact hce heq
            · obtain rfl := Option.some.inj (hq.symm.trans (hd.links.mp hc))
              exact hx (hd.mem_below.mpr h)
          rw [List.filter_cons_of_pos (by simp [hce]), List.flatMap_cons, List.flatMap_cons, ih c hc hout, hrest]
    rw [(hd.remove he).below_eq, hd.children_remove he, if_neg hx, hleft _ (List.Subset.refl _), hd.below_eq x,
      List.filter_cons_of_pos (by simpa using hx), List.filter_flatMap]

end Forest

end Hostlink.Document
