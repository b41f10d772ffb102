import Hostlink.Proofs.Document

/-!
# Scripts that come and go

A page whose head and body hold scripts and nothing else stays so, whatever scripts are put in or
taken out.

* `Flat.withHeadScript`, `Flat.withBodyScript` — one script more;
* `Flat.remove` — one script less;
* `Document.withScripts` — a page that comes with scripts of its own.
-/

namespace Hostlink.Document

variable {d : Document}

/-! ## One script more -/

/-- A list with an element more, at a place or at the end. -/
def placed (l : List Element) (e : Element) (place : Option Nat) : List Element :=
  match place with
  | some i => l.take i ++ e :: l.drop i
  | none => l ++ [e]

theorem placed_perm (l : List Element) (e : Element) (place : Option Nat) :
    (placed l e place).Perm (e :: l) := by
  cases place with
  | none => exact List.perm_append_singleton e l
  | some i =>
    have h : (e :: (l.take i ++ l.drop i)).Perm (e :: l) := by rw [List.take_append_drop]
    exact List.perm_middle.trans h

/-- A new script with a place in the tree. -/
def withScript (d : Document) (parent : Element) (src : String) (place : Option Nat) : Document :=
  (d.createScript src).2.attach parent d.next place

theorem node?_withScript (hfresh : d.next ∉ d.keys) {parent : Element} (hp : parent ∈ d.keys)
    (src : String) (place : Option Nat) (x : Element) :
    (d.withScript parent src place).node? x =
      if x = parent then
        (d.node? parent).map fun n => { n with children := placed n.children d.next place }
      else if x = d.next then some ⟨.script src, some parent, []⟩ else d.node? x := by
  have hne : parent ≠ d.next := fun h => hfresh (h ▸ hp)
  rw [withScript, attach, node?_update, node?_update]
  by_cases hx : x = parent
  · subst hx
    rw [if_pos rfl, if_pos rfl, if_neg hne]
    rw [show (d.createScript src).2.node? x = d.node? x from node?_create_of_ne d _ hne]
    cases place <;> rfl
  · rw [if_neg hx, if_neg hx]
    by_cases hn : x = d.next
    · subst hn
      rw [if_pos rfl, if_pos rfl,
        show (d.createScript src).2.node? d.next = _ from node?_create_self _ hfresh]
      rfl
    · rw [if_neg hn, if_neg hn]
      exact node?_create_of_ne d _ hn

@[simp] theorem keys_withScript (d : Document) (parent : Element) (src : String) (place : Option Nat) :
    (d.withScript parent src place).keys = d.keys ++ [d.next] := by
  simp [withScript, attach, createScript]

/-- A change that leaves tags alone changes no sources. -/
theorem src?_update (d : Document) (e : Element) {f : Node → Node} (hf : ∀ n, (f n).tag = n.tag) (x : Element) :
    (d.update e f).src? x = d.src? x := by
  simp only [src?, node?_update]
  by_cases hx : x = e
  · rw [if_pos hx]
    cases d.node? x with
    | none => rfl
    | some n =>
      have htag := hf n
      rw [Option.map_some]
      generalize f n = m at htag
      obtain ⟨tag, parent, children⟩ := n
      obtain ⟨tag', parent', children'⟩ := m
      obtain rfl : tag' = tag := htag
      cases tag' <;> rfl
  · rw [if_neg hx]

theorem src?_attach (d : Document) (parent child : Element) (place : Option Nat) (x : Element) :
    (d.attach parent child place).src? x = d.src? x := by
  rw [attach, src?_update _ parent, src?_update d child] <;> exact fun _ => rfl

/-- A new script changes no other's source. -/
theorem src?_createScript (hfresh : d.next ∉ d.keys) (src : String) (x : Element) :
    (d.createScript src).2.src? x = if x = d.next then some src else d.src? x := by
  by_cases hx : x = d.next
  · subst hx
    rw [if_pos rfl, src?, createScript, node?_create_self _ hfresh]
  · rw [if_neg hx, src?, createScript, node?_create_of_ne d _ hx, src?]

theorem src?_withScript (hfresh : d.next ∉ d.keys) (parent : Element) (src : String) (place : Option Nat)
    (x : Element) : (d.withScript parent src place).src? x = if x = d.next then some src else d.src? x :=
  (src?_attach _ parent d.next place x).trans (src?_createScript hfresh src x)

namespace Flat

variable {hs bs : List Element} (hd : d.Flat hs bs)
include hd

theorem of_placed {parent : Element} {src : String} {place : Option Nat} {hs' bs' : List Element}
    (hperm : (hs' ++ bs').Perm (d.next :: (hs ++ bs)))
    (htree : (d.withScript parent src place).Tree hs' bs') :
    (d.withScript parent src place).Flat hs' bs' := by
  refine ⟨htree, ?_, ?_, fun e he => ?_⟩
  all_goals rw [keys_withScript] at *
  · -- the same keys in another order: the new one is last here, and among the scripts there
    have h1 : (d.keys ++ [d.next]).Perm (d.next :: (root :: (d.head.toList ++ d.body :: (hs ++ bs)))) :=
      (List.perm_append_singleton _ _).trans (hd.keys_perm.cons _)
    have h2 : (root :: (d.head.toList ++ d.body :: (hs' ++ bs'))).Perm
        (root :: (d.head.toList ++ d.body :: (d.next :: (hs ++ bs)))) :=
      ((hperm.cons _).append_left _).cons _
    refine h1.trans (List.Perm.trans ?_ h2.symm)
    have h3 : (root :: (d.head.toList ++ [d.body]) ++ d.next :: (hs ++ bs)).Perm
        (d.next :: (root :: (d.head.toList ++ [d.body]) ++ (hs ++ bs))) := List.perm_middle
    simpa using h3.symm
  · exact List.nodup_append.mpr ⟨hd.keys_nodup, List.nodup_singleton _, fun a ha b hb hab =>
      hd.next_fresh (List.mem_singleton.mp hb ▸ hab ▸ ha)⟩
  · have hfresh := (hd.fresh.createScript src).attach parent d.next place
    exact hfresh e (keys_withScript d parent src place ▸ he)

theorem size_withScript (parent : Element) (src : String) (place : Option Nat) :
    2 ≤ (d.withScript parent src place).nodes.length := by
  have h : (d.withScript parent src place).keys.length = d.keys.length + 1 := by simp
  have := hd.size
  simp only [keys, List.length_map] at h
  omega

/-- A new script in the head. -/
theorem withHeadScript {h : Element} (hh : d.head = some h) (src : String) (place : Option Nat) :
    (d.withScript h src place).Flat (placed hs d.next place) bs := by
  have hp := hd.head_mem hh
  have hn := node?_withScript hd.next_fresh hp src place
  -- only the head and the new script are changed
  have hkeep : ∀ x ∈ d.keys, x ≠ h → (d.withScript h src place).node? x = d.node? x := by
    intro x hx hxh
    rw [hn, if_neg hxh, if_neg (hd.ne_next hx)]
  have hperm : (placed hs d.next place ++ bs).Perm (d.next :: (hs ++ bs)) :=
    (placed_perm hs d.next place).append_right bs
  refine hd.of_placed hperm ⟨hd.size_withScript h src place, ?_, ?_, ?_, ?_, ?_, ?_⟩
  · rw [hkeep _ hd.root_mem (hd.head_ne hh).1.symm]; exact hd.root_eq
  · intro h' hh'
    obtain rfl := Option.some.inj (hh.symm.trans hh')
    rw [hn, if_pos rfl, hd.head_eq h hh]
    rfl
  · exact fun hnone => by cases hh.symm.trans hnone
  · exact (hkeep _ hd.body_mem (hd.head_ne hh).2.symm).trans hd.body_eq
  · intro e he
    -- the new script is in the head, and the others there stay
    rcases List.mem_cons.mp ((placed_perm hs d.next place).mem_iff.mp he) with rfl | he
    · exact ⟨h, src, hh, by rw [hn, if_neg (hd.ne_next hp).symm, if_pos rfl]⟩
    · have hmem := List.mem_append_left bs he
      rw [hkeep e (hd.script_mem hmem) ((hd.script_ne hmem).2.2 h hh)]
      exact hd.script_head e he
  · intro e he
    have hmem := List.mem_append_right hs he
    rw [hkeep e (hd.script_mem hmem) ((hd.script_ne hmem).2.2 h hh)]
    exact hd.script_body e he

/-- A new script in the body. -/
theorem withBodyScript (src : String) (place : Option Nat) :
    (d.withScript d.body src place).Flat hs (placed bs d.next place) := by
  have hp := hd.body_mem
  have hn := node?_withScript hd.next_fresh hp src place
  -- only the body and the new script are changed
  have hkeep : ∀ x ∈ d.keys, x ≠ d.body → (d.withScript d.body src place).node? x = d.node? x := by
    intro x hx hxb
    rw [hn, if_neg hxb, if_neg (hd.ne_next hx)]
  have hperm : (hs ++ placed bs d.next place).Perm (d.next :: (hs ++ bs)) :=
    ((placed_perm bs d.next place).append_left hs).trans List.perm_middle
  refine hd.of_placed hperm ⟨hd.size_withScript d.body src place, ?_, ?_, hd.headless, ?_, ?_, ?_⟩
  · rw [hkeep _ hd.root_mem hd.body_ne_root.symm]; exact hd.root_eq
  · intro h hh
    exact (hkeep _ (hd.head_mem hh) (hd.head_ne hh).2).trans (hd.head_eq h hh)
  · show (d.withScript d.body src place).node? d.body = _
    rw [hn, if_pos rfl, hd.body_eq]
    rfl
  · intro e he
    have hmem := List.mem_append_left bs he
    rw [hkeep e (hd.script_mem hmem) (hd.script_ne hmem).2.1]
    exact hd.script_head e he
  · intro e he
    rcases List.mem_cons.mp ((placed_perm bs d.next place).mem_iff.mp he) with rfl | he
    · exact ⟨src, by rw [hn, if_neg (hd.ne_next hp).symm, if_pos rfl]; rfl⟩
    · have hmem := List.mem_append_right hs he
      rw [hkeep e (hd.script_mem hmem) (hd.script_ne hmem).2.1]
      exact hd.script_body e he

/-- A page script comes after all other scripts. -/
theorem addPageScript (src : String) : (d.addPageScript src).2.Flat hs (bs ++ [d.next]) :=
  hd.withBodyScript src none

theorem load (e : Element) : (d.load e).Flat hs bs := by
  unfold Document.load
  split
  · exact hd.congr rfl (Nat.le_refl _) rfl rfl
  · exact hd

/-- A script in the tree is loaded. -/
theorem loads_load {e : Element} (he : e ∈ hs ++ bs) {src : String} (hsrc : d.src? e = some src) :
    (d.load e).loads = d.loads ++ [src] := by
  rw [Document.load, if_pos (hd.isConnected he), hsrc]
  rfl

end Flat

/-! ## One script less -/

namespace Flat

variable {hs bs : List Element} (hd : d.Flat hs bs)
include hd

theorem below_script {e : Element} (he : e ∈ hs ++ bs) : d.below e = [e] :=
  hd.walkFrom_script he _

end Flat

theorem node?_remove {e parent : Element} {src : String} (hroot : e ≠ root)
    (hn : d.node? e = some ⟨.script src, some parent, []⟩) (hbelow : d.below e = [e]) (x : Element) :
    (d.remove e).node? x =
      if x = e then none
      else if x = parent then
        (d.node? x).map fun n => { n with children := n.children.filter (· ≠ e) }
      else d.node? x := by
  have hfilter : ∀ y, (List.lookup y (d.nodes.filter fun q => ! [e].contains q.1)) =
      if y = e then none else d.node? y := by
    intro y
    rw [lookup_filter d.nodes (fun k => ! [e].contains k) y]
    by_cases hy : y = e <;> simp [hy, node?]
  unfold remove
  rw [if_neg hroot, hn]
  simp only [hbelow]
  rw [node?_update]
  simp only [node?] at hfilter ⊢
  rw [hfilter x]
  by_cases hx : x = e
  · rw [if_pos hx, if_pos hx]
    split <;> rfl
  · rw [if_neg hx, if_neg hx]

theorem filter_ne_self {e : Element} {es : List Element} (he : e ∉ es) : es.filter (· ≠ e) = es :=
  List.filter_eq_self.mpr fun x hx => decide_eq_true fun h : x = e => he (h ▸ hx)

theorem keys_remove {e parent : Element} {src : String} (hroot : e ≠ root)
    (hn : d.node? e = some ⟨.script src, some parent, []⟩) (hbelow : d.below e = [e]) :
    (d.remove e).keys = d.keys.filter (· ≠ e) := by
  unfold remove
  rw [if_neg hroot, hn]
  simp only [hbelow]
  rw [keys_update, keys, keys, List.filter_map]
  congr 1
  refine List.filter_congr fun q _ => ?_
  simp

namespace Flat

variable {hs bs : List Element} (hd : d.Flat hs bs)
include hd

/-- A script stands in the head or in the body. -/
theorem parent_of_mem {e : Element} (he : e ∈ hs ++ bs) :
    ∃ src parent, d.node? e = some ⟨.script src, some parent, []⟩ ∧
      ((d.head = some parent ∧ e ∉ bs) ∨ (parent = d.body ∧ e ∉ hs)) := by
  have hdisj := List.disjoint_of_nodup_append hd.scripts_nodup
  rcases List.mem_append.mp he with he | he
  · obtain ⟨h, src, hh, hn⟩ := hd.script_head e he
    exact ⟨src, h, hn, .inl ⟨hh, fun hb => hdisj he hb⟩⟩
  · obtain ⟨src, hn⟩ := hd.script_body e he
    exact ⟨src, d.body, hn, .inr ⟨rfl, fun hh => hdisj hh he⟩⟩

/-- What is on the page once a script is taken out. -/
theorem keys_perm_remove {e : Element} (he : e ∈ hs ++ bs) :
    (d.keys.filter (· ≠ e)).Perm
      (root :: (d.head.toList ++ d.body :: (hs.filter (· ≠ e) ++ bs.filter (· ≠ e)))) := by
  obtain ⟨hroot, hbody, hhead⟩ := hd.script_ne he
  have hperm := hd.keys_perm.filter (· ≠ e)
  have hheads : d.head.toList.filter (· ≠ e) = d.head.toList :=
    filter_ne_self fun h => hhead e (by simpa using h) rfl
  rw [List.filter_cons, if_pos (by simpa using hroot.symm), List.filter_append, hheads,
    List.filter_cons, if_pos (by simpa using hbody.symm), List.filter_append] at hperm
  exact hperm

/-- The head loses the script if it stands there. -/
theorem node?_remove_head {e h : Element} (he : e ∈ hs ++ bs) (hh : d.head = some h) :
    (d.remove e).node? h = some ⟨.head, some root, hs.filter (· ≠ e)⟩ := by
  obtain ⟨src, parent, hn, hparent⟩ := hd.parent_of_mem he
  obtain ⟨hroot, -, hhead⟩ := hd.script_ne he
  rw [node?_remove hroot hn (hd.below_script he), if_neg (hhead h hh).symm, hd.head_eq h hh]
  rcases hparent with ⟨hh', -⟩ | ⟨rfl, hes⟩
  · rw [if_pos (Option.some.inj (hh.symm.trans hh'))]
    rfl
  · rw [if_neg (hd.head_ne hh).2, filter_ne_self hes]

/-- The body loses the script if it stands there. -/
theorem node?_remove_body {e : Element} (he : e ∈ hs ++ bs) :
    (d.remove e).node? d.body = some ⟨.body, some root, bs.filter (· ≠ e)⟩ := by
  obtain ⟨src, parent, hn, hparent⟩ := hd.parent_of_mem he
  obtain ⟨hroot, hbody, -⟩ := hd.script_ne he
  rw [node?_remove hroot hn (hd.below_script he), if_neg hbody.symm, hd.body_eq]
  rcases hparent with ⟨hh, hes⟩ | ⟨rfl, -⟩
  · rw [if_neg (hd.head_ne hh).2.symm, filter_ne_self hes]
  · rw [if_pos rfl]
    rfl

/-- Whatever holds no scripts stays as it is. -/
theorem node?_remove_other {e x : Element} (he : e ∈ hs ++ bs) (hx : x ≠ e) (hbody : x ≠ d.body)
    (hhead : ∀ h, d.head = some h → x ≠ h) : (d.remove e).node? x = d.node? x := by
  obtain ⟨src, parent, hn, hparent⟩ := hd.parent_of_mem he
  rw [node?_remove (hd.script_ne he).1 hn (hd.below_script he), if_neg hx]
  rcases hparent with ⟨hh, -⟩ | ⟨rfl, -⟩
  · exact if_neg (hhead parent hh)
  · exact if_neg hbody

/-- A script that is taken out is gone from head and body. -/
theorem remove {e : Element} (he : e ∈ hs ++ bs) :
    (d.remove e).Flat (hs.filter (· ≠ e)) (bs.filter (· ≠ e)) := by
  obtain ⟨src, parent, hn, -⟩ := hd.parent_of_mem he
  obtain ⟨hroot, -, -⟩ := hd.script_ne he
  have hkeys := keys_remove hroot hn (hd.below_script he)
  obtain ⟨hd_next, hd_head, hd_body⟩ : (d.remove e).next = d.next ∧ (d.remove e).head = d.head ∧
      (d.remove e).body = d.body := by
    unfold Document.remove
    rw [if_neg hroot, hn]
    exact ⟨rfl, rfl, rfl⟩
  -- no other script is below the one that goes
  have hscript : ∀ x ∈ hs ++ bs, x ≠ e → (d.remove e).node? x = d.node? x := by
    intro x hx hxe
    obtain ⟨-, hxb, hxh⟩ := hd.script_ne hx
    exact hd.node?_remove_other he hxe hxb hxh
  have hperm := hd.keys_perm_remove he
  rw [← hkeys] at hperm
  -- root and body are left, so that there are still two nodes
  have hsize : 2 ≤ (d.remove e).nodes.length := by
    have h := hperm.length_eq
    simp only [keys, List.length_map, List.length_cons, List.length_append] at h
    omega
  refine ⟨⟨hsize, ?_, ?_, ?_, ?_, ?_, ?_⟩, ?_, hkeys ▸ hd.keys_nodup.filter _, fun x hx => ?_⟩
  · rw [hd_head, hd_body]
    refine (hd.node?_remove_other he hroot.symm hd.body_ne_root.symm fun h hh => ?_).trans hd.root_eq
    exact (hd.head_ne hh).1.symm
  · intro h hh
    exact hd.node?_remove_head he (hd_head.symm.trans hh)
  · intro hnone
    rw [hd_head] at hnone
    rw [hd.headless hnone]
    rfl
  · rw [hd_body]
    exact hd.node?_remove_body he
  · intro x hx
    obtain ⟨hx, hxe⟩ := List.mem_filter.mp hx
    rw [hscript x (List.mem_append_left _ hx) (by simpa using hxe), hd_head]
    exact hd.script_head x hx
  · intro x hx
    obtain ⟨hx, hxe⟩ := List.mem_filter.mp hx
    rw [hscript x (List.mem_append_right _ hx) (by simpa using hxe), hd_body]
    exact hd.script_body x hx
  · rw [hd_head, hd_body]
    exact hperm
  · rw [hkeys] at hx
    rw [hd_next]
    exact hd.fresh x (List.mem_filter.mp hx).1

/-- A script that is taken out changes no other's source. -/
theorem src?_remove {e : Element} (he : e ∈ hs ++ bs) {x : Element} (hx : x ≠ e) :
    (d.remove e).src? x = d.src? x := by
  obtain ⟨src, parent, hn, -⟩ := hd.parent_of_mem he
  have hnode := node?_remove (hd.script_ne he).1 hn (hd.below_script he) x
  rw [if_neg hx] at hnode
  simp only [src?, hnode]
  by_cases hp : x = parent
  · rw [if_pos hp]
    cases d.node? x with
    | none => rfl
    | some n => obtain ⟨_ | _ | _ | _, parent, children⟩ := n <;> rfl
  · rw [if_neg hp]

end Flat

/-! ## New pages -/

theorem flat_build (withHead : Bool) : (build withHead).Flat [] [] where
  size := by cases withHead <;> decide
  keys_perm := by cases withHead <;> exact List.Perm.refl _
  keys_nodup := by cases withHead <;> decide
  fresh := by cases withHead <;> simp only [Fresh] <;> decide
  root_eq := by cases withHead <;> rfl
  head_eq := by
    intro h hh
    cases withHead with
    | true => obtain rfl := Option.some.inj hh; rfl
    | false => cases hh
  headless := fun _ => rfl
  body_eq := by cases withHead <;> rfl
  script_head := fun _ he => by cases he
  script_body := fun _ he => by cases he

/-- A page with scripts of its own. -/
def withScripts (withHead : Bool) (srcs : List String) : Document :=
  srcs.foldl (fun d src => (d.addPageScript src).2) (build withHead)

theorem withScripts_concat (withHead : Bool) (srcs : List String) (src : String) :
    withScripts withHead (srcs ++ [src]) = ((withScripts withHead srcs).addPageScript src).2 := by
  rw [withScripts, List.foldl_append]
  rfl

theorem loads_withScripts (withHead : Bool) (srcs : List String) : (withScripts withHead srcs).loads = [] := by
  induction srcs using List.reverseRecOn with
  | nil => cases withHead <;> rfl
  | append_singleton srcs src ih =>
    rw [withScripts_concat]
    exact ih

theorem head_withScripts (withHead : Bool) (srcs : List String) :
    (withScripts withHead srcs).head.isSome = withHead := by
  induction srcs using List.reverseRecOn with
  | nil => cases withHead <;> rfl
  | append_singleton srcs src ih =>
    rw [withScripts_concat]
    exact ih

/-- The scripts of a page stand in its body. -/
theorem flat_withScripts (withHead : Bool) (srcs : List String) : ∃ bs, (withScripts withHead srcs).Flat [] bs ∧
    bs.map (withScripts withHead srcs).src? = srcs.map some := by
  induction srcs using List.reverseRecOn with
  | nil => exact ⟨[], flat_build withHead, rfl⟩
  | append_singleton srcs src ih =>
    obtain ⟨bs, hflat, hsrcs⟩ := ih
    rw [withScripts_concat]
    refine ⟨_, hflat.addPageScript src, ?_⟩
    have hsrc : ∀ x, ((withScripts withHead srcs).addPageScript src).2.src? x =
        if x = (withScripts withHead srcs).next then some src else (withScripts withHead srcs).src? x := fun x =>
      src?_withScript hflat.next_fresh _ src none x
    rw [List.map_append, List.map_append, ← hsrcs]
    congr 1
    · refine List.map_congr_left fun x hx => ?_
      rw [hsrc, if_neg (hflat.ne_next (hflat.script_mem hx))]
    · simp [hsrc]

end Hostlink.Document
