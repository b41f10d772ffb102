import Hostlink.Proofs.Document.Surgery

/-!
# Pages that take in scripts

A page takes in scripts of others, puts each before its first one or into its head, and lets them go again. Whether it
can do so is a matter of what it had itself: its head, or a script of its own in the tree.

* `Document.Headed` — the head hangs from the root, `Reached.headed` — **it does so whatever becomes of a page**;
* `Document.Hosts` — a page with guests, which are scripts with only guests below them;
* `Hosts.createScript`, `Hosts.attach`, `Hosts.remove` — a guest is made, put in, and taken out;
* `Hosts.new` — any page, before the first guest has come.
-/

namespace Hostlink.Document

variable {d d' : Document} {e p x h : Element} {src : String}

/-! ## The head -/

/-- The head of a page hangs from its root. -/
def Headed (d : Document) : Prop := ∀ h, d.head = some h → ∃ cs, d.node? h = some ⟨.head, some root, cs⟩

namespace Headed

theorem src?_eq (hd : d.Headed) (hh : d.head = some h) : d.src? h = none := by
  obtain ⟨cs, hn⟩ := hd h hh
  rw [src?, hn]

theorem parent?_eq (hd : d.Headed) (hh : d.head = some h) : d.parent? h = some root := by
  obtain ⟨cs, hn⟩ := hd h hh
  rw [parent?, hn]
  rfl

theorem ne (hd : d.Headed) (hh : d.head = some h) (he : d.src? e = some src) : h ≠ e := by
  rintro rfl
  cases he.symm.trans (hd.src?_eq hh)

theorem congr (hd : d.Headed) (hnodes : d'.nodes = d.nodes) (hhead : d'.head = d.head) : d'.Headed := by
  intro h hh
  obtain ⟨cs, hn⟩ := hd h (hhead ▸ hh)
  exact ⟨cs, by rw [← hn, node?, node?, hnodes]⟩

theorem load (hd : d.Headed) (e : Element) : (d.load e).Headed := by
  refine hd.congr (nodes_load d e) ?_
  unfold Document.load
  split <;> rfl

theorem createScript (hd : d.Headed) (hfresh : d.Fresh) (src : String) : (d.createScript src).2.Headed := by
  intro h hh
  obtain ⟨cs, hn⟩ := hd h hh
  exact ⟨cs, (node?_create_of_ne d _ (Nat.ne_of_lt (hfresh h (mem_keys_of_node? hn)))).trans hn⟩

theorem attach (hd : d.Headed) (he : d.src? e = some src) (hne : e ≠ p) (place : Option Nat) :
    (d.attach p e place).Headed := by
  intro h hh
  obtain ⟨cs, hn⟩ := hd h hh
  rw [node?_attach hne, if_neg (hd.ne hh he), hn]
  split
  · exact ⟨_, rfl⟩
  · exact ⟨cs, rfl⟩

/-- The head is not below a script. -/
theorem notMem_below (hd : d.Headed) (hforest : d.Forest) (hh : d.head = some h) (he : d.src? e = some src) :
    h ∉ d.below e := by
  intro hmem
  rcases (hforest.mem_below.mp hmem).cases_parent with heq | ⟨q, hq, hunder⟩
  · exact hd.ne hh he heq
  · obtain rfl := Option.some.inj (hq.symm.trans (hd.parent?_eq hh))
    exact (hforest.notMem_below_script he).1 (hforest.mem_below.mpr hunder)

theorem remove (hd : d.Headed) (hforest : d.Forest) (he : d.src? e = some src) : (d.remove e).Headed := by
  intro h hh
  obtain ⟨nodes, hremove⟩ := d.remove_eq e
  have hh : d.head = some h := by rwa [hremove] at hh
  obtain ⟨cs, hn⟩ := hd h hh
  rw [hforest.node?_remove he, if_neg (hd.notMem_below hforest hh he), hn]
  exact ⟨_, rfl⟩

end Headed

/-- **The head stays where it is**, whatever surgery is done. -/
theorem Reached.headed (h : Reached d) : d.Headed := by
  induction h with
  | build withHead =>
    intro h hh
    cases withHead with
    | false => cases hh
    | true =>
      obtain rfl := Option.some.inj hh
      exact ⟨[], rfl⟩
  | createScript hd src ih => exact ih.createScript hd.forest.fresh src
  | @addPageScript d hd src ih =>
    -- a script is made, and hung from the body, so that the head is not touched
    have hnew := ih.createScript hd.forest.fresh src
    have hsrc := (src?_createScript hd.forest.fresh.next_notMem src d.next).trans (if_pos rfl)
    have hbody : d.next ≠ d.body := Ne.symm (Nat.ne_of_lt (hd.forest.fresh _ hd.forest.body_mem))
    exact hnew.attach hsrc hbody none
  | remove hd he ih => exact ih.remove hd.forest he
  | @insertBefore d e r src hd he hout ih =>
    cases hr : d.parent? r with
    | none =>
      rw [Forest.insertBefore_of_none e hr]
      exact ih
    | some p =>
      -- the script goes before another one, from the parent of that
      obtain ⟨i, -, -, -, -, hinsert⟩ := hd.forest.insertBefore_of_parent e hr
      rw [hinsert]
      exact (ih.attach he.src?_eq (hd.forest.ne_of_notMem_below (hout p hr)) _).load e
  | @append d e p src hd he hout ih =>
    by_cases hp : p ∈ d.keys
    · rw [append_of_mem d e hp]
      exact (ih.attach he.src?_eq (hd.forest.ne_of_notMem_below hout) none).load e
    · rw [append_of_notMem d e hp]
      exact ih
  | takeLoads _ ih => exact ih

/-! ## Guests -/

/-- Parents that stay lead up as before. -/
theorem Under.mono {a : Element} (hparent : ∀ x p, d.parent? x = some p → d'.parent? x = some p) (h : d.Under a x) :
    d'.Under a x := by
  induction h with
  | self => exact .self
  | child hp _ ih => exact .child (hparent _ _ hp) ih

/-- Does a page have a place for scripts of its own: a head, or a script in the tree before which another one can go?
Elements from a number on are not its own. -/
def HasPlace (base : Element) (d : Document) : Prop :=
  d.head.isSome ∨ ∃ s < base, d.Under root s ∧ (d.src? s).isSome

/-- A page with guests, all elements of a number from `base` on. They are scripts, below them are guests only, and they
have come if there is a place for them. -/
structure Hosts (base : Element) (room : Bool) (d : Document) : Prop where
  forest : d.Forest
  headed : d.Headed
  base_le : base ≤ d.next
  scripts : ∀ e ∈ d.keys, base ≤ e → (d.src? e).isSome
  apart : ∀ e p, d.parent? e = some p → base ≤ p → base ≤ e
  place : room = true ↔ HasPlace base d
  invited : ∀ e, d.Under root e → (d.src? e).isSome → room = true

namespace Hosts

variable {base : Element} {room : Bool} (hd : Hosts base room d)
include hd

/-- A guest is made. -/
theorem createScript (src : String) : Hosts base room (d.createScript src).2 := by
  have hnext := hd.forest.fresh.next_notMem
  have hparent : (d.createScript src).2.parent? = d.parent? := funext (parent?_create hnext _)
  have hunder : ∀ x, (d.createScript src).2.Under root x ↔ d.Under root x := fun x =>
    ⟨.mono fun y p hy => hparent ▸ hy, .mono fun y p hy => hparent ▸ hy⟩
  have hroot : root ∈ d.keys := by
    obtain ⟨cs, hn⟩ := hd.forest.root_eq
    exact mem_keys_of_node? hn
  -- the new script is not in the tree, and others are as they were
  have hsrc : ∀ x, d.Under root x → (d.createScript src).2.src? x = d.src? x := by
    intro x hx
    rw [src?_createScript hnext, if_neg]
    rintro rfl
    exact hnext (hx.mem_keys hroot)
  refine ⟨hd.forest.createScript src, hd.headed.createScript hd.forest.fresh src, Nat.le_succ_of_le hd.base_le,
    fun e he hbase => ?_, ?_, ?_, fun e he hscript => ?_⟩
  · rw [src?_createScript hnext]
    split
    · rfl
    · next hne =>
      rw [Document.createScript, keys_create] at he
      exact hd.scripts e ((List.mem_append.mp he).resolve_right fun h => hne (List.mem_singleton.mp h)) hbase
  · rw [hparent]
    exact hd.apart
  · rw [hd.place]
    refine or_congr Iff.rfl ⟨?_, ?_⟩
    · rintro ⟨s, hs, hs', hscript⟩
      exact ⟨s, hs, (hunder s).mpr hs', hsrc s hs' ▸ hscript⟩
    · rintro ⟨s, hs, hs', hscript⟩
      have hs' := (hunder s).mp hs'
      exact ⟨s, hs, hs', hsrc s hs' ▸ hscript⟩
  · have he := (hunder e).mp he
    exact hd.invited e he (hsrc e he ▸ hscript)

/-- A guest is put in, if there is a place for guests. -/
theorem attach (hroom : room = true) (he : d.Loose e src) (hbase : base ≤ e) (hp : p ∈ d.keys) (hout : p ∉ d.below e)
    (place : Option Nat) : Hosts base room (d.attach p e place) := by
  have hne := hd.forest.ne_of_notMem_below hout
  have hparent := parent?_attach hne he.mem_keys place
  have hkeys : (d.attach p e place).keys = d.keys := by rw [Document.attach, keys_update, keys_update]
  refine ⟨hd.forest.attach he hp hout place, hd.headed.attach he.src?_eq hne place, hd.base_le, ?_, fun x q hq hbase' => ?_,
    ⟨fun _ => ?_, fun _ => hroom⟩, fun _ _ _ => hroom⟩
  · rw [hkeys]
    intro x hx hbase'
    rw [src?_attach]
    exact hd.scripts x hx hbase'
  · rw [hparent] at hq
    split at hq
    · next hxe => exact hxe ▸ hbase
    · exact hd.apart x q hq hbase'
  · refine (hd.place.mp hroom).imp_right ?_
    rintro ⟨s, hs, hunder, hscript⟩
    refine ⟨s, hs, ?_, ?_⟩
    · refine hunder.mono fun x q hq => ?_
      rw [hparent, if_neg]
      · exact hq
      · rintro rfl
        cases he.parent?_eq.symm.trans hq
    · rwa [src?_attach]

theorem congr (hnodes : d'.nodes = d.nodes) (hnext : d'.next = d.next) (hbody : d'.body = d.body)
    (hhead : d'.head = d.head) : Hosts base room d' := by
  have hnode : d'.node? = d.node? := funext fun x => by rw [node?, node?, hnodes]
  have hparent : d'.parent? = d.parent? := parent?_of_nodes hnodes
  have hsrc : d'.src? = d.src? := funext fun x => by rw [src?, src?, hnode]
  have hunder : ∀ {x}, d'.Under root x → d.Under root x := .mono fun y p hy => hparent ▸ hy
  refine ⟨hd.forest.congr hnodes hnext hbody, hd.headed.congr hnodes hhead, hnext ▸ hd.base_le, ?_, ?_, ?_,
    fun e he hscript => hd.invited e (hunder he) (hsrc ▸ hscript)⟩
  · rw [keys, hnodes, hsrc]
    exact hd.scripts
  · rw [hparent]
    exact hd.apart
  · rw [hd.place, HasPlace, HasPlace, hhead, hsrc]
    have hback : ∀ {x}, d.Under root x → d'.Under root x := .mono fun y p hy => hparent ▸ hy
    refine or_congr Iff.rfl ⟨?_, ?_⟩
    · rintro ⟨s, hs, hu, hscript⟩
      exact ⟨s, hs, hback hu, hscript⟩
    · rintro ⟨s, hs, hu, hscript⟩
      exact ⟨s, hs, hunder hu, hscript⟩

theorem load (e : Element) : Hosts base room (d.load e) := by
  refine hd.congr (nodes_load d e) ?_ ?_ ?_ <;>
    · unfold Document.load
      split <;> rfl

/-- A new guest that is put into the tree is loaded. -/
theorem loaded (hroom : room = true) (he : d.Loose e src) (hbase : base ≤ e)
    (hp : d.Under root p) (hkeys : p ∈ d.keys) (hout : p ∉ d.below e) (place : Option Nat) :
    Hosts base room ((d.attach p e place).load e) ∧ ((d.attach p e place).load e).loads = d.loads ++ [src] := by
  have hput := hd.attach hroom he hbase hkeys hout place
  have hloaded := hput.load e
  have hparent := parent?_attach (hd.forest.ne_of_notMem_below hout) he.mem_keys place
  have hunder : (d.attach p e place).Under root e := by
    refine .child ((hparent e).trans (if_pos rfl)) (hp.mono fun x q hq => ?_)
    rw [hparent, if_neg]
    · exact hq
    · rintro rfl
      cases he.parent?_eq.symm.trans hq
  have hconnected : ((d.attach p e place).load e).isConnected e = true := by
    rw [isConnected_of_nodes (nodes_load _ e)]
    exact hput.forest.isConnected_iff.mpr hunder
  refine ⟨hloaded, ?_⟩
  rw [loads_load_of ((src?_attach d p e place e).trans he.src?_eq), if_pos hconnected]
  rfl

/-- Below guests are guests only. -/
theorem le_of_under (hbase : base ≤ e) (h : d.Under e x) : base ≤ x := by
  induction h with
  | self => exact hbase
  | child hparent _ ih => exact hd.apart _ _ hparent ih

/-- A guest is taken out, if it is still there. -/
theorem remove (hbase : base ≤ e) : Hosts base room (d.remove e) := by
  by_cases hmem : e ∈ d.keys
  · obtain ⟨src, he⟩ := Option.isSome_iff_exists.mp (hd.scripts e hmem hbase)
    have hforest := hd.forest.remove he
    have hremoved := hd.forest.removed he
    have hroot := (hd.forest.notMem_below_script he).1
    have hown : ∀ s < base, s ∉ d.below e := fun s hs hs' =>
      absurd (hd.le_of_under hbase (hd.forest.mem_below.mp hs')) (Nat.not_le_of_lt hs)
    -- who is left in the tree was there, and is not below the guest
    have hunder : ∀ x, (d.remove e).Under root x ↔ d.Under root x ∧ x ∉ d.below e := by
      intro x
      rw [← hforest.mem_below, hremoved.order root hroot, List.mem_filter, hd.forest.mem_below, decide_eq_true_iff]
    obtain ⟨nodes, hremove⟩ := d.remove_eq e
    have hnext : (d.remove e).next = d.next := by rw [hremove]
    have hhead : (d.remove e).head = d.head := by rw [hremove]
    refine ⟨hforest, hd.headed.remove hd.forest he, hnext ▸ hd.base_le, fun x hx hbase' => ?_, fun x q hq hbase' => ?_, ?_,
      fun x hx hscript => ?_⟩
    · rw [hd.forest.keys_remove he] at hx
      obtain ⟨hx, hnot⟩ := List.mem_filter.mp hx
      rw [(hremoved.kept x (by simpa using hnot)).1]
      exact hd.scripts x hx hbase'
    · rw [hd.forest.parent?_remove he] at hq
      split at hq
      · cases hq
      · exact hd.apart x q hq hbase'
    · rw [hd.place, HasPlace, HasPlace, hhead]
      refine or_congr Iff.rfl ⟨?_, ?_⟩
      · rintro ⟨s, hs, hs', hscript⟩
        exact ⟨s, hs, (hunder s).mpr ⟨hs', hown s hs⟩, (hremoved.kept s (hown s hs)).1 ▸ hscript⟩
      · rintro ⟨s, hs, hs', hscript⟩
        exact ⟨s, hs, ((hunder s).mp hs').1, (hremoved.kept s (hown s hs)).1 ▸ hscript⟩
    · obtain ⟨hx, hnot⟩ := (hunder x).mp hx
      exact hd.invited x hx ((hremoved.kept x hnot).1 ▸ hscript)
  · have hsame : d.remove e = d := by
      rw [Document.remove, node?_eq_none.mpr hmem]
      split <;> rfl
    rw [hsame]
    exact hd

end Hosts

/-- The first script of the tree is one of it. -/
theorem Forest.firstScript_isSome (hd : d.Forest) : d.firstScript.isSome ↔ ∃ s, d.Under root s ∧ (d.src? s).isSome := by
  rw [firstScript, List.find?_isSome]
  exact exists_congr fun s => and_congr_left fun _ => hd.mem_below

/-- Any page has room if it has a head, or a script. -/
theorem Hosts.new (h : Reached d) : Hosts d.next (d.head.isSome || d.firstScript.isSome) d := by
  have hd := h.forest
  have hroot : root ∈ d.keys := by
    obtain ⟨cs, hn⟩ := hd.root_eq
    exact mem_keys_of_node? hn
  have hold : ∀ e ∈ d.keys, ¬ d.next ≤ e := fun e he => Nat.not_le_of_lt (hd.fresh e he)
  refine ⟨hd, h.headed, Nat.le_refl _, fun e he hbase => absurd hbase (hold e he), fun e p hp hbase => ?_, ?_,
    fun e he hscript => ?_⟩
  · exact absurd hbase (hold p (mem_keys_of_mem_children (hd.links.mpr hp)))
  · rw [Bool.or_eq_true, hd.firstScript_isSome]
    refine or_congr Iff.rfl ⟨?_, ?_⟩
    · rintro ⟨s, hs, hscript⟩
      exact ⟨s, hd.fresh s (hs.mem_keys hroot), hs, hscript⟩
    · rintro ⟨s, -, hs, hscript⟩
      exact ⟨s, hs, hscript⟩
  · rw [hd.firstScript_isSome.mpr ⟨e, he, hscript⟩, Bool.or_true]

end Hostlink.Document
