import Hostlink.Proofs.Bridge.Invariants
import Hostlink.Proofs.Document.Scripts
import Hostlink.Proofs.Lists

/-!
# Page and registry agree

Over script tags, every request that waits has a script on the page, in front of the scripts of the
page's own. A request that goes takes its script along.

* `Bridge.insertScript_flat` — where a new script goes;
* `Bridge.Mirror` — page and registry agree;
* `Mirror.erase` — they do when a request goes.
-/

namespace Hostlink.Bridge

open Document (Flat Tree)

variable {σ : Type}

/-! ## Where a new script goes -/

/-- A script outside the tree does not count. -/
theorem tree_createScript {page : Document} {hs bs : List Element} (hf : page.Flat hs bs) (url : String) :
    (page.createScript url).2.Tree hs bs := by
  refine hf.toTree.congr ?_ rfl rfl fun e he => ?_
  · have := hf.size
    simp only [Document.createScript, Document.create, List.length_append]
    omega
  · exact Document.node?_create_of_ne page _ (hf.ne_next he)

theorem src?_load (d : Document) (e x : Element) : (d.load e).src? x = d.src? x := by
  unfold Document.load
  split <;> rfl

/-- The first script of a parent stands at place zero. -/
theorem idxOf?_head (f : Element) (l : List Element) : (f :: l).idxOf? f = some 0 := by
  simp [List.idxOf?_cons]

section

variable {page : Document} {f h : Element} {hs bs : List Element}

theorem insertScript_bare (hf : page.Flat [] []) (hh : page.head = none) (url : String) :
    (insertScript page url).1 = none := by
  have hfirst := (tree_createScript hf url).firstScript_eq
  have hhead : (page.createScript url).2.head = none := hh
  simp [insertScript, hfirst, hhead]

theorem insertScript_first (hf : page.Flat [] []) (hh : page.head = some h) (url : String) :
    insertScript page url = (some page.next, (page.withScript h url none).load page.next) := by
  have hfirst := (tree_createScript hf url).firstScript_eq
  have hhead : (page.createScript url).2.head = some h := hh
  have hsome : ((page.createScript url).2.node? h).isSome = true := by
    rw [(tree_createScript hf url).head_eq h hh]
    rfl
  simp only [insertScript, hfirst, hhead, List.nil_append, List.head?_nil, Document.append, hsome]
  rfl

theorem insertScript_body (hf : page.Flat [] (f :: bs)) (url : String) :
    insertScript page url = (some page.next, (page.withScript page.body url (some 0)).load page.next) := by
  have ht := tree_createScript hf url
  have hfirst := ht.firstScript_eq
  obtain ⟨src, hn⟩ := ht.script_body f List.mem_cons_self
  simp only [insertScript, hfirst, List.nil_append, List.head?_cons, Document.insertBefore, hn, Option.bind_some,
    ht.body_eq, idxOf?_head]
  rfl

theorem insertScript_head (hf : page.Flat (f :: hs) bs) (hh : page.head = some h) (url : String) :
    insertScript page url = (some page.next, (page.withScript h url (some 0)).load page.next) := by
  have ht := tree_createScript hf url
  have hfirst := ht.firstScript_eq
  obtain ⟨h', src, hh', hn⟩ := ht.script_head f List.mem_cons_self
  obtain rfl := Option.some.inj (hh.symm.trans hh')
  simp only [insertScript, hfirst, List.cons_append, List.head?_cons, Document.insertBefore, hn, Option.bind_some,
    ht.head_eq h hh, idxOf?_head]
  rfl

end

/-- A new script stands before all others: in the head if there are scripts in it or none at all,
and else in the body. It has no place where there is neither a script nor a head. -/
theorem insertScript_flat {page : Document} {hs bs : List Element} (hf : page.Flat hs bs) (url : String) :
    ((insertScript page url).1 = none ∧ page.head = none ∧ hs = [] ∧ bs = []) ∨
      ∃ page' hs' bs', insertScript page url = (some page.next, page') ∧ page'.Flat hs' bs' ∧
        page'.loads = page.loads ++ [url] ∧
        (∀ x, page'.src? x = if x = page.next then some url else page.src? x) ∧
        ((hs' = page.next :: hs ∧ bs' = bs ∧ (hs = [] → bs = [])) ∨
          (hs = [] ∧ hs' = [] ∧ bs' = page.next :: bs)) := by
  have hsrc : ∀ (parent : Element) (place : Option Nat) x, (page.withScript parent url place).src? x =
      if x = page.next then some url else page.src? x := fun parent place x =>
    Document.src?_withScript hf.next_fresh parent url place x
  have hload : ∀ (parent : Element) (place : Option Nat) x,
      ((page.withScript parent url place).load page.next).src? x =
        if x = page.next then some url else page.src? x := fun parent place x => by rw [src?_load, hsrc]
  have hself : ∀ (parent : Element) (place : Option Nat),
      (page.withScript parent url place).src? page.next = some url := fun parent place => by rw [hsrc, if_pos rfl]
  rcases hs with _ | ⟨f, hs⟩
  · rcases bs with _ | ⟨f, bs⟩
    · -- no scripts at all
      cases hh : page.head with
      | none => exact .inl ⟨insertScript_bare hf hh url, rfl, rfl, rfl⟩
      | some h =>
        have hflat := hf.withHeadScript hh url none
        exact .inr ⟨_, [page.next], [], insertScript_first hf hh url, hflat.load _,
          hflat.loads_load List.mem_cons_self (hself h none), hload h none, .inl ⟨rfl, rfl, fun _ => rfl⟩⟩
    · have hflat := hf.withBodyScript url (some 0)
      exact .inr ⟨_, [], page.next :: f :: bs, insertScript_body hf url, hflat.load _,
        hflat.loads_load List.mem_cons_self (hself _ _), hload _ _, .inr ⟨rfl, rfl, rfl⟩⟩
  · obtain ⟨h, src, hh, -⟩ := hf.script_head f List.mem_cons_self
    have hflat := hf.withHeadScript hh url (some 0)
    exact .inr ⟨_, page.next :: f :: hs, bs, insertScript_head hf hh url, hflat.load _,
      hflat.loads_load List.mem_cons_self (hself h _), hload h _, .inl ⟨rfl, rfl, fun h => (by cases h)⟩⟩

/-- A script that finds no place leaves nothing but its number. -/
theorem insertScript_flat_none {page : Document} {hs bs : List Element} (hf : page.Flat hs bs) {url : String}
    (h : (insertScript page url).1 = none) : (insertScript page url).2 = { page with next := page.next + 1 } := by
  rw [insertScript_none h]
  exact hf.fresh.remove_createScript (hf.ne_next hf.root_mem).symm url

/-! ## Page and registry -/

/-- The script of an artefact. -/
def Artefact.element? : Artefact → Option Element
  | .script e => some e
  | .fetch _ => none

/-- The script of a slot. -/
def slotScript? (s : Slot Artefact Nat) : Option Element := s.guard.bind Artefact.element?

theorem slotScript?_of_guard {s : Slot Artefact Nat} {e : Element} (hg : s.guard = some (.script e)) :
    slotScript? s = some e := by
  rw [slotScript?, hg]
  rfl

/-- The scripts of the requests that wait, newest first. -/
def requestScripts (r : Registry Artefact Nat) : List Element := (r.slots.filterMap slotScript?).reverse

theorem mem_requestScripts {r : Registry Artefact Nat} {s : Slot Artefact Nat} {e : Element} (hs : s ∈ r.slots)
    (hg : s.guard = some (.script e)) : e ∈ requestScripts r :=
  List.mem_reverse.mpr (List.mem_filterMap.mpr ⟨s, hs, slotScript?_of_guard hg⟩)

/-- The page carries the scripts of requests that wait, newest first, and then scripts of its own with
the sources `srcs`. The request of a number, if it has a script, loads the URL that `url` tells. -/
structure Mirror (url : Nat → Option String) (srcs : List String) (b : Bridge σ) : Prop where
  transport : b.config.transport = .scriptTag
  sound : b.registry.Sound
  layout : ∃ hs bs own, b.page.Flat hs bs ∧
    ((hs = requestScripts b.registry ∧ bs = own) ∨ (hs = [] ∧ bs = requestScripts b.registry ++ own)) ∧
    own.map b.page.src? = srcs.map some
  source : ∀ s ∈ b.registry.slots, ∀ g, s.guard = some g →
    ∃ e, g = .script e ∧ b.page.src? e = url s.number

theorem mem_attachTimer {r : Registry Artefact Nat} {id : String} {t : Nat} {s : Slot Artefact Nat}
    (hs : s ∈ (r.attachTimer id t).2.slots) : ∃ s' ∈ r.slots, s.guard = s'.guard ∧ s.number = s'.number := by
  unfold Registry.attachTimer at hs
  split at hs
  · obtain ⟨s', hs', rfl⟩ := List.mem_map.mp hs
    refine ⟨s', hs', ?_⟩
    split <;> exact ⟨rfl, rfl⟩
  · exact ⟨s, hs, rfl, rfl⟩

theorem requestScripts_attachTimer (r : Registry Artefact Nat) (id : String) (t : Nat) :
    requestScripts (r.attachTimer id t).2 = requestScripts r := by
  unfold Registry.attachTimer
  split
  · rw [requestScripts, requestScripts, Registry.update, List.filterMap_map]
    congr 1
    refine List.filterMap_congr fun s _ => ?_
    simp only [Function.comp_apply, slotScript?]
    split <;> rfl
  · rfl

/-- Scripts of requests stand before scripts of the page's own, wherever they stand. -/
theorem append_of_layout {requests own hs bs : List Element}
    (h : (hs = requests ∧ bs = own) ∨ (hs = [] ∧ bs = requests ++ own)) : hs ++ bs = requests ++ own := by
  rcases h with ⟨rfl, rfl⟩ | ⟨rfl, rfl⟩ <;> rfl

/-- A script that stands before all others is the newest of a request. -/
theorem layout_cons {requests own hs bs hs' bs' : List Element} {e : Element}
    (h : (hs = requests ∧ bs = own) ∨ (hs = [] ∧ bs = requests ++ own))
    (hplace : (hs' = e :: hs ∧ bs' = bs ∧ (hs = [] → bs = [])) ∨ (hs = [] ∧ hs' = [] ∧ bs' = e :: bs)) :
    (hs' = e :: requests ∧ bs' = own) ∨ (hs' = [] ∧ bs' = e :: requests ++ own) := by
  rcases hplace with ⟨rfl, rfl, hnone⟩ | ⟨rfl, rfl, rfl⟩
  · rcases h with ⟨rfl, rfl⟩ | ⟨rfl, hbs⟩
    · exact .inl ⟨rfl, rfl⟩
    · obtain ⟨hrequests, rfl⟩ := List.append_eq_nil_iff.mp (hbs.symm.trans (hnone rfl))
      exact .inl ⟨by rw [hrequests], hnone rfl⟩
  · rcases h with ⟨hrequests, rfl⟩ | ⟨-, rfl⟩
    · exact .inr ⟨rfl, by rw [← hrequests]; rfl⟩
    · exact .inr ⟨rfl, rfl⟩

/-- The page after a request has gone that had a guard, or none. -/
def pageWithout (page : Document) (guard : Option Artefact) : Document :=
  match guard with
  | some (.script e) => page.remove e
  | _ => page

theorem page_settle {b : Bridge σ} {id : String} {slot : Slot Artefact Nat}
    (hf : b.registry.find? id = some slot) (v : Settlement) :
    (b.settle id v).2.page = pageWithout b.page slot.guard := by
  simp only [Bridge.settle, Registry.settle, hf, after, Registry.cleanup]
  rcases slot with ⟨_, _, _, _ | t, _ | (e | n), _⟩ <;> rfl

theorem page_forget {b : Bridge σ} {id : String} {slot : Slot Artefact Nat}
    (hf : b.registry.find? id = some slot) :
    (b.forget id).page = pageWithout b.page slot.guard := by
  simp only [Bridge.forget, Registry.forget, hf, after, Registry.cleanup]
  rcases slot with ⟨_, _, _, _ | t, _ | (e | n), _⟩ <;> rfl

namespace Mirror

variable {url : Nat → Option String} {srcs : List String} {b : Bridge σ} (hm : Mirror url srcs b)
include hm

theorem of_eq {c : Bridge σ} (hconfig : c.config = b.config) (hreg : c.registry = b.registry)
    (hpage : ∀ hs bs, b.page.Flat hs bs → c.page.Flat hs bs) (hsrc : ∀ e, c.page.src? e = b.page.src? e) :
    Mirror url srcs c := by
  obtain ⟨hs, bs, own, hflat, hsplit, hown⟩ := hm.layout
  refine ⟨hconfig ▸ hm.transport, hreg ▸ hm.sound, ⟨hs, bs, own, hpage hs bs hflat, ?_, ?_⟩, ?_⟩
  · rwa [hreg]
  · rw [← hown]
    exact List.map_congr_left fun e _ => hsrc e
  · rw [hreg]
    intro s hs g hg
    obtain ⟨e, rfl, he⟩ := hm.source s hs g hg
    exact ⟨e, rfl, (hsrc e).trans he⟩

theorem same {c : Bridge σ} (hconfig : c.config = b.config) (hreg : c.registry = b.registry)
    (hpage : c.page = b.page) : Mirror url srcs c :=
  hm.of_eq hconfig hreg (fun _ _ h => hpage ▸ h) fun _ => by rw [hpage]

/-- A request that finds no place on the page leaves the scripts there alone. -/
theorem missed {id u : String} {e : Rejection} (h : b.trigger id u = .error e) : Mirror url srcs (b.missed u) := by
  obtain ⟨hs, bs, -, hflat, -⟩ := hm.layout
  rcases trigger_error h with ⟨-, -, -, hmissed⟩ | ⟨-, hnone, -, hmissed⟩
  · rw [hmissed]
    exact hm
  · rw [hmissed, insertScript_flat_none hflat hnone]
    exact hm.of_eq rfl rfl (fun _ _ hf => hf.congr rfl (Nat.le_succ _) rfl rfl) fun _ => rfl

/-- Slots other than one that is found have other ids. -/
theorem ne_iff {slot : Slot Artefact Nat} (hmem : slot ∈ b.registry.slots) :
    ∀ s ∈ b.registry.slots, decide (s.id ≠ slot.id) = true ↔ s ≠ slot := by
  intro s hs
  rw [decide_eq_true_iff, not_iff_not]
  exact ⟨fun h => hm.sound.eq_of_id hs hmem h, fun h => h ▸ rfl⟩

theorem mem_erase {slot s : Slot Artefact Nat} (hmem : slot ∈ b.registry.slots)
    (hs : s ∈ (b.registry.erase slot.id).slots) : s ∈ b.registry.slots ∧ s ≠ slot := by
  obtain ⟨hs, hne⟩ := List.mem_filter.mp hs
  exact ⟨hs, (hm.ne_iff hmem s hs).mp hne⟩

/-- A request without a script goes, and the page stays. -/
theorem erase_bare {c : Bridge σ} {slot : Slot Artefact Nat} (hmem : slot ∈ b.registry.slots)
    (hg : slot.guard = none) (hconfig : c.config = b.config) (hreg : c.registry = b.registry.erase slot.id)
    (hpage : c.page = b.page) : Mirror url srcs c := by
  obtain ⟨hs, bs, own, hflat, hsplit, hown⟩ := hm.layout
  have hsame : requestScripts c.registry = requestScripts b.registry := by
    rw [requestScripts, requestScripts, hreg]
    exact congrArg List.reverse (filterMap_filter_of_none (by simp [slotScript?, hg]) (hm.ne_iff hmem))
  refine ⟨hconfig ▸ hm.transport, hreg ▸ hm.sound.erase _, ⟨hs, bs, own, hpage ▸ hflat, ?_, ?_⟩, fun s hs g hgs => ?_⟩
  · rw [hsame]
    exact hsplit
  · rw [hpage]
    exact hown
  · rw [hreg] at hs
    rw [hpage]
    exact hm.source s (hm.mem_erase hmem hs).1 g hgs

/-- A request with a script goes, and takes it along. -/
theorem erase_script {c : Bridge σ} {slot : Slot Artefact Nat} {e : Element} (hmem : slot ∈ b.registry.slots)
    (hg : slot.guard = some (.script e)) (hconfig : c.config = b.config)
    (hreg : c.registry = b.registry.erase slot.id) (hpage : c.page = b.page.remove e) : Mirror url srcs c := by
  obtain ⟨hs, bs, own, hflat, hsplit, hown⟩ := hm.layout
  -- no script is shown twice, so that the one that goes was that of no other slot and none of the page's own
  have hall := append_of_layout hsplit
  have hnodup : (requestScripts b.registry ++ own).Nodup := hall ▸ hflat.scripts_nodup
  have hscripts : (b.registry.slots.filterMap slotScript?).Nodup :=
    List.nodup_reverse.mp (List.nodup_append.mp hnodup).1
  have hsame : requestScripts c.registry = (requestScripts b.registry).filter (· ≠ e) := by
    rw [requestScripts, requestScripts, hreg, List.filter_reverse]
    exact congrArg List.reverse (filterMap_filter_of hmem hscripts (slotScript?_of_guard hg) (hm.ne_iff hmem))
  have hemem : e ∈ requestScripts b.registry := mem_requestScripts hmem hg
  have hepage : e ∈ hs ++ bs := hall ▸ List.mem_append_left _ hemem
  have heown : e ∉ own := fun h => (List.nodup_append.mp hnodup).2.2 e hemem e h rfl
  have hown' : own.filter (· ≠ e) = own := Document.filter_ne_self heown
  refine ⟨hconfig ▸ hm.transport, hreg ▸ hm.sound.erase _,
    ⟨hs.filter (· ≠ e), bs.filter (· ≠ e), own, hpage ▸ hflat.remove hepage, ?_, ?_⟩, fun s hs g hgs => ?_⟩
  · rw [hsame]
    rcases hsplit with ⟨rfl, rfl⟩ | ⟨rfl, rfl⟩
    · exact .inl ⟨rfl, hown'⟩
    · exact .inr ⟨rfl, by rw [List.filter_append, hown']⟩
  · rw [hpage, ← hown]
    exact List.map_congr_left fun x hx => hflat.src?_remove hepage fun h => heown (h ▸ hx)
  · rw [hreg] at hs
    obtain ⟨hs, hne⟩ := hm.mem_erase hmem hs
    obtain ⟨e', rfl, he'⟩ := hm.source s hs g hgs
    have hne' : e' ≠ e := ne_of_nodup_filterMap hscripts hs hmem hne (slotScript?_of_guard hgs) (slotScript?_of_guard hg)
    exact ⟨e', rfl, by rw [hpage]; exact (hflat.src?_remove hepage hne').trans he'⟩

/-- A request that goes takes its script along, if it has one. -/
theorem erase {c : Bridge σ} {id : String} {slot : Slot Artefact Nat}
    (hf : b.registry.find? id = some slot) (hconfig : c.config = b.config)
    (hreg : c.registry = b.registry.erase id) (hpage : c.page = pageWithout b.page slot.guard) :
    Mirror url srcs c := by
  obtain ⟨hmem, rfl⟩ := hm.sound.find?_eq_some.mp hf
  cases hg : slot.guard with
  | none =>
    rw [hg] at hpage
    exact hm.erase_bare hmem hg hconfig hreg hpage
  | some g =>
    obtain ⟨e, rfl, -⟩ := hm.source slot hmem g hg
    rw [hg] at hpage
    exact hm.erase_script hmem hg hconfig hreg hpage

theorem settle (id : String) (v : Settlement) : Mirror url srcs (b.settle id v).2 := by
  cases hf : b.registry.find? id with
  | none =>
    rw [settle_of_not_pending (by simp [Registry.isPending, hf])]
    exact hm
  | some slot =>
    refine hm.erase hf ?_ ?_ (page_settle hf v)
    · simp [Bridge.settle]
    · simp [Bridge.settle, Registry.settle, hf]

theorem forget (id : String) : Mirror url srcs (b.forget id) := by
  cases hf : b.registry.find? id with
  | none =>
    rw [forget_of_not_pending (by simp [Registry.isPending, hf])]
    exact hm
  | some slot =>
    refine hm.erase hf ?_ ?_ (page_forget hf)
    · simp [Bridge.forget]
    · simp [Bridge.forget, Registry.forget, hf]

/-- A request that is registered has no script yet. -/
theorem registered (path : String) : Mirror url srcs (b.registered path) := by
  obtain ⟨hs, bs, own, hflat, hsplit, hown⟩ := hm.layout
  have hsame : requestScripts (b.registered path).registry = requestScripts b.registry := by
    simp [requestScripts, Bridge.registered, Registry.register, slotScript?]
  refine ⟨hm.transport, hm.sound.register path b.clock, ⟨hs, bs, own, hflat, ?_, hown⟩,
    fun s hs g hg => ?_⟩
  · rw [hsame]; exact hsplit
  · rcases List.mem_append.mp hs with hs | hs
    · exact hm.source s hs g hg
    · rw [List.mem_singleton.mp hs] at hg
      cases hg

/-- A timer changes no scripts. -/
theorem attachTimer (id : String) (t : Nat) : Mirror url srcs (b.attachTimer id t) := by
  have hpage : (b.attachTimer id t).page = b.page := page_after_attachTimer b _ id t
  have hreg : (b.attachTimer id t).registry = (b.registry.attachTimer id t).2 := registry_after ..
  have hsound : (b.attachTimer id t).registry.Sound := hreg ▸ hm.sound.attachTimer id t
  obtain ⟨hs, bs, own, hflat, hsplit, hown⟩ := hm.layout
  refine ⟨(config_after b ..).symm ▸ hm.transport, hsound, ⟨hs, bs, own, hpage ▸ hflat, ?_, ?_⟩, fun s hs g hg => ?_⟩
  · rw [hreg, requestScripts_attachTimer]
    exact hsplit
  · rw [hpage]
    exact hown
  · rw [hreg] at hs
    obtain ⟨s', hs', hguard, hnumber⟩ := mem_attachTimer hs
    rw [hpage, hnumber]
    exact hm.source s' hs' g (hguard ▸ hg)

end Mirror

end Hostlink.Bridge
