import Hostlink.Proofs.Bridge.World.StandsIn
import Hostlink.Proofs.Document.Guests

/-!
# Pages that take scripts

Whether a page takes the script of a request does not depend on the requests that wait: scripts that come and go leave
the head alone, and the scripts that the page had itself.

* `Bridge.insertScript_cases` — a script of a request is taken in, and loaded, as long as there is room;
* `Bridge.Housed` — the scripts of all requests are guests of the page;
* `Bridge.takes_run` — **the page takes scripts as it did at first**, after any run.
-/

namespace Hostlink.Bridge

open Document (Hosts)

variable {σ : Type} {b c : Bridge σ} {base : Element} {room : Bool} {d : Document}

/-- **A script is taken in and loaded, as long as there is room.** -/
theorem insertScript_cases (hd : Hosts base room d) (url : String) :
    (room = true ∧ ∃ page, insertScript d url = (some d.next, page) ∧ Hosts base room page ∧
      page.loads = d.loads ++ [url]) ∨
      room = false ∧ ∃ page, insertScript d url = (none, page) ∧ Hosts base room page := by
  let made := (d.createScript url).2
  have hmade : Hosts base room made := hd.createScript url
  have hnode : made.node? d.next = some ⟨.script url, none, []⟩ :=
    Document.node?_create_self _ hd.forest.fresh.next_notMem
  have hloose : made.Loose d.next url := ⟨[], hnode⟩
  have hchildren : made.children d.next = [] := by
    rw [Document.children, hnode]
    rfl
  have hout : ∀ p, p ≠ d.next → p ∉ made.below d.next := by
    intro p hne hmem
    rw [hmade.forest.below_eq, hchildren] at hmem
    exact hne (List.mem_singleton.mp hmem)
  have hroot : Document.root ∈ made.keys := by
    obtain ⟨cs, hn⟩ := hmade.forest.root_eq
    exact Document.mem_keys_of_node? hn
  -- wherever in the tree the script goes, it is loaded
  have hput : room = true → ∀ p place, made.Under Document.root p → p ≠ d.next →
      Hosts base room ((made.attach p d.next place).load d.next) ∧
        ((made.attach p d.next place).load d.next).loads = d.loads ++ [url] := fun hroom p place hp hne =>
    hmade.loaded hroom hloose hd.base_le hp (hp.mem_keys hroot) (hout p hne) place
  have hcreate : d.createScript url = (d.next, made) := rfl
  rw [insertScript, hcreate]
  dsimp only
  cases hfirst : made.firstScript with
  | some first =>
    have hscript : (made.src? first).isSome := by simpa using List.find?_some hfirst
    have hunder : made.Under Document.root first := hmade.forest.mem_below.mp (List.mem_of_find?_eq_some hfirst)
    have hroom := hmade.invited first hunder hscript
    obtain ⟨src, hsrc⟩ := Option.isSome_iff_exists.mp hscript
    -- a script is not the root, so that there is a place before it
    obtain ⟨p, hp, hup⟩ := hunder.cases_parent.resolve_left (hmade.forest.script_ne hsrc).1
    obtain ⟨i, -, -, -, -, hbefore⟩ := hmade.forest.insertBefore_of_parent d.next hp
    have hne : p ≠ d.next := by
      rintro rfl
      have hchild := hmade.forest.links.mpr hp
      rw [hchildren] at hchild
      cases hchild
    exact .inl ⟨hroom, _, by simp only [hbefore, if_true], hput hroom p (some i) hup hne⟩
  | none =>
    cases hhead : made.head with
    | some head =>
      have hroom : room = true := hmade.place.mpr (.inl (by rw [hhead]; rfl))
      have hunder : made.Under Document.root head := .of_parent (hmade.headed.parent?_eq hhead)
      have happend := Document.append_of_mem made d.next (hunder.mem_keys hroot)
      exact .inl ⟨hroom, _, by simp only [happend, if_true],
        hput hroom head none hunder (hmade.headed.ne hhead hloose.src?_eq)⟩
    | none =>
      have hroom : room = false := by
        refine Bool.eq_false_iff.mpr fun hroom => ?_
        rcases hmade.place.mp hroom with hsome | ⟨s, -, hs, hscript⟩
        · rw [hhead] at hsome
          cases hsome
        · have hsome := hmade.forest.firstScript_isSome.mpr ⟨s, hs, hscript⟩
          rw [hfirst] at hsome
          cases hsome
      exact .inr ⟨hroom, _, rfl, hmade.remove hd.base_le⟩

/-- Whether a page takes a script, is a matter of its room. -/
theorem takes_of_hosts (hd : Hosts base room d) : Takes d room where
  isSome_eq url := by
    rcases insertScript_cases hd url with ⟨hroom, page, hins, -⟩ | ⟨hroom, page, hins, -⟩
    all_goals
      rw [hins, hroom]
      rfl
  loads url e page hins := by
    rcases insertScript_cases hd url with ⟨-, page', hins', -, hloads⟩ | ⟨-, page', hins', -⟩
    all_goals rw [hins] at hins'
    · rw [(Prod.mk.inj hins').2]
      exact hloads
    · cases hins'

/-! ## Runs -/

/-- The scripts of all requests are guests of the page. -/
structure Housed (base : Element) (room : Bool) (b : Bridge σ) : Prop where
  hosts : Hosts base room b.page
  guards : ∀ s ∈ b.registry.slots, ∀ e, s.guard = some (.script e) → base ≤ e

namespace Housed

/-- Requests end, and guests are taken out. -/
theorem after (hb : Housed base room b) {effects : List (Effect Artefact Nat)} {r : Registry Artefact Nat}
    (heffects : ∀ e, .release (.script e) ∈ effects → base ≤ e)
    (hr : ∀ s ∈ r.slots, ∀ e, s.guard = some (.script e) → base ≤ e) : Housed base room (b.after effects r) := by
  refine ⟨?_, by rw [registry_after]; exact hr⟩
  have key : ∀ c : Bridge σ, Hosts base room c.page → Hosts base room (effects.foldl perform c).page := by
    induction effects with
    | nil => exact fun c hc => hc
    | cons e es ih =>
      intro c hc
      refine ih (fun e' he' => heffects e' (List.mem_cons_of_mem _ he')) _ ?_
      rcases e with t | (e | n) | _ | _ | _
      -- the script of a request is a guest, so that the page itself stays as it is
      case release.script => exact hc.remove (heffects e List.mem_cons_self)
      all_goals exact hc
  exact key _ hb.hosts

theorem same (hb : Housed base room b) (hreg : c.registry = b.registry) (hnodes : c.page.nodes = b.page.nodes)
    (hnext : c.page.next = b.page.next) (hbody : c.page.body = b.page.body) (hhead : c.page.head = b.page.head) :
    Housed base room c :=
  ⟨hb.hosts.congr hnodes hnext hbody hhead, hreg ▸ hb.guards⟩

theorem settle (hb : Housed base room b) (id : String) (v : Settlement) : Housed base room (b.settle id v).2 := by
  rw [Bridge.settle, Registry.settle]
  cases hfind : b.registry.find? id with
  | none => exact hb
  | some slot =>
    refine hb.after (fun e he => ?_) fun s hs => hb.guards s (List.mem_filter.mp hs).1
    exact hb.guards slot (List.mem_of_find?_eq_some hfind) e (by simpa [Registry.cleanup] using he)

theorem forget (hb : Housed base room b) (id : String) : Housed base room (b.forget id) := by
  rw [Bridge.forget, Registry.forget]
  cases hfind : b.registry.find? id with
  | none => exact hb
  | some slot =>
    refine hb.after (fun e he => ?_) fun s hs => hb.guards s (List.mem_filter.mp hs).1
    exact hb.guards slot (List.mem_of_find?_eq_some hfind) e (by simpa [Registry.cleanup] using he)

theorem attachTimer (hb : Housed base room b) (id : String) (t : Nat) : Housed base room (b.attachTimer id t) := by
  rw [Bridge.attachTimer, Registry.attachTimer]
  split
  · refine hb.after (fun e he => absurd he List.not_mem_nil) fun s hs e he => ?_
    obtain ⟨s', hs', rfl⟩ := List.mem_map.mp hs
    refine hb.guards s' hs' e ?_
    rw [← he]
    split <;> rfl
  · exact hb.after (fun e he => by simp at he) hb.guards

theorem attachGuard (hb : Housed base room b) (id : String) {g : Artefact} (hg : ∀ e, g = .script e → base ≤ e) :
    Housed base room (b.attachGuard id g) := by
  rw [Bridge.attachGuard, Registry.attachGuard]
  cases hfind : b.registry.find? id with
  | none => exact hb.after (fun e he => hg e (by simpa [eq_comm] using he)) hb.guards
  | some slot =>
    refine hb.after (fun e he => ?_) fun s hs e he => ?_
    · exact hb.guards slot (List.mem_of_find?_eq_some hfind) e (by simpa using he)
    · obtain ⟨s', hs', rfl⟩ := List.mem_map.mp hs
      split at he
      · exact hg e (Option.some.inj he)
      · exact hb.guards s' hs' e he

theorem trigger (hb : Housed base room b) {id url : String} (h : b.trigger id url = .ok c) : Housed base room c := by
  rcases trigger_ok h with ⟨-, rfl⟩ | ⟨-, e, page, hins, rfl⟩
  · have hasked : Housed base room (b.asked id url) := hb.same rfl rfl rfl rfl rfl
    exact hasked.attachGuard id fun e he => by cases he
  · obtain ⟨ready, hshown⟩ := shown_eq b page
    rcases insertScript_cases hb.hosts url with ⟨-, page', hins', hosts, -⟩ | ⟨-, page', hins', -⟩
    all_goals rw [hins] at hins'
    · obtain ⟨he, rfl⟩ := Prod.mk.inj hins'
      have hplaced : Housed base room (b.shown page) := by
        rw [hshown]
        exact ⟨hosts, hb.guards⟩
      refine hplaced.attachGuard id fun e' he' => ?_
      -- the new script has the number that was free, and guests have numbers from the first free one on
      rw [← Artefact.script.inj he', Option.some.inj he]
      exact hb.hosts.base_le
    · cases hins'

theorem missed (hb : Housed base room b) {id url : String} {e : Rejection} (h : b.trigger id url = .error e) :
    Housed base room (b.missed url) := by
  rcases trigger_error h with ⟨-, -, -, hmissed⟩ | ⟨-, -, -, hmissed⟩
  · rw [hmissed]
    exact hb
  · rw [hmissed]
    refine ⟨?_, hb.guards⟩
    -- a script that could not be put into the page has been made, and is taken out again
    rcases insertScript_cases hb.hosts url with ⟨-, page, hins, hosts, -⟩ | ⟨-, page, hins, hosts⟩
    all_goals
      rw [hins]
      exact hosts

theorem call (hb : Housed base room b) (path : String) (args : Args) (timeout : Option Nat) :
    Housed base room (b.call path args timeout).2 := by
  refine call_of (P := Housed base room) (fun path hb => ⟨hb.hosts, fun s hs e he => ?_⟩) (fun id v hb => hb.settle id v)
    (fun {b b'} id ms harm hb => ?_) (fun id url h hb => hb.trigger h) (fun id url e h hb => hb.missed h) hb path args
    timeout
  · rcases List.mem_append.mp hs with hs | hs
    · exact hb.guards s hs e he
    · rw [List.mem_singleton.mp hs] at he
      cases he
  · have harmed : Housed base room (b.armed id ms) := hb.same rfl rfl rfl rfl rfl
    exact armTimer_ok harm ▸ harmed.attachTimer id _

theorem reply (hb : Housed base room b) (n : Nat) (r : FetchReply) : Housed base room (b.reply n r).2 := by
  obtain ⟨fetches, ready, heq⟩ := reply_eq b n r
  rw [heq]
  exact hb.same rfl rfl rfl rfl rfl

end Housed

theorem invariant_housed (base : Element) (room : Bool) : Invariant (fun b : Bridge σ => Housed base room b) where
  settle id v hb := hb.settle id v
  forget id hb := hb.forget id
  readInbox _ hb := hb.same rfl rfl rfl rfl rfl
  dropInbox _ hb := hb.same rfl rfl rfl rfl rfl
  answer _ hb := hb.same rfl rfl rfl rfl rfl
  takeLoads _ _ hb := hb.same rfl rfl rfl rfl rfl
  setPhase _ _ hb := hb.same rfl rfl rfl rfl rfl
  endAborted hb := hb.same rfl rfl rfl rfl rfl
  work _ _ _ _ _ hb := hb.same rfl rfl rfl rfl rfl
  pushes _ _ _ hb := hb.same rfl rfl rfl rfl rfl

/-- **The page takes scripts as it did at first**, after every run. -/
theorem takes_run {config : Config} {actual : Transport} {runtime : Bool} {page : Document} {host : Host σ}
    (hb : Bridge.new config actual runtime page host = .ok b) (hpage : page.Reached) (ops : List Op) :
    Takes ((Session.new b).run ops).bridge.page (page.head.isSome || page.firstScript.isSome) := by
  have hfirst : Housed page.next (page.head.isSome || page.firstScript.isSome) (Session.new b).bridge := by
    obtain ⟨-, -, rfl⟩ := new_eq_ok hb
    exact ⟨.new hpage, fun s hs => absurd hs List.not_mem_nil⟩
  have hrun := (invariant_housed page.next _).run ops (fun _ path args timeout hb => hb.call path args timeout)
    (fun n r _ _ hb => hb.reply n r) hfirst
  exact takes_of_hosts hrun.hosts

end Hostlink.Bridge
