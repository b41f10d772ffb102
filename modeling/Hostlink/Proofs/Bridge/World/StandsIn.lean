import Hostlink.Proofs.Bridge.Intake
import Hostlink.Proofs.Bridge.Timers
import Hostlink.Proofs.Bridge.World

/-!
# A bridge in its world

A bridge does what goes on in its world for the requests that wait. It has the same host, clock and timers, its work is
that part of the work of the world that is for requests that wait, and it has given up the rest.

* `Bridge.wants` — the tasks of requests that wait;
* `Bridge.StandsIn` — a bridge in its world;
* `StandsIn.settle`, `StandsIn.forget` — a request that ends changes nothing in the world;
* `StandsIn.call` — **a call sets the same going in both**.
-/

namespace Hostlink.Bridge

open Registry (Ending Event History)

variable {σ : Type}

/-! ## Fetches that are given up -/

theorem abort_abort (f : Fetch) : Fetch.abort (Fetch.abort f) = Fetch.abort f := by
  unfold Fetch.abort
  by_cases hgone : f.phase = .gone <;> simp [hgone]

/-- A fetch is given up if an effect stops it. -/
theorem fetch_after (b : Bridge σ) (effects : List (Effect Artefact Nat)) (r : Registry Artefact Nat) (n : Nat) :
    (b.after effects r).fetches[n]? =
      b.fetches[n]?.map fun f => if stopped effects (.fetch n) then Fetch.abort f else f := by
  have key : ∀ c : Bridge σ, (effects.foldl perform c).fetches[n]? =
      c.fetches[n]?.map fun f => if stopped effects (.fetch n) then Fetch.abort f else f := by
    induction effects with
    | nil => exact fun c => by simp [stopped]
    | cons e es ih =>
      intro c
      have hfirst : (c.perform e).fetches[n]? =
          c.fetches[n]?.map fun f => if stops e = some (.fetch n) then Fetch.abort f else f := by
        rcases e with t | (e | m) | _ | _ | _ <;> simp [perform, stops, List.getElem?_modify]
      have hstopped : stopped (e :: es) (.fetch n) = (decide (stops e = some (.fetch n)) || stopped es (.fetch n)) :=
        List.any_cons
      rw [List.foldl_cons, ih, hfirst, Option.map_map, hstopped]
      refine congrArg (Option.map · c.fetches[n]?) (funext fun f => ?_)
      by_cases he : stops e = some (.fetch n) <;> cases stopped es (.fetch n) <;> simp [he, abort_abort]
  exact key _

theorem length_fetches_after (b : Bridge σ) (effects : List (Effect Artefact Nat)) (r : Registry Artefact Nat) :
    (b.after effects r).fetches.length = b.fetches.length := by
  have h := congrArg List.length (fetchIds_after b effects r)
  rwa [fetchIds, fetchIds, List.length_map, List.length_map] at h

/-! ## Bridges and worlds -/

/-- A task is for a request that waits, or for the host. -/
def wants (b : Bridge σ) (w : World σ) (t : Task) : Bool := (w.owner? t).all b.registry.isPending

/-- What both sides are made of, but for requests and work. -/
def scene (b : Bridge σ) : Config × Bool × Host σ × Nat × List String × List Timer :=
  (b.config, b.runtime, b.host, b.clock, b.page.loads, b.timers)

theorem scene_after (b : Bridge σ) (effects : List (Effect Artefact Nat)) (r : Registry Artefact Nat) :
    (b.after effects r).scene = b.scene := by
  refine foldl_perform_of scene effects (fun e _ b => ?_) _
  rcases e with _ | (e | _) | _ | _ | _
  case release.script => simp only [scene, perform, Document.loads_remove]
  all_goals rfl

/-- The same of a world. -/
def World.scene (w : World σ) : Config × Bool × Host σ × Nat × List String × List Timer :=
  (w.config, w.runtime, w.host, w.clock, w.loads, w.timers)

/-- A fetch as far as its request cares: it has its reply or waits for it, and it is given up if the request does not
wait. -/
structure FetchStands (b : Bridge σ) (w : World σ) (n : Nat) (f : Fetch) (reply : Option FetchReply) : Prop where
  answered_eq : f.answered = reply.isSome
  live : b.registry.isPending f.id = true →
    f.reply = reply ∧ f.phase = if Task.fetch n ∈ w.work then .ready else .parked
  dead : b.registry.isPending f.id = false → f.phase = .aborted ∨ f.phase = .gone

/-- All that matters is whether the request waits, and whether the fetch is to run. -/
theorem FetchStands.congr {b c : Bridge σ} {w v : World σ} {n : Nat} {f : Fetch} {reply : Option FetchReply}
    (h : FetchStands b w n f reply) (hpending : c.registry.isPending f.id = b.registry.isPending f.id)
    (hwork : Task.fetch n ∈ v.work ↔ Task.fetch n ∈ w.work) : FetchStands c v n f reply := by
  refine ⟨h.answered_eq, fun hlive => ?_, fun hdead => h.dead (hpending ▸ hdead)⟩
  simp only [hwork]
  exact h.live (hpending ▸ hlive)

/-- A bridge does what goes on in its world, for the requests that wait. -/
structure StandsIn (b : Bridge σ) (w : World σ) : Prop where
  sound : b.registry.Sound
  scene_eq : w.scene = b.scene
  stem_eq : b.registry.stem = b.config.callbackStem
  count_eq : b.registry.count = w.calls.length
  ready_eq : b.ready = w.work.filter (b.wants w)
  sleepers_eq : b.sleepers = w.sleepers.filter fun n => b.wants w (.timer n)
  /-- A request that waits has all tasks that are for it, and no others. -/
  owned : ∀ s ∈ b.registry.slots, ∀ t, Owns s t ↔ w.owner? t = some s.id
  issued : ∀ t id, w.owner? t = some id → b.Issued id
  /-- All work is for some request, or for the host. -/
  known : ∀ t, t ∈ w.work ∨ (∃ n ∈ w.sleepers, t = .timer n) → t = .serve ∨ (w.owner? t).isSome
  length_eq : b.fetches.length = w.fetches.length
  fetches : ∀ n f id reply, b.fetches[n]? = some f → w.fetches[n]? = some (id, reply) →
    f.id = id ∧ FetchStands b w n f reply

/-- A page takes scripts and loads them, or it takes none. -/
structure Takes (page : Document) (room : Bool) : Prop where
  isSome_eq : ∀ url, (insertScript page url).1.isSome = room
  loads : LoadsScripts page

namespace StandsIn

variable {b c : Bridge σ} {w v : World σ} {id : String}

section

variable (h : StandsIn b w)
include h

theorem config_eq : w.config = b.config := (Prod.mk.inj h.scene_eq).1

theorem runtime_eq : w.runtime = b.runtime := (Prod.mk.inj (Prod.mk.inj h.scene_eq).2).1

theorem host_eq : w.host = b.host := congrArg (·.2.2.1) h.scene_eq

theorem clock_eq : w.clock = b.clock := congrArg (·.2.2.2.1) h.scene_eq

theorem loads_eq : w.loads = b.page.loads := congrArg (·.2.2.2.2.1) h.scene_eq

theorem timers_eq : w.timers = b.timers := congrArg (·.2.2.2.2.2) h.scene_eq

theorem idOf_eq (k : Nat) : w.idOf k = b.idOf k := by rw [World.idOf, idOf, h.config_eq, h.stem_eq]

/-! ## The end of requests -/

/-- **A request that ends takes its tasks along**, and nothing changes in the world. -/
theorem release {slot : Slot Artefact Nat} (hslot : slot ∈ b.registry.slots) {rest : List (Effect Artefact Nat)}
    (hrest : ∀ e ∈ rest, stops e = none) :
    StandsIn (b.after (Registry.cleanup slot ++ rest) (b.registry.erase slot.id)) w := by
  let d := b.after (Registry.cleanup slot ++ rest) (b.registry.erase slot.id)
  have hreg : d.registry = b.registry.erase slot.id := registry_after ..
  have hpending : ∀ id, d.registry.isPending id = (! decide (id = slot.id) && b.registry.isPending id) := by
    intro id
    rw [hreg, Registry.isPending_erase]
  have hslotPending : b.registry.isPending slot.id = true := Registry.isPending_iff.mpr ⟨slot, hslot, rfl⟩
  -- the tasks that are stopped are those of the request
  have hstopped : ∀ t, stopped (Registry.cleanup slot ++ rest) t = decide (w.owner? t = some slot.id) := by
    intro t
    rw [Bool.eq_iff_iff, decide_eq_true_iff, stopped_cleanup hrest, h.owned slot hslot]
  have hwants : ∀ t, d.wants w t = (! stopped (Registry.cleanup slot ++ rest) t && b.wants w t) := by
    intro t
    rw [hstopped, wants, wants]
    cases w.owner? t with
    | none => simp
    | some id => simp [hpending]
  have hsound : d.registry.Sound := by
    rw [hreg]
    exact h.sound.erase slot.id
  have hissued : ∀ id, b.Issued id → d.Issued id := fun id hid =>
    hid.of_eq (by rw [hreg]; rfl) (by rw [hreg]; exact Nat.le_refl _)
  refine ⟨hsound, ?_, ?_, ?_, ?_, ?_, fun s hs t => ?_, fun t id ht => hissued id (h.issued t id ht), h.known, ?_,
    fun n f id reply hf hreply => ?_⟩
  · rw [scene_after, h.scene_eq]
  · rw [config_after, registry_after]
    exact h.stem_eq
  · rw [hreg]
    exact h.count_eq
  · rw [ready_after, h.ready_eq, List.filter_filter]
    exact List.filter_congr fun t _ => (hwants t).symm
  · rw [sleepers_after, h.sleepers_eq, List.filter_filter]
    exact List.filter_congr fun n _ => (hwants (.timer n)).symm
  · rw [registry_after] at hs
    exact h.owned s (List.mem_filter.mp hs).1 t
  · rw [length_fetches_after, h.length_eq]
  · rw [fetch_after] at hf
    obtain ⟨g, hg, rfl⟩ := Option.map_eq_some_iff.mp hf
    obtain ⟨rfl, hstands⟩ := h.fetches n g id reply hg hreply
    have howner : w.owner? (.fetch n) = some g.id := by rw [World.owner?, hreply]; rfl
    have hstop : stopped (Registry.cleanup slot ++ rest) (.fetch n) = decide (g.id = slot.id) := by
      rw [hstopped, howner]
      simp
    by_cases hid : g.id = slot.id
    · -- this is the fetch of the request, which waited, so that it was ready or parked
      rw [if_pos (by rw [hstop]; exact decide_eq_true hid)]
      obtain ⟨-, hphase⟩ := hstands.live (hid ▸ hslotPending)
      have hnotGone : g.phase ≠ .gone := by
        rw [hphase]
        split <;> simp
      have habort : Fetch.abort g = { g with phase := .aborted } := if_neg hnotGone
      rw [habort]
      refine ⟨rfl, hstands.answered_eq, fun hlive => ?_, fun _ => .inl rfl⟩
      rw [hpending, hid] at hlive
      simp at hlive
    · rw [if_neg (by rw [hstop]; simpa using hid)]
      have hsame : d.registry.isPending g.id = b.registry.isPending g.id := by
        rw [hpending]
        simp [hid]
      exact ⟨rfl, hstands.congr hsame Iff.rfl⟩

end

/-- A request is settled, if it waits. -/
theorem settle (h : StandsIn b w) (id : String) (v : Settlement) : StandsIn (b.settle id v).2 w := by
  rw [Bridge.settle, Registry.settle]
  cases hfind : b.registry.find? id with
  | none => exact h
  | some slot =>
    obtain ⟨hslot, rfl⟩ := h.sound.find?_eq_some.mp hfind
    exact h.release hslot (by simp [stops])

theorem forget (h : StandsIn b w) (id : String) : StandsIn (b.forget id) w := by
  rw [Bridge.forget, Registry.forget]
  cases hfind : b.registry.find? id with
  | none => exact h
  | some slot =>
    obtain ⟨hslot, rfl⟩ := h.sound.find?_eq_some.mp hfind
    exact h.release hslot (by simp [stops])

/-! ## Changes to both -/

/-- The same requests wait, and the work has changed on both sides. -/
theorem change (h : StandsIn b w) (hreg : c.registry = b.registry) (hconfig : c.config = b.config)
    (hscene : v.scene = c.scene) (hcalls : v.calls = w.calls) (howner : v.owner? = w.owner?)
    (hready : c.ready = v.work.filter (b.wants w))
    (hsleepers : c.sleepers = v.sleepers.filter fun n => b.wants w (.timer n))
    (hknown : ∀ t, t ∈ v.work ∨ (∃ n ∈ v.sleepers, t = .timer n) → t = .serve ∨ (w.owner? t).isSome)
    (hlength : c.fetches.length = v.fetches.length)
    (hfetches : ∀ n f id reply, c.fetches[n]? = some f → v.fetches[n]? = some (id, reply) →
      f.id = id ∧ FetchStands c v n f reply) : StandsIn c v := by
  have hwants : c.wants v = b.wants w := by
    funext t
    rw [wants, wants, howner, hreg]
  refine ⟨hreg ▸ h.sound, hscene, ?_, ?_, ?_, ?_, ?_, ?_, ?_, hlength, hfetches⟩
  · rw [hreg, hconfig, h.stem_eq]
  · rw [hreg, hcalls, h.count_eq]
  · rw [hwants, hready]
  · rw [hwants, hsleepers]
  · rw [hreg, howner]
    exact h.owned
  · rw [howner]
    exact fun t id ht => (h.issued t id ht).of_eq (by rw [hreg]) (by rw [hreg])
  · rw [howner]
    exact hknown

/-- The same requests wait, and all work is left. -/
theorem same (h : StandsIn b w) (hreg : c.registry = b.registry) (hconfig : c.config = b.config)
    (hscene : v.scene = c.scene) (hcalls : v.calls = w.calls) (htimers : v.timers = w.timers)
    (hfetches : v.fetches = w.fetches) (hwork : v.work = w.work) (hready : c.ready = b.ready)
    (hsleep : v.sleepers = w.sleepers) (hsleepers : c.sleepers = b.sleepers) (hfetches' : c.fetches = b.fetches) :
    StandsIn c v := by
  have howner : v.owner? = w.owner? := by
    funext t
    cases t <;> simp only [World.owner?, htimers, hfetches]
  refine h.change hreg hconfig hscene hcalls howner ?_ ?_ ?_ ?_ fun n f id reply hf hreply => ?_
  · rw [hready, hwork, h.ready_eq]
  · rw [hsleepers, hsleep, h.sleepers_eq]
  · rw [hwork, hsleep]
    exact h.known
  · rw [hfetches', hfetches, h.length_eq]
  · obtain ⟨hid, hstands⟩ := h.fetches n f id reply (hfetches' ▸ hf) (hfetches ▸ hreply)
    exact ⟨hid, hstands.congr (by rw [hreg]) (by rw [hwork])⟩

/-- Whatever is done at the page leaves the world alone. -/
theorem caller (w : World σ) : CallerInvariant (fun b : Bridge σ => StandsIn b w) where
  settle id v h := h.settle id v
  forget id h := h.forget id
  readInbox _ h := h.same rfl rfl h.scene_eq rfl rfl rfl rfl rfl rfl rfl rfl
  dropInbox _ h := h.same rfl rfl h.scene_eq rfl rfl rfl rfl rfl rfl rfl rfl
  pushes _ _ _ _ h := h.same rfl rfl h.scene_eq rfl rfl rfl rfl rfl rfl rfl rfl

/-! ## Calls -/

/-- A new request has no tasks. -/
theorem registered (h : StandsIn b w) (path : String) (isCall : Bool) :
    StandsIn (b.registered path) { w with calls := w.calls ++ [isCall] } := by
  let new := b.idOf b.registry.count
  have howner : ∀ t, ({ w with calls := w.calls ++ [isCall] } : World σ).owner? t = w.owner? t := by
    intro t
    cases t <;> rfl
  -- no task is for an id that was not given out
  have hfresh : ∀ t id, w.owner? t = some id → id ≠ new := by
    rintro t id ht rfl
    obtain ⟨n, hn, heq⟩ := h.issued t _ ht
    exact Nat.ne_of_gt hn (Registry.idOf_inj.mp heq)
  have hpending : ∀ id, id ≠ new → (b.registered path).registry.isPending id = b.registry.isPending id := by
    intro id hid
    have hslots : (b.registered path).registry.slots =
        b.registry.slots ++ [⟨new, b.registry.count, path, none, none, b.clock⟩] := rfl
    rw [Bool.eq_iff_iff, Registry.isPending_iff, Registry.isPending_iff, hslots]
    simp [Ne.symm hid]
  have hwants : ∀ t, (b.registered path).wants { w with calls := w.calls ++ [isCall] } t = b.wants w t := by
    intro t
    rw [wants, wants, howner]
    cases ht : w.owner? t with
    | none => rfl
    | some id => exact hpending id (hfresh t id ht)
  refine ⟨h.sound.register path b.clock, h.scene_eq, h.stem_eq, ?_, ?_, ?_, fun s hs t => ?_, fun t id ht => ?_, ?_,
    h.length_eq, fun n f id reply hf hreply => ?_⟩
  · rw [List.length_append, ← h.count_eq]
    rfl
  · exact h.ready_eq.trans (List.filter_congr fun t _ => (hwants t).symm)
  · exact h.sleepers_eq.trans (List.filter_congr fun n _ => (hwants (.timer n)).symm)
  · rw [howner]
    rcases List.mem_append.mp hs with hs | hs
    · exact h.owned s hs t
    · rw [List.mem_singleton.mp hs]
      refine iff_of_false ?_ fun ht => hfresh t _ ht rfl
      cases t <;> simp [Owns]
  · exact (h.issued t id (howner t ▸ ht)).of_eq rfl (Nat.le_succ _)
  · intro t ht
    rw [howner]
    exact h.known t ht
  · obtain ⟨rfl, hstands⟩ := h.fetches n f id reply hf hreply
    have hid : f.id ≠ new := hfresh (.fetch n) f.id (by rw [World.owner?, hreply]; rfl)
    exact ⟨rfl, hstands.congr (hpending _ hid) Iff.rfl⟩

/-- One request that waits has other tasks than before, and all others have theirs. -/
theorem owned_update {slot : Slot Artefact Nat} {f : Slot Artefact Nat → Slot Artefact Nat} {owner : Task → Option String}
    (h : StandsIn b w) (hslot : slot ∈ b.registry.slots) (hid : ∀ s, (f s).id = s.id)
    (hself : ∀ t, Owns (f slot) t ↔ owner t = some slot.id)
    (hother : ∀ id, id ≠ slot.id → ∀ t, w.owner? t = some id ↔ owner t = some id) :
    ∀ s ∈ (b.registry.update slot.id f).slots, ∀ t, Owns s t ↔ owner t = some s.id := by
  intro s hs t
  obtain ⟨s', hs', rfl⟩ := List.mem_map.mp hs
  by_cases heq : s'.id = slot.id
  · obtain rfl := h.sound.eq_of_id hs' hslot heq
    rw [if_pos rfl, hid]
    exact hself t
  · rw [if_neg heq, h.owned s' hs']
    exact hother s'.id heq t

/-- A request that waits is given a task. -/
theorem task {slot : Slot Artefact Nat} (new : Task) (f : Slot Artefact Nat → Slot Artefact Nat) (h : StandsIn b w)
    (hslot : slot ∈ b.registry.slots) (hid : ∀ s, (f s).id = s.id) (hnumber : ∀ s, (f s).number = s.number)
    (howns : ∀ t, Owns (f slot) t ↔ Owns slot t ∨ t = new) (hnew : w.owner? new = none)
    (hreg : c.registry = b.registry.update slot.id f) (hconfig : c.config = b.config) (hscene : v.scene = c.scene)
    (hcalls : v.calls = w.calls) (howner : ∀ t, v.owner? t = if t = new then some slot.id else w.owner? t)
    (hready : c.ready = b.ready ++ [new]) (hwork : v.work = w.work ++ [new]) (hsleep : v.sleepers = w.sleepers)
    (hsleepers : c.sleepers = b.sleepers) (hlength : c.fetches.length = v.fetches.length)
    (hfetches : ∀ n f id reply, c.fetches[n]? = some f → v.fetches[n]? = some (id, reply) →
      f.id = id ∧ FetchStands c v n f reply) (hserve : new ≠ .serve) : StandsIn c v := by
  have hpending : ∀ id, c.registry.isPending id = b.registry.isPending id := fun id => by
    rw [hreg, Registry.isPending_update _ _ _ hid]
  -- what was known before is not the new task, so that it is wanted as before
  have hwants : ∀ t, t = .serve ∨ (w.owner? t).isSome → c.wants v t = b.wants w t := by
    intro t ht
    have hne : t ≠ new := by
      rintro rfl
      rcases ht with ht | ht
      · exact hserve ht
      · rw [hnew] at ht
        cases ht
    rw [wants, wants, howner, if_neg hne]
    exact congrArg (Option.all · (w.owner? t)) (funext hpending)
  have hwanted : c.wants v new = true := by
    rw [wants, howner, if_pos rfl, Option.all_some, hpending]
    exact Registry.isPending_iff.mpr ⟨slot, hslot, rfl⟩
  refine ⟨?_, hscene, ?_, ?_, ?_, ?_, fun s hs t => ?_, fun t id ht => ?_, fun t ht => ?_, hlength, hfetches⟩
  · rw [hreg]
    exact h.sound.update slot.id f hid hnumber
  · rw [hreg, hconfig]
    exact h.stem_eq
  · rw [hreg, hcalls]
    exact h.count_eq
  · rw [hready, hwork, h.ready_eq, List.filter_append, List.filter_cons_of_pos hwanted, List.filter_nil]
    exact congrArg (· ++ [new]) (List.filter_congr fun t ht => (hwants t (h.known t (.inl ht))).symm)
  · rw [hsleepers, hsleep, h.sleepers_eq]
    exact List.filter_congr fun n hn => (hwants (.timer n) (h.known _ (.inr ⟨n, hn, rfl⟩))).symm
  · refine h.owned_update hslot hid (fun t => ?_) (fun id hne t => ?_) s (hreg ▸ hs) t
    · rw [howns, h.owned slot hslot, howner]
      by_cases ht : t = new <;> simp [ht]
    · -- the new task was nobody's, so that nobody else loses it
      rw [howner]
      by_cases ht : t = new
      · rw [if_pos ht, ht, hnew]
        simp [Ne.symm hne]
      · rw [if_neg ht]
  · have hissued : ∀ {i}, b.Issued i → c.Issued i := fun hi =>
      hi.of_eq (by rw [hreg]; rfl) (by rw [hreg]; exact Nat.le_refl _)
    rw [howner] at ht
    split at ht
    · obtain rfl := Option.some.inj ht
      exact hissued ⟨slot.number, h.sound.number_lt slot hslot, h.sound.id_eq slot hslot⟩
    · exact hissued (h.issued t id ht)
  · rw [howner]
    split
    · exact .inr rfl
    · next hne =>
      refine h.known t ?_
      rw [hwork, hsleep] at ht
      exact ht.imp_left fun hmem => (List.mem_append.mp hmem).resolve_right fun h' => hne (List.mem_singleton.mp h')

/-- The time of a request begins in both. -/
theorem limit {slot : Slot Artefact Nat} (h : StandsIn b w) (hslot : slot ∈ b.registry.slots) (htimer : slot.timer = none)
    (ms : Nat) : StandsIn ((b.armed slot.id ms).attachTimer slot.id b.timers.length) (w.limit slot.id (some ms)) := by
  let given : Slot Artefact Nat → Slot Artefact Nat := fun s => { s with timer := some b.timers.length }
  have hwaits : (b.armed slot.id ms).registry.isPending slot.id = true := Registry.isPending_iff.mpr ⟨slot, hslot, rfl⟩
  rw [attachTimer_of_isPending hwaits]
  have hlast : b.timers.length = w.timers.length := by rw [h.timers_eq]
  refine h.task (.timer b.timers.length) given hslot (fun _ => rfl) (fun _ => rfl) ?_ ?_ rfl rfl ?_ rfl ?_ rfl ?_
    rfl rfl h.length_eq (fun n f id reply hf hreply => ?_) (by simp)
  · intro t
    -- the request had no timer, so that the new one is its only one
    cases t <;> simp [Owns, given, htimer, eq_comm]
  · simp [World.owner?, hlast]
  · simp only [World.scene, World.limit, h.config_eq, h.runtime_eq, h.host_eq, h.clock_eq, h.loads_eq, h.timers_eq]
    rfl
  · intro t
    rw [World.owner?_limit, hlast]
  · rw [hlast]
    rfl
  · obtain ⟨hid, hstands⟩ := h.fetches n f id reply hf hreply
    have hpending : (b.registry.update slot.id given).isPending f.id = b.registry.isPending f.id :=
      Registry.isPending_update _ _ _ fun _ => rfl
    exact ⟨hid, hstands.congr hpending (by simp [World.limit])⟩

/-- A fetch begins in both. -/
theorem ask {slot : Slot Artefact Nat} (h : StandsIn b w) (hslot : slot ∈ b.registry.slots) (hguard : slot.guard = none)
    (url : String) : StandsIn ((b.asked slot.id url).attachGuard slot.id (.fetch b.fetches.length)) (w.ask slot.id url) := by
  let given : Slot Artefact Nat → Slot Artefact Nat := fun s => { s with guard := some (.fetch b.fetches.length) }
  rw [attachGuard_of_none (b := b.asked slot.id url) h.sound hslot hguard]
  have hlast : b.fetches.length = w.fetches.length := h.length_eq
  have hpending : ∀ id, (b.registry.update slot.id given).isPending id = b.registry.isPending id := fun id =>
    Registry.isPending_update _ _ _ fun _ => rfl
  refine h.task (.fetch b.fetches.length) given hslot (fun _ => rfl) (fun _ => rfl) ?_ ?_ rfl rfl ?_ rfl ?_ rfl ?_
    rfl rfl ?_ (fun n f id reply hf hreply => ?_) (by simp)
  · intro t
    cases t <;> simp [Owns, given, hguard, eq_comm]
  · simp [World.owner?, hlast]
  · simp only [World.scene, World.ask, h.config_eq, h.runtime_eq, h.host_eq, h.clock_eq, h.loads_eq, h.timers_eq]
    rfl
  · intro t
    rw [World.owner?_ask, hlast]
  · rw [hlast]
    rfl
  · simp [asked, World.ask, hlast]
  · have hf : (b.fetches ++ [_])[n]? = some f := hf
    have hreply : (w.fetches ++ [_])[n]? = some (id, reply) := hreply
    rw [World.getElem?_append_singleton] at hf hreply
    by_cases hn : n = b.fetches.length
    · rw [if_pos hn] at hf
      rw [if_pos (hn.trans hlast)] at hreply
      obtain rfl := Option.some.inj hf
      obtain ⟨rfl, rfl⟩ := Prod.mk.inj (Option.some.inj hreply)
      rw [h.host_eq]
      have hwaits : (b.registry.update slot.id given).isPending slot.id = true :=
        (hpending slot.id).trans (Registry.isPending_iff.mpr ⟨slot, hslot, rfl⟩)
      -- a new fetch has its reply if the host gives it at once, and is to run in any case
      have hmem : Task.fetch n ∈ (w.ask slot.id url).work := by
        rw [hn, hlast]
        exact List.mem_append_right _ List.mem_cons_self
      exact ⟨rfl, rfl, fun _ => ⟨rfl, (if_pos hmem).symm⟩, fun hdead => by cases hwaits.symm.trans hdead⟩
    · rw [if_neg hn] at hf
      rw [if_neg (hlast ▸ hn)] at hreply
      obtain ⟨hid, hstands⟩ := h.fetches n f id reply hf hreply
      exact ⟨hid, hstands.congr (hpending _) (by simp [World.ask, ← hlast, hn])⟩

theorem serve_mem_ready (h : StandsIn b w) : Task.serve ∈ b.ready ↔ Task.serve ∈ w.work := by
  rw [h.ready_eq, List.mem_filter, and_iff_left]
  rfl

/-- A script is loaded in both, and the host is to read it. -/
theorem shown (h : StandsIn b w) (page : Document) {url : String} (hloads : page.loads = b.page.loads ++ [url]) :
    StandsIn (b.shown page) (w.load url) := by
  have hserves : serves w.config w.runtime w.host = serves b.config b.runtime b.host := by
    rw [h.config_eq, h.runtime_eq, h.host_eq]
  have hscene : ({ w with loads := w.loads ++ [url] } : World σ).scene = ({ b with page := page } : Bridge σ).scene := by
    simp only [World.scene, scene, h.config_eq, h.runtime_eq, h.host_eq, h.clock_eq, h.loads_eq, h.timers_eq, hloads]
  have hloaded : StandsIn { b with page := page } { w with loads := w.loads ++ [url] } :=
    h.same rfl rfl hscene rfl rfl rfl rfl rfl rfl rfl rfl
  unfold Bridge.shown wakeServer World.load World.push
  simp only [hserves]
  by_cases hserve : serves b.config b.runtime b.host = true
  · by_cases hmem : Task.serve ∈ w.work
    · -- the host is to read anyway
      rw [if_pos hserve, if_pos hmem, if_neg fun hwake => hwake.2 (h.serve_mem_ready.mpr hmem)]
      exact hloaded
    · rw [if_pos hserve, if_neg hmem, if_pos ⟨hserve, fun hready => hmem (h.serve_mem_ready.mp hready)⟩]
      refine hloaded.change rfl rfl hscene rfl rfl ?_ h.sleepers_eq (fun t ht => ?_) h.length_eq
        fun n f id reply hf hreply => ?_
      · rw [List.filter_append, ← hloaded.ready_eq]
        rfl
      · rcases ht with ht | ht
        · rcases List.mem_append.mp ht with ht | ht
          · exact h.known t (.inl ht)
          · exact .inl (List.mem_singleton.mp ht)
        · exact h.known t (.inr ht)
      · obtain ⟨hid, hstands⟩ := h.fetches n f id reply hf hreply
        exact ⟨hid, hstands.congr rfl (by simp)⟩
  · rw [if_neg hserve, if_neg fun hwake => hserve hwake.1]
    exact hloaded

/-- A request that waits is given its script, which is no task. -/
theorem guarded {slot : Slot Artefact Nat} (h : StandsIn b w) (hslot : slot ∈ b.registry.slots)
    (hguard : slot.guard = none) (e : Element) : StandsIn (b.attachGuard slot.id (.script e)) w := by
  let given : Slot Artefact Nat → Slot Artefact Nat := fun s => { s with guard := some (.script e) }
  rw [attachGuard_of_none h.sound hslot hguard]
  have hpending : ∀ id, (b.registry.update slot.id given).isPending id = b.registry.isPending id := fun id =>
    Registry.isPending_update _ _ _ fun _ => rfl
  have hwants : ({ b with registry := b.registry.update slot.id given } : Bridge σ).wants w = b.wants w := by
    funext t
    exact congrArg (Option.all · (w.owner? t)) (funext hpending)
  refine ⟨h.sound.update slot.id given (fun _ => rfl) fun _ => rfl, h.scene_eq, h.stem_eq, h.count_eq, ?_, ?_,
    fun s hs t => ?_, h.issued, h.known, h.length_eq, fun n f id reply hf hreply => ?_⟩
  · exact h.ready_eq.trans (by rw [hwants])
  · exact h.sleepers_eq.trans (by rw [hwants])
  · -- a script is no work of the slot that it guards
    have hself : ∀ t, Owns (given slot) t ↔ w.owner? t = some slot.id := by
      intro t
      rw [← h.owned slot hslot]
      cases t <;> simp [Owns, hguard, given]
    have howned := h.owned_update hslot (f := given) (fun _ => rfl) hself fun _ _ _ => Iff.rfl
    exact howned s hs t
  · obtain ⟨hid, hstands⟩ := h.fetches n f id reply hf hreply
    exact ⟨hid, hstands.congr (hpending _) Iff.rfl⟩

theorem handFailure?_eq (h : StandsIn b w) (hpage : Takes b.page w.room) (url : String) :
    w.handFailure? = b.triggerFailure? url := by
  unfold World.handFailure? triggerFailure?
  rw [h.config_eq, h.runtime_eq]
  cases b.config.transport with
  | scriptTag =>
    dsimp only
    rw [hpage.isSome_eq]
  | fetch => rfl

/-- A URL is handed over in both, or in neither. -/
theorem hand {slot : Slot Artefact Nat} (h : StandsIn b w) (hpage : Takes b.page w.room)
    (hslot : slot ∈ b.registry.slots) (hguard : slot.guard = none) (url : String) :
    StandsIn (reached ((b.missed url).orReject slot.id (b.trigger slot.id url))) (w.hand slot.id url) := by
  have hfailure := h.handFailure?_eq hpage url
  rw [World.hand, hfailure]
  rcases trigger_cases h.sound slot.id url with ⟨c, htrigger, -, hnone⟩ | ⟨e, htrigger, hsome⟩
  · rw [htrigger, hnone, h.config_eq]
    rcases trigger_ok htrigger with ⟨ht, rfl⟩ | ⟨ht, e, page, hins, rfl⟩
    · rw [ht]
      exact h.ask hslot hguard url
    · rw [ht]
      obtain ⟨ready, hshown⟩ := shown_eq b page
      -- the page has room, so that the script is loaded and becomes the guard of the request
      have hstands := h.shown page (hpage.loads url e page hins)
      refine hstands.guarded ?_ hguard e
      rw [hshown]
      exact hslot
  · rw [htrigger, hsome]
    -- the URL could not be handed over; no script is loaded, and the request is settled at the bridge alone
    have hloads := loads_missed htrigger
    obtain ⟨page, hmissed⟩ := missed_eq b url
    rw [hmissed] at hloads ⊢
    have hleft : StandsIn { b with page := page } w := by
      refine h.same rfl rfl ?_ rfl rfl rfl rfl rfl rfl rfl rfl
      rw [h.scene_eq, scene, scene, hloads]
    exact hleft.settle slot.id (.error e)

/-- A request that has no tasks yet is sent in both, as far as that goes. -/
theorem send {slot : Slot Artefact Nat} (h : StandsIn b w) (hpage : Takes b.page w.room)
    (hslot : slot ∈ b.registry.slots) (htimer : slot.timer = none) (hguard : slot.guard = none) (path : String)
    (args : Args) (timeout : Option Nat) :
    StandsIn (b.sent slot.id path args timeout) (w.send slot.id path args timeout) := by
  rw [sent, World.send, h.config_eq, h.runtime_eq]
  cases hurl : b.config.codec.encode path args slot.id with
  | error e =>
    rw [send_unwritten hurl]
    exact h.settle slot.id _
  | ok url =>
    dsimp only
    rcases send_written timeout hurl with ⟨d, hlimited, hsend⟩ | ⟨hlimit, hruntime, hsend⟩
    · rw [hsend]
      cases hlimit : timeout.or b.config.effectiveTimeout with
      | none =>
        rw [hlimit] at hlimited
        obtain rfl : d = b := hlimited
        exact h.hand hpage hslot hguard url
      | some ms =>
        rw [hlimit] at hlimited
        have hruntime := hlimited.runtime_eq
        obtain ⟨-, -, hdpage, -⟩ := hlimited.frame
        obtain rfl := armTimer_ok hlimited
        rw [hruntime]
        -- the slot that has its timer still has no guard
        let given : Slot Artefact Nat := { slot with timer := some b.timers.length }
        have hgiven : given ∈ ((b.armed slot.id ms).attachTimer slot.id b.timers.length).registry.slots := by
          have hwaits : (b.armed slot.id ms).registry.isPending slot.id = true :=
            Registry.isPending_iff.mpr ⟨slot, hslot, rfl⟩
          rw [attachTimer_of_isPending hwaits]
          exact List.mem_map.mpr ⟨slot, hslot, if_pos rfl⟩
        exact (h.limit hslot htimer ms).hand (hdpage ▸ hpage) hgiven hguard url
    · -- without a runtime there is no timer, and the request is settled at once
      rw [hsend, hlimit, hruntime]
      exact h.settle slot.id _

/-- **A call sets the same going in both**, and fails for the same reason. -/
theorem call (h : StandsIn b w) (hpage : Takes b.page w.room) (isCall : Bool) (path : String) (args : Args)
    (timeout : Option Nat) : b.callEvents path args timeout = (w.call isCall path args timeout).1 ∧
      StandsIn (b.call path args timeout).2 (w.call isCall path args timeout).2 := by
  have hid : w.idOf w.calls.length = b.idOf b.registry.count := by rw [h.idOf_eq, h.count_eq]
  constructor
  · rw [callEvents, World.call, hid, failure?, World.failure?, h.config_eq, h.runtime_eq]
    refine congrArg (fun e => Event.opened :: failureEvents (b.idOf b.registry.count) e) ?_
    cases b.config.codec.encode path args (b.idOf b.registry.count) with
    | error e => rfl
    | ok url => rw [h.handFailure?_eq hpage url]
  · have hslot : ⟨b.idOf b.registry.count, b.registry.count, path, none, none, b.clock⟩ ∈
        (b.registered path).registry.slots := List.mem_append_right _ List.mem_cons_self
    rw [call_eq, World.call, hid]
    exact (h.registered path isCall).send (b := b.registered path) hpage hslot rfl rfl path args timeout

end StandsIn

end Hostlink.Bridge
