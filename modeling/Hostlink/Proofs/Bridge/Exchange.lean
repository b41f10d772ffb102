import Hostlink.Client
import Hostlink.Proofs.Bridge.RoundTrip

/-!
# One request after another

A host keeps a state, so that what it answers depends on what it was asked before. Where each request is
waited for, it is asked one request after another: a tick leaves it no script to read.

* `Bridge.traffic_tick` — after a tick, the host has read all scripts;
* `HandsOver.tick` — **after a call and a tick, it has answered the URL of the call**;
* `Session.exchange` — a call that is waited for, as operations of a session;
* `Session.request_settled` — **a client that waits reads the answer**.
-/

namespace Hostlink

namespace Host

variable {σ : Type}

/-- A fetch is answered as a script is. -/
theorem fetch_snd {h : Host σ} (hrouted : h.conduct = .routed) (url : String) :
    (h.fetch url).2 = (h.answer url).2 := by
  rw [fetch, hrouted]
  rcases h.answer url with ⟨e | ⟨r, a⟩, h'⟩ <;> rfl

end Host

/-- A client that finds its request settled does not wait, and drops it. -/
theorem Client.await_ready {σ : Type} {c : Client σ} {n : Nat} {v : Settlement}
    (h : (c.bridge.poll n).1 = .ready v) (timers : Nat) :
    c.await n (timers + 1) = (some v, { c with bridge := (c.bridge.poll n).2.drop n }) := by
  rw [await]
  rcases hfound : c.bridge.poll n with ⟨found, b⟩
  rw [hfound] at h
  obtain rfl := h
  rfl

namespace Bridge

variable {σ : Type} {b : Bridge σ}

/-! ## Ticks -/

/-- No effect takes the host's task away. -/
theorem serve_mem_after {effects : List (Effect Artefact Nat)} (r : Registry Artefact Nat) (h : .serve ∈ b.ready) :
    Task.serve ∈ (b.after effects r).ready := by
  refine mem_ready_after r h fun e _ => ?_
  rcases e with _ | (_ | _) | _ | _ | _ <;> exact fun h => (by cases h)

/-- Nor does another task. -/
theorem serve_mem_run {t : Task} (ht : t ≠ .serve) (h : .serve ∈ b.ready) : Task.serve ∈ (b.run t).ready := by
  cases t with
  | serve => exact absurd rfl ht
  | timer n =>
    rw [run, runTimer]
    split
    · exact h
    · split
      · exact serve_mem_after _ h
      · exact h
  | fetch n =>
    rw [run, runFetch]
    split
    · exact h
    · split
      · exact h
      · exact serve_mem_after (b := b.setPhase n .gone) _ h

/-- Of tasks that run one after another, that of the host makes it read what there is. -/
theorem traffic_foldl_runReady (hconnected : b.host.connected = true) {ts : List Task}
    (h : b.page.loads = [] ∨ .serve ∈ b.ready ∧ .serve ∈ ts) :
    (ts.foldl runReady b).traffic = (b.host.answered b.page.loads, []) := by
  induction ts generalizing b with
  | nil =>
    rcases h with h | ⟨-, hmem⟩
    · rw [List.foldl_nil, traffic, h]
      rfl
    · cases hmem
  | cons t ts ih =>
    rw [List.foldl_cons, runReady]
    by_cases hready : t ∈ b.ready
    · rw [if_pos hready]
      by_cases ht : t = .serve
      · subst ht
        -- the host reads all that is loaded, and has nothing left to read in what follows
        have hserve := traffic_run_serve (b := b.withoutTask .serve) hconnected
        obtain ⟨hhost, hloads⟩ := Prod.mk.inj hserve
        have hconnected' : ((b.withoutTask .serve).run .serve).host.connected = true := by
          rw [hhost]
          exact (congrArg (·.2.2.2) (b.host.frame_answered b.page.loads)).trans hconnected
        have hrest := ih hconnected' (.inl hloads)
        rw [hloads, hhost] at hrest
        exact hrest
      · obtain ⟨hhost, hloads⟩ := Prod.mk.inj (traffic_run (b := b.withoutTask t) ht)
        have hrest := ih (b := (b.withoutTask t).run t) (by rw [hhost]; exact hconnected) ?_
        · -- other tasks leave the host and its task alone
          rw [hhost, hloads] at hrest
          exact hrest
        · rcases h with h | ⟨hserve, hlater⟩
          · exact .inl (hloads.trans h)
          · have hne : Task.serve ≠ t := fun heq => ht heq.symm
            exact .inr ⟨serve_mem_run ht (List.mem_filter.mpr ⟨hserve, decide_eq_true hne⟩),
              (List.mem_cons.mp hlater).resolve_left hne⟩
    · rw [if_neg hready]
      -- a task that is gone was not that of the host
      refine ih hconnected (h.imp_right fun hboth => ⟨hboth.1, ?_⟩)
      exact (List.mem_cons.mp hboth.2).resolve_left fun heq => hready (heq ▸ hboth.1)

/-- **After a tick, the host has read all scripts**, if its task was ready. -/
theorem traffic_tick (hconnected : b.host.connected = true) (h : b.page.loads = [] ∨ .serve ∈ b.ready) :
    b.tick.traffic = (b.host.answered b.page.loads, []) :=
  traffic_foldl_runReady hconnected (h.imp_right fun hserve => ⟨hserve, hserve⟩)

/-- **After a call and a tick, the host has answered the URL of the call**, and has nothing left to read. -/
theorem HandsOver.tick {url : String} {c : Bridge σ} (h : b.HandsOver url c) (hrouted : b.host.conduct = .routed)
    (hconnected : b.host.connected = true) (hnone : b.page.loads = []) :
    c.tick.traffic = ((b.host.answer url).2, []) := by
  rw [HandsOver] at h
  cases ht : b.config.transport with
  | fetch =>
    -- over fetch the host is asked at once, so that the tick reads nothing
    rw [ht] at h
    obtain ⟨hhost, hloads⟩ := Prod.mk.inj h
    have hconnected' : c.host.connected = true := by
      rw [hhost]
      exact (congrArg (·.2.2.2) (Host.frame_fetch b.host url)).trans hconnected
    rw [traffic_tick hconnected' (.inl (hloads.trans hnone)), hhost, hloads, hnone, Host.fetch_snd hrouted]
    rfl
  | scriptTag =>
    rw [ht] at h
    obtain ⟨htraffic, hserve⟩ := h
    obtain ⟨hhost, hloads⟩ := Prod.mk.inj htraffic
    rw [traffic_tick (hhost ▸ hconnected) (.inr hserve), hhost, hloads, hnone]
    rfl

namespace Session

/-! ## A call that is waited for -/

/-- A call, a tick, a look at its settlement, and its end; `h` is the number of the call. -/
def exchange (path : String) (args : Args) (h : Nat) : List Op :=
  [.call path args none, .tick, .poll h, .drop h]

/-- A call that is found settled is dropped as its request. -/
theorem drop_poll {s : Session σ} {n h : Nat} {v : Settlement} (hheld : s.held[h]? = some ⟨.call n, true, none⟩)
    (hpoll : (s.poll h).1 = .settled v) :
    (s.bridge.poll n).1 = .ready v ∧ ((s.poll h).2.drop h).bridge = (s.bridge.poll n).2.drop n := by
  have hlt : h < s.held.length := (List.getElem?_eq_some_iff.mp hheld).1
  rw [poll, hheld] at hpoll ⊢
  dsimp only [pollHandle] at hpoll ⊢
  rw [if_pos rfl] at hpoll ⊢
  rcases hfound : s.bridge.poll n with ⟨_ | v', b⟩
  · rw [hfound] at hpoll
    cases hpoll
  · rw [hfound] at hpoll
    obtain rfl := Finding.settled.inj hpoll
    refine ⟨rfl, ?_⟩
    dsimp only
    rw [drop, List.getElem?_set_self hlt]
    rfl

/-- A client waits for a request that the next tick settles. -/
theorem request_eq {s : Session σ} {path : String} {args : Args} {v : Settlement}
    (hpoll : ((s.run [.call path args none, .tick]).poll s.held.length).1 = .settled v) :
    (⟨s.bridge, []⟩ : Client σ).request path args none =
      (some v, ⟨(s.run (exchange path args s.held.length)).bridge, []⟩) := by
  have hheld : (s.run [.call path args none, .tick]).held[s.held.length]? =
      some ⟨.call s.bridge.registry.count, true, none⟩ := List.getElem?_concat_length
  obtain ⟨hready, hdrop⟩ := drop_poll hheld hpoll
  have hbridge : (s.run (exchange path args s.held.length)).bridge = _ := hdrop
  rw [hbridge]
  exact Client.await_ready (c := ⟨(s.bridge.call path args none).2.tick, []⟩) hready _

theorem traffic_exchange (s : Session σ) (path : String) (args : Args) {v : Settlement}
    (hpoll : ((s.run [.call path args none, .tick]).poll s.held.length).1 = .settled v) :
    (s.run (exchange path args s.held.length)).bridge.traffic = (s.bridge.call path args none).2.tick.traffic := by
  have hheld : (s.run [.call path args none, .tick]).held[s.held.length]? =
      some ⟨.call s.bridge.registry.count, true, none⟩ := List.getElem?_concat_length
  have hbridge : (s.run (exchange path args s.held.length)).bridge = _ := (drop_poll hheld hpoll).2
  rw [hbridge]
  exact traffic_after _ _ _

section

variable {config : Config} {withHead : Bool} {srcs : List String} {host : Host σ} {b : Bridge σ}
  (hb : Bridge.new config config.transport true (.withScripts withHead srcs) host = .ok b)
  (hplace : config.transport = .scriptTag → withHead = true ∨ srcs ≠ []) (hlimit : config.timeout ≠ some 0)
  (hrouted : host.conduct = .routed) (hconnected : host.connected = true)
include hb hplace hlimit hrouted hconnected

/-- **A client that waits reads the answer**, and the host has answered its request and nothing else. -/
theorem request_settled {s : Session σ} {ops : List Op} (hs : (new b).run ops = s) {path url : String} {args : Args}
    {a : HostAnswer} (hnone : s.bridge.page.loads = [])
    (henc : config.codec.encode path args (s.bridge.idOf s.bridge.registry.count) = .ok url)
    (hgives : s.bridge.host.GivesAfter [] url (config.codec.receivedName (s.bridge.idOf s.bridge.registry.count)) a)
    (hportable : a.Portable) :
    let t := s.run (exchange path args s.held.length)
    (⟨s.bridge, []⟩ : Client σ).request path args none = (some a.settlement, ⟨t.bridge, []⟩) ∧
      t.bridge.traffic = ((s.bridge.host.answer url).2, []) := by
  obtain ⟨hconfig, hruntime, hhost, hhead⟩ := setUp_run hb ops
  rw [hs] at hconfig hruntime hhost hhead
  have hrouted' : s.bridge.host.conduct = .routed := (congrArg (·.1) hhost).trans hrouted
  have hconnected' : s.bridge.host.connected = true := (congrArg (·.2.2.2) hhost).trans hconnected
  have hlimits : (none : Option Nat).or s.bridge.config.effectiveTimeout ≠ some 0 := by
    rw [hconfig]
    exact Config.limit_ne_zero hlimit (by decide)
  have hdelivers : s.bridge.Delivers (s.bridge.idOf s.bridge.registry.count) url a.settlement := by
    refine delivers_of_gives hrouted' hconnected' hgives hportable fun ht => ?_
    have ht' : config.transport = .scriptTag := hconfig ▸ ht
    -- a script names its callback, and finds its place beside those that were there
    rw [ht'] at hb
    rw [receivedName_of_validate (new_eq_ok hb).1 ht'] at hgives
    refine ⟨hnone.symm ▸ hgives, (hs ▸ shows_run (s := new b) (shows_new hb) ops).insertScript ?_ url⟩
    rw [hhead, Document.head_withScripts]
    exact hplace ht'
  have hsound : s.bridge.registry.Sound := hs ▸ sound_run hb ops
  have htraced : s.bridge.Traced := hs ▸ traced_run (s := new b) (traced_new hb) ops
  have hspares : ∀ u ∈ s.bridge.page.loads, s.bridge.host.codec.Spares (s.bridge.idOf s.bridge.registry.count) u := by
    rw [hnone]
    exact fun u hu => absurd hu List.not_mem_nil
  have henc' : s.bridge.config.codec.encode path args (s.bridge.idOf s.bridge.registry.count) = .ok url :=
    hconfig ▸ henc
  have hpatient : False ∨ (none : Option Nat).or s.bridge.config.effectiveTimeout ≠ some 0 := .inr hlimits
  obtain ⟨⟨task, hawaits⟩, hevents⟩ := awaits_call hsound htraced hruntime hspares henc' hpatient hdelivers
  have hhands := handsOver_call hsound htraced hruntime hspares henc' hpatient hdelivers
  subst hs
  have hpoll := poll_call_tick hb ops hevents hawaits
  exact ⟨request_eq hpoll, (traffic_exchange _ path args hpoll).trans (hhands.tick hrouted' hconnected' hnone)⟩

end

end Session

end Bridge

end Hostlink
