import Hostlink.Proofs.Bridge.Delivery

/-!
# Requests that are sent

A request whose URL will be answered has, after the call, a task that is ready to settle it.

* `Bridge.Unsent` — nothing aims at a request that has just been registered;
* `Bridge.Delivers` — how a URL will be answered, over either transport;
* `Bridge.HandsOver` — how it gets to the host, over either transport;
* `Unsent.triggerFetch`, `Unsent.triggerScript` — a request that is registered is sent;
* `Bridge.awaits_call` — **after the call, a task is ready to settle the request**.
-/

namespace Hostlink.Bridge

variable {σ : Type}

/-! ## Before a request is sent -/

/-- A request that is registered and not sent yet: nothing aims at it, but for its timer if it is hasty. -/
structure Unsent (b : Bridge σ) (id : String) (hasty : Prop) : Prop where
  sound : b.registry.Sound
  traced : b.Traced
  issued : b.Issued id
  waits : ∃ slot ∈ b.registry.slots, slot.id = id ∧ slot.guard = none
  timers : ∀ t ∈ b.timers, t.id = id → hasty ∨ b.clock < t.deadline
  fetches : id ∉ b.fetchIds
  loads : ∀ url ∈ b.page.loads, b.host.codec.Spares id url

/-- A URL that is handed over now will be answered, so that `id` is settled with `v`. -/
def Delivers (b : Bridge σ) (id url : String) (v : Settlement) : Prop :=
  match b.config.transport with
  | .fetch => b.host.conduct = .routed ∧
      ∃ name a, b.host.GivesAfter [] url name a ∧ settlementOf (Host.replyOf a) = v
  | .scriptTag => b.host.conduct = .routed ∧ b.host.connected = true ∧
      (∃ e page, insertScript b.page url = (some e, page) ∧ page.loads = b.page.loads ++ [url]) ∧
      ∃ a, b.host.GivesAfter b.page.loads url (some id) a ∧ Host.settlementOf a = v

theorem Delivers.congr {b c : Bridge σ} {id url : String} {v : Settlement} (h : b.Delivers id url v)
    (hconfig : c.config = b.config) (hhost : c.host = b.host) (hpage : c.page = b.page) :
    c.Delivers id url v := by
  rw [Delivers, hconfig, hhost, hpage]
  exact h

/-- What can be delivered does not fail at once. -/
theorem Delivers.triggerFailure? {b : Bridge σ} {id url : String} {v : Settlement} (h : b.Delivers id url v)
    (hrun : b.runtime = true) : b.triggerFailure? url = none := by
  rw [Delivers] at h
  rw [Bridge.triggerFailure?]
  cases ht : b.config.transport with
  | fetch => exact if_pos hrun
  | scriptTag =>
    rw [ht] at h
    obtain ⟨-, -, ⟨e, page, hins, -⟩, -⟩ := h
    rw [hins]
    rfl

/-- The host has been asked by a fetch, or has one more script to read. -/
def HandsOver (b : Bridge σ) (url : String) (c : Bridge σ) : Prop :=
  match b.config.transport with
  | .fetch => c.traffic = ((b.host.fetch url).2, b.page.loads)
  | .scriptTag => c.traffic = (b.host, b.page.loads ++ [url]) ∧ Task.serve ∈ c.ready

theorem unsent_registered {b : Bridge σ} (hasty : Prop) (hs : b.registry.Sound) (ht : b.Traced)
    (hloads : ∀ url ∈ b.page.loads, b.host.codec.Spares (b.idOf b.registry.count) url) (path : String) :
    (b.registered path).Unsent (b.idOf b.registry.count) hasty := by
  have hfresh : ¬ b.Issued (b.idOf b.registry.count) := by
    rintro ⟨n, hn, heq⟩
    exact Nat.ne_of_gt hn (Registry.idOf_inj.mp heq)
  refine ⟨hs.register path b.clock, ht.registered path, ⟨b.registry.count, Nat.lt_succ_self _, rfl⟩,
    ⟨_, List.mem_append_right _ List.mem_cons_self, rfl, rfl⟩, fun t hmem heq => ?_, fun hmem => ?_, hloads⟩
  · exact absurd (heq ▸ ht.timers t hmem) hfresh
  · exact hfresh (ht.fetches _ hmem)

namespace Unsent

variable {b c : Bridge σ} {id : String} {hasty : Prop} (h : b.Unsent id hasty)
include h

/-- A timer is set; that of a hasty request may run out at once. -/
theorem armTimer {ms : Nat} (hms : hasty ∨ 0 < ms) (ha : b.armTimer id ms = .ok c) :
    c.Unsent id hasty ∧ c.config = b.config ∧ c.runtime = b.runtime ∧ c.host = b.host ∧ c.page = b.page := by
  have htraced := h.traced.armTimer h.issued ha
  have hissued := h.issued.armTimer ha
  rw [armTimer_ok ha] at htraced hissued ⊢
  have hregistry : ((b.armed id ms).attachTimer id b.timers.length).registry =
      (b.registry.attachTimer id b.timers.length).2 := registry_after (b.armed id ms) _ _
  have hpage : ((b.armed id ms).attachTimer id b.timers.length).page = b.page :=
    page_after_attachTimer (b.armed id ms) _ id _
  have hhost : ((b.armed id ms).attachTimer id b.timers.length).host = b.host := host_after (b.armed id ms) _ _
  have hprospects : ((b.armed id ms).attachTimer id b.timers.length).prospects = (b.armed id ms).prospects :=
    prospects_after (b.armed id ms) _ _
  obtain ⟨-, hrest⟩ := Prod.mk.inj hprospects
  obtain ⟨-, hrest⟩ := Prod.mk.inj hrest
  obtain ⟨hclock, hrest⟩ := Prod.mk.inj hrest
  obtain ⟨htimers, -⟩ := Prod.mk.inj hrest
  have hfetches : ((b.armed id ms).attachTimer id b.timers.length).fetchIds = b.fetchIds :=
    fetchIds_after (b.armed id ms) _ _
  refine ⟨⟨hregistry ▸ h.sound.attachTimer id _, htraced, hissued, ?_,
    ?_, ?_, ?_⟩, config_after (b.armed id ms) _ _, runtime_after (b.armed id ms) _ _, hhost, hpage⟩
  · obtain ⟨slot, hmem, hid, hg⟩ := h.waits
    have hpending : b.registry.isPending id = true := Registry.isPending_iff.mpr ⟨slot, hmem, hid⟩
    rw [hregistry, Registry.attachTimer, if_pos hpending]
    exact ⟨_, List.mem_map_of_mem hmem, by rw [if_pos hid]; exact hid, by rw [if_pos hid]; exact hg⟩
  · rw [htimers, hclock]
    intro t ht hid
    rcases List.mem_append.mp ht with ht | ht
    · exact h.timers t ht hid
    · rw [List.mem_singleton.mp ht]
      -- a timer that is set now runs out later, if the request is not hasty
      exact hms.imp_right Nat.lt_add_of_pos_right
  · rw [hfetches]
    exact h.fetches
  · rw [hpage, hhost]
    exact h.loads

/-- Over fetch, the reply is known as soon as the request is sent. -/
theorem triggerFetch {url : String} {name : Option String} {a : HostAnswer} (ht : b.config.transport = .fetch)
    (hrun : b.runtime = true) (hrouted : b.host.conduct = .routed) (hgives : b.host.GivesAfter [] url name a) :
    ∃ c, b.trigger id url = .ok c ∧ c.Awaits id (settlementOf (Host.replyOf a)) (.fetch b.fetches.length) hasty ∧
      b.HandsOver url c := by
  obtain ⟨slot, hmem, rfl, hg⟩ := h.waits
  have htrigger : b.trigger slot.id url =
      .ok ((b.asked slot.id url).attachGuard slot.id (.fetch b.fetches.length)) := by
    rw [Bridge.trigger, ht]
    dsimp only
    rw [triggerFetch_eq, if_pos hrun]
  have htraced := h.traced.trigger h.issued htrigger
  have hpledges : (b.asked slot.id url).pledges = b.pledges ++ [(slot.id, some (Host.replyOf a))] := by
    rw [pledges, asked, List.map_append, List.map_singleton, pledge, Host.fetch_of_gives hrouted hgives]
    rfl
  have hlength : b.pledges.length = b.fetches.length := List.length_map _
  rw [attachGuard_of_none (b := b.asked slot.id url) h.sound hmem hg] at htrigger htraced
  refine ⟨_, htrigger, ⟨⟨htraced, ?_, ⟨Host.replyOf a, ?_, rfl⟩⟩, h.timers, ?_, ?_⟩, ?_⟩
  · exact List.mem_append_right _ List.mem_cons_self
  · show (b.asked slot.id url).pledges[b.fetches.length]? = _
    rw [hpledges, ← hlength, List.getElem?_concat_length]
  · intro f hf r hr hown
    rcases List.mem_append.mp hf with hf | hf
    · -- no fetch is older than its request, so that this is the one that was just sent
      exact absurd (List.mem_map_of_mem hf) (hown ▸ h.fetches)
    · rw [List.mem_singleton.mp hf, Host.fetch_of_gives hrouted hgives] at hr
      rw [← Option.some.inj hr]
  · have hcodec : (b.host.fetch url).2.codec = b.host.codec := congrArg (·.2.2.1) (Host.frame_fetch b.host url)
    have hspares : ∀ u ∈ b.page.loads, (b.host.fetch url).2.codec.Spares slot.id u := by
      rw [hcodec]
      exact h.loads
    exact answersBy_of_spares hspares _
  · rw [HandsOver, ht]
    rfl

/-- Over scripts, the host is to read what the page has loaded. -/
theorem triggerScript {url : String} {e : Element} {page : Document} {a : HostAnswer}
    (ht : b.config.transport = .scriptTag) (hrun : b.runtime = true) (hrouted : b.host.conduct = .routed)
    (hconnected : b.host.connected = true) (hins : insertScript b.page url = (some e, page))
    (hloads : page.loads = b.page.loads ++ [url]) (hgives : b.host.GivesAfter b.page.loads url (some id) a) :
    ∃ c, b.trigger id url = .ok c ∧ c.Awaits id (Host.settlementOf a) .serve hasty ∧ b.HandsOver url c := by
  obtain ⟨slot, hmem, rfl, hg⟩ := h.waits
  have htrigger : b.trigger slot.id url = .ok ((b.shown page).attachGuard slot.id (.script e)) := by
    rw [Bridge.trigger, ht]
    dsimp only
    rw [triggerScript_eq, hins]
  have htraced := h.traced.trigger h.issued htrigger
  have hserves : serves b.config b.runtime b.host = true := by
    simp [serves, ht, hrun, hrouted, Conduct.isRouted]
  obtain ⟨ready, hshown, hready⟩ := shown_of_serves hserves page
  rw [hshown] at htrigger htraced
  rw [attachGuard_of_none (b := { b with page := page, ready := ready }) h.sound hmem hg] at htrigger htraced
  refine ⟨_, htrigger, ⟨⟨htraced, hready, ⟨hconnected, b.page.loads, url, [], a, hloads, hgives, rfl⟩⟩,
    h.timers, fun f hf r hr hown => ?_, ?_⟩, ?_⟩
  · exact absurd (List.mem_map_of_mem hf) (hown ▸ h.fetches)
  · show b.host.AnswersBy _ page.loads
    rw [hloads]
    exact answersBy_concat (answersBy_of_spares h.loads _) hgives
  · rw [HandsOver, ht]
    exact ⟨congrArg (b.host, ·) hloads, hready⟩

/-- **A request that is sent has a task that is ready to settle it**, and its URL has got to the host. -/
theorem trigger {url : String} {v : Settlement} (hrun : b.runtime = true) (hd : b.Delivers id url v) :
    ∃ c task, b.trigger id url = .ok c ∧ c.Awaits id v task hasty ∧ b.HandsOver url c := by
  rw [Delivers] at hd
  cases ht : b.config.transport with
  | fetch =>
    rw [ht] at hd
    obtain ⟨hrouted, name, a, hgives, rfl⟩ := hd
    obtain ⟨c, hc⟩ := h.triggerFetch ht hrun hrouted hgives
    exact ⟨c, _, hc⟩
  | scriptTag =>
    rw [ht] at hd
    obtain ⟨hrouted, hconnected, ⟨e, page, hins, hloads⟩, a, hgives, rfl⟩ := hd
    obtain ⟨c, hc⟩ := h.triggerScript ht hrun hrouted hconnected hins hloads hgives
    exact ⟨c, _, hc⟩

end Unsent

section

variable {b : Bridge σ} {path url : String} {args : Args} {timeout : Option Nat} {v : Settlement}
  (hs : b.registry.Sound) (ht : b.Traced) (hrun : b.runtime = true)
  (hloads : ∀ url ∈ b.page.loads, b.host.codec.Spares (b.idOf b.registry.count) url)
  (henc : b.config.codec.encode path args (b.idOf b.registry.count) = .ok url)
  {hasty : Prop} (htimeout : hasty ∨ timeout.or b.config.effectiveTimeout ≠ some 0)
include hs ht hrun hloads henc htimeout

/-- A call registers a request, sets its timer if it has one, and sends it. -/
theorem call_eq_trigger : ∃ d : Bridge σ, d.Unsent (b.idOf b.registry.count) hasty ∧ d.config = b.config ∧
    d.runtime = b.runtime ∧ d.host = b.host ∧ d.page = b.page ∧
    ∀ c, d.trigger (b.idOf b.registry.count) url = .ok c → (b.call path args timeout).2 = c := by
  have hunsent := unsent_registered hasty hs ht hloads path
  have henc' : (b.registered path).config.codec.encode path args (b.idOf b.registry.count) = .ok url := henc
  rw [call_eq]
  unfold sent send
  rw [henc']
  rcases hms : timeout.or b.config.effectiveTimeout with _ | ms
  · have hms' : timeout.or (b.registered path).config.effectiveTimeout = none := hms
    refine ⟨b.registered path, hunsent, rfl, rfl, rfl, rfl, fun c htrigger => ?_⟩
    simp only [hms', bind, Except.bind, orReject, htrigger]
    rfl
  · have hpositive : hasty ∨ 0 < ms :=
      htimeout.imp_right fun hlimit => Nat.pos_of_ne_zero fun h0 => hlimit (h0 ▸ hms)
    have hms' : timeout.or (b.registered path).config.effectiveTimeout = some ms := hms
    rcases armTimer_cases hunsent.sound (b.idOf b.registry.count) ms with ⟨hrun', -⟩ | ⟨-, d, harm, -⟩
    · exact absurd (hrun.symm.trans hrun') (by decide)
    · obtain ⟨hd, hconfig, hruntime, hhost, hpage⟩ := hunsent.armTimer hpositive harm
      refine ⟨d, hd, hconfig, hruntime, hhost, hpage, fun c htrigger => ?_⟩
      simp only [hms', bind, Except.bind, orReject, harm, htrigger]
      rfl

variable (hd : b.Delivers (b.idOf b.registry.count) url v)
include hd

/-- **After a call whose URL will be answered, its request has a task that is ready to settle it**, and
the call brings no other events. -/
theorem awaits_call : (∃ task, (b.call path args timeout).2.Awaits (b.idOf b.registry.count) v task hasty) ∧
    b.callEvents path args timeout = [.opened] := by
  constructor
  · obtain ⟨d, hunsent, hconfig, hruntime, hhost, hpage, hcall⟩ := call_eq_trigger hs ht hrun hloads henc htimeout
    obtain ⟨c, task, htrigger, hc, -⟩ := hunsent.trigger (hruntime.trans hrun) (hd.congr hconfig hhost hpage)
    rw [hcall c htrigger]
    exact ⟨task, hc⟩
  · have hnone : b.failure? (b.idOf b.registry.count) path args timeout = none := by
      rw [failure?, henc]
      simp [hrun, hd.triggerFailure? hrun]
    rw [callEvents, hnone]
    rfl

/-- The URL of such a call gets to the host. -/
theorem handsOver_call : b.HandsOver url (b.call path args timeout).2 := by
  obtain ⟨d, hunsent, hconfig, hruntime, hhost, hpage, hcall⟩ := call_eq_trigger hs ht hrun hloads henc htimeout
  obtain ⟨c, task, htrigger, -, hc⟩ := hunsent.trigger (hruntime.trans hrun) (hd.congr hconfig hhost hpage)
  rw [hcall c htrigger]
  rw [HandsOver, hconfig, hhost, hpage] at hc
  exact hc

end

end Hostlink.Bridge
