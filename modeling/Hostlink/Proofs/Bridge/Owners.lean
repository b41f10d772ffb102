import Hostlink.Proofs.Bridge.Settlement
import Hostlink.Proofs.Bridge.Tended

/-!
# Nobody is left alone

A request waits exactly as long as somebody holds it and nothing has settled it, a handler waits for the
newest dialog of its name, and a dialog that has found nothing is still going to be told.

* `Session.count_step` — only calls register requests;
* `Session.Owned` — requests that wait are held, and nobody takes from a dialog what its request is told;
* `Session.owned_step` — every operation keeps this;
* `Session.run_attended` — **no slot is leaked, and no caller is left alone**.
-/

namespace Hostlink.Bridge

open Registry (Ending Event History Desk)

variable {σ : Type}

/-! ## Only calls register requests -/

theorem count_settle (r : Registry Artefact Nat) (now : Nat) (id : String) (v : Settlement) :
    (r.settle now id v).2.2.count = r.count := by
  unfold Registry.settle
  split <;> rfl

theorem count_forget (r : Registry Artefact Nat) (now : Nat) (id : String) :
    (r.forget now id).2.2.count = r.count := by
  unfold Registry.forget
  split <;> rfl

theorem invariant_count (c : Nat) : Invariant (fun b : Bridge σ => b.registry.count = c) where
  settle {b} id v h := by rw [settle, registry_after, count_settle, h]
  forget {b} id h := by rw [forget, registry_after, count_forget, h]
  readInbox _ h := h
  dropInbox _ h := h
  answer _ h := h
  takeLoads _ _ h := h
  setPhase _ _ h := h
  endAborted h := h
  work _ _ _ _ _ h := h
  pushes _ _ _ h := h

namespace Session

variable {s : Session σ} {stem : String} {h t : History} {held : List Held}

theorem count_step {op : Op} (hop : op.request? = none) :
    (s.step op).2.bridge.registry.count = s.bridge.registry.count := by
  refine (invariant_count s.bridge.registry.count).step op ?_ (fun n r _ => ?_) rfl
  · intro path args hreq
    rw [hop] at hreq
    cases hreq
  · obtain ⟨fetches, ready, heq⟩ := reply_eq s.bridge n r
    exact (congrArg (·.registry.count) heq).trans rfl

/-- An operation that is no call registers nothing. -/
theorem opened_events (hs : s.bridge.registry.Sound) (hf : s.bridge.desk.Follows h) {op : Op}
    (hop : op.request? = none) : (h ++ s.events op).opened = h.opened := by
  have hnext : (s.step op).2.bridge.desk.Follows (h ++ s.events op) := by
    rw [(moves_step hs op).desk_eq]
    exact hf.run _
  calc (h ++ s.events op).opened = (s.step op).2.bridge.registry.count := hnext.count_eq.symm
    _ = s.bridge.registry.count := count_step hop
    _ = h.opened := hf.count_eq

/-! ## Requests and those who hold them -/

/-- Requests that wait are held. Nobody takes from a dialog what its request is told. -/
structure Owned (stem : String) (held : List Held) (h : History) : Prop where
  owner : ∀ n < h.opened, h.ending? stem n = none →
    ∃ (k : Nat) (e : Held), held[k]? = some e ∧ e.alive = true ∧ e.handle.request? = some n
  unread : ∀ (k : Nat) (d : Dialog) (o : Option Settlement) (n : Nat),
    held[k]? = some ⟨.dialog d, true, o⟩ → d.request = some n → h.Unread stem n

namespace Owned

variable (ho : Owned stem held h) (hk : Kept stem held h)
include ho hk

/-- What is held stays, and only settlements come. -/
theorem same (hopened : (h ++ t).opened = h.opened) (ht : ∀ x ∈ t, x.SettlesBy fun _ _ => True) :
    Owned stem held (h ++ t) where
  owner n hn hnone := by
    rw [hopened] at hn
    exact ho.owner n hn (History.ending?_eq_none_of_append hnone)
  unread k d o n hd hreq :=
    History.unread_append (hk.fits k _ hd n hreq).1 (ho.unread k d o n hd hreq) fun x hx =>
      spares_of_settlesBy (ht x hx) stem n

/-- A new request is held. -/
theorem push {handle : Handle} (hreq : handle.request? = some h.opened)
    (hopened : (h ++ .opened :: t).opened = h.opened + 1) (ht : ∀ x ∈ t, x.SettlesBy fun _ _ => True) :
    Owned stem (held ++ [⟨handle, true, none⟩]) (h ++ .opened :: t) where
  owner n hn hnone := by
    rw [hopened] at hn
    -- older requests have the owners that they had, and the new one is held last
    rcases Nat.lt_or_ge n h.opened with hlt | hge
    · obtain ⟨k, e, he, halive, hn'⟩ := ho.owner n hlt (History.ending?_eq_none_of_append hnone)
      exact ⟨k, e, getElem?_concat_eq_some.mpr (.inl he), halive, hn'⟩
    · have heq : n = h.opened := by omega
      refine ⟨held.length, _, getElem?_concat_eq_some.mpr (.inr ⟨rfl, rfl⟩), rfl, ?_⟩
      rw [heq]
      exact hreq
  unread k d o n hd hn := by
    have hsplit : h ++ .opened :: t = (h ++ [.opened]) ++ t := by simp
    have hone : (h ++ [Event.opened]).opened = h.opened + 1 := by
      simp [History.opened_concat, Event.opens]
    rw [hsplit]
    rcases getElem?_concat_eq_some.mp hd with hd | ⟨-, heq⟩
    · have hlt : n < h.opened := (hk.fits k _ hd n hn).1
      refine History.unread_append (by omega) ?_ fun x hx => spares_of_settlesBy (ht x hx) stem n
      exact History.unread_concat hlt (ho.unread k d o n hd hn) trivial
    · have hn' : h.opened = n := by
        rw [(Held.mk.inj heq).1] at hreq
        exact Option.some.inj (hreq.symm.trans hn)
      subst hn'
      refine History.unread_append (by omega) (History.unread_opened stem) fun x hx =>
        spares_of_settlesBy (ht x hx) stem _

/-- What is held changes in one place, and only the request that is held there is touched. -/
theorem set {k : Nat} {e e' : Held} (he : held[k]? = some e) (hopened : (h ++ t).opened = h.opened)
    (ht : ∀ n, e.handle.request? ≠ some n → ∀ x ∈ t, History.Spares stem n x)
    (howner : ∀ n, e.alive = true → e.handle.request? = some n → (h ++ t).ending? stem n = none →
      e'.alive = true ∧ e'.handle.request? = some n)
    (hunread : ∀ (d : Dialog) (o : Option Settlement) (n : Nat), e' = ⟨.dialog d, true, o⟩ →
      d.request = some n → (h ++ t).Unread stem n) :
    Owned stem (held.set k e') (h ++ t) where
  owner n hn hnone := by
    rw [hopened] at hn
    obtain ⟨j, f, hf, halive, hreq⟩ := ho.owner n hn (History.ending?_eq_none_of_append hnone)
    by_cases hjk : j = k
    · subst hjk
      obtain rfl := Option.some.inj (hf.symm.trans he)
      exact ⟨j, e', (getElem?_set_eq_some he).mpr (.inr ⟨rfl, rfl⟩), howner n halive hreq hnone⟩
    · exact ⟨j, f, (getElem?_set_eq_some he).mpr (.inl ⟨hjk, hf⟩), halive, hreq⟩
  unread j d o n hd hreq := by
    rcases (getElem?_set_eq_some he).mp hd with ⟨hjk, hd⟩ | ⟨rfl, heq⟩
    · refine History.unread_append (hk.fits j _ hd n hreq).1 (ho.unread j d o n hd hreq) (ht n ?_)
      exact fun hen => hjk (hk.apart j k _ e n hd he hreq hen)
    · exact hunread d o n heq hreq

end Owned

/-- Looking at a call keeps its owner. -/
theorem owned_poll_call (hstem : s.bridge.registry.stem = stem) (hk : Kept stem s.held h)
    (ho : Owned stem s.held h) {k n : Nat} (he : s.held[k]? = some ⟨.call n, true, none⟩)
    (hopened : (h ++ s.bridge.pollEvents (.call n)).opened = h.opened) :
    Owned stem (s.poll k).2.held (h ++ s.bridge.pollEvents (.call n)) := by
  have hset : ∀ o, Owned stem (s.held.set k ⟨.call n, true, o⟩) (h ++ s.bridge.pollEvents (.call n)) := by
    intro o
    refine ho.set hk he hopened (fun m hm => hstem ▸ spares_pollEvents hm) (fun m _ hm _ => ⟨rfl, hm⟩) ?_
    intro d o' m heq
    cases heq
  rw [poll_live he]
  exact hset _

/-- A look at a dialog reads its request only while that waits, and lets go of it afterwards. -/
theorem owned_poll_dialog (hf : s.bridge.desk.Follows h) (hstem : s.bridge.registry.stem = stem)
    (hk : Kept stem s.held h) (ho : Owned stem s.held h) {k : Nat} {d : Dialog}
    (he : s.held[k]? = some ⟨.dialog d, true, none⟩)
    (hopened : (h ++ s.bridge.pollEvents (.dialog d)).opened = h.opened) :
    Owned stem (s.poll k).2.held (h ++ s.bridge.pollEvents (.dialog d)) := by
  have hsp : ∀ n, (Handle.dialog d).request? ≠ some n →
      ∀ x ∈ s.bridge.pollEvents (.dialog d), History.Spares stem n x := fun n hn =>
    hstem ▸ spares_pollEvents hn
  rw [poll_dialog he]
  cases hreq : d.request with
  | none =>
    rw [pollDialog_of_none s.bridge hreq]
    refine ho.set hk he hopened hsp (fun n _ hn _ => ⟨rfl, hn⟩) fun c o n heq hn => ?_
    obtain rfl : d = c := Handle.dialog.inj (Held.mk.inj heq).1
    rw [hreq] at hn
    cases hn
  | some n =>
    have hlt : n < h.opened := (hk.fits k _ he n hreq).1
    by_cases hbox : s.bridge.inboxes.peek n = .waiting
    · -- nothing is there to be read
      have hevents : s.bridge.pollEvents (.dialog d) = [.read n] := by
        simp only [pollEvents, pollDialogEvents, hreq, hbox]
      rw [pollDialog_of_waiting s.bridge hreq hbox]
      refine ho.set hk he hopened hsp (fun m _ hm _ => ⟨rfl, hm⟩) fun c o m heq hm => ?_
      obtain rfl : d = c := Handle.dialog.inj (Held.mk.inj heq).1
      obtain rfl := Option.some.inj (hreq.symm.trans hm)
      rw [hevents]
      rcases History.unread_cases (ho.unread k d none n he hreq) with ⟨hend, hinbox⟩ | ⟨v, -, hinbox⟩
      · have hend' : (h ++ [Event.read n]).ending? stem n = none := by
          rw [History.ending?_concat hlt, hend]
          rfl
        rw [History.Unread, hend', History.inbox_concat hlt, hinbox]
        simp [Event.on, Inbox.afterRead]
      · have hpeek : s.bridge.inboxes.peek n = h.inbox stem n := hstem ▸ hf.peek_eq n hlt
        cases hbox.symm.trans (hpeek.trans hinbox)
    · -- whatever was found, the request is forgotten and the handle lets go of it
      have hlet : (s.bridge.pollDialog d).2.1.request = none := request_pollDialog_of_ready s.bridge hreq hbox
      have hmem : .aimed (Registry.idOf stem n) .forgotten ∈ s.bridge.pollEvents (.dialog d) := by
        rw [← hstem]
        simp [pollEvents, pollDialogEvents, hreq, idOf]
      refine ho.set hk he hopened hsp (fun m _ hm hnone => ?_) fun c o m heq hm => ?_
      · obtain rfl := Option.some.inj (hreq.symm.trans hm)
        exact absurd hnone (History.ending?_forgotten_ne_none hlt hmem)
      · rw [← Handle.dialog.inj (Held.mk.inj heq).1, hlet] at hm
        cases hm

theorem owned_poll (hs : s.bridge.registry.Sound) (hf : s.bridge.desk.Follows h)
    (hstem : s.bridge.registry.stem = stem) (hk : Kept stem s.held h) (ho : Owned stem s.held h) (k : Nat) :
    Owned stem (s.poll k).2.held (h ++ s.events (.poll k)) := by
  have hopened : (h ++ s.events (.poll k)).opened = h.opened := opened_events hs hf rfl
  rcases poll_cases s k with ⟨hsame, hnone⟩ | ⟨n | d, he, hevents⟩
  · rw [hsame, hnone, List.append_nil]
    exact ho
  · rw [hevents] at hopened ⊢
    exact owned_poll_call hstem hk ho he hopened
  · rw [hevents] at hopened ⊢
    exact owned_poll_dialog hf hstem hk ho he hopened

theorem owned_drop (hs : s.bridge.registry.Sound) (hf : s.bridge.desk.Follows h)
    (hstem : s.bridge.registry.stem = stem) (hk : Kept stem s.held h) (ho : Owned stem s.held h) (k : Nat) :
    Owned stem (s.drop k).held (h ++ s.events (.drop k)) := by
  have hopened : (h ++ s.events (.drop k)).opened = h.opened := opened_events hs hf rfl
  rcases drop_cases s k with ⟨hsame, hnone⟩ | ⟨handle, outcome, he, hevents, hdrop⟩
  · rw [hsame, hnone, List.append_nil]
    exact ho
  · rw [hevents] at hopened ⊢
    rw [hdrop]
    -- the entry is nobody's now, and its request has ended
    refine ho.set hk he hopened (fun n hn => hstem ▸ spares_dropEvents hn) (fun n _ hn hnone => ?_)
      fun d o n heq => by cases heq
    refine absurd hnone (History.ending?_forgotten_ne_none (hk.fits k _ he n hn).1 ?_)
    rw [← hstem]
    rcases handle with m | ⟨name, token, _ | m⟩
    · obtain rfl := Option.some.inj hn
      exact List.mem_cons_self
    · cases hn
    · obtain rfl := Option.some.inj hn
      exact List.mem_cons_self

/-- Every operation keeps requests that wait in somebody's hands. -/
theorem owned_step (hs : s.bridge.registry.Sound) (hf : s.bridge.desk.Follows h)
    (hstem : s.bridge.registry.stem = stem) (hk : Kept stem s.held h) (ho : Owned stem s.held h) (op : Op) :
    Owned stem (s.step op).2.held (h ++ s.events op) := by
  have hcount : s.bridge.registry.count = h.opened := hf.count_eq
  -- a call that fails at once adds endings to its registration, but no other registration
  have hcall : ∀ (b : Bridge σ) path args timeout,
      (h ++ b.callEvents path args timeout).opened = h.opened + 1 := by
    intro b path args timeout
    unfold callEvents failureEvents History.opened
    cases b.failure? (b.idOf b.registry.count) path args timeout <;>
      simp [List.countP_append, List.countP_cons, Event.opens]
  by_cases hop : op.owns = false
  · have hsettles := settles_events (s := s) hop
    cases hreq : op.request? with
    | none =>
      rcases held_step (s := s) hop with heq | ⟨handle, t, -, -, hev⟩
      · rw [heq]
        exact ho.same hk (opened_events hs hf hreq) hsettles
      · have hopened := opened_events hs hf hreq
        rw [hev, History.opened, List.countP_append, List.countP_cons_of_pos rfl] at hopened
        simp only [History.opened] at hopened
        omega
    | some call =>
      rcases held_step (s := s) hop with heq | ⟨handle, t, hreq', heq, hev⟩
      · have hlen := congrArg List.length heq
        cases op <;> first | (cases hreq; done) | simp [step] at hlen
      · have hopened : (h ++ s.events op).opened = h.opened + 1 := by
          cases op <;> first | (cases hreq; done) | exact hcall _ _ _ _
        rw [hev] at hopened
        rw [heq, hev]
        refine ho.push hk (hreq'.trans (congrArg some hcount)) hopened fun x hx => ?_
        exact hsettles x (hev ▸ List.mem_cons_of_mem _ hx)
  · cases op with
    | poll k => exact owned_poll hs hf hstem hk ho k
    | drop k => exact owned_drop hs hf hstem hk ho k
    | _ => exact absurd rfl hop

/-! ## Runs -/

section

variable {config : Config} {actual : Transport} {runtime : Bool} {page : Document} {host : Host σ}
  {b : Bridge σ}

theorem owned_run (hb : Bridge.new config actual runtime page host = .ok b) (ops : List Op) :
    Owned config.callbackStem ((new b).run ops).held ((new b).history ops) := by
  induction ops using List.reverseRecOn with
  | nil => exact ⟨fun n hn => absurd hn (Nat.not_lt_zero n), fun k d o n hd => by cases hd⟩
  | append_singleton ops op ih =>
    rw [run_concat, history_concat]
    exact owned_step (sound_run hb ops) (follows_history hb ops) (stem_run hb ops) (kept_run hb ops) ih op

/-- An id waits if it was given out, and nothing was aimed at it since. -/
theorem isPending_run (hb : Bridge.new config actual runtime page host = .ok b) (ops : List Op) (id : String) :
    ((new b).run ops).bridge.registry.isPending id = true ↔
      ((new b).history ops).Waits config.callbackStem id := by
  rw [(sound_run hb ops).isPending_iff_waits (follows_history hb ops), stem_run hb ops]

/-- What a live caller holds was not forgotten. -/
theorem ending?_ne_forgotten (hb : Bridge.new config actual runtime page host = .ok b) (ops : List Op)
    {k n : Nat} {e : Held} (he : ((new b).run ops).held[k]? = some e) (halive : e.alive = true)
    (hreq : e.handle.request? = some n) :
    ((new b).history ops).ending? config.callbackStem n ≠ some .forgotten := by
  obtain ⟨handle, alive, outcome⟩ := e
  obtain rfl : alive = true := halive
  cases handle with
  | call m =>
    obtain rfl := Option.some.inj hreq
    rcases ending_cases (kept_run hb ops) he (by simp) with hend | ⟨v, hend⟩
    all_goals
      rw [hend]
      simp
  | dialog d =>
    have hunread := (owned_run hb ops).unread k d outcome n he hreq
    rcases History.unread_cases hunread with ⟨hend, -⟩ | ⟨v, hend, -⟩
    all_goals
      rw [hend]
      simp

/-- A request waits exactly as long as somebody holds it and nothing has settled it. -/
theorem isPending_iff_held (hb : Bridge.new config actual runtime page host = .ok b) (ops : List Op)
    (id : String) :
    ((new b).run ops).bridge.registry.isPending id = true ↔
      ∃ (n k : Nat) (e : Held), id = Registry.idOf config.callbackStem n ∧
        ((new b).run ops).held[k]? = some e ∧ e.alive = true ∧ e.handle.request? = some n ∧
        ∀ v, ((new b).history ops).ending? config.callbackStem n ≠ some (.settled v) := by
  rw [isPending_run hb ops]
  constructor
  · rintro ⟨n, hn, hid, hnone⟩
    obtain ⟨k, e, he, halive, hreq⟩ := (owned_run hb ops).owner n hn hnone
    exact ⟨n, k, e, hid.symm, he, halive, hreq, fun v => by rw [hnone]; simp⟩
  · rintro ⟨n, k, e, rfl, he, halive, hreq, hsettled⟩
    refine ⟨n, ((kept_run hb ops).fits k e he n hreq).1, rfl, ?_⟩
    have hforgotten := ending?_ne_forgotten hb ops he halive hreq
    cases hend : ((new b).history ops).ending? config.callbackStem n with
    | none => rfl
    | some en =>
      cases en with
      | settled v => exact absurd hend (hsettled v)
      | forgotten => exact absurd hend hforgotten

/-- **No slot is leaked, and no caller is left alone.** A request waits exactly as long as somebody holds
it, by itself or inside a dialog, and nothing has settled it. A handler that waits under a name belongs
to a dialog that is held, and none of that name is newer. A dialog that is held and has found nothing
waits for its handler, or for a settlement that comes with the next tick, or has a settlement to read:
for one of them, and never for two. -/
theorem run_attended (hb : Bridge.new config actual runtime page host = .ok b) (ops : List Op) :
    let s := (new b).run ops
    let h := (new b).history ops
    let stem := config.callbackStem
    (∀ id, s.bridge.registry.isPending id = true ↔
      ∃ (n k : Nat) (e : Held), id = Registry.idOf stem n ∧ s.held[k]? = some e ∧ e.alive = true ∧
        e.handle.request? = some n ∧ ∀ v, h.ending? stem n ≠ some (.settled v)) ∧
    (∀ name x, s.bridge.router.handlers.find? name = some x →
      ∃ (k : Nat) (d : Dialog), s.held[k]? = some ⟨.dialog d, true, none⟩ ∧ d.name = name ∧
        d.token = x.token ∧ ∀ (j : Nat) (f : Held) (c : Dialog), s.held[j]? = some f →
          f.handle = .dialog c → c.name = name → j ≤ k) ∧
    (∀ (k : Nat) (d : Dialog), s.held[k]? = some ⟨.dialog d, true, none⟩ →
      let waits := s.bridge.router.handlers.find? d.name = some ⟨d.name, d.token⟩
      let late := ∃ v, ⟨d.token, v⟩ ∈ s.bridge.deferred
      let arrived := ∃ v, s.bridge.dialogs.peek d.token = .holds v
      (waits ∧ ¬ late ∧ ¬ arrived) ∨ (¬ waits ∧ late ∧ ¬ arrived) ∨ (¬ waits ∧ ¬ late ∧ arrived)) := by
  intro s h stem
  have hT : Tended s.held s.bridge.board := tended_run hb ops
  refine ⟨fun id => isPending_iff_held hb ops id, fun name x hx => ?_, fun k d hd => ?_⟩
  · exact hT.newest_of_find? hx
  · exact hT.one_of_three hd

/-- Of two dialogs with one name, the second has the handler. -/
theorem run_attended_second_dialog :
    let s := (new quiet).run [.callNamed "x" "/a" .none, .callNamed "x" "/b" .none, .cancel 0]
    Bridge.new .fetch .fetch true .new quiet.host = .ok quiet ∧
      ∃ (k : Nat) (d : Dialog), s.held[k]? = some ⟨.dialog d, true, none⟩ ∧ d.name = "x" ∧ d.token = 1 ∧
        ∀ (j : Nat) (f : Held) (c : Dialog), s.held[j]? = some f → f.handle = .dialog c → c.name = "x" →
          j ≤ k :=
  ⟨rfl, (run_attended new_quiet _).2.1 "x" ⟨"x", 1⟩ rfl⟩

end

end Session

end Hostlink.Bridge
