import Hostlink.Proofs.Bridge.Supply

/-!
# What callers hold

A caller holds a call or a dialog until it is dropped, and what has been found of it. This agrees with
the history of the requests, and every operation keeps it so.

* `Session.Kept` — what is held agrees with the history;
* `Session.kept_step` — it does after one more operation;
* `Session.Ages` — what an operation makes of an entry;
* `Session.poll_call` — what a call reads.
-/

namespace Hostlink.Bridge

open Registry (Ending Event History Desk)

variable {σ : Type}

/-- The request that a handle is bound to. -/
def Handle.request? : Handle → Option Nat
  | .call n => some n
  | .dialog d => d.request

/-- A settlement spares every request. -/
theorem spares_of_settlesBy {G : String → Settlement → Prop} {e : Event} (he : e.SettlesBy G) (stem : String)
    (n : Nat) : History.Spares stem n e := by
  rcases e with _ | ⟨id, _ | _⟩ | _ | _
  · trivial
  · trivial
  all_goals exact he.elim

namespace Session

/-! ## What is held -/

/-- What is held agrees with a history: a request was registered; a call that was found settled was
settled so; and nobody has read a call for its owner. -/
def Fits (stem : String) (h : History) (e : Held) : Prop :=
  ∀ n, e.handle.request? = some n → n < h.opened ∧ (e.handle = .call n →
    match e.outcome with
    | some v => h.ending? stem n = some (.settled v)
    | none => e.alive → h.Unread stem n)

/-- All that is held agrees with a history, and no request is held twice. -/
structure Kept (stem : String) (held : List Held) (h : History) : Prop where
  fits : ∀ (k : Nat) (e : Held), held[k]? = some e → Fits stem h e
  apart : ∀ (j k : Nat) (e f : Held) (n : Nat), held[j]? = some e → held[k]? = some f →
    e.handle.request? = some n → f.handle.request? = some n → j = k

/-- Nothing is held at first. -/
theorem kept_new (stem : String) : Kept stem [] [] := ⟨fun _ _ he => (by cases he), fun _ _ _ _ _ he => (by cases he)⟩

section

variable {stem : String} {h t : History} {held : List Held}

theorem Fits.append {e : Held} (hfit : Fits stem h e)
    (hsp : ∀ n, e.handle.request? = some n → ∀ x ∈ t, History.Spares stem n x) :
    Fits stem (h ++ t) e := by
  intro n hn
  obtain ⟨hlt, hcall⟩ := hfit n hn
  refine ⟨Nat.lt_of_lt_of_le hlt (History.opened_le_append h t), fun hc => ?_⟩
  have hcall := hcall hc
  revert hcall
  cases e.outcome with
  | some v => exact History.ending?_append
  | none => exact fun hu ha => History.unread_append hlt (hu ha) (hsp n hn)

namespace Kept

variable (hk : Kept stem held h)
include hk

/-- Nothing is held that was not held before, and only settlements come. -/
theorem same (ht : ∀ x ∈ t, x.SettlesBy fun _ _ => True) : Kept stem held (h ++ t) where
  fits k e he := (hk.fits k e he).append fun n _ x hx => spares_of_settlesBy (ht x hx) stem n
  apart := hk.apart

/-- A new request is held. -/
theorem push {handle : Handle} (hreq : handle.request? = some h.opened)
    (ht : ∀ x ∈ t, x.SettlesBy fun _ _ => True) :
    Kept stem (held ++ [⟨handle, true, none⟩]) (h ++ .opened :: t) := by
  have hsp : ∀ n, ∀ x ∈ t, History.Spares stem n x := fun n x hx =>
    spares_of_settlesBy (ht x hx) stem n
  have hsplit : h ++ .opened :: t = (h ++ [.opened]) ++ t := by simp
  have hopened : (h ++ [Event.opened]).opened = h.opened + 1 := by
    simp [History.opened_concat, Event.opens]
  have hcases : ∀ (k : Nat) (e : Held), (held ++ [⟨handle, true, none⟩])[k]? = some e →
      held[k]? = some e ∨ k = held.length ∧ e = ⟨handle, true, none⟩ := by
    intro k e he
    rcases Nat.lt_or_ge k held.length with hlt | hge
    · exact .inl (by rwa [List.getElem?_append_left hlt] at he)
    · rw [List.getElem?_append_right hge] at he
      have hk : k - held.length = 0 := by
        have := (List.getElem?_eq_some_iff.mp he).1
        simpa using this
      rw [hk] at he
      exact .inr ⟨by omega, (Option.some.inj he).symm⟩
  refine ⟨fun k e he => ?_, fun j k e f n he hf hen hfn => ?_⟩
  · rcases hcases k e he with he | ⟨-, rfl⟩
    · refine (hk.fits k e he).append fun n _ x hx => ?_
      rcases List.mem_cons.mp hx with rfl | hx
      · trivial
      · exact hsp n x hx
    · intro n hn
      have hn' : h.opened = n := Option.some.inj (hreq.symm.trans hn)
      have hlt : n < (h ++ [Event.opened]).opened := by omega
      rw [hsplit]
      refine ⟨Nat.lt_of_lt_of_le hlt (History.opened_le_append _ t), fun _ _ => ?_⟩
      exact History.unread_append hlt (hn' ▸ History.unread_opened stem) (hsp n)
  · -- an older request has a smaller number
    have hold : ∀ (k : Nat) (e : Held), held[k]? = some e → e.handle.request? ≠ some h.opened :=
      fun k e he heq => Nat.lt_irrefl _ (hk.fits k e he _ heq).1
    rcases hcases j e he with he | ⟨rfl, rfl⟩ <;> rcases hcases k f hf with hf | ⟨rfl, rfl⟩
    · exact hk.apart j k e f n he hf hen hfn
    · exact absurd (hen.trans (hfn.symm.trans hreq)) (hold j e he)
    · exact absurd (hfn.trans (hen.symm.trans hreq)) (hold k f hf)
    · rfl

/-- What is held changes in one place, and only the request that is held there is touched. -/
theorem set {k : Nat} {e e' : Held} (he : held[k]? = some e)
    (hreq : ∀ n, e'.handle.request? = some n → e.handle.request? = some n)
    (hfit : Fits stem (h ++ t) e')
    (ht : ∀ n, e.handle.request? ≠ some n → ∀ x ∈ t, History.Spares stem n x) :
    Kept stem (held.set k e') (h ++ t) := by
  have hlt : k < held.length := (List.getElem?_eq_some_iff.mp he).1
  have hcases : ∀ (j : Nat) (f : Held), (held.set k e')[j]? = some f →
      (j ≠ k ∧ held[j]? = some f) ∨ j = k ∧ f = e' := by
    intro j f hf
    rw [List.getElem?_set, if_pos hlt] at hf
    split at hf
    · next hkj =>
      exact .inr ⟨hkj.symm, (Option.some.inj hf).symm⟩
    · next hkj => exact .inl ⟨fun h => hkj h.symm, hf⟩
  refine ⟨fun j f hf => ?_, fun i j f g n hf hg hfn hgn => ?_⟩
  · rcases hcases j f hf with ⟨hne, hf⟩ | ⟨-, rfl⟩
    · -- what is held elsewhere has another request, which the events spare
      exact (hk.fits j f hf).append fun n hn => ht n fun hen => hne (hk.apart j k f e n hf he hn hen)
    · exact hfit
  · rcases hcases i f hf with ⟨-, hf'⟩ | ⟨hi, hfe⟩ <;> rcases hcases j g hg with ⟨-, hg'⟩ | ⟨hj, hge⟩
    · exact hk.apart i j f g n hf' hg' hfn hgn
    · exact (hk.apart i k f e n hf' he hfn (hreq n (hge ▸ hgn))).trans hj.symm
    · exact hi.trans (hk.apart k j e g n he hg' (hreq n (hfe ▸ hfn)) hgn)
    · exact hi.trans hj.symm

end Kept

end

/-! ## One operation -/

variable {s : Session σ} {stem : String} {h : History}

theorem settles_events {op : Op} (hop : op.owns = false) : ∀ e ∈ s.events op, e.SettlesBy fun _ _ => True :=
  settlesBy_events (fun _ _ _ _ => trivial) (fun _ _ _ _ => trivial) (fun _ _ _ => trivial) (fun _ _ _ _ => trivial) hop

/-- What makes no request, and is not done to what is held, leaves that alone. -/
theorem held_same {op : Op} (howns : op.owns = false) (hreq : op.request? = none) : (s.step op).2.held = s.held := by
  cases op with
  | call path args timeout => cases hreq
  | callNamed name path args => cases hreq
  | poll k => cases howns
  | drop k => cases howns
  | cancel k =>
    simp only [step, cancel]
    split
    · rfl
    · split <;> rfl
  | cancelDetached k =>
    simp only [step, cancelDetached]
    split <;> rfl
  | answerNext => rcases hl : s.bridge.page.loads with _ | ⟨url, rest⟩ <;> simp only [step, takeLoad, hl]
  | _ => rfl

/-- Only calls and dialogs that are made are held in addition. -/
theorem held_step {op : Op} (hop : op.owns = false) :
    (s.step op).2.held = s.held ∨ ∃ handle t, handle.request? = some s.bridge.registry.count ∧
      (s.step op).2.held = s.held ++ [⟨handle, true, none⟩] ∧ s.events op = .opened :: t := by
  cases op with
  | call path args timeout => exact .inr ⟨.call s.bridge.registry.count, _, rfl, rfl, rfl⟩
  | callNamed name path args =>
    exact .inr ⟨.dialog ⟨name, (s.bridge.registerHandler name).1, some s.bridge.registry.count⟩, _,
      rfl, rfl, rfl⟩
  | poll k => cases hop
  | drop k => cases hop
  | _ => exact .inl (held_same rfl rfl)

/-- The events of dropping a handle spare other requests. -/
theorem spares_dropEvents {b : Bridge σ} {handle : Handle} {n : Nat} (hn : handle.request? ≠ some n) :
    ∀ e ∈ b.dropEvents handle, History.Spares b.registry.stem n e := by
  have key : ∀ m, m ≠ n →
      ∀ e ∈ [Event.aimed (b.idOf m) .forgotten, .dropped m], History.Spares b.registry.stem n e := by
    intro m hm e he
    rcases List.mem_cons.mp he with rfl | he
    · exact fun hid => hm (Registry.idOf_inj.mp hid)
    · rw [List.mem_singleton.mp he]
      exact hm
  rcases handle with m | ⟨name, token, _ | m⟩
  · exact key m fun h => hn (congrArg some h)
  · exact fun e he => absurd he List.not_mem_nil
  · exact key m fun h => hn (congrArg some h)

/-- The events of a look at a handle spare other requests. -/
theorem spares_pollEvents {b : Bridge σ} {handle : Handle} {n : Nat} (hn : handle.request? ≠ some n) :
    ∀ e ∈ b.pollEvents handle, History.Spares b.registry.stem n e := by
  have hread : ∀ m, handle.request? = some m → History.Spares b.registry.stem n (.read m) :=
    fun m hm h => hn (hm.trans (congrArg some h))
  intro e he
  rcases handle with m | ⟨name, token, _ | m⟩
  · rw [List.mem_singleton.mp he]
    exact hread m rfl
  · exact absurd he List.not_mem_nil
  · simp only [pollEvents, pollDialogEvents] at he
    split at he
    · rw [List.mem_singleton.mp he]
      exact hread m rfl
    · rcases List.mem_cons.mp he with rfl | he
      · exact hread m rfl
      · exact spares_dropEvents hn e he

/-- A dialog keeps its request, or lets go of it. -/
theorem request_pollDialog (b : Bridge σ) (d : Dialog) (n : Nat) :
    (b.pollDialog d).2.1.request = some n → d.request = some n := by
  unfold pollDialog
  cases hd : d.request with
  | none => simp [hd]
  | some m =>
    dsimp only
    rcases b.poll m with ⟨_ | (e | v), c⟩
    · simp [hd]
    · dsimp only
      split <;> simp
    · simp

theorem kept_poll_call (hf : s.bridge.desk.Follows h) (hstem : s.bridge.registry.stem = stem)
    (hk : Kept stem s.held h) {k n : Nat} (he : s.held[k]? = some ⟨.call n, true, none⟩) :
    Kept stem (s.poll k).2.held (h ++ s.bridge.pollEvents (.call n)) := by
  obtain ⟨hlt, hcall⟩ := hk.fits k _ he n rfl
  have hpeek : s.bridge.inboxes.peek n = h.inbox stem n := hstem ▸ hf.peek_eq n hlt
  have hlt' : n < (h ++ [Event.read n]).opened := Nat.lt_of_lt_of_le hlt (History.opened_le_append h _)
  have hkeep : ∀ e' : Held, e'.handle = .call n → Fits stem (h ++ [.read n]) e' →
      Kept stem (s.held.set k e') (h ++ s.bridge.pollEvents (.call n)) := fun e' he' hfit =>
    hk.set he (fun m hm => by rwa [he'] at hm) hfit fun m hm => hstem ▸ spares_pollEvents hm
  rcases History.unread_cases (hcall rfl rfl) with ⟨hend, hbox⟩ | ⟨v, hend, hbox⟩
  · simp only [poll, he, pollHandle, Bridge.poll, Inboxes.read_fst, hpeek, hbox, Poll.ofInbox]
    refine hkeep _ rfl fun m hm => ?_
    rw [← Option.some.inj hm]
    refine ⟨hlt', fun _ _ => ?_⟩
    have hend' : (h ++ [Event.read n]).ending? stem n = none := by
      rw [History.ending?_concat hlt, hend]
      rfl
    rw [History.Unread, hend', History.inbox_concat hlt, hbox]
    simp [Event.on, Inbox.afterRead]
  · simp only [poll, he, pollHandle, Bridge.poll, Inboxes.read_fst, hpeek, hbox, Poll.ofInbox]
    refine hkeep _ rfl fun m hm => ?_
    rw [← Option.some.inj hm]
    exact ⟨hlt', fun _ => History.ending?_append hend⟩

theorem kept_poll_dialog (hstem : s.bridge.registry.stem = stem) (hk : Kept stem s.held h) {k : Nat} {d : Dialog}
    (he : s.held[k]? = some ⟨.dialog d, true, none⟩) :
    Kept stem (s.poll k).2.held (h ++ s.bridge.pollEvents (.dialog d)) := by
  have hreq := request_pollDialog s.bridge d
  have hsp : ∀ n, (Handle.dialog d).request? ≠ some n →
      ∀ x ∈ s.bridge.pollEvents (.dialog d), History.Spares stem n x := fun n hn => hstem ▸ spares_pollEvents hn
  have hfit : ∀ e' : Held, e'.handle = .dialog (s.bridge.pollDialog d).2.1 →
      Fits stem (h ++ s.bridge.pollEvents (.dialog d)) e' := by
    intro e' he' n hn
    rw [he'] at hn
    refine ⟨Nat.lt_of_lt_of_le (hk.fits k _ he n (hreq n hn)).1 (History.opened_le_append h _), fun hc => ?_⟩
    rw [he'] at hc
    cases hc
  rw [poll_live he]
  exact hk.set he hreq (hfit _ rfl) hsp

/-- Looking at an entry keeps it in agreement. -/
theorem kept_poll (hf : s.bridge.desk.Follows h) (hstem : s.bridge.registry.stem = stem)
    (hk : Kept stem s.held h) (k : Nat) :
    Kept stem (s.poll k).2.held (h ++ s.events (.poll k)) := by
  rcases poll_cases s k with ⟨hsame, hnone⟩ | ⟨n | d, he, hevents⟩
  · rw [hsame, hnone, List.append_nil]
    exact hk
  · rw [hevents]
    exact kept_poll_call hf hstem hk he
  · rw [hevents]
    exact kept_poll_dialog hstem hk he

theorem kept_drop (hstem : s.bridge.registry.stem = stem)
    (hk : Kept stem s.held h) (k : Nat) :
    Kept stem (s.drop k).held (h ++ s.events (.drop k)) := by
  rcases drop_cases s k with ⟨hsame, hnone⟩ | ⟨handle, outcome, he, hevents, hdrop⟩
  · rw [hsame, hnone, List.append_nil]
    exact hk
  · rw [hevents, hdrop]
    refine hk.set he (fun n hn => hn) (fun n hn => ?_) fun n hn => hstem ▸ spares_dropEvents hn
    obtain ⟨hlt, hcall⟩ := hk.fits k _ he n hn
    refine ⟨Nat.lt_of_lt_of_le hlt (History.opened_le_append h _), fun hc => ?_⟩
    -- whoever was dropped reads no more than what he has found
    have hcall := hcall hc
    cases outcome with
    | none => exact fun ha => by cases ha
    | some v => exact History.ending?_append hcall

/-- Every operation keeps what is held in agreement with the history. -/
theorem kept_step (hf : s.bridge.desk.Follows h) (hstem : s.bridge.registry.stem = stem)
    (hk : Kept stem s.held h) (op : Op) : Kept stem (s.step op).2.held (h ++ s.events op) := by
  by_cases hop : op.owns = false
  · rcases held_step (s := s) hop with heq | ⟨handle, t, hreq, heq, hev⟩
    · rw [heq]
      exact hk.same (settles_events hop)
    · rw [heq, hev]
      have hcount : s.bridge.registry.count = h.opened := hf.count_eq
      refine hk.push (hreq.trans (congrArg some hcount)) fun x hx => ?_
      exact settles_events (s := s) hop x (hev ▸ List.mem_cons_of_mem _ hx)
  · cases op with
    | poll k => exact kept_poll hf hstem hk k
    | drop k => exact kept_drop hstem hk k
    | _ => exact absurd rfl hop

/-! ## What becomes of an entry -/

/-- The request of a call. -/
def callAt (s : Session σ) (k : Nat) : Option Nat :=
  match s.held[k]? with
  | some ⟨.call n, _, _⟩ => some n
  | _ => none

theorem callAt_eq_some {k n : Nat} :
    s.callAt k = some n ↔ ∃ alive outcome, s.held[k]? = some ⟨.call n, alive, outcome⟩ := by
  unfold callAt
  rcases s.held[k]? with _ | ⟨m | d, alive, outcome⟩ <;> simp

/-- What an operation makes of an entry that is held. -/
structure Ages (dropped : Prop) (e e' : Held) : Prop where
  call_eq : ∀ n, e.handle = .call n → e'.handle = .call n
  alive_eq : ¬ dropped → e'.alive = e.alive
  eq_of_dead : e.alive = false → e' = e

theorem Ages.refl (p : Prop) (e : Held) : Ages p e e := ⟨fun _ h => h, fun _ => rfl, fun _ => rfl⟩

/-- Whoever looks at an entry or drops it changes no other one. -/
theorem held_owned {op : Op} (hop : op.owns) :
    (s.step op).2.held = s.held ∨ ∃ j e e', (op = .poll j ∨ op = .drop j) ∧ s.held[j]? = some e ∧
      (s.step op).2.held = s.held.set j e' ∧ Ages (op = .drop j) e e' := by
  cases op with
  | poll j =>
    rcases poll_cases s j with ⟨hsame, -⟩ | ⟨handle, he, -⟩
    · exact .inl (congrArg Session.held hsame)
    · -- a dialog may come back as another handle, a call is always the same
      have hcall : ∀ n, handle = .call n → (pollHandle s.bridge handle).2.1 = .call n := by
        rintro n rfl
        rfl
      refine .inr ⟨j, _, _, .inl rfl, he, congrArg (·.2.held) (poll_live he), ?_⟩
      exact ⟨hcall, fun _ => rfl, fun h => (by cases h)⟩
  | drop j =>
    rcases drop_cases s j with ⟨hsame, -⟩ | ⟨handle, outcome, he, -, hdrop⟩
    · exact .inl (congrArg Session.held hsame)
    · exact .inr ⟨j, _, _, .inr rfl, he, congrArg Session.held hdrop,
        ⟨fun _ h => h, fun h => absurd rfl h, fun h => (by cases h)⟩⟩
  | _ => cases hop

/-- An entry stays where it is, and only its owner changes it. -/
theorem ages_step {k : Nat} {e : Held} (he : s.held[k]? = some e) (op : Op) :
    ∃ e', (s.step op).2.held[k]? = some e' ∧ Ages (op = .drop k) e e' := by
  have hlt : k < s.held.length := (List.getElem?_eq_some_iff.mp he).1
  by_cases hop : op.owns = false
  · rcases held_step (s := s) hop with heq | ⟨handle, t, -, heq, -⟩
    · exact ⟨e, heq ▸ he, .refl _ e⟩
    · exact ⟨e, by rw [heq, List.getElem?_append_left hlt, he], .refl _ e⟩
  · rcases held_owned (s := s) (eq_true_of_ne_false hop) with heq | ⟨j, f, f', -, hf, heq, hages⟩
    · exact ⟨e, heq ▸ he, .refl _ e⟩
    · by_cases hjk : j = k
      · subst hjk
        obtain rfl := Option.some.inj (he.symm.trans hf)
        exact ⟨f', by rw [heq, List.getElem?_set_self hlt], hages⟩
      · exact ⟨e, by rw [heq, List.getElem?_set_ne hjk, he], .refl _ e⟩

/-- An entry stays as it is unless it is looked at or dropped. -/
theorem held_of_ne {k : Nat} {e : Held} (he : s.held[k]? = some e) {op : Op} (hpoll : op ≠ .poll k)
    (hdrop : op ≠ .drop k) : (s.step op).2.held[k]? = some e := by
  have hlt : k < s.held.length := (List.getElem?_eq_some_iff.mp he).1
  by_cases hop : op.owns = false
  · rcases held_step (s := s) hop with heq | ⟨handle, t, -, heq, -⟩
    · rw [heq, he]
    · rw [heq, List.getElem?_append_left hlt, he]
  · rcases held_owned (s := s) (eq_true_of_ne_false hop) with heq | ⟨j, f, f', hj, -, heq, -⟩
    · rw [heq, he]
    · have hjk : j ≠ k := by
        rintro rfl
        exact hj.elim hpoll hdrop
      rw [heq, List.getElem?_set_ne hjk, he]

/-- A call keeps what is found of it. -/
theorem held_poll {k n : Nat} {alive : Bool} {outcome : Option Settlement}
    (he : s.held[k]? = some ⟨.call n, alive, outcome⟩) :
    (s.poll k).2.held[k]? = some ⟨.call n, alive, match (s.poll k).1 with
      | .settled v => some v
      | _ => outcome⟩ := by
  have hlt : k < s.held.length := (List.getElem?_eq_some_iff.mp he).1
  cases outcome with
  | some v => simp only [poll, he]
  | none =>
    cases alive with
    | false => simp [poll, he]
    | true =>
      rcases hp : s.bridge.poll n with ⟨_ | v, b⟩
      all_goals
        simp only [poll, he, pollHandle, hp, if_true]
        exact List.getElem?_set_self hlt

theorem held_drop {k n : Nat} {alive : Bool} {outcome : Option Settlement}
    (he : s.held[k]? = some ⟨.call n, alive, outcome⟩) : (s.drop k).held[k]? = some ⟨.call n, false, outcome⟩ := by
  have hlt : k < s.held.length := (List.getElem?_eq_some_iff.mp he).1
  cases alive with
  | false => simp [drop, he]
  | true =>
    simp only [drop, he, if_true]
    exact List.getElem?_set_self hlt

/-- What was dropped is dead. -/
theorem dead_of_drop {k : Nat} {e : Held} (he : (s.drop k).held[k]? = some e) : e.alive = false := by
  unfold drop at he
  split at he
  · next hnone =>
    rw [hnone] at he
    cases he
  · next held hheld =>
    have hlt : k < s.held.length := (List.getElem?_eq_some_iff.mp hheld).1
    split at he
    · rw [List.getElem?_set_self hlt] at he
      rw [← Option.some.inj he]
    · next hdead =>
      rw [← Option.some.inj (hheld.symm.trans he)]
      simpa using hdead

/-- What is new is alive. -/
theorem alive_of_new {op : Op} {k : Nat} {e : Held} (hnew : s.held[k]? = none)
    (he : (s.step op).2.held[k]? = some e) : e.alive = true := by
  have hle : s.held.length ≤ k := List.getElem?_eq_none_iff.mp hnew
  have hlt : k < (s.step op).2.held.length := (List.getElem?_eq_some_iff.mp he).1
  by_cases hop : op.owns = false
  · rcases held_step (s := s) hop with heq | ⟨handle, t, -, heq, -⟩
    · rw [heq] at hlt; omega
    · rw [heq] at he hlt
      have hk : k - s.held.length = 0 := by simp at hlt; omega
      rw [List.getElem?_append_right hle, hk] at he
      rw [← Option.some.inj he]
  · have hlen : (s.step op).2.held.length = s.held.length := by
      rcases held_owned (s := s) (eq_true_of_ne_false hop) with heq | ⟨j, f, f', -, -, heq, -⟩
      · rw [heq]
      · rw [heq, List.length_set]
    omega

/-! ## What a call reads -/

/-- What is read of an ending. -/
def findingOf : Option Ending → Finding
  | none => .pending
  | some (.settled v) => .settled v
  | some .forgotten => .dropped

/-- A call reads the first ending of its request, unless it was dropped before that was found. -/
theorem poll_call (hf : s.bridge.desk.Follows h) (hstem : s.bridge.registry.stem = stem)
    (hk : Kept stem s.held h) {k n : Nat} {alive : Bool} {outcome : Option Settlement}
    (he : s.held[k]? = some ⟨.call n, alive, outcome⟩) :
    (s.poll k).1 =
      if alive = false ∧ outcome = none then .dropped else findingOf (h.ending? stem n) := by
  obtain ⟨hlt, hcall⟩ := hk.fits k _ he n rfl
  rcases outcome with _ | v
  · cases alive with
    | false => simp [poll, he]
    | true =>
      have hpeek : s.bridge.inboxes.peek n = h.inbox stem n := hstem ▸ hf.peek_eq n hlt
      rcases History.unread_cases (hcall rfl rfl) with ⟨hend, hbox⟩ | ⟨v, hend, hbox⟩ <;>
        simp [poll, he, pollHandle, Bridge.poll, hpeek, hbox, Poll.ofInbox, hend, findingOf]
  · simp [poll, he, show h.ending? stem n = some (.settled v) from hcall rfl, findingOf]

/-- A call that is not dropped was not forgotten. -/
theorem ending_cases (hk : Kept stem s.held h) {k n : Nat} {alive : Bool}
    {outcome : Option Settlement} (he : s.held[k]? = some ⟨.call n, alive, outcome⟩)
    (hlive : ¬ (alive = false ∧ outcome = none)) :
    h.ending? stem n = none ∨ ∃ v, h.ending? stem n = some (.settled v) := by
  have hcall := (hk.fits k _ he n rfl).2 rfl
  rcases outcome with _ | v
  · have ha : alive = true := by cases alive <;> simp_all
    rcases History.unread_cases (hcall ha) with ⟨hend, -⟩ | ⟨v, hend, -⟩
    · exact .inl hend
    · exact .inr ⟨v, hend⟩
  · exact .inr ⟨v, hcall⟩

end Session

end Hostlink.Bridge
