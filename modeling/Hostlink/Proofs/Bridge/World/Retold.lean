import Hostlink.Proofs.Bridge.Owners
import Hostlink.Proofs.Bridge.World.Room
import Hostlink.Proofs.Bridge.World.Ticks

/-!
# Runs, told by their operations

What becomes of the requests of a bridge is told by the operations alone, in the world around it.

* `Session.Numbered` — handles are those that were given out, in order;
* `Session.Retold` — a session stands in its world, and what is told of both agrees;
* `Session.retold_step`, `Session.retold_run` — **every operation and every run is told by the world**;
* `Session.ending?_told` — how a request ended, told by the operations.
-/

namespace Hostlink.Bridge

open Registry (Ending Event History Desk)

variable {σ : Type}

/-- A handle is the one that was given out with a number: that of a call, or of a dialog whose request has it. -/
def Handle.IsAt (k : Nat) (isCall : Bool) : Handle → Prop
  | .call n => n = k ∧ isCall = true
  | .dialog d => isCall = false ∧ ∀ n, d.request = some n → n = k

theorem Handle.IsAt.eq_of_request? {handle : Handle} {k n : Nat} {c : Bool} (h : handle.IsAt k c)
    (hn : handle.request? = some n) : n = k := by
  cases handle with
  | call m => exact (Option.some.inj hn).symm.trans h.1
  | dialog d => exact h.2 n hn

namespace Session

variable {s : Session σ} {w : World σ} {stem : String} {held : List Held} {calls : List Bool} {h k : History}

/-! ## Handles are numbered -/

/-- Handles are those that were given out, in order. -/
structure Numbered (held : List Held) (calls : List Bool) : Prop where
  length_eq : held.length = calls.length
  is_at : ∀ (k : Nat) (e : Held) (c : Bool), held[k]? = some e → calls[k]? = some c → e.handle.IsAt k c

namespace Numbered

variable (hn : Numbered held calls)
include hn

theorem push {handle : Handle} {c : Bool} (hnew : handle.IsAt held.length c) :
    Numbered (held ++ [⟨handle, true, none⟩]) (calls ++ [c]) where
  length_eq := by rw [List.length_append, List.length_append, hn.length_eq]; rfl
  is_at k e c' he hc := by
    rcases getElem?_concat_eq_some.mp he with he | ⟨rfl, rfl⟩
    · have hlt : k < calls.length := hn.length_eq ▸ (List.getElem?_eq_some_iff.mp he).1
      rw [List.getElem?_append_left hlt] at hc
      exact hn.is_at k e c' he hc
    · rw [hn.length_eq, List.getElem?_concat_length] at hc
      exact Option.some.inj hc ▸ hnew

theorem set {k : Nat} {e e' : Held} (he : held[k]? = some e) (hkeep : ∀ c, e.handle.IsAt k c → e'.handle.IsAt k c) :
    Numbered (held.set k e') calls where
  length_eq := by rw [List.length_set, hn.length_eq]
  is_at j f c hf hc := by
    rcases (getElem?_set_eq_some he).mp hf with ⟨-, hf⟩ | ⟨rfl, rfl⟩
    · exact hn.is_at j f c hf hc
    · exact hkeep c (hn.is_at j e c he hc)

/-- Whoever holds a request has the handle of its number. -/
theorem eq_of_request? {j n : Nat} {e : Held} (he : held[j]? = some e) (hreq : e.handle.request? = some n) : n = j := by
  have hlt : j < calls.length := hn.length_eq ▸ (List.getElem?_eq_some_iff.mp he).1
  exact (hn.is_at j e _ he (List.getElem?_eq_getElem hlt)).eq_of_request? hreq

/-- A call has its own number. -/
theorem call_iff {j n : Nat} {alive : Bool} {outcome : Option Settlement} (he : held[j]? = some ⟨.call n, alive, outcome⟩) :
    n = j ∧ calls[j]? = some true := by
  have hlt : j < calls.length := hn.length_eq ▸ (List.getElem?_eq_some_iff.mp he).1
  obtain ⟨hnj, hc⟩ := hn.is_at j _ _ he (List.getElem?_eq_getElem hlt)
  exact ⟨hnj, (List.getElem?_eq_getElem hlt).trans (congrArg some hc)⟩

end Numbered

/-- What a look makes of a handle has the same number. -/
theorem isAt_pollHandle (b : Bridge σ) (handle : Handle) (k : Nat) (c : Bool) (h : handle.IsAt k c) :
    (pollHandle b handle).2.1.IsAt k c := by
  cases handle with
  | call n => exact h
  | dialog d => exact ⟨h.1, fun n hn => h.2 n (request_pollDialog b d n hn)⟩

theorem numbered_step (hn : Numbered s.held w.calls) (hcount : s.bridge.registry.count = w.calls.length) (op : Op) :
    Numbered (s.step op).2.held (w.calls ++ (World.handle? op).toList) := by
  have hlast : s.bridge.registry.count = s.held.length := hcount.trans hn.length_eq.symm
  have hsame : ∀ {held}, Numbered held w.calls → Numbered held (w.calls ++ []) := fun h => by rwa [List.append_nil]
  cases op with
  | call path args timeout => exact hn.push ⟨hlast, rfl⟩
  | callNamed name path args => exact hn.push ⟨rfl, fun n heq => (Option.some.inj heq).symm.trans hlast⟩
  | poll k =>
    refine hsame ?_
    rcases poll_cases s k with ⟨hsame, -⟩ | ⟨handle, he, -⟩
    · simp only [step, hsame]
      exact hn
    · -- a call keeps its number, and a dialog keeps its request or lets go of it
      simp only [step, poll_live he]
      exact hn.set he (isAt_pollHandle s.bridge handle k)
  | drop k =>
    refine hsame ?_
    rcases drop_cases s k with ⟨hsame, -⟩ | ⟨handle, outcome, he, -, hdrop⟩
    · simp only [step, hsame]
      exact hn
    · simp only [step, hdrop]
      exact hn.set he fun c hc => hc
  | _ =>
    rw [held_same rfl rfl]
    exact hsame hn

/-- Nobody waits under the id of a handle without a living owner. -/
theorem not_waits {n : Nat} (ho : Owned stem held h) (hn : Numbered held calls)
    (hnone : ∀ e, held[n]? = some e → e.alive = true → e.handle.request? ≠ some n) :
    ¬ h.Waits stem (Registry.idOf stem n) := by
  rintro ⟨m, hm, hid, hwait⟩
  -- whoever waits is held by a living owner, and holds it under its own number
  obtain rfl := Registry.idOf_inj.mp hid
  obtain ⟨j, e, he, halive, hreq⟩ := ho.owner m hm hwait
  obtain rfl := hn.eq_of_request? he hreq
  exact hnone e he halive hreq

/-! ## One operation -/

/-- A session stands in its world, and what is told of both agrees. -/
structure Retold (s : Session σ) (h : History) (w : World σ) (k : History) : Prop extends Tells s.bridge h w k where
  kept : Kept s.bridge.registry.stem s.held h
  owned : Owned s.bridge.registry.stem s.held h
  numbered : Numbered s.held w.calls
  takes : Takes s.bridge.page w.room

/-- What is done at the page is no matter of the world. -/
theorem standsIn_local (op : Op) (hop : op.isLocal = true) (hs : StandsIn s.bridge w) :
    StandsIn (s.step op).2.bridge w :=
  (StandsIn.caller w).step hop hs

/-- What has ended comes too late for what is aimed at its id. -/
theorem late_of_ended {n : Nat} (hend : h.ending? s.bridge.registry.stem n ≠ none) (en : Ending) :
    History.Late s.bridge.registry.stem h (.aimed (s.bridge.idOf n) en) := by
  refine History.late_aimed ?_ en
  rintro ⟨m, -, hid, hnone⟩
  obtain rfl := Registry.idOf_inj.mp hid
  exact hend hnone

section

variable (hr : Retold s h w k)
include hr

/-- Reading a request and dropping its inbox are no matter of the world, nor is letting go of one that has ended. -/
theorem retold_poll (j : Nat) : Tells (s.poll j).2.bridge (h ++ s.events (.poll j)) w (k ++ []) := by
  refine hr.apart (moves_step hr.stands.sound (.poll j)) (standsIn_local (.poll j) rfl hr.stands) ?_
  rw [List.append_nil]
  refine hr.agree.all_late_left fun e he => ?_
  rcases poll_cases s j with ⟨-, hnone⟩ | ⟨handle, hj, hevents⟩
  · rw [hnone] at he
    cases he
  · rw [hevents] at he
    rcases handle with n | ⟨name, token, _ | n⟩
    · rw [List.mem_singleton.mp he]
      exact History.late_read ..
    · cases he
    · have hlt : n < h.opened := (hr.kept.fits j _ hj n rfl).1
      have hpeek : s.bridge.inboxes.peek n = h.inbox s.bridge.registry.stem n := hr.follows.peek_eq n hlt
      rcases History.unread_cases (hr.owned.unread j _ none n hj rfl) with ⟨-, hbox⟩ | ⟨v, hend, hbox⟩
      all_goals simp only [pollEvents, pollDialogEvents, hpeek, hbox] at he
      · rw [List.mem_singleton.mp he]
        exact History.late_read ..
      · -- the request has been settled, so that letting go of it ends nothing
        rcases List.mem_cons.mp he with rfl | he
        · exact History.late_read ..
        · rcases List.mem_cons.mp he with rfl | he
          · exact late_of_ended (by rw [hend]; simp) _
          · rw [List.mem_singleton.mp he]
            exact History.late_dropped ..

omit hr in
theorem handleIf_alive_eq_some {j : Nat} {handle : Handle} :
    s.handleIf j (·.alive) = some handle ↔ ∃ outcome, s.held[j]? = some ⟨handle, true, outcome⟩ := by
  unfold handleIf
  rcases s.held[j]? with _ | ⟨handle', _ | _, outcome⟩ <;> simp

/-- What is aimed at a request by its living owner is aimed at the id of the handle. Without one, it comes too late. -/
theorem agree_aimed (j : Nat) (en : Ending) {t : History} {f : Nat → History} (hf : ∀ n, ∀ e ∈ f n, e = .dropped n)
    (ht : t = ((s.handleIf j (·.alive)).bind Handle.request?).elim [] fun n => .aimed (s.bridge.idOf n) en :: f n) :
    History.Agree s.bridge.registry.stem (h ++ t) (k ++ if j < w.calls.length then [.aimed (w.idOf j) en] else []) := by
  have hid : w.idOf j = s.bridge.idOf j := hr.stands.idOf_eq j
  cases hlive : (s.handleIf j (·.alive)).bind Handle.request? with
  | none =>
    rw [hlive] at ht
    rw [ht, Option.elim_none, List.append_nil]
    split
    · -- the owner is gone or has let go of the request, which therefore does not wait
      refine hr.agree.late_right (hid ▸ History.late_aimed (not_waits hr.owned hr.numbered fun e he halive hreq => ?_) en)
      obtain ⟨handle, alive, outcome⟩ := e
      obtain rfl : alive = true := halive
      rw [handleIf_alive_eq_some.mpr ⟨outcome, he⟩, Option.bind_some, hreq] at hlive
      cases hlive
    · rw [List.append_nil]
      exact hr.agree
  | some n =>
    obtain ⟨handle, hhandle, hreq⟩ := Option.bind_eq_some_iff.mp hlive
    obtain ⟨outcome, he⟩ := handleIf_alive_eq_some.mp hhandle
    obtain rfl := hr.numbered.eq_of_request? he hreq
    have hlt : n < w.calls.length := hr.numbered.length_eq ▸ (List.getElem?_eq_some_iff.mp he).1
    have hsplit : h ++ .aimed (s.bridge.idOf n) en :: f n = (h ++ [.aimed (s.bridge.idOf n) en]) ++ f n := by simp
    rw [hlive] at ht
    rw [ht, Option.elim_some, hsplit, if_pos hlt, hid]
    -- what is told here in addition is that the inbox was dropped, which ends nothing
    refine (hr.agree.concat _).all_late_left fun e he => ?_
    rw [hf n e he]
    exact History.late_dropped ..

theorem retold_cancel (j : Nat) : Tells (s.cancel j).2.bridge (h ++ s.events (.cancel j)) w
    (k ++ if j < w.calls.length then [.aimed (w.idOf j) (.settled (.error .canceled))] else []) := by
  refine hr.apart (moves_step hr.stands.sound (.cancel j)) (standsIn_local (.cancel j) rfl hr.stands) ?_
  refine agree_aimed hr j _ (f := fun _ => []) (fun n e he => absurd he List.not_mem_nil) ?_
  rw [events]
  rcases s.handleIf j (·.alive) with _ | (n | ⟨name, token, _ | n⟩) <;> rfl

theorem retold_cancelDetached (j : Nat) :
    Tells (s.cancelDetached j).2.bridge (h ++ s.events (.cancelDetached j)) w
      (k ++ if w.calls[j]? = some true then [.aimed (w.idOf j) (.settled (.error .canceled))] else []) := by
  refine hr.both (moves_step hr.stands.sound (.cancelDetached j))
    (standsIn_local (.cancelDetached j) rfl hr.stands) ?_
  rw [events, hr.stands.idOf_eq]
  rcases hj : s.held[j]? with _ | ⟨n | d, alive, outcome⟩
  · have hnone : w.calls[j]? = none := by
      rw [List.getElem?_eq_none_iff] at hj ⊢
      rwa [← hr.numbered.length_eq]
    rw [hnone]
    rfl
  · obtain ⟨rfl, hcall⟩ := hr.numbered.call_iff hj
    rw [hcall]
    rfl
  · have hlt : j < w.calls.length := hr.numbered.length_eq ▸ (List.getElem?_eq_some_iff.mp hj).1
    -- a handle that is not bound to its owner is that of a call, and a dialog has none
    have hdialog := (hr.numbered.is_at j _ _ hj (List.getElem?_eq_getElem hlt)).1
    rw [List.getElem?_eq_getElem hlt, hdialog]
    rfl

theorem retold_drop (j : Nat) : Tells (s.drop j).bridge (h ++ s.events (.drop j)) w
    (k ++ if j < w.calls.length then [.aimed (w.idOf j) .forgotten] else []) := by
  refine hr.apart (moves_step hr.stands.sound (.drop j)) (standsIn_local (.drop j) rfl hr.stands) ?_
  refine agree_aimed hr j _ (f := fun n => [.dropped n]) (fun n e he => List.mem_singleton.mp he) ?_
  rw [events]
  rcases s.handleIf j (·.alive) with _ | (n | ⟨name, token, _ | n⟩) <;> rfl

/-- **An operation is told by the world.** -/
theorem retold_step (op : Op) :
    Tells (s.step op).2.bridge (h ++ s.events op) (w.step op).2 (k ++ (w.step op).1) := by
  have hsound := hr.stands.sound
  have hmoves := moves_step hsound op
  cases op with
  | call path args timeout =>
    obtain ⟨hevents, hstands⟩ := hr.stands.call hr.takes true path args timeout
    exact hr.both hmoves hstands hevents
  | callNamed name path args =>
    -- the world knows no handlers, and sees a dialog as a handle like another
    have hregistered : StandsIn (s.bridge.registerHandler name).2 w := (StandsIn.caller w).registerHandler name hr.stands
    obtain ⟨hevents, hstands⟩ := hregistered.call hr.takes false path args none
    exact hr.both hmoves hstands hevents
  | poll j => exact retold_poll hr j
  | cancel j => exact retold_cancel hr j
  | cancelDetached j => exact retold_cancelDetached hr j
  | drop j => exact retold_drop hr j
  | invoke id data error => exact hr.both hmoves (hr.stands.settle id _) rfl
  | reject id e => exact hr.both hmoves (hr.stands.settle id _) rfl
  | tick => exact hr.tick
  | advance ms => exact hr.advance ms
  | requests =>
    -- the host takes what was loaded, and both forget about it
    have htaken := hr.stands.takeLoads []
    exact hr.both hmoves (htaken.same rfl rfl htaken.scene_eq rfl rfl rfl rfl rfl rfl rfl rfl) rfl
  | answer url =>
    obtain ⟨hevents, hstands⟩ := hr.stands.read url
    exact hr.both hmoves hstands hevents
  | answerNext =>
    have hloads := hr.stands.loads_eq
    rcases hl : s.bridge.page.loads with _ | ⟨url, rest⟩
    all_goals
      rw [hl] at hloads
      simp only [events, step, takeLoad, hl, World.step, hloads] at hmoves ⊢
    · exact hr.both hmoves hr.stands rfl
    · obtain ⟨hevents, hstands⟩ := (hr.stands.takeLoads rest).read url
      exact hr.both hmoves hstands hevents
  | reply n r => exact hr.both hmoves (hr.stands.reply n r) rfl
  | _ => exact hr.both hmoves (standsIn_local _ rfl hr.stands) rfl

end

end Session

/-! ## Runs -/

section

variable {config : Config} {actual : Transport} {runtime : Bool} {page : Document} {host : Host σ} {b : Bridge σ}

/-- A bridge that nothing has happened to stands in its world. -/
theorem standsIn_new (hb : Bridge.new config actual runtime page host = .ok b) :
    StandsIn b (World.new config runtime page host) := by
  have hsound := sound_new hb
  obtain ⟨-, -, rfl⟩ := new_eq_ok hb
  have howner : ∀ t, (World.new config runtime page host).owner? t = none := fun t => by cases t <;> rfl
  refine ⟨hsound, rfl, rfl, rfl, ?_, rfl, fun s hs => absurd hs List.not_mem_nil, fun t id ht => ?_, fun t ht => .inl ?_,
    rfl, fun n f id reply hf => by cases hf⟩
  · refine (List.filter_eq_self.mpr fun t _ => ?_).symm
    rw [wants, howner]
    rfl
  · rw [howner] at ht
    cases ht
  · rcases ht with ht | ⟨n, hn, -⟩
    · unfold World.new at ht
      dsimp only at ht
      split at ht
      · exact List.mem_singleton.mp ht
      · cases ht
    · cases hn

namespace Session

/-- **A run is told by the world.** -/
theorem retold_run (hb : Bridge.new config actual runtime page host = .ok b) (hpage : page.Reached) (ops : List Op) :
    Retold ((new b).run ops) ((new b).history ops) ((World.new config runtime page host).after ops)
      ((World.new config runtime page host).told ops) := by
  let w := World.new config runtime page host
  -- all else that is kept along a run is known already
  have hcomplete : ∀ ops, Tells ((new b).run ops).bridge ((new b).history ops) (w.after ops) (w.told ops) →
      Numbered ((new b).run ops).held (w.after ops).calls →
      Retold ((new b).run ops) ((new b).history ops) (w.after ops) (w.told ops) := by
    intro ops ht hn
    refine ⟨ht, ?_, ?_, hn, ?_⟩
    · rw [stem_run hb ops]
      exact kept_run hb ops
    · rw [stem_run hb ops]
      exact owned_run hb ops
    · rw [(w.ground_after ops).2.2.1]
      exact takes_run hb hpage ops
  induction ops using List.reverseRecOn with
  | nil => exact hcomplete [] ⟨standsIn_new hb, follows_history hb [], .refl _ _⟩ ⟨rfl, fun k e c he => by cases he⟩
  | append_singleton ops op ih =>
    have hstep := retold_step ih op
    have hnumbered := numbered_step ih.numbered ih.stands.count_eq op
    rw [← World.calls_step] at hnumbered
    refine hcomplete _ ?_ ?_
    · rw [run_concat, history_concat, World.after_concat, World.told_concat]
      exact hstep
    · rw [run_concat, World.after_concat]
      exact hnumbered

/-- **How a request ended, is told by the operations.** -/
theorem ending?_told (hb : Bridge.new config actual runtime page host = .ok b) (hpage : page.Reached) (ops : List Op)
    (n : Nat) : ((new b).history ops).ending? config.callbackStem n =
      ((World.new config runtime page host).told ops).ending? config.callbackStem n := by
  have hagree := (retold_run hb hpage ops).agree
  rw [stem_run hb ops] at hagree
  exact hagree.ending_eq n

end Session

end

end Hostlink.Bridge
