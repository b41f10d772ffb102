import Hostlink.Proofs.Bridge.Frame
import Hostlink.Proofs.Bridge.Owners

/-!
# Dialogs that share a name

Of several dialogs with one name the newest has the handler. The others still look for their requests,
are canceled and are dropped, and their requests are still settled; none of this reaches the newest.

* `Bridge.Apart` — everything that belongs to other requests and other dialogs is the same;
* `Bridge.apart_settle`, `Bridge.apart_pollDialog`, … — what is done for one dialog leaves the others
  alone, once its handler is not its own any more;
* `Session.Act`, `Session.Act.apart` — the same for all that is done for one dialog;
* `Session.dialogs_isolated` — **a dialog does not reach a later one of its name**.
-/

namespace Hostlink.Bridge

open Registry (Ending Event History)

variable {σ : Type}

/-! ## What belongs to others -/

/-- Everything that belongs to other requests than `m` and to other dialogs than that of the token `t`
is the same: slots, inboxes, timers and fetches of the requests, and inboxes of the dialogs. Handlers,
and settlements that were put off, are the same altogether. -/
structure Apart (m t : Nat) (b c : Bridge σ) : Prop where
  stem : c.registry.stem = b.registry.stem
  slots : ∀ n, n ≠ m → c.registry.find? (b.idOf n) = b.registry.find? (b.idOf n)
  inboxes : ∀ n, n ≠ m → c.inboxes.peek n = b.inboxes.peek n
  timerIds : c.timerIds = b.timerIds
  timers : ∀ u, b.timerIds[u]? ≠ some (b.idOf m) → c.timers[u]? = b.timers[u]? ∧
    (.timer u ∈ c.ready ↔ .timer u ∈ b.ready) ∧ (u ∈ c.sleepers ↔ u ∈ b.sleepers)
  fetchIds : c.fetchIds = b.fetchIds
  fetches : ∀ u, b.fetchIds[u]? ≠ some (b.idOf m) → c.fetches[u]? = b.fetches[u]? ∧
    (.fetch u ∈ c.ready ↔ .fetch u ∈ b.ready)
  handlers : c.router.handlers = b.router.handlers
  deferred : c.deferred = b.deferred
  dialogs : ∀ u, u ≠ t → c.dialogs.peek u = b.dialogs.peek u

namespace Apart

variable {m t : Nat} {b c d : Bridge σ}

theorem refl (m t : Nat) (b : Bridge σ) : Apart m t b b :=
  ⟨rfl, fun _ _ => rfl, fun _ _ => rfl, rfl, fun _ _ => ⟨rfl, .rfl, .rfl⟩, rfl, fun _ _ => ⟨rfl, .rfl⟩,
    rfl, rfl, fun _ _ => rfl⟩

theorem idOf (h : Apart m t b c) (n : Nat) : c.idOf n = b.idOf n := congrArg (Registry.idOf · n) h.stem

theorem trans (h : Apart m t b c) (h' : Apart m t c d) : Apart m t b d where
  stem := h'.stem.trans h.stem
  slots n hn := by
    have hslot := h'.slots n hn
    rw [h.idOf n] at hslot
    exact hslot.trans (h.slots n hn)
  inboxes n hn := (h'.inboxes n hn).trans (h.inboxes n hn)
  timerIds := h'.timerIds.trans h.timerIds
  timers u hu := by
    obtain ⟨ht, hready, hsleep⟩ := h.timers u hu
    obtain ⟨ht', hready', hsleep'⟩ := h'.timers u (by rw [h.timerIds, h.idOf]; exact hu)
    exact ⟨ht'.trans ht, hready'.trans hready, hsleep'.trans hsleep⟩
  fetchIds := h'.fetchIds.trans h.fetchIds
  fetches u hu := by
    obtain ⟨hf, hready⟩ := h.fetches u hu
    obtain ⟨hf', hready'⟩ := h'.fetches u (by rw [h.fetchIds, h.idOf]; exact hu)
    exact ⟨hf'.trans hf, hready'.trans hready⟩
  handlers := h'.handlers.trans h.handlers
  deferred := h'.deferred.trans h.deferred
  dialogs u hu := (h'.dialogs u hu).trans (h.dialogs u hu)

end Apart

/-! ## Effects -/

/-- An effect on what belongs to a request. -/
def EffectOf (b : Bridge σ) (m : Nat) : Effect Artefact Nat → Prop
  | .abort u => b.timerIds[u]? = some (b.idOf m)
  | .release (.fetch u) => b.fetchIds[u]? = some (b.idOf m)
  | .release (.script _) | .record .. => True
  | .deliver n _ | .hangUp n => n = m

theorem Apart.effectOf {m t : Nat} {b c : Bridge σ} (h : Apart m t b c) {e : Effect Artefact Nat}
    (he : b.EffectOf m e) : c.EffectOf m e := by
  rcases e with u | (e | u) | _ | ⟨n, v⟩ | n
  case abort =>
    unfold EffectOf
    rw [h.timerIds, h.idOf]
    exact he
  case release.fetch =>
    unfold EffectOf
    rw [h.fetchIds, h.idOf]
    exact he
  all_goals exact he

section

variable (m t : Nat) {b : Bridge σ}

theorem apart_perform {e : Effect Artefact Nat} (he : b.EffectOf m e) : Apart m t b (b.perform e) := by
  have hrefl := Apart.refl m t b
  rcases e with u | (e | u) | _ | ⟨n, v⟩ | n
  · -- a timer is stopped, which is that of the request
    refine { hrefl with timers := fun w hw => ⟨rfl, ?_, ?_⟩, fetches := fun w hw => ⟨rfl, ?_⟩ }
    · have hne : w ≠ u := fun heq => hw (heq ▸ he)
      simp [perform, hne]
    · have hne : w ≠ u := fun heq => hw (heq ▸ he)
      simp [perform, hne]
    · simp [perform]
  · -- a script is removed, and that has nothing to do with timers and fetches
    exact { hrefl with }
  · -- a fetch is given up, which is that of the request
    refine { hrefl with timers := fun w hw => ⟨rfl, ?_, .rfl⟩, fetchIds := ?_, fetches := fun w hw => ⟨?_, ?_⟩ }
    · simp [perform]
    · exact map_modify_of b.fetches u id_abort
    · have hne : u ≠ w := fun heq => hw (heq ▸ he)
      exact List.getElem?_modify_ne Fetch.abort b.fetches hne
    · have hne : w ≠ u := fun heq => hw (heq ▸ he)
      simp [perform, hne]
  · exact { hrefl with }
  · -- its inbox is told something
    refine { hrefl with inboxes := fun k hk => ?_ }
    have hne : n ≠ k := fun heq => hk (heq.symm.trans he)
    refine (Inboxes.peek_deliver ..).trans ?_
    rw [if_neg hne]
  · -- its inbox is told nothing more
    refine { hrefl with inboxes := fun k hk => ?_ }
    have hne : n ≠ k := fun heq => hk (heq.symm.trans he)
    refine (Inboxes.peek_hangUp ..).trans ?_
    rw [if_neg hne]

theorem apart_foldl_perform {effects : List (Effect Artefact Nat)} (he : ∀ e ∈ effects, b.EffectOf m e) :
    Apart m t b (effects.foldl perform b) := by
  induction effects generalizing b with
  | nil => exact .refl m t b
  | cons e es ih =>
    have hfirst := apart_perform m t (he e List.mem_cons_self)
    exact hfirst.trans (ih fun e' he' => hfirst.effectOf (he e' (List.mem_cons_of_mem _ he')))

/-- Ending a request leaves the others alone. -/
theorem apart_after {effects : List (Effect Artefact Nat)} {r : Registry Artefact Nat}
    (hr : r = b.registry ∨ r = b.registry.erase (b.idOf m)) (he : ∀ e ∈ effects, b.EffectOf m e) :
    Apart m t b (b.after effects r) := by
  have hslots : ∀ n, n ≠ m → r.find? (b.idOf n) = b.registry.find? (b.idOf n) := by
    intro n hn
    rcases hr with rfl | rfl
    · rfl
    · -- ids of different numbers are different, so that their slots stay
      have hne : b.idOf n ≠ b.idOf m := fun heq => hn (Registry.idOf_inj.mp heq)
      rw [Registry.find?_erase, if_neg hne]
  have hstem : r.stem = b.registry.stem := by rcases hr with rfl | rfl <;> rfl
  have hleft : Apart m t b { b with registry := r } :=
    { Apart.refl m t b with stem := hstem, slots := hslots }
  exact hleft.trans (apart_foldl_perform m t fun e hmem => hleft.effectOf (he e hmem))

theorem apart_poll : Apart m t b (b.poll m).2 := by
  refine { Apart.refl m t b with inboxes := fun n hn => ?_ }
  refine (Inboxes.peek_read ..).trans ?_
  rw [if_neg hn.symm]

theorem apart_pollValue {d : Dialog} (htoken : d.token = t) : Apart m t b (b.pollValue d).2 := by
  refine { Apart.refl m t b with dialogs := fun u hu => ?_ }
  refine (Inboxes.peek_read ..).trans ?_
  rw [if_neg fun heq => hu (heq.symm.trans htoken)]

end

/-! ## Ending a request -/

section

variable (m t : Nat) {b : Bridge σ} (hs : b.registry.Sound) (ht : b.Traced)
include hs ht

/-- The end of a request, whether its inbox is told something or nothing more. -/
theorem apart_ended {slot : Slot Artefact Nat} (hslot : b.registry.find? (b.idOf m) = some slot)
    {line last : Effect Artefact Nat} (hline : b.EffectOf m line) (hlast : b.EffectOf m last) :
    Apart m t b (b.after (Registry.cleanup slot ++ [line, last]) (b.registry.erase (b.idOf m))) := by
  obtain ⟨hmem, hid⟩ := hs.find?_eq_some.mp hslot
  refine apart_after m t (.inr rfl) fun e he => ?_
  unfold Registry.cleanup at he
  rcases List.mem_append.mp he with he | he
  · rcases List.mem_append.mp he with he | he
    · -- the timer of a slot is set for its own id, as it was traced
      cases htimer : slot.timer with
      | none => simp [htimer] at he
      | some u =>
        simp only [htimer, Option.map_some, Option.toList_some, List.mem_singleton] at he
        rw [he]
        exact (ht.timed slot hmem u htimer).trans (congrArg some hid)
    · -- so is the fetch that is its guard, while a script is nobody else's by its kind
      cases hguard : slot.guard with
      | none => simp [hguard] at he
      | some g =>
        simp only [hguard, Option.map_some, Option.toList_some, List.mem_singleton] at he
        rw [he]
        cases g with
        | script e' => trivial
        | fetch u => exact (ht.linked slot hmem u hguard).trans (congrArg some hid)
  · simp only [List.mem_cons, List.not_mem_nil, or_false] at he
    rcases he with rfl | rfl
    · exact hline
    · exact hlast

theorem apart_settle (v : Settlement) : Apart m t b (b.settle (b.idOf m) v).2 := by
  unfold settle Registry.settle
  cases hslot : b.registry.find? (b.idOf m) with
  | none => exact .refl m t b
  | some slot => exact apart_ended m t hs ht hslot trivial (hs.number_of_find? hslot)

theorem apart_forget : Apart m t b (b.forget (b.idOf m)) := by
  unfold forget Registry.forget
  cases hslot : b.registry.find? (b.idOf m) with
  | none => exact .refl m t b
  | some slot => exact apart_ended m t hs ht hslot trivial (hs.number_of_find? hslot)

theorem apart_drop : Apart m t b (b.drop m) := by
  refine (apart_forget m t hs ht).trans ?_
  refine { Apart.refl m t (b.forget (b.idOf m)) with inboxes := fun n hn => ?_ }
  refine (Inboxes.peek_drop ..).trans ?_
  rw [if_neg hn.symm]

/-! ## What is done for a dialog -/

/-- A dialog whose handler is not its own any more. -/
def Replaced (b : Bridge σ) (d : Dialog) : Prop := b.router.handlers.find? d.name ≠ some ⟨d.name, d.token⟩

omit hs ht in
theorem takeOwn_of_replaced {d : Dialog} (hd : b.Replaced d) (f : Inboxes → Nat → Inboxes) :
    b.takeOwn d f = (false, b) := by
  rw [takeOwn_eq, if_neg hd]

theorem apart_pollDialog {d : Dialog} (hd : b.Replaced d) (htoken : d.token = t)
    (hreq : ∀ n, d.request = some n → n = m) : Apart m t b (b.pollDialog d).2.2 := by
  cases hr : d.request with
  | none =>
    rw [pollDialog_of_none b hr]
    exact apart_pollValue m t htoken
  | some n =>
    obtain rfl := hreq n hr
    have hread : Apart n t b (b.poll n).2 := apart_poll n t
    have hread_sound : (b.poll n).2.registry.Sound := hs
    have hread_traced : (b.poll n).2.Traced := invariant_traced.poll n ht
    have hlet : Apart n t b ((b.poll n).2.drop n) := hread.trans (apart_drop n t hread_sound hread_traced)
    cases hfound : Poll.ofInbox (b.inboxes.peek n) with
    | pending =>
      have hbox : b.inboxes.peek n = .waiting := Poll.eq_waiting_of_settlement? (by rw [hfound]; rfl)
      rw [pollDialog_of_waiting b hr hbox]
      exact hread.trans (apart_pollValue n t htoken)
    | ready v =>
      by_cases hv : ∀ e, v = .error e → e = .canceled
      · rw [pollDialog_of_let_go b hr hfound hv]
        exact hlet.trans (apart_pollValue n t htoken)
      · obtain ⟨e, rfl, he⟩ : ∃ e, v = .error e ∧ e ≠ .canceled := by simpa using hv
        -- letting go of the request leaves the handlers alone, so that the dialog is replaced as before
        have hstill : ((b.poll n).2.drop n).Replaced { d with request := none } := by
          unfold Replaced
          rw [hlet.handlers]
          exact hd
        rw [pollDialog_of_failed b hr hfound he, takeOwn_of_replaced hstill]
        exact hlet

theorem apart_cancelDialog {d : Dialog} (hd : b.Replaced d) (hreq : ∀ n, d.request = some n → n = m) :
    (b.cancelDialog d).1 = false ∧ Apart m t b (b.cancelDialog d).2 := by
  unfold cancelDialog
  cases hr : d.request with
  | none =>
    dsimp only
    rw [takeOwn_of_replaced hd]
    exact ⟨rfl, .refl m t b⟩
  | some n =>
    obtain rfl := hreq n hr
    have hcancel : Apart n t b (b.cancel n).2 := apart_settle n t hs ht _
    have hstill : (b.cancel n).2.Replaced d := by
      unfold Replaced
      rw [hcancel.handlers]
      exact hd
    dsimp only
    rw [takeOwn_of_replaced hstill]
    exact ⟨rfl, hcancel⟩

theorem apart_dropDialog {d : Dialog} (hd : b.Replaced d) (htoken : d.token = t)
    (hreq : ∀ n, d.request = some n → n = m) : Apart m t b (b.dropDialog d) := by
  let left : Bridge σ := { b with dialogs := b.dialogs.drop d.token }
  have hleft : Apart m t b left := by
    refine { Apart.refl m t b with dialogs := fun u hu => ?_ }
    refine (Inboxes.peek_drop ..).trans ?_
    rw [if_neg fun heq => hu (heq.symm.trans htoken)]
  unfold dropDialog
  rw [takeOwn_of_replaced hd]
  cases hr : d.request with
  | none => exact hleft
  | some n =>
    obtain rfl := hreq n hr
    have hleft_sound : left.registry.Sound := hs
    have hleft_traced : left.Traced := invariant_traced.pushes b.router _ b.deferred ht
    exact hleft.trans (apart_drop n t hleft_sound hleft_traced)

/-! ## What is done for its request -/

theorem apart_runTimer {u : Nat} {timer : Timer} (hu : b.timers[u]? = some timer)
    (hid : timer.id = b.idOf m) : Apart m t b (b.runTimer u) := by
  unfold runTimer
  rw [hu]
  dsimp only
  split
  · rw [hid]
    exact apart_settle m t hs ht _
  · have hown : b.timerIds[u]? = some (b.idOf m) := by
      rw [timerIds, List.getElem?_map, hu, Option.map_some, hid]
    refine { Apart.refl m t b with timers := fun w hw => ⟨rfl, .rfl, ?_⟩ }
    have hne : w ≠ u := fun heq => hw (heq ▸ hown)
    simp [hne]

theorem apart_runFetch {u : Nat} {f : Fetch} (hu : b.fetches[u]? = some f) (hid : f.id = b.idOf m) :
    Apart m t b (b.runFetch u) := by
  have hown : b.fetchIds[u]? = some (b.idOf m) := by
    rw [fetchIds, List.getElem?_map, hu, Option.map_some, hid]
  have hphase : ∀ phase, Apart m t b (b.setPhase u phase) := by
    intro phase
    refine { Apart.refl m t b with fetchIds := map_modify_of b.fetches u fun _ => rfl, fetches := fun w hw => ⟨?_, .rfl⟩ }
    have hne : u ≠ w := fun heq => hw (heq ▸ hown)
    exact List.getElem?_modify_ne _ b.fetches hne
  unfold runFetch
  rw [hu]
  dsimp only
  split
  · exact hphase .parked
  · have hgone_sound : (b.setPhase u .gone).registry.Sound := hs
    have hgone_traced : (b.setPhase u .gone).Traced := invariant_traced.setPhase u .gone ht
    rw [hid]
    exact (hphase .gone).trans (apart_settle m t hgone_sound hgone_traced _)

omit hs ht in
theorem apart_reply {u : Nat} (hu : b.fetchIds[u]? = some (b.idOf m)) (r : FetchReply) :
    Apart m t b (b.reply u r).2 := by
  rcases reply_cases b u r with heq | ⟨f, g, more, hf, hid, -, hmore, heq⟩ <;> rw [heq]
  · exact .refl m t b
  · -- only the fetch itself can change, and its task become ready
    have hready : ∀ x, x ≠ .fetch u → (x ∈ b.ready ++ more ↔ x ∈ b.ready) := fun x hx =>
      ⟨fun h => (List.mem_append.mp h).resolve_right fun h => hx (hmore x h), List.mem_append_left _⟩
    refine { Apart.refl m t b with
      timers := fun w hw => ⟨rfl, hready _ (by simp), .rfl⟩
      fetchIds := map_set_of hf hid
      fetches := fun w hw => ?_ }
    have hne : w ≠ u := fun heq => hw (heq ▸ hu)
    exact ⟨List.getElem?_set_ne hne.symm, hready _ (by simpa using hne)⟩

theorem apart_answerScript {url : String} {r : Request} {answer : HostAnswer}
    (hanswer : (b.host.answer url).1 = .ok (r, answer)) (hid : r.callback = some (b.idOf m)) :
    Apart m t b (b.answerScript url).2 := by
  unfold answerScript
  split
  · rcases hans : b.host.answer url with ⟨e | ⟨r', answer'⟩, host⟩
    all_goals rw [hans] at hanswer
    · cases hanswer
    · obtain ⟨rfl, rfl⟩ := Prod.mk.inj (Except.ok.inj hanswer)
      dsimp only
      rw [hid]
      let heard : Bridge σ := { b with host := host }
      have hheard : Apart m t b heard := { Apart.refl m t b with }
      have hheard_sound : heard.registry.Sound := hs
      have hheard_traced : heard.Traced := ht.same rfl rfl rfl
      exact hheard.trans (apart_settle m t hheard_sound hheard_traced _)
  · exact .refl m t b

end

namespace Session

variable {s s' : Session σ}

/-! ## What is done for one dialog -/

/-- What the caller of a dialog does, and what anybody does for its request. -/
inductive Act (s : Session σ) (k m : Nat) : Session σ → Prop
  | poll : Act s k m (s.step (.poll k)).2
  | cancel : Act s k m (s.step (.cancel k)).2
  | drop : Act s k m (s.step (.drop k)).2
  | settled (v : Settlement) : Act s k m { s with bridge := (s.bridge.settle (s.bridge.idOf m) v).2 }
  | timer {w : Nat} {timer : Timer} (hw : s.bridge.timers[w]? = some timer)
    (hid : timer.id = s.bridge.idOf m) : Act s k m { s with bridge := s.bridge.runTimer w }
  | fetch {w : Nat} {f : Fetch} (hw : s.bridge.fetches[w]? = some f) (hid : f.id = s.bridge.idOf m) :
    Act s k m { s with bridge := s.bridge.runFetch w }
  | replied {w : Nat} (hw : s.bridge.fetchIds[w]? = some (s.bridge.idOf m)) (r : FetchReply) :
    Act s k m (s.step (.reply w r)).2
  | answered {url : String} {r : Request} {answer : HostAnswer}
    (h : (s.bridge.host.answer url).1 = .ok (r, answer)) (hid : r.callback = some (s.bridge.idOf m)) :
    Act s k m (s.step (.answer url)).2

theorem Act.held_of_ne {k m j : Nat} {e : Held} (hact : Act s k m s') (hj : s.held[j]? = some e)
    (hjk : j ≠ k) : s'.held[j]? = some e := by
  have hne : k ≠ j := hjk.symm
  cases hact with
  -- what is held elsewhere is not looked at, not dropped, and not there to be changed by the host
  | poll => exact Session.held_of_ne hj (by simpa using hne) (by simp)
  | drop => exact Session.held_of_ne hj (by simp) (by simpa using hne)
  | cancel => exact Session.held_of_ne hj (by simp) (by simp)
  | replied _ r => exact Session.held_of_ne hj (by simp) (by simp)
  | answered h hid => exact Session.held_of_ne hj (by simp) (by simp)
  | _ => exact hj

/-- **What is done for a dialog reaches no other**, once its handler is not its own any more. -/
theorem Act.apart (hs : s.bridge.registry.Sound) (ht : s.bridge.Traced) {k m : Nat} {d : Dialog} {a : Bool}
    {o : Option Settlement} (hd : s.held[k]? = some ⟨.dialog d, a, o⟩) (hreplaced : s.bridge.Replaced d)
    (hreq : ∀ n, d.request = some n → n = m) (hact : Act s k m s') : Apart m d.token s.bridge s'.bridge := by
  cases hact with
  | poll =>
    rcases poll_cases s k with ⟨hsame, -⟩ | ⟨handle, he, -⟩
    · -- a dialog that has found something, or was dropped, is not looked at any more
      simp only [step, hsame]
      exact .refl m d.token s.bridge
    · obtain ⟨rfl, -, -⟩ := Held.mk.inj (Option.some.inj (hd.symm.trans he))
      simp only [step, poll_dialog he]
      exact apart_pollDialog m d.token hs ht hreplaced rfl hreq
  | cancel =>
    rcases cancel_cases s k with ⟨hsame, -⟩ | ⟨handle, outcome, he, -, hcancel⟩
    · simp only [step, hsame]
      exact .refl m d.token s.bridge
    · obtain ⟨rfl, -, -⟩ := Held.mk.inj (Option.some.inj (hd.symm.trans he))
      simp only [step, hcancel]
      exact (apart_cancelDialog m d.token hs ht hreplaced hreq).2
  | drop =>
    rcases drop_cases s k with ⟨hsame, -⟩ | ⟨handle, outcome, he, -, hdrop⟩
    · simp only [step, hsame]
      exact .refl m d.token s.bridge
    · obtain ⟨rfl, -, -⟩ := Held.mk.inj (Option.some.inj (hd.symm.trans he))
      simp only [step, hdrop]
      exact apart_dropDialog m d.token hs ht hreplaced rfl hreq
  | settled v => exact apart_settle m d.token hs ht v
  | timer hw hid => exact apart_runTimer m d.token hs ht hw hid
  | fetch hw hid => exact apart_runFetch m d.token hs ht hw hid
  | replied hw r => exact apart_reply m d.token hw r
  | answered h hid => exact apart_answerScript m d.token hs ht h hid

/-! ## Two dialogs of one name -/

section

variable {config : Config} {actual : Transport} {runtime : Bool} {page : Document} {host : Host σ}
  {b : Bridge σ} (hb : Bridge.new config actual runtime page host = .ok b) (first mid later : List Op)
  (name pathA pathB : String) (argsA argsB : Args)
include hb

/-- Of two dialogs of a name, the first is another entry, with another request and another token, and
its handler is gone. -/
theorem replaced_run :
    let before := first ++ .callNamed name pathA argsA :: mid
    let sA := (new b).run first
    let sB := (new b).run before
    let s := (new b).run (before ++ .callNamed name pathB argsB :: later)
    sA.held.length < sB.held.length ∧ sA.bridge.registry.count < sB.bridge.registry.count ∧
      sA.bridge.router.handlers.count < sB.bridge.router.handlers.count ∧
      s.bridge.router.handlers.find? name ≠ some ⟨name, sA.bridge.router.handlers.count⟩ := by
  intro before sA sB s
  have hT : Tended s.held s.bridge.board := tended_run hb _
  obtain ⟨rA, aA, oA, hA, -⟩ := dialog_run hb first mid name pathA argsA
  obtain ⟨rA', aA', oA', hA', -⟩ := dialog_run hb first (mid ++ .callNamed name pathB argsB :: later) name pathA argsA
  obtain ⟨rB, aB, oB, hB, -⟩ := dialog_run hb before later name pathB argsB
  have hops : first ++ .callNamed name pathA argsA :: (mid ++ .callNamed name pathB argsB :: later) =
      before ++ .callNamed name pathB argsB :: later := by simp [before]
  rw [hops] at hA'
  have hlt : sA.held.length < sB.held.length := (List.getElem?_eq_some_iff.mp hA).1
  have htoken : sA.bridge.router.handlers.count < sB.bridge.router.handlers.count := hT.ordered hA' hB hlt
  refine ⟨hlt, ?_, htoken, fun hown => ?_⟩
  · -- the request of the first was registered before
    have hmade : ((new b).run (first ++ [.callNamed name pathA argsA])).held[sA.held.length]? =
        some ⟨.dialog ⟨name, sA.bridge.router.handlers.count, some sA.bridge.registry.count⟩, true, none⟩ := by
      rw [run_concat]
      exact held_callNamed sA name pathA argsA
    have hfits := ((kept_run hb _).fits _ _ hmade _ rfl).1
    have hbefore : before = (first ++ [.callNamed name pathA argsA]) ++ mid := by simp [before]
    have hcount : sB.bridge.registry.count = ((new b).history before).opened := (follows_history hb before).count_eq
    rw [hcount, hbefore, history_append]
    exact Nat.lt_of_lt_of_le hfits (History.opened_le_append _ _)
  · have hle := hT.newest _ (Handlers.find?_eq_some hown).1 hB rfl
    exact absurd hle (Nat.not_le.mpr htoken)

/-- A dialog whose handler waited when a later one of its name came finds that it was superseded. -/
theorem superseded_run :
    let before := first ++ .callNamed name pathA argsA :: mid
    let sA := (new b).run first
    let sB := (new b).run before
    let s := (new b).run (before ++ .callNamed name pathB argsB :: later)
    let own : Handler := ⟨name, sA.bridge.router.handlers.count⟩
    sB.bridge.router.handlers.find? name = some own →
    ∀ held, s.held[sA.held.length]? = some held → held.alive = true → held.outcome = none →
      s.bridge.dialogs.peek own.token = .holds (Handlers.superseded name) := by
  intro before sA sB s own hown held hheld halive houtcome
  obtain ⟨-, -, htoken, -⟩ := replaced_run hb first mid later name pathA pathB argsA argsB
  have hT : Tended sB.held sB.bridge.board := tended_run hb before
  let replaced := (sB.step (.callNamed name pathB argsB)).2
  -- the handler waits when the later dialog registers its own, which tells its inbox
  have hturn : Turn sB.held sB.bridge.board replaced.held replaced.bridge.board := turn_step _
  have hbox : replaced.bridge.dialogs.peek own.token = .holds (Handlers.superseded name) := by
    have hboard : replaced.bridge.board = sB.bridge.board.register name :=
      (board_call _ pathB argsB none).trans (board_registerHandler sB.bridge name)
    have hpeek := Board.peek_register sB.bridge.board name hT.sound.length_eq (Nat.ne_of_lt htoken)
    have hfound : sB.bridge.board.handlers.find? name = some ⟨name, own.token⟩ := hown
    -- whatever comes later, the dialog stays where it is, and what has come stays in its inbox
    rw [if_pos hfound, hT.sound.waits own (Handlers.find?_eq_some hown).1, ← hboard] at hpeek
    exact hpeek
  obtain ⟨rA, aA, oA, hA, -⟩ := dialog_run hb first mid name pathA argsA
  obtain ⟨r₁, a₁, o₁, hd₁, -, -⟩ := hturn.dialog_stays hT hA
  obtain ⟨r₂, a₂, o₂, hd₂, -, hkeep⟩ := dialog_stays (hturn.tended hT) hd₁ later
  have hrun : s = replaced.run later := by
    rw [show s = (new b).run (before ++ .callNamed name pathB argsB :: later) from rfl, run_append, run_cons]
  rw [← hrun] at hd₂ hkeep
  obtain rfl := Option.some.inj (hheld.symm.trans hd₂)
  exact (hkeep halive houtcome).2.2 _ hbox

end

/-- **A dialog does not reach a later one of its name.** Whatever its caller does, and however its request
is settled, the later dialog keeps its handler, its inbox, what was put off for it, and its request with
its slot, inbox, timers and fetches. Canceling the first does nothing to any handler. If its handler
still waited when the later one came, it finds that it was superseded. -/
theorem dialogs_isolated {config : Config} {actual : Transport} {runtime : Bool} {page : Document} {host : Host σ}
    {b : Bridge σ} (hb : Bridge.new config actual runtime page host = .ok b) (first mid later : List Op)
    (name pathA pathB : String) (argsA argsB : Args) :
    let before := first ++ .callNamed name pathA argsA :: mid
    let sA := (new b).run first
    let sB := (new b).run before
    let s := (new b).run (before ++ .callNamed name pathB argsB :: later)
    let own : Handler := ⟨name, sA.bridge.router.handlers.count⟩
    let n := sB.bridge.registry.count
    (∀ s', Act s sA.held.length sA.bridge.registry.count s' →
      s'.bridge.router.handlers = s.bridge.router.handlers ∧
      s'.bridge.dialogs.peek sB.bridge.router.handlers.count =
        s.bridge.dialogs.peek sB.bridge.router.handlers.count ∧
      s'.bridge.deferred = s.bridge.deferred ∧
      s'.bridge.registry.find? (s.bridge.idOf n) = s.bridge.registry.find? (s.bridge.idOf n) ∧
      s'.bridge.inboxes.peek n = s.bridge.inboxes.peek n ∧
      (∀ w, s.bridge.timerIds[w]? = some (s.bridge.idOf n) → s'.bridge.timers[w]? = s.bridge.timers[w]? ∧
        (.timer w ∈ s'.bridge.ready ↔ .timer w ∈ s.bridge.ready) ∧
        (w ∈ s'.bridge.sleepers ↔ w ∈ s.bridge.sleepers)) ∧
      (∀ w, s.bridge.fetchIds[w]? = some (s.bridge.idOf n) → s'.bridge.fetches[w]? = s.bridge.fetches[w]? ∧
        (.fetch w ∈ s'.bridge.ready ↔ .fetch w ∈ s.bridge.ready)) ∧
      s'.held[sB.held.length]? = s.held[sB.held.length]?) ∧
    (∀ held, s.held[sA.held.length]? = some held → held.alive = true →
      (s.step (.cancel sA.held.length)).1 = .done false) ∧
    (sB.bridge.router.handlers.find? name = some own →
      ∀ held, s.held[sA.held.length]? = some held → held.alive = true → held.outcome = none →
        s.bridge.dialogs.peek own.token = .holds (Handlers.superseded name)) := by
  intro before sA sB s own n
  obtain ⟨hlt, hreq, htoken, hgone⟩ := replaced_run hb first mid later name pathA pathB argsA argsB
  have hs : s.bridge.registry.Sound := sound_run hb _
  have ht : s.bridge.Traced := traced_run (traced_new hb) _
  have hops : first ++ .callNamed name pathA argsA :: (mid ++ .callNamed name pathB argsB :: later) =
      before ++ .callNamed name pathB argsB :: later := by simp [before]
  obtain ⟨r, a, o, hA, hr⟩ := dialog_run hb first (mid ++ .callNamed name pathB argsB :: later) name pathA argsA
  obtain ⟨r', a', o', hB, -⟩ := dialog_run hb before later name pathB argsB
  rw [hops] at hA
  have hown : ∀ k, r = some k → k = sA.bridge.registry.count := by
    intro k hk
    rcases hr with rfl | rfl
    · exact (Option.some.inj hk).symm
    · cases hk
  have hreplaced : s.bridge.Replaced ⟨name, own.token, r⟩ := hgone
  -- the request of the later dialog has a greater number, and so another id
  have hother : s.bridge.idOf n ≠ s.bridge.idOf sA.bridge.registry.count := fun heq =>
    Nat.ne_of_gt hreq (Registry.idOf_inj.mp heq)
  refine ⟨fun s' hact => ?_, fun held hheld halive => ?_,
    superseded_run hb first mid later name pathA pathB argsA argsB⟩
  · have hapart := hact.apart hs ht hA hreplaced hown
    refine ⟨hapart.handlers, hapart.dialogs _ (Nat.ne_of_gt htoken), hapart.deferred,
      hapart.slots n (Nat.ne_of_gt hreq), hapart.inboxes n (Nat.ne_of_gt hreq), fun w hw => ?_, fun w hw => ?_, ?_⟩
    · exact hapart.timers w fun heq => hother (Option.some.inj (hw.symm.trans heq))
    · exact hapart.fetches w fun heq => hother (Option.some.inj (hw.symm.trans heq))
    · rw [hact.held_of_ne hB (Nat.ne_of_gt hlt), hB]
  · obtain rfl := Option.some.inj (hA.symm.trans hheld)
    obtain rfl : a = true := halive
    have hcancel := apart_cancelDialog sA.bridge.registry.count own.token hs ht hreplaced hown
    simp only [step, Session.cancel, hheld, if_true]
    rw [hcancel.1]

/-- A dialog that a later one of its name superseded is canceled in vain, and reads so. -/
theorem dialogs_isolated_superseded :
    let s := (new quiet).run [.callNamed "x" "/a" .none, .callNamed "x" "/b" .none]
    Bridge.new .fetch .fetch true .new quiet.host = .ok quiet ∧
      (s.step (.cancel 0)).1 = .done false ∧
      (s.step (.cancel 0)).2.bridge.router.handlers = s.bridge.router.handlers ∧
      s.bridge.dialogs.peek 0 = .holds (Handlers.superseded "x") := by
  obtain ⟨hothers, hcancel, hold⟩ := dialogs_isolated new_quiet [] [] [] "x" "/a" "/b" .none .none
  exact ⟨rfl, hcancel _ rfl rfl, (hothers _ .cancel).1, hold rfl _ rfl rfl rfl⟩

end Session

end Hostlink.Bridge
