import Hostlink.Proofs.Registry.Simulation
import Hostlink.Registry.Session

/-!
# What a registry answers over a whole run

* `Session.history` — the events of a list of operations;
* `Session.desk_run` — a run of a registry is a run of its desk along that history;
* `Session.run_answers` — **every answer follows from the history alone**: ids are given out once,
  the first ending aimed at an id counts, and its inbox holds that and nothing else.
-/

namespace Hostlink.Registry

/-- Cancels the request of an id. -/
def Op.cancel (id : String) : Op := .settle id (.error .canceled)

instance (stem : String) (h : History) (id : String) : Decidable (h.Waits stem id) :=
  inferInstanceAs (Decidable (∃ n < h.opened, idOf stem n = id ∧ h.ending? stem n = none))

namespace Session

/-- What callers see of a session. -/
def desk (s : Session) : Desk := s.registry.desk s.inboxes

/-- The event of an operation; attaching something is none. -/
def event? (s : Session) : Op → Option Event
  | .register _ => some .opened
  | .settle id v => some (.aimed id (.settled v))
  | .settleNumber n v => some (.aimed (s.idAt n) (.settled v))
  | .forget id => some (.aimed id .forgotten)
  | .attachGuard _ _ | .attachTimer _ => none
  | .read n => some (.read n)
  | .drop n => some (.dropped n)

/-- The events of operations that are done one after another. -/
def history (s : Session) : List Op → History
  | [] => []
  | op :: ops => (s.event? op).toList ++ history (s.step op).2 ops

/-- What operations answer that are done one after another. -/
def answers (s : Session) : List Op → List Answer
  | [] => []
  | op :: ops => (s.step op).1 :: answers (s.step op).2 ops

/-- The ids that operations give out, in order. -/
def issued (s : Session) (ops : List Op) : List String :=
  (s.answers ops).filterMap fun
    | .id id => some id
    | _ => none

/-! ## Effects -/

theorem registry_perform (s : Session) (e : Effect String Nat) :
    (s.perform e).registry = s.registry := by
  cases e <;> rfl

theorem inboxes_perform (s : Session) (e : Effect String Nat) :
    (s.perform e).inboxes = onInboxes s.inboxes e := by
  cases e <;> rfl

theorem foldl_perform (effects : List (Effect String Nat)) : ∀ s : Session,
    (effects.foldl perform s).registry = s.registry ∧
      (effects.foldl perform s).inboxes = deliverAll s.inboxes effects := by
  induction effects with
  | nil => exact fun s => ⟨rfl, rfl⟩
  | cons e es ih =>
    intro s
    obtain ⟨h1, h2⟩ := ih (s.perform e)
    rw [registry_perform] at h1
    rw [inboxes_perform] at h2
    exact ⟨h1, h2⟩

@[simp] theorem registry_after (s : Session) (effects : List (Effect String Nat))
    (r : Registry String Nat) : (s.after effects r).registry = r :=
  (foldl_perform effects _).1

@[simp] theorem inboxes_after (s : Session) (effects : List (Effect String Nat))
    (r : Registry String Nat) : (s.after effects r).inboxes = deliverAll s.inboxes effects :=
  (foldl_perform effects _).2

/-! ## One operation -/

theorem sound_step {s : Session} (h : s.registry.Sound) (op : Op) : (s.step op).2.registry.Sound := by
  cases op with
  | register path => exact h.register path 0
  | settle id v => simpa [step] using h.settle 0 id v
  | settleNumber n v => simpa [step] using h.settle 0 (s.idAt n) v
  | forget id => simpa [step] using h.forget 0 id
  | attachGuard n label => simpa [step] using h.attachGuard (s.idAt n) label
  | attachTimer n => simpa [step] using h.attachTimer (s.idAt n) s.timers
  | read n => exact h
  | drop n => exact h

/-- An operation is its event. -/
theorem desk_step {s : Session} (h : s.registry.Sound) (op : Op) :
    (s.step op).2.desk = s.desk.run (s.event? op).toList := by
  cases op with
  | register path => exact desk_register s.registry s.inboxes path 0
  | settle id v => simpa [step, desk, event?] using h.desk_settle s.inboxes 0 id v
  | settleNumber n v => simpa [step, desk, event?] using h.desk_settle s.inboxes 0 (s.idAt n) v
  | forget id => simpa [step, desk, event?] using h.desk_forget s.inboxes 0 id
  | attachGuard n label =>
    simpa [step, desk, event?] using desk_attachGuard s.registry s.inboxes (s.idAt n) label
  | attachTimer n =>
    simpa [step, desk, event?] using desk_attachTimer s.registry s.inboxes (s.idAt n) s.timers
  | read n => rfl
  | drop n => rfl

/-! ## Runs -/

theorem run_cons (s : Session) (op : Op) (ops : List Op) :
    s.run (op :: ops) = (s.step op).2.run ops := rfl

theorem sound_run {s : Session} (h : s.registry.Sound) (ops : List Op) :
    (s.run ops).registry.Sound := by
  induction ops generalizing s with
  | nil => exact h
  | cons op ops ih => exact ih (sound_step h op)

/-- **A run of a registry is a run of its desk.** -/
theorem desk_run {s : Session} (h : s.registry.Sound) (ops : List Op) :
    (s.run ops).desk = s.desk.run (s.history ops) := by
  induction ops generalizing s with
  | nil => rfl
  | cons op ops ih => rw [run_cons, ih (sound_step h op), desk_step h, history, Desk.run_append]

theorem follows_history (stem : String) (ops : List Op) :
    ((new stem).run ops).desk.Follows ((new stem).history ops) := by
  rw [desk_run (sound_new stem)]
  exact Desk.follows_run stem _

theorem stem_run (stem : String) (ops : List Op) : ((new stem).run ops).registry.stem = stem := by
  have h : ((new stem).run ops).desk.stem = stem := by
    rw [desk_run (sound_new stem), Desk.stem_run]
    rfl
  exact h

/-- Ids are given out by number, going on from the count. -/
theorem issued_eq {s : Session} (h : s.registry.Sound) (ops : List Op) :
    s.issued ops = (List.range' s.registry.count (s.history ops).opened).map (idOf s.registry.stem) := by
  induction ops generalizing s with
  | nil => rfl
  | cons op ops ih =>
    have hdesk := desk_step h op
    have hstem : (s.step op).2.desk.stem = s.desk.stem := by rw [hdesk, Desk.stem_run]
    have hcount : (s.step op).2.desk.count = s.desk.count + History.opened (s.event? op).toList := by
      rw [hdesk, Desk.count_run]
    have hrest : (s.step op).2.issued ops =
        (List.range' (s.step op).2.desk.count ((s.step op).2.history ops).opened).map
          (idOf (s.step op).2.desk.stem) := ih (sound_step h op)
    have hopened : (s.history (op :: ops)).opened =
        History.opened (s.event? op).toList + ((s.step op).2.history ops).opened :=
      List.countP_append
    rw [hstem, hcount] at hrest
    rw [hopened, Nat.add_comm]
    cases op with
    | register path => exact congrArg (idOf s.registry.stem s.registry.count :: ·) hrest
    | _ => exact hrest

theorem isPending_run (stem : String) (ops : List Op) (id : String) :
    ((new stem).run ops).registry.isPending id = decide (((new stem).history ops).Waits stem id) := by
  have hpending := (sound_run (sound_new stem) ops).isPending_iff_waits (follows_history stem ops) id
  rw [Bool.eq_iff_iff, hpending, stem_run, decide_eq_true_iff]

theorem peek_run (stem : String) (ops : List Op) (n : Nat) :
    ((new stem).run ops).inboxes.peek n = ((new stem).history ops).inbox stem n := by
  have hf := follows_history stem ops
  have hstem : ((new stem).run ops).desk.stem = stem := stem_run stem ops
  rcases Nat.lt_or_ge n ((new stem).history ops).opened with hlt | hge
  · have h := hf.peek_eq n hlt
    rwa [hstem] at h
  · have hlen : ((new stem).run ops).inboxes.length ≤ n := Nat.le_trans (Nat.le_of_eq hf.length_eq) hge
    rw [Inboxes.peek_of_length_le hlen, History.inbox, History.since_eq_none.mpr hge]

/-- **Every answer of a registry follows from its history.** Ids are pairwise distinct. Settling,
canceling and forgetting succeed if the id was given out and nothing has been aimed at it since. An
inbox holds what the first ending aimed at its request brought. Those requests wait, and as many,
that nothing has been aimed at. -/
theorem run_answers (stem : String) (ops : List Op) :
    let s := (new stem).run ops
    let h := (new stem).history ops
    (new stem).issued ops = (List.range h.opened).map (idOf stem) ∧
    ((new stem).issued ops).Nodup ∧
    (∀ id v, (s.step (.settle id v)).1 = .done (h.Waits stem id)) ∧
    (∀ id, (s.step (.cancel id)).1 = .done (h.Waits stem id)) ∧
    (∀ id, (s.step (.forget id)).1 = .done (h.Waits stem id)) ∧
    (∀ n v, (s.step (.settleNumber n v)).1 = .settled (s.idAt n) (h.Waits stem (s.idAt n))) ∧
    (∀ n, (s.step (.read n)).1 = .inbox (h.inbox stem n)) ∧
    (∀ id, s.registry.isPending id = decide (h.Waits stem id)) ∧
    s.registry.size = ((List.range h.opened).filter fun n => (h.ending? stem n).isNone).length := by
  intro s h
  have hf : s.desk.Follows h := follows_history stem ops
  have hstem : s.desk.stem = stem := stem_run stem ops
  have hissued : (new stem).issued ops = (List.range h.opened).map (idOf stem) := by
    rw [List.range_eq_range']
    exact issued_eq (sound_new stem) ops
  have hpending : ∀ id, s.registry.isPending id = decide (h.Waits stem id) := isPending_run stem ops
  have hsettle : ∀ id v, (s.step (.settle id v)).1 = .done (h.Waits stem id) := fun id v =>
    congrArg Answer.done ((settle_fst s.registry 0 id v).trans (hpending id))
  refine ⟨hissued, ?_, hsettle, fun id => hsettle id _, fun id => ?_, fun n v => ?_, fun n => ?_,
    hpending, ?_⟩
  · rw [hissued]
    exact List.nodup_range.map fun m n hmn => idOf_inj.mp hmn
  · exact congrArg Answer.done ((forget_fst s.registry 0 id).trans (hpending id))
  · have hstep : (s.step (.settleNumber n v)).1 =
        .settled (s.idAt n) (s.registry.settle 0 (s.idAt n) v).1 := rfl
    rw [hstep, settle_fst, hpending]
  · exact congrArg Answer.inbox (peek_run stem ops n)
  · have hw := hf.waiting_eq
    rw [hstem] at hw
    rw [← length_numbers]
    exact congrArg List.length hw

end Session

end Hostlink.Registry
