import Hostlink.Proofs.Router.Run
import Mathlib.Data.List.Induction

/-!
# When settlements come does not matter

A push settles its handler at once or one tick later, and meanwhile the name may be registered again,
pushed again, or its owner may go. What an owner receives in the end is the same.

* `Router.Session.outcome` — what the owner of an inbox has received in a run, or finds after one more tick;
* `Op.tells` — what an operation tells an owner, as far as handlers go;
* `Session.outcome_concat` — **an outcome changes by what an operation tells**, whenever that comes;
* `Session.outcomes_agree` — **outcomes do not depend on when settlements come**, nor do answers to pushes,
  the handlers that wait, and what subscribers receive.
-/

namespace Hostlink

/-- An inbox that was never opened counts as dropped, until it is opened. -/
def Inbox.opened : Inbox → Inbox
  | .dropped => .waiting
  | box => box

namespace Router

/-- What an operation tells the owner of an inbox, while handlers `h` wait. -/
def Op.tells (h : Handlers) (n : Nat) : Op → Inbox → Inbox
  | .register name, box =>
    if n = h.count then box.opened
    else if h.find? name = some ⟨name, n⟩ then box.deliver (Handlers.superseded name) else box
  | .dispatch p, box =>
    if h.find? (addressee p).1 = some ⟨(addressee p).1, n⟩ then
      box.deliver (settlementOf (addressee p).1 (addressee p).2)
    else box
  | _, box => box

/-- The settlement that the owner of an inbox receives by an operation. -/
def Op.receivedBy (n : Nat) (op : Op) (a : Answer) : Option Settlement :=
  match op, a with
  | .read m, .inbox (.holds v) => if m = n then some v else none
  | _, _ => none

namespace Session

/-- The settlement that the owner of an inbox has received in a run. -/
def received (s : Session) (n : Nat) : List Op → Option Settlement
  | [] => none
  | op :: ops => (op.receivedBy n (s.step op).1).or (received (s.step op).2 n ops)

/-- Inboxes when all settlements have come. -/
def arrived (s : Session) : Inboxes := Delivery.makeAll s.inboxes s.deferred

/-- What the owner of an inbox has received in a run; else what it finds after one more tick. -/
def outcome (s : Session) (n : Nat) (ops : List Op) : Inbox :=
  match s.received n (ops ++ [.tick]) with
  | some v => .holds v
  | none => (s.run (ops ++ [.tick])).inboxes.peek n

/-! ## Who is to be told -/

/-- Tokens count inboxes, and nobody waits to be told whose settlement is on its way. -/
structure Sound (s : Session) : Prop where
  handlers : s.router.handlers.Sound
  length_eq : s.inboxes.length = s.router.handlers.count
  late_lt : ∀ d ∈ s.deferred, d.token < s.router.handlers.count
  apart : ∀ x ∈ s.router.handlers.waiting, ∀ d ∈ s.deferred, d.token ≠ x.token

theorem sound_new (timing : PushTiming) (runtime : Bool) : (new timing runtime).Sound where
  handlers := Handlers.sound_new
  length_eq := rfl
  late_lt _ hd := absurd hd List.not_mem_nil
  apart _ hx := absurd hx List.not_mem_nil

variable {s : Session} {n : Nat}

/-- A settlement is delivered, or is on its way. -/
theorem settle_cases (s : Session) (d : Delivery) :
    (s.settle d = { s with inboxes := s.inboxes.deliver d.token d.settlement }) ∨
      s.settle d = { s with deferred := s.deferred ++ [d] } := by
  unfold settle schedule Deferral.put
  cases s.router.timing with
  | immediate => exact .inl rfl
  | nextTick =>
    cases s.runtime with
    | true => exact .inr rfl
    | false => exact .inl rfl

/-- A push takes out its handler, if there is one, and settles it. -/
theorem step_dispatch (s : Session) (p : Push) :
    ∃ r : Router, r.handlers = s.router.handlers.erase (addressee p).1 ∧
      (s.step (.dispatch p)).2 =
        match s.router.handlers.find? (addressee p).1 with
        | some x => { s with router := r }.settle ⟨x.token, settlementOf (addressee p).1 (addressee p).2⟩
        | none => { s with router := r } := by
  refine ⟨{ s.router with
    handlers := s.router.handlers.erase (addressee p).1
    channels := s.router.channels.map (·.send p) }, rfl, ?_⟩
  simp only [step, dispatch, takeHandler_eq]
  cases s.router.handlers.find? (addressee p).1 <;> rfl

namespace Sound

variable (hs : s.Sound)
include hs

/-- A new handler is told nothing yet. -/
theorem register (name : String) : (s.step (.register name)).2.Sound := by
  have hlength : (s.step (.register name)).2.inboxes.length = s.inboxes.length + 1 := by
    simp only [Session.step]
    split <;> simp
  refine ⟨hs.handlers.register name, ?_, fun d hd => Nat.lt_succ_of_lt (hs.late_lt d hd), fun x hx d hd => ?_⟩
  · rw [hlength, hs.length_eq]
    rfl
  · rcases List.mem_append.mp hx with hx | hx
    · exact hs.apart x ((Handlers.mem_erase _ _).mp hx).1 d hd
    · rw [List.mem_singleton.mp hx]
      exact Nat.ne_of_lt (hs.late_lt d hd)

/-- The handlers of a name wait no more. -/
theorem takeOut {r : Router} {name : String} (hr : r.handlers = s.router.handlers.erase name) :
    Sound { s with router := r } := by
  refine ⟨hr ▸ hs.handlers.erase _, hs.length_eq.trans (by rw [hr]; rfl), by rw [hr]; exact hs.late_lt, fun x hx => ?_⟩
  rw [hr] at hx
  exact hs.apart x ((Handlers.mem_erase _ _).mp hx).1

/-- A settlement goes out to an owner whose handler does not wait. -/
theorem settle {d : Delivery} (hlt : d.token < s.router.handlers.count)
    (hfree : ∀ x ∈ s.router.handlers.waiting, d.token ≠ x.token) : (s.settle d).Sound := by
  rcases settle_cases s d with hnow | hlate
  · rw [hnow]
    exact ⟨hs.handlers, (Inboxes.length_deliver ..).trans hs.length_eq, hs.late_lt, hs.apart⟩
  · rw [hlate]
    refine ⟨hs.handlers, hs.length_eq, fun e he => ?_, fun x hx e he => ?_⟩
    · rcases List.mem_append.mp he with he | he
      · exact hs.late_lt e he
      · exact List.mem_singleton.mp he ▸ hlt
    · rcases List.mem_append.mp he with he | he
      · exact hs.apart x hx e he
      · exact List.mem_singleton.mp he ▸ hfree x hx

theorem dispatch (p : Push) : (s.step (.dispatch p)).2.Sound := by
  obtain ⟨r, hr, hstep⟩ := step_dispatch s p
  rw [hstep]
  cases hx : s.router.handlers.find? (addressee p).1 with
  | none => exact hs.takeOut hr
  | some x =>
    obtain ⟨hmem, hname⟩ := Handlers.find?_eq_some hx
    refine (hs.takeOut hr).settle ?_ fun y hy htoken => ?_
    · rw [hr]
      exact hs.handlers.token_lt x hmem
    · -- the handler that was taken out does not wait any more
      rw [hr] at hy
      obtain ⟨hy, hne⟩ := (Handlers.mem_erase _ _).mp hy
      exact hne (hs.handlers.eq_of_token hmem hy htoken ▸ hname)

theorem step (op : Op) : (s.step op).2.Sound := by
  have hsame : ∀ {t : Session}, t.router.handlers = s.router.handlers → t.inboxes.length = s.inboxes.length →
      t.deferred = s.deferred → t.Sound := by
    intro t hhandlers hlength hdeferred
    refine ⟨hhandlers ▸ hs.handlers, ?_, ?_, ?_⟩
    · rw [hlength, hhandlers, hs.length_eq]
    · rw [hdeferred, hhandlers]
      exact hs.late_lt
    · rw [hdeferred, hhandlers]
      exact hs.apart
  cases op with
  | register name => exact hs.register name
  | dispatch p => exact hs.dispatch p
  | drain m =>
    refine hsame ?_ rfl rfl
    rw [handlers_step]
    rfl
  | tick =>
    exact ⟨hs.handlers, (Delivery.length_makeAll ..).trans hs.length_eq, fun _ hd => absurd hd List.not_mem_nil,
      fun _ _ _ hd => absurd hd List.not_mem_nil⟩
  | read m => exact hsame rfl (Inboxes.length_read ..) rfl
  | drop m => exact hsame rfl (Inboxes.length_drop ..) rfl
  | _ => exact hsame rfl rfl rfl

end Sound

theorem sound_run (timing : PushTiming) (runtime : Bool) (ops : List Op) :
    ((new timing runtime).run ops).Sound := by
  induction ops using List.reverseRecOn with
  | nil => exact sound_new timing runtime
  | append_singleton ops op ih =>
    rw [run_concat]
    exact ih.step op

/-! ## What arrives -/

/-- An inbox that nothing is on its way to stays as it is. -/
theorem arrived_of_ne (hne : ∀ d ∈ s.deferred, d.token ≠ n) : s.arrived.peek n = s.inboxes.peek n :=
  Delivery.peek_makeAll_of_ne hne

theorem arrived_congr {t : Session} (hdeferred : t.deferred = s.deferred)
    (hpeek : t.inboxes.peek n = s.inboxes.peek n) : t.arrived.peek n = s.arrived.peek n := by
  rw [arrived, hdeferred]
  exact Delivery.peek_makeAll_congr hpeek s.deferred

/-- A registration opens an inbox, and tells the handler whose place it takes. -/
theorem peek_register (hs : s.Sound) (name : String) (n : Nat) :
    (s.step (.register name)).2.inboxes.peek n = Op.tells s.router.handlers n (.register name) (s.inboxes.peek n) := by
  have hinboxes : (s.step (.register name)).2.inboxes =
      s.router.handlers.told name (Handlers.superseded name) s.inboxes.opened := rfl
  rw [hinboxes, Handlers.peek_told, Inboxes.peek_opened, hs.length_eq, Op.tells]
  by_cases hn : n = s.router.handlers.count
  · have hdropped : s.inboxes.peek n = .dropped :=
      Inboxes.peek_of_length_le (Nat.le_of_eq (hs.length_eq.trans hn.symm))
    have hnew : s.router.handlers.find? name ≠ some ⟨name, n⟩ := fun hfind =>
      Nat.ne_of_lt (hs.handlers.token_lt _ (Handlers.find?_eq_some hfind).1) hn
    rw [if_neg hnew, if_pos hn, if_pos hn, hdropped, Inbox.opened]
  · rw [if_neg hn, if_neg hn]

/-- Whom something is on its way to, a registration tells nothing. -/
theorem tells_register_late (hs : s.Sound) (name : String) {d : Delivery} (hd : d ∈ s.deferred) (box : Inbox) :
    Op.tells s.router.handlers d.token (.register name) box = box := by
  rw [Op.tells, if_neg (Nat.ne_of_lt (hs.late_lt d hd)), if_neg]
  exact fun heq => hs.apart _ (Handlers.find?_eq_some heq).1 d hd rfl

theorem arrived_register (hs : s.Sound) (name : String) (n : Nat) :
    (s.step (.register name)).2.arrived.peek n =
      Op.tells s.router.handlers n (.register name) (s.arrived.peek n) := by
  have hdeferred : (s.step (.register name)).2.deferred = s.deferred := rfl
  have hpeek := peek_register hs name n
  by_cases hlate : ∃ d ∈ s.deferred, d.token = n
  · obtain ⟨d, hd, rfl⟩ := hlate
    rw [tells_register_late hs name hd] at hpeek ⊢
    exact arrived_congr hdeferred hpeek
  · have hne : ∀ d ∈ s.deferred, d.token ≠ n := fun d hd heq => hlate ⟨d, hd, heq⟩
    rw [arrived_of_ne (hdeferred ▸ hne), arrived_of_ne hne]
    exact hpeek

/-- A settlement arrives, whether it is delivered now or later, if no other is on its way. -/
theorem arrived_settle {d : Delivery} (hfree : ∀ e ∈ s.deferred, e.token ≠ d.token) (n : Nat) :
    (s.settle d).arrived.peek n =
      if d.token = n then (s.arrived.peek n).deliver d.settlement else s.arrived.peek n := by
  rcases settle_cases s d with hnow | hlate
  · have hdeferred : (s.settle d).deferred = s.deferred := by rw [hnow]
    have hpeek : (s.settle d).inboxes.peek n =
        if d.token = n then (s.inboxes.peek n).deliver d.settlement else s.inboxes.peek n := by
      rw [hnow]
      exact Inboxes.peek_deliver ..
    by_cases hn : d.token = n
    · rw [if_pos hn] at hpeek ⊢
      rw [arrived_of_ne (hdeferred ▸ hn ▸ hfree), arrived_of_ne (hn ▸ hfree), hpeek]
    · rw [if_neg hn] at hpeek ⊢
      exact arrived_congr hdeferred hpeek
  · rw [hlate, arrived, Delivery.makeAll_concat, Inboxes.peek_deliver]
    rfl

/-- A push tells its handler. -/
theorem arrived_dispatch (hs : s.Sound) (p : Push) (n : Nat) :
    (s.step (.dispatch p)).2.arrived.peek n = Op.tells s.router.handlers n (.dispatch p) (s.arrived.peek n) := by
  obtain ⟨r, -, hstep⟩ := step_dispatch s p
  rw [hstep, Op.tells]
  cases hx : s.router.handlers.find? (addressee p).1 with
  | none => exact (if_neg (by simp)).symm
  | some x =>
    obtain ⟨hmem, hname⟩ := Handlers.find?_eq_some hx
    refine (arrived_settle (s := { s with router := r }) (hs.apart x hmem) n).trans ?_
    by_cases hn : x.token = n
    · rw [if_pos hn, if_pos (by rw [← hn, ← hname])]
      rfl
    · rw [if_neg hn, if_neg fun heq => hn (congrArg Handler.token (Option.some.inj heq))]
      rfl

/-- Other operations tell nobody anything. -/
theorem arrived_other {op : Op} (hregister : ∀ name, op ≠ .register name) (hdispatch : ∀ p, op ≠ .dispatch p)
    (hread : op ≠ .read n) (hdrop : op ≠ .drop n) : (s.step op).2.arrived.peek n = s.arrived.peek n := by
  cases op with
  | register name => exact absurd rfl (hregister name)
  | dispatch p => exact absurd rfl (hdispatch p)
  | read m =>
    refine arrived_congr rfl ?_
    exact (Inboxes.peek_read ..).trans (if_neg fun heq => hread (congrArg Op.read heq))
  | drop m =>
    refine arrived_congr rfl ?_
    exact (Inboxes.peek_drop ..).trans (if_neg fun heq => hdrop (congrArg Op.drop heq))
  | _ => rfl

/-! ## What owners receive -/

theorem received_concat (s : Session) (n : Nat) (ops : List Op) (op : Op) :
    s.received n (ops ++ [op]) = (s.received n ops).or (op.receivedBy n ((s.run ops).step op).1) := by
  induction ops generalizing s with
  | nil => simp [received, run]
  | cons o ops ih => rw [List.cons_append, received, ih, received, Option.or_assoc]; rfl

/-- What an owner has received, or what arrives in its inbox. -/
theorem outcome_eq (s : Session) (n : Nat) (ops : List Op) :
    s.outcome n ops =
      match s.received n ops with
      | some v => .holds v
      | none => (s.run ops).arrived.peek n := by
  have htick : s.received n (ops ++ [.tick]) = s.received n ops := by
    rw [received_concat]
    exact Option.or_none
  rw [outcome, htick, run_concat]
  rfl

/-- Looking into an inbox does not change what its owner receives in all. -/
theorem outcome_read (s : Session) (n : Nat) (ops : List Op) :
    s.outcome n (ops ++ [.read n]) = s.outcome n ops := by
  rw [outcome_eq, outcome_eq, received_concat, run_concat]
  -- what was received stays so; else what is read now is what will have arrived
  cases s.received n ops with
  | some v => rfl
  | none =>
    generalize s.run ops = t
    rw [Option.none_or]
    have hanswer : (t.step (.read n)).1 = .inbox (t.inboxes.peek n) := rfl
    have hafter : (t.step (.read n)).2.inboxes.peek n = (t.inboxes.peek n).afterRead :=
      (Inboxes.peek_read ..).trans (if_pos rfl)
    cases hbox : t.inboxes.peek n with
    | holds v =>
      have hreceived : Op.receivedBy n (.read n) (.inbox (.holds v)) = some v := if_pos rfl
      have harrived : t.arrived.peek n = .holds v :=
        (Delivery.peek_makeAll_of_ne_waiting (by simp [hbox]) t.deferred).trans hbox
      rw [hanswer, hbox, hreceived]
      exact harrived.symm
    | _ =>
      rw [hbox] at hafter
      rw [hanswer, hbox]
      exact arrived_congr rfl (hafter.trans hbox.symm)

/-- Who has received a settlement is told nothing more. -/
theorem tells_holds (h : Handlers) (n : Nat) (op : Op) (v : Settlement) : op.tells h n (.holds v) = .holds v := by
  cases op with
  | register name =>
    simp only [Op.tells, Inbox.opened, Inbox.deliver, ite_self]
  | dispatch p => simp only [Op.tells, Inbox.deliver, ite_self]
  | _ => rfl

/-- **An outcome changes by what an operation tells**, unless its owner goes. -/
theorem outcome_concat {ops : List Op} (hs : (s.run ops).Sound) {op : Op} (hop : op ≠ .drop n) :
    s.outcome n (ops ++ [op]) = op.tells (s.run ops).router.handlers n (s.outcome n ops) := by
  by_cases hread : op = .read n
  · subst hread
    exact outcome_read s n ops
  · have hnone : op.receivedBy n ((s.run ops).step op).1 = none := by
      cases op with
      | read m =>
        have hm : m ≠ n := fun heq => hread (congrArg Op.read heq)
        unfold Op.receivedBy
        split
        · next m' v heq _ => exact if_neg (Op.read.inj heq ▸ hm)
        · rfl
      | _ => rfl
    have harrived : ((s.run ops).step op).2.arrived.peek n =
        op.tells (s.run ops).router.handlers n ((s.run ops).arrived.peek n) := by
      cases op with
      | register name => exact arrived_register hs name n
      | dispatch p => exact arrived_dispatch hs p n
      | _ => exact arrived_other (fun _ h => (by cases h)) (fun _ h => (by cases h)) hread hop
    rw [outcome_eq, outcome_eq, received_concat, hnone, Option.or_none, run_concat]
    cases s.received n ops with
    -- what has been read is kept, and nothing comes on top of it
    | some v => exact (tells_holds _ n op v).symm
    | none => exact harrived

/-! ## Two ways to deliver -/

section

variable (timing timing' : PushTiming) (runtime runtime' : Bool) (ops : List Op)

/-- Handlers and channels do not depend on when settlements come. -/
theorem routers_agree :
    ((new timing runtime).run ops).router.handlers = ((new timing' runtime').run ops).router.handlers ∧
      ((new timing runtime).run ops).router.channels = ((new timing' runtime').run ops).router.channels := by
  induction ops using List.reverseRecOn with
  | nil => exact ⟨rfl, rfl⟩
  | append_singleton ops op ih =>
    obtain ⟨hhandlers, hchannels⟩ := ih
    rw [run_concat, run_concat, handlers_step, handlers_step, channels_step, channels_step, hhandlers, hchannels]
    exact ⟨rfl, rfl⟩

end

/-- **When settlements come does not matter.** Whether a push settles its handler at once or one tick later,
after any operations it is taken by the same name, the same handlers wait, and subscribers have received the
same; and after one more tick, the owner of every inbox that was not dropped has received the same settlement
or finds the same, whenever it looks and whatever was registered in between. -/
theorem outcomes_agree (timing timing' : PushTiming) (runtime runtime' : Bool) (ops : List Op) :
    let s := new timing runtime
    let t := new timing' runtime'
    (∀ p, ((s.run ops).step (.dispatch p)).1 = ((t.run ops).step (.dispatch p)).1) ∧
      (s.run ops).router.handlers = (t.run ops).router.handlers ∧
      (s.run ops).router.channels = (t.run ops).router.channels ∧
      ∀ n, .drop n ∉ ops → s.outcome n ops = t.outcome n ops := by
  intro s t
  obtain ⟨hhandlers, hchannels⟩ := routers_agree timing timing' runtime runtime' ops
  refine ⟨fun p => ?_, hhandlers, hchannels, fun n hdrop => ?_⟩
  · rw [answer_dispatch, answer_dispatch, hhandlers]
  · clear hhandlers hchannels
    induction ops using List.reverseRecOn with
    | nil => rfl
    | append_singleton ops op ih =>
      have hop : op ≠ .drop n := fun heq => hdrop (by simp [heq])
      have hbefore := ih fun hmem => hdrop (List.mem_append_left _ hmem)
      obtain ⟨hhandlers, -⟩ := routers_agree timing timing' runtime runtime' ops
      rw [outcome_concat (sound_run timing runtime ops) hop, outcome_concat (sound_run timing' runtime' ops) hop,
        hbefore, hhandlers]

/-- A name is registered again while a settlement is on its way, and both owners receive their own. -/
theorem outcomes_agree_registered_again :
    let one : Push := ⟨"key", Json.ofMembers [("value", .string "a")]⟩
    let two : Push := ⟨"key", Json.ofMembers [("value", .string "b")]⟩
    let ops : List Op := [.register "key", .dispatch one, .read 0, .register "key", .dispatch two]
    .drop 0 ∉ ops ∧ (new .immediate true).outcome 0 ops = (new .nextTick true).outcome 0 ops ∧
      (new .immediate true).outcome 0 ops = .holds (.ok (.string "a")) ∧
      .drop 1 ∉ ops ∧ (new .immediate true).outcome 1 ops = (new .nextTick true).outcome 1 ops ∧
      (new .immediate true).outcome 1 ops = .holds (.ok (.string "b")) := by
  intro one two ops
  have hall : ∀ n, Op.drop n ∉ ops := by simp [ops]
  have hsame := (outcomes_agree .immediate .nextTick true true ops).2.2.2
  exact ⟨hall 0, hsame 0 (hall 0), rfl, hall 1, hsame 1 (hall 1), rfl⟩

end Session

end Router

end Hostlink
