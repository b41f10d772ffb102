import Hostlink.Proofs.Bridge.Invariants
import Hostlink.Proofs.Router.Run

/-!
# Boards

A board is what dialogs see of a bridge: the handlers that wait, the settlements that come one tick
later, and the inboxes. Requests leave it alone, and every operation on dialogs is one of a few on
the board.

* `Bridge.board_registerHandler`, `Bridge.board_notify`, `Bridge.board_tick`, … — which one;
* `Board.Sound` — **an inbox waits exactly as long as a handler or a settlement that was put off is
  to fill it**; every operation keeps this.
-/

namespace Hostlink

/-- What dialogs see of a bridge. -/
structure Board where
  handlers : Handlers
  /-- Settlements that come one tick later. -/
  deferred : List Delivery
  /-- Inboxes of dialogs, by token. -/
  boxes : Inboxes

namespace Board

/-- Nobody waits. -/
def new : Board := ⟨.new, [], []⟩

/-- Registers a handler; the one whose place it takes is told so. -/
def register (B : Board) (name : String) : Board :=
  { B with
    handlers := (B.handlers.register name).2.2
    boxes := match B.handlers.find? name with
      | some x => B.boxes.opened.deliver x.token (Handlers.superseded name)
      | none => B.boxes.opened }

/-- Takes out the handler of a name; its settlement is delivered now or one tick later. -/
def take (B : Board) (name : String) (v : Settlement) (late : Bool) : Board :=
  match B.handlers.find? name with
  | none => B
  | some x =>
    if late then
      { B with handlers := B.handlers.erase name, deferred := B.deferred ++ [⟨x.token, v⟩] }
    else { B with handlers := B.handlers.erase name, boxes := B.boxes.deliver x.token v }

/-- Takes out the handler of a dialog, if it is still its own; `f` says what becomes of its inbox. -/
def withdraw (B : Board) (name : String) (token : Nat) (f : Inboxes → Nat → Inboxes) : Board :=
  if B.handlers.find? name = some ⟨name, token⟩ then
    { B with handlers := B.handlers.erase name, boxes := f B.boxes token }
  else B

/-- Looks into an inbox. -/
def read (B : Board) (token : Nat) : Board := { B with boxes := (B.boxes.read token).2 }

/-- Drops an inbox. -/
def drop (B : Board) (token : Nat) : Board := { B with boxes := B.boxes.drop token }

/-- Settlements that were put off come. -/
def arrive (B : Board) : Board :=
  { B with boxes := Delivery.makeAll B.boxes B.deferred, deferred := [] }

@[simp] theorem arrive_arrive (B : Board) : B.arrive.arrive = B.arrive := rfl

/-! ## What an operation changes -/

section

variable (B : Board) (name : String)

theorem count_take (v : Settlement) (late : Bool) :
    (B.take name v late).handlers.count = B.handlers.count := by
  unfold take
  split
  · rfl
  · split <;> rfl

theorem mem_take {v : Settlement} {late : Bool} {x : Handler} :
    x ∈ (B.take name v late).handlers.waiting ↔ x ∈ B.handlers.waiting ∧ x.name ≠ name := by
  unfold take
  split
  · next hnone => exact ⟨fun hx => ⟨hx, Handlers.find?_eq_none.mp hnone x hx⟩, fun h => h.1⟩
  · split <;> exact Handlers.mem_erase _ _

/-- A push tells at most one inbox. -/
theorem peek_take (v : Settlement) (late : Bool) (t : Nat) :
    (B.take name v late).boxes.peek t = B.boxes.peek t ∨
      (B.take name v late).boxes.peek t = (B.boxes.peek t).deliver v := by
  unfold take
  split
  · exact .inl rfl
  · split
    · exact .inl rfl
    · dsimp only
      rw [Inboxes.peek_deliver]
      split
      · exact .inr rfl
      · exact .inl rfl

variable (token : Nat) (f : Inboxes → Nat → Inboxes)

theorem count_withdraw : (B.withdraw name token f).handlers.count = B.handlers.count := by
  unfold withdraw
  split <;> rfl

theorem mem_of_mem_withdraw {x : Handler} (hx : x ∈ (B.withdraw name token f).handlers.waiting) :
    x ∈ B.handlers.waiting := by
  unfold withdraw at hx
  split at hx
  · exact ((Handlers.mem_erase _ _).mp hx).1
  · exact hx

/-- A dialog that hangs up touches no other inbox. -/
theorem peek_withdraw_hangUp {t : Nat} (ht : t ≠ token) :
    (B.withdraw name token .hangUp).boxes.peek t = B.boxes.peek t := by
  unfold withdraw
  split
  · dsimp only
    rw [Inboxes.peek_hangUp, if_neg ht.symm]
  · rfl

/-- A dialog that is told something is one inbox that is told so, or none. -/
theorem peek_withdraw_deliver (v : Settlement) (t : Nat) :
    (B.withdraw name token fun boxes n => boxes.deliver n v).boxes.peek t = B.boxes.peek t ∨
      (B.withdraw name token fun boxes n => boxes.deliver n v).boxes.peek t = (B.boxes.peek t).deliver v := by
  unfold withdraw
  split
  · dsimp only
    rw [Inboxes.peek_deliver]
    split
    · exact .inr rfl
    · exact .inl rfl
  · exact .inl rfl

theorem mem_register {x : Handler} :
    x ∈ (B.register name).handlers.waiting ↔
      x ∈ B.handlers.waiting ∧ x.name ≠ name ∨ x = ⟨name, B.handlers.count⟩ := by
  have hwaiting : (B.register name).handlers.waiting =
      (B.handlers.erase name).waiting ++ [⟨name, B.handlers.count⟩] := rfl
  rw [hwaiting, List.mem_append, List.mem_singleton, Handlers.mem_erase]

/-- A registration tells the handler whose place it takes, and no other. -/
theorem peek_register (hlen : B.boxes.length = B.handlers.count) {t : Nat} (ht : t ≠ B.handlers.count) :
    (B.register name).boxes.peek t =
      if B.handlers.find? name = some ⟨name, t⟩ then
        (B.boxes.peek t).deliver (Handlers.superseded name)
      else B.boxes.peek t := by
  unfold register
  cases hx : B.handlers.find? name with
  | none =>
    dsimp only
    rw [Inboxes.peek_opened, hlen, if_neg ht, if_neg (by simp)]
  | some x =>
    obtain ⟨-, hname⟩ := Handlers.find?_eq_some hx
    dsimp only
    rw [Inboxes.peek_deliver, Inboxes.peek_opened, hlen, if_neg ht]
    by_cases hxt : x.token = t
    · rw [if_pos hxt, if_pos (by rw [← hxt, ← hname])]
    · rw [if_neg hxt, if_neg fun heq => hxt (congrArg Handler.token (Option.some.inj heq))]

end

/-! ## Who fills an inbox -/

/-- An inbox waits exactly as long as a handler or a settlement that was put off is to fill it, and
never for two of them. Its owner may drop it while the settlement is on its way. -/
structure Sound (B : Board) : Prop where
  handlers : B.handlers.Sound
  length_eq : B.boxes.length = B.handlers.count
  late_lt : ∀ d ∈ B.deferred, d.token < B.handlers.count
  late_apart : B.deferred.Pairwise (·.token ≠ ·.token)
  apart : ∀ x ∈ B.handlers.waiting, ∀ d ∈ B.deferred, x.token ≠ d.token
  waits : ∀ x ∈ B.handlers.waiting, B.boxes.peek x.token = .waiting
  late_waits : ∀ d ∈ B.deferred, B.boxes.peek d.token = .waiting ∨ B.boxes.peek d.token = .dropped
  served : ∀ t, B.boxes.peek t = .waiting →
    (∃ x ∈ B.handlers.waiting, x.token = t) ∨ ∃ d ∈ B.deferred, d.token = t

theorem sound_new : new.Sound where
  handlers := Handlers.sound_new
  length_eq := rfl
  late_lt d hd := absurd hd List.not_mem_nil
  late_apart := .nil
  apart x hx := absurd hx List.not_mem_nil
  waits x hx := absurd hx List.not_mem_nil
  late_waits d hd := absurd hd List.not_mem_nil
  served t ht := by simp [new, Inboxes.peek] at ht

namespace Sound

variable {B : Board} (hB : B.Sound)
include hB

/-- The handler of a name is taken out, and its inbox does not wait any more. -/
theorem close {name : String} {x : Handler} {boxes : Inboxes} (hx : B.handlers.find? name = some x)
    (hlen : boxes.length = B.boxes.length)
    (hother : ∀ t, t ≠ x.token → boxes.peek t = B.boxes.peek t)
    (hclosed : boxes.peek x.token ≠ .waiting) :
    Sound { B with handlers := B.handlers.erase name, boxes := boxes } := by
  obtain ⟨hmem, rfl⟩ := Handlers.find?_eq_some hx
  have hkeep : ∀ y ∈ (B.handlers.erase x.name).waiting, y ∈ B.handlers.waiting ∧ y.token ≠ x.token := by
    intro y hy
    obtain ⟨hy, hname⟩ := (Handlers.mem_erase B.handlers x.name).mp hy
    exact ⟨hy, fun htoken => hname (congrArg Handler.name (hB.handlers.eq_of_token hy hmem htoken))⟩
  refine ⟨hB.handlers.erase x.name, hlen.trans hB.length_eq, hB.late_lt, hB.late_apart,
    fun y hy => hB.apart y (hkeep y hy).1, fun y hy => ?_, fun d hd => ?_, fun t ht => ?_⟩
  · obtain ⟨hy, hne⟩ := hkeep y hy
    -- who waits has not got the token of what was taken out, so that nothing changes for him
    exact (hother _ hne).trans (hB.waits y hy)
  · rw [hother _ (hB.apart x hmem d hd).symm]
    exact hB.late_waits d hd
  · -- an inbox is waited for by a handler that is left, or by a settlement on its way
    have hne : t ≠ x.token := fun heq => hclosed (heq ▸ ht)
    rcases hB.served t ((hother t hne).symm.trans ht) with ⟨y, hy, rfl⟩ | hlate
    · refine .inl ⟨y, (Handlers.mem_erase B.handlers x.name).mpr ⟨hy, fun hname => ?_⟩, rfl⟩
      exact hne (congrArg Handler.token (hB.handlers.eq_of_name hy hmem hname))
    · exact .inr hlate

/-- The handler of a name is taken out, and its settlement is on its way. -/
theorem putOff {name : String} {x : Handler} (hx : B.handlers.find? name = some x) (v : Settlement) :
    Sound { B with handlers := B.handlers.erase name, deferred := B.deferred ++ [⟨x.token, v⟩] } := by
  obtain ⟨hmem, rfl⟩ := Handlers.find?_eq_some hx
  have hlate : ∀ d ∈ B.deferred ++ [⟨x.token, v⟩], d ∈ B.deferred ∨ d.token = x.token := by
    intro d hd
    rcases List.mem_append.mp hd with hd | hd
    · exact .inl hd
    · exact .inr (by rw [List.mem_singleton.mp hd])
  refine ⟨hB.handlers.erase x.name, hB.length_eq, fun d hd => ?_, ?_, fun y hy d hd => ?_,
    fun y hy => hB.waits y ((Handlers.mem_erase _ _).mp hy).1, fun d hd => ?_, fun t ht => ?_⟩
  · rcases hlate d hd with hd | heq
    · exact hB.late_lt d hd
    · rw [heq]
      exact hB.handlers.token_lt x hmem
  · refine List.pairwise_append.mpr ⟨hB.late_apart, List.pairwise_singleton _ _, fun d hd e he => ?_⟩
    rw [List.mem_singleton.mp he]
    exact (hB.apart x hmem d hd).symm
  · obtain ⟨hy, hname⟩ := (Handlers.mem_erase _ _).mp hy
    rcases hlate d hd with hd | heq
    · exact hB.apart y hy d hd
    · rw [heq]
      exact fun htoken => hname (congrArg Handler.name (hB.handlers.eq_of_token hy hmem htoken))
  · rcases hlate d hd with hd | heq
    · exact hB.late_waits d hd
    · rw [heq]
      exact .inl (hB.waits x hmem)
  · rcases hB.served t ht with ⟨y, hy, rfl⟩ | ⟨d, hd, rfl⟩
    · -- whoever waited through the handler now waits for what is on its way
      by_cases hname : y.name = x.name
      · rw [hB.handlers.eq_of_name hy hmem hname]
        exact .inr ⟨⟨x.token, v⟩, List.mem_append_right _ List.mem_cons_self, rfl⟩
      · exact .inl ⟨y, (Handlers.mem_erase _ _).mpr ⟨hy, hname⟩, rfl⟩
    · exact .inr ⟨d, List.mem_append_left _ hd, rfl⟩

theorem take (name : String) (v : Settlement) (late : Bool) : (B.take name v late).Sound := by
  unfold Board.take
  cases hx : B.handlers.find? name with
  | none => exact hB
  | some x =>
    cases late with
    | true => exact hB.putOff hx v
    | false =>
      have hwaits := hB.waits x (Handlers.find?_eq_some hx).1
      refine hB.close hx (Inboxes.length_deliver ..) (fun t ht => ?_) ?_
      · simp [ht.symm]
      · simp [hwaits, Inbox.deliver]

/-- A dialog takes out its own handler, which is told something or nothing more. -/
theorem withdraw (name : String) (token : Nat) {f : Inboxes → Nat → Inboxes} {g : Inbox → Inbox}
    (hf : ∀ boxes n, f boxes n = boxes.modify n g) (hdropped : g .dropped = .dropped)
    (hg : g .waiting ≠ .waiting) : (B.withdraw name token f).Sound := by
  unfold Board.withdraw
  split
  · next hx =>
    have hpeek : ∀ t, (f B.boxes token).peek t = if token = t then g (B.boxes.peek t) else B.boxes.peek t := by
      intro t
      rw [hf]
      exact Inboxes.peek_modify _ _ _ _ hdropped
    have hwaits : B.boxes.peek token = .waiting := hB.waits _ (Handlers.find?_eq_some hx).1
    refine hB.close hx ?_ (fun t ht => ?_) ?_
    · rw [hf]
      exact List.length_modify ..
    · rw [hpeek, if_neg (fun heq => ht heq.symm)]
    · rw [hpeek, if_pos rfl, hwaits]
      exact hg
  · exact hB

/-- A handler is registered under a name that nobody waits for. -/
theorem add {name : String} {boxes : Inboxes} (hnone : B.handlers.find? name = none)
    (hlen : boxes.length = B.boxes.length + 1)
    (hpeek : ∀ t, boxes.peek t = if t = B.handlers.count then .waiting else B.boxes.peek t) :
    Sound { B with handlers := (B.handlers.register name).2.2, boxes := boxes } := by
  have hreg : (B.handlers.register name).2.2 =
      ⟨B.handlers.count + 1, B.handlers.waiting ++ [⟨name, B.handlers.count⟩]⟩ := by
    rw [Handlers.register, Handlers.take, Handlers.erase_of_find?_eq_none hnone]
  have hold : ∀ {t}, t < B.handlers.count → boxes.peek t = B.boxes.peek t := by
    intro t ht
    rw [hpeek, if_neg (Nat.ne_of_lt ht)]
  have hcases : ∀ x ∈ B.handlers.waiting ++ [⟨name, B.handlers.count⟩],
      x ∈ B.handlers.waiting ∨ x.token = B.handlers.count := by
    intro x hx
    rcases List.mem_append.mp hx with hx | hx
    · exact .inl hx
    · exact .inr (by rw [List.mem_singleton.mp hx])
  refine ⟨hB.handlers.register name, ?_, ?_, hB.late_apart, ?_, ?_, ?_, ?_⟩ <;> rw [hreg] <;> dsimp only
  · rw [hlen, hB.length_eq]
  · exact fun d hd => Nat.lt_succ_of_lt (hB.late_lt d hd)
  · intro x hx d hd
    rcases hcases x hx with hx | hx
    · exact hB.apart x hx d hd
    · rw [hx]
      exact (Nat.ne_of_lt (hB.late_lt d hd)).symm
  · intro x hx
    rcases hcases x hx with hx | hx
    · rw [hold (hB.handlers.token_lt x hx)]
      exact hB.waits x hx
    · rw [hx, hpeek, if_pos rfl]
  · intro d hd
    rw [hold (hB.late_lt d hd)]
    exact hB.late_waits d hd
  · intro t ht
    rw [hpeek] at ht
    split at ht
    · -- the new inbox waits for the new handler, the others for whom they did before
      next heq => exact .inl ⟨⟨name, B.handlers.count⟩, by simp, heq.symm⟩
    · rcases hB.served t ht with ⟨x, hx, rfl⟩ | hlate
      · exact .inl ⟨x, List.mem_append_left _ hx, rfl⟩
      · exact .inr hlate

theorem register (name : String) : (B.register name).Sound := by
  unfold Board.register
  have hlen : B.boxes.length = B.handlers.count := hB.length_eq
  cases hx : B.handlers.find? name with
  | none =>
    refine hB.add hx (Inboxes.length_opened _) fun t => ?_
    rw [Inboxes.peek_opened, hlen]
  | some x =>
    -- the older handler is told so before the newer one comes
    obtain ⟨hmem, -⟩ := Handlers.find?_eq_some hx
    have hclosed : Sound { B with
        handlers := B.handlers.erase name
        boxes := B.boxes.deliver x.token (Handlers.superseded name) } := by
      refine hB.close hx (Inboxes.length_deliver ..) (fun t ht => ?_) ?_
      · simp [ht.symm]
      · simp [hB.waits x hmem, Inbox.deliver]
    have herase : (B.handlers.erase name).find? name = none := by
      rw [Handlers.find?_erase, if_pos rfl]
    have hreg : ((B.handlers.erase name).register name).2.2 = (B.handlers.register name).2.2 := by
      rw [Handlers.register, Handlers.take, Handlers.erase_of_find?_eq_none herase]
      rfl
    rw [← hreg]
    refine hclosed.add herase (by simp) fun t => ?_
    have hne : x.token ≠ B.handlers.count := Nat.ne_of_lt (hB.handlers.token_lt x hmem)
    have hcount : (B.handlers.erase name).count = B.handlers.count := rfl
    rw [Inboxes.peek_deliver, Inboxes.peek_opened, Inboxes.peek_deliver, hlen, hcount]
    by_cases ht : t = B.handlers.count
    · simp [ht, hne]
    · simp [ht]

/-- Inboxes change, but none begins or ceases to wait, and none is dropped that was not. -/
theorem reopen {boxes : Inboxes} (hlen : boxes.length = B.boxes.length)
    (hwait : ∀ t, boxes.peek t = .waiting → B.boxes.peek t = .waiting)
    (hkeep : ∀ x ∈ B.handlers.waiting, boxes.peek x.token = B.boxes.peek x.token)
    (hlate : ∀ d ∈ B.deferred, boxes.peek d.token = B.boxes.peek d.token ∨ boxes.peek d.token = .dropped) :
    Sound { B with boxes := boxes } := by
  refine { hB with length_eq := hlen.trans hB.length_eq, waits := ?_, late_waits := ?_, served := ?_ }
  · exact fun x hx => (hkeep x hx).trans (hB.waits x hx)
  · intro d hd
    rcases hlate d hd with heq | heq
    · rw [heq]
      exact hB.late_waits d hd
    · exact .inr heq
  · exact fun t ht => hB.served t (hwait t ht)

theorem read (token : Nat) : (B.read token).Sound := by
  refine hB.reopen (Inboxes.length_read ..) (fun t ht => ?_) (fun x hx => ?_) fun d hd => ?_
  · rw [Inboxes.peek_read] at ht
    split at ht
    · cases hbox : B.boxes.peek t with
      | waiting => rfl
      | _ => rw [hbox] at ht; cases ht
    · exact ht
  · rw [Inboxes.peek_read, hB.waits x hx]
    split <;> rfl
  · rw [Inboxes.peek_read]
    rcases hB.late_waits d hd with heq | heq
    all_goals
      rw [heq]
      left
      split <;> rfl

theorem drop {token : Nat} (hnone : ∀ x ∈ B.handlers.waiting, x.token ≠ token) :
    (B.drop token).Sound := by
  refine hB.reopen (Inboxes.length_drop ..) (fun t ht => ?_) (fun x hx => ?_) fun d hd => ?_
  · rw [Inboxes.peek_drop] at ht
    split at ht
    · cases ht
    · exact ht
  · rw [Inboxes.peek_drop, if_neg (hnone x hx).symm]
  · rw [Inboxes.peek_drop]
    split
    · exact .inr rfl
    · exact .inl rfl

/-- The inbox of a registration waits. -/
theorem waits_register (name : String) : (B.register name).boxes.peek B.handlers.count = .waiting :=
  (hB.register name).waits ⟨name, B.handlers.count⟩ ((mem_register B name).mpr (.inr rfl))

theorem arrive : B.arrive.Sound := by
  have hpeek : ∀ x ∈ B.handlers.waiting, B.arrive.boxes.peek x.token = B.boxes.peek x.token :=
    fun x hx => Delivery.peek_makeAll_of_ne fun d hd => (hB.apart x hx d hd).symm
  refine ⟨hB.handlers, (Delivery.length_makeAll ..).trans hB.length_eq, fun d hd => absurd hd List.not_mem_nil,
    .nil, fun x _ d hd => absurd hd List.not_mem_nil, fun x hx => (hpeek x hx).trans (hB.waits x hx),
    fun d hd => absurd hd List.not_mem_nil, fun t ht => ?_⟩
  by_cases hlate : ∃ d ∈ B.deferred, d.token = t
  · obtain ⟨d, hd, rfl⟩ := hlate
    have hdelivered := Delivery.peek_makeAll_of_mem B.boxes hB.late_apart hd
    rcases hB.late_waits d hd with heq | heq
    all_goals
      rw [heq] at hdelivered
      rw [Board.arrive, hdelivered] at ht
      cases ht
  · have hne : ∀ d ∈ B.deferred, d.token ≠ t := fun d hd heq => hlate ⟨d, hd, heq⟩
    rcases hB.served t ((Delivery.peek_makeAll_of_ne hne).symm.trans ht) with hx | hd
    · exact .inl hx
    · exact absurd hd hlate

/-- What was put off comes, and nothing else changes. -/
theorem peek_arrive (t : Nat) :
    B.arrive.boxes.peek t = B.boxes.peek t ∨
      ∃ d ∈ B.deferred, d.token = t ∧ B.arrive.boxes.peek t = (B.boxes.peek t).deliver d.settlement := by
  by_cases hlate : ∃ d ∈ B.deferred, d.token = t
  · obtain ⟨d, hd, rfl⟩ := hlate
    exact .inr ⟨d, hd, rfl, Delivery.peek_makeAll_of_mem B.boxes hB.late_apart hd⟩
  · exact .inl (Delivery.peek_makeAll_of_ne fun d hd heq => hlate ⟨d, hd, heq⟩)

end Sound

end Board

namespace Bridge

variable {σ : Type}

/-- What dialogs see of a bridge. -/
def board (b : Bridge σ) : Board := ⟨b.router.handlers, b.deferred, b.dialogs⟩

/-! ## Requests leave the board alone -/

theorem board_after (b : Bridge σ) (effects : List (Effect Artefact Nat)) (r : Registry Artefact Nat) :
    (b.after effects r).board = b.board :=
  foldl_perform_of board effects (fun e _ b => by rcases e with _ | (_ | _) | _ | _ | _ <;> rfl) _

theorem invariant_board (B : Board) : RequestInvariant (fun b : Bridge σ => b.board = B) where
  settle _ _ h := (board_after _ _ _).trans h
  forget _ h := (board_after _ _ _).trans h
  readInbox _ h := h
  dropInbox _ h := h
  answer _ h := h
  takeLoads _ _ h := h
  setPhase _ _ h := h
  endAborted h := h
  work _ _ _ _ _ h := h

section

variable (b : Bridge σ)

theorem board_settle (id : String) (v : Settlement) : (b.settle id v).2.board = b.board :=
  board_after _ _ _

theorem board_poll (n : Nat) : (b.poll n).2.board = b.board := rfl

theorem board_drop (n : Nat) : (b.drop n).board = b.board := (invariant_board b.board).drop n rfl

theorem board_answerScript (url : String) : (b.answerScript url).2.board = b.board :=
  (invariant_board b.board).answerScript url rfl

theorem board_call (path : String) (args : Args) (timeout : Option Nat) :
    (b.call path args timeout).2.board = b.board := by
  refine call_of (P := fun c => c.board = b.board) (fun _ h => h)
    (fun id v h => (board_settle _ id v).trans h) ?_ ?_ ?_ rfl path args timeout
  · intro c c' id ms harm hc
    rw [armTimer_ok harm]
    exact (board_after (c.armed id ms) _ _).trans hc
  · intro c c' id url htrigger hc
    rcases trigger_ok htrigger with ⟨-, rfl⟩ | ⟨-, e, page, -, rfl⟩
    · exact (board_after (c.asked id url) _ _).trans hc
    · obtain ⟨ready, hshown⟩ := shown_eq c page
      refine (board_after (c.shown page) _ _).trans ?_
      rw [hshown]
      exact hc
  · intro c _ url _ _ hc
    obtain ⟨page, hmissed⟩ := missed_eq c url
    rw [hmissed]
    exact hc

theorem board_reply (n : Nat) (r : FetchReply) : (b.reply n r).2.board = b.board := by
  obtain ⟨fetches, ready, heq⟩ := reply_eq b n r
  exact (congrArg board heq).trans rfl

/-! ## Dialogs and pushes -/

theorem board_registerHandler (name : String) :
    (b.registerHandler name).2.board = b.board.register name := rfl

/-- A dialog takes out its own handler only. -/
theorem takeOwn_eq (d : Dialog) (f : Inboxes → Nat → Inboxes) :
    b.takeOwn d f =
      if b.router.handlers.find? d.name = some ⟨d.name, d.token⟩ then
        (true, { b with
          router := { b.router with handlers := b.router.handlers.erase d.name }
          dialogs := f b.dialogs d.token })
      else (false, b) := by
  unfold takeOwn
  rw [Handlers.takeOwn_eq]
  by_cases hown : b.router.handlers.find? d.name = some ⟨d.name, d.token⟩
  · rw [if_pos hown, if_pos hown]
  · rw [if_neg hown, if_neg hown]

theorem board_takeOwn (d : Dialog) (f : Inboxes → Nat → Inboxes) :
    (b.takeOwn d f).2.board = b.board.withdraw d.name d.token f := by
  have hboard : b.board.handlers = b.router.handlers := rfl
  rw [takeOwn_eq, Board.withdraw, hboard]
  split
  · rfl
  · rfl

theorem board_pollValue (d : Dialog) : (b.pollValue d).2.board = b.board.read d.token := rfl

theorem board_cancelDialog (d : Dialog) :
    (b.cancelDialog d).2.board =
      b.board.withdraw d.name d.token fun boxes n => boxes.deliver n (.error .canceled) := by
  unfold cancelDialog
  rw [board_takeOwn]
  cases d.request with
  | none => rfl
  | some n => rw [show (b.cancel n).2.board = b.board from board_settle b _ _]

theorem board_dropDialog (d : Dialog) :
    (b.dropDialog d).board = (b.board.withdraw d.name d.token .hangUp).drop d.token := by
  rw [← board_takeOwn]
  unfold dropDialog
  cases d.request with
  | none => rfl
  | some n => exact board_drop _ n

/-- Does a push settle its handler one tick later? -/
def late (b : Bridge σ) : Bool := b.router.timing = .nextTick ∧ b.runtime = true

theorem board_settleDialog (d : Delivery) :
    (b.settleDialog d).board =
      if b.late then { b.board with deferred := b.deferred ++ [d] }
      else { b.board with boxes := b.dialogs.deliver d.token d.settlement } := by
  unfold settleDialog Router.schedule Deferral.put late
  cases b.router.timing <;> cases b.runtime <;> rfl

theorem board_notify (p : Push) :
    (b.notify p).2.board = b.board.take (Router.addressee p).1
      (Router.settlementOf (Router.addressee p).1 (Router.addressee p).2) b.late := by
  have hown : b.board.handlers = b.router.handlers := rfl
  rcases hto : Router.addressee p with ⟨name, value⟩
  unfold notify Router.dispatch Router.takeHandler Handlers.take Board.take
  rw [hto, hown]
  dsimp only
  cases b.router.handlers.find? name with
  | none => rfl
  | some x => exact board_settleDialog _ _

theorem board_hostNotify (p : Push) :
    (b.hostNotify p).2.board = (b.notify p).2.board ∨ (b.hostNotify p).2.board = b.board := by
  unfold hostNotify
  split
  · exact .inl rfl
  · exact .inr rfl

theorem board_tick : b.tick.board = b.board.arrive := by
  have h : (b.ready.foldl runReady b).board = b.board :=
    (invariant_board b.board).foldl_runReady b.ready rfl
  rw [← h]
  rfl

theorem board_advance (ms : Nat) : (b.advance ms).board = b.board.arrive := by
  have hwoken : (b.tick.later ms).board = b.board.arrive := board_tick b
  have hlast : (b.advance ms).board = (b.tick.later ms).board.arrive := board_tick _
  rw [hlast, hwoken, Board.arrive_arrive]

end

end Bridge

end Hostlink
