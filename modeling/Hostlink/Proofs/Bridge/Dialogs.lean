import Hostlink.Proofs.Bridge.Board

/-!
# Dialogs that are held

Callers hold dialogs, and the board tells what becomes of them. An operation does one of a few things
to both.

* `Bridge.pollDialog_of_waiting`, `Bridge.pollDialog_of_failed`, … — what a look at a dialog comes to;
* `Bridge.Turn`, `Session.turn_step` — **what an operation can do to dialogs**.
-/

namespace Hostlink.Bridge

variable {σ : Type}

/-! ## A look at a dialog -/

theorem Poll.eq_waiting_of_settlement? {inbox : Inbox} (h : (Poll.ofInbox inbox).settlement? = none) :
    inbox = .waiting := by
  cases inbox with
  | waiting => rfl
  | _ => cases h

section

variable (b : Bridge σ) {d : Dialog}

theorem dialogs_drop (n : Nat) : (b.drop n).dialogs = b.dialogs := congrArg Board.boxes (board_drop b n)

/-- Once the request is let go, only the value counts. -/
theorem pollDialog_of_none (hreq : d.request = none) :
    b.pollDialog d = (.ofInbox (b.dialogs.peek d.token), d, (b.pollValue d).2) := by
  unfold pollDialog
  rw [hreq]
  rfl

/-- While the request waits, only the value counts. -/
theorem pollDialog_of_waiting {n : Nat} (hreq : d.request = some n) (hbox : b.inboxes.peek n = .waiting) :
    b.pollDialog d = (.ofInbox (b.dialogs.peek d.token), d, ((b.poll n).2.pollValue d).2) := by
  have hpoll : b.poll n = (.pending, (b.poll n).2) := by simp [poll, hbox, Poll.ofInbox]
  unfold pollDialog
  rw [hreq]
  dsimp only
  rw [hpoll]
  rfl

/-- A request that was acknowledged, or canceled, is let go, and then only the value counts. -/
theorem pollDialog_of_let_go {n : Nat} {v : Settlement} (hreq : d.request = some n)
    (hbox : Poll.ofInbox (b.inboxes.peek n) = .ready v) (hv : ∀ e, v = .error e → e = .canceled) :
    b.pollDialog d = (.ofInbox (b.dialogs.peek d.token), { d with request := none },
      (((b.poll n).2.drop n).pollValue { d with request := none }).2) := by
  have hpoll : b.poll n = (.ready v, (b.poll n).2) := by rw [← hbox]; rfl
  have hvalue : (((b.poll n).2.drop n).pollValue { d with request := none }).1 =
      .ofInbox (b.dialogs.peek d.token) := by
    have hdialogs : ((b.poll n).2.drop n).dialogs = b.dialogs := dialogs_drop _ n
    rw [pollValue, hdialogs]
    rfl
  unfold pollDialog
  rw [hreq]
  dsimp only
  rw [hpoll]
  cases v with
  | ok v => exact Prod.ext hvalue rfl
  | error e =>
    rw [hv e rfl]
    exact Prod.ext hvalue rfl

/-- A request that failed fails the dialog. -/
theorem pollDialog_of_failed {n : Nat} {e : Rejection} (hreq : d.request = some n)
    (hbox : Poll.ofInbox (b.inboxes.peek n) = .ready (.error e)) (he : e ≠ .canceled) :
    b.pollDialog d = (.ready (.error e), { d with request := none },
      (((b.poll n).2.drop n).takeOwn { d with request := none } .hangUp).2) := by
  have hpoll : b.poll n = (.ready (.error e), (b.poll n).2) := by rw [← hbox]; rfl
  unfold pollDialog
  rw [hreq]
  dsimp only
  rw [hpoll]
  dsimp only
  rw [if_neg he]

/-- What a look at a dialog finds is told by its two inboxes. -/
theorem pollDialog_congr {b c : Bridge σ} {d : Dialog}
    (hboxes : ∀ n, d.request = some n → c.inboxes.peek n = b.inboxes.peek n)
    (hdialogs : c.dialogs.peek d.token = b.dialogs.peek d.token) : (c.pollDialog d).1 = (b.pollDialog d).1 := by
  cases hreq : d.request with
  | none => rw [pollDialog_of_none c hreq, pollDialog_of_none b hreq, hdialogs]
  | some n =>
    have hbox := hboxes n hreq
    cases hfound : Poll.ofInbox (b.inboxes.peek n) with
    | pending =>
      have hwaits : b.inboxes.peek n = .waiting := Poll.eq_waiting_of_settlement? (by rw [hfound]; rfl)
      rw [pollDialog_of_waiting c hreq (hbox.trans hwaits), pollDialog_of_waiting b hreq hwaits, hdialogs]
    | ready v =>
      have hfound' : Poll.ofInbox (c.inboxes.peek n) = .ready v := by rw [hbox, hfound]
      by_cases hv : ∀ e, v = .error e → e = .canceled
      · rw [pollDialog_of_let_go c hreq hfound' hv, pollDialog_of_let_go b hreq hfound hv, hdialogs]
      · obtain ⟨e, rfl, he⟩ : ∃ e, v = .error e ∧ e ≠ .canceled := by simpa using hv
        rw [pollDialog_of_failed c hreq hfound' he, pollDialog_of_failed b hreq hfound he]

/-- A dialog lets go of a request that does not wait any more. -/
theorem request_pollDialog_of_ready {n : Nat} (hreq : d.request = some n)
    (hbox : b.inboxes.peek n ≠ .waiting) : (b.pollDialog d).2.1.request = none := by
  cases hfound : Poll.ofInbox (b.inboxes.peek n) with
  | pending => exact absurd (Poll.eq_waiting_of_settlement? (by rw [hfound]; rfl)) hbox
  | ready v =>
    by_cases hv : ∀ e, v = .error e → e = .canceled
    · rw [pollDialog_of_let_go b hreq hfound hv]
    · obtain ⟨e, rfl, he⟩ : ∃ e, v = .error e ∧ e ≠ .canceled := by simpa using hv
      rw [pollDialog_of_failed b hreq hfound he]

/-- A look at a dialog is a look at its value, or finds that its request failed. -/
theorem pollDialog_cases (d : Dialog) :
    (∃ r, (r = d.request ∨ r = none) ∧ (b.pollDialog d).1 = .ofInbox (b.dialogs.peek d.token) ∧
      (b.pollDialog d).2.1 = { d with request := r } ∧
      (b.pollDialog d).2.2.board = b.board.read d.token) ∨
    ∃ e, (b.pollDialog d).1 = .ready (.error e) ∧ (b.pollDialog d).2.1 = { d with request := none } ∧
      (b.pollDialog d).2.2.board = b.board.withdraw d.name d.token .hangUp := by
  cases hreq : d.request with
  | none =>
    -- a request that was let go of is not looked at, only the value
    rw [pollDialog_of_none b hreq]
    exact .inl ⟨none, .inr rfl, rfl, by rw [← hreq], board_pollValue b d⟩
  | some n =>
    have hlet : ((b.poll n).2.drop n).board = b.board := board_drop _ n
    cases hfound : Poll.ofInbox (b.inboxes.peek n) with
    | pending =>
      have hbox : b.inboxes.peek n = .waiting := Poll.eq_waiting_of_settlement? (by rw [hfound]; rfl)
      rw [pollDialog_of_waiting b hreq hbox]
      exact .inl ⟨some n, .inl rfl, rfl, by rw [← hreq], board_pollValue _ d⟩
    | ready v =>
      by_cases hv : ∀ e, v = .error e → e = .canceled
      · -- it was settled without an error, or canceled: the dialog lets go of it and goes on to the value
        rw [pollDialog_of_let_go b hreq hfound hv]
        refine .inl ⟨none, .inr rfl, rfl, rfl, ?_⟩
        rw [board_pollValue, hlet]
      · obtain ⟨e, rfl, he⟩ : ∃ e, v = .error e ∧ e ≠ .canceled := by simpa using hv
        -- it failed: the dialog takes out its own handler and reports the error
        rw [pollDialog_of_failed b hreq hfound he]
        refine .inr ⟨e, rfl, rfl, ?_⟩
        rw [board_takeOwn, hlet]

end

/-! ## What an operation can do -/

/-- The dialogs that are held are the same. -/
def SameDialogs (held held' : List Held) : Prop :=
  ∀ (k : Nat) (d : Dialog) (alive : Bool) (outcome : Option Settlement),
    held'[k]? = some ⟨.dialog d, alive, outcome⟩ ↔ held[k]? = some ⟨.dialog d, alive, outcome⟩

theorem getElem?_concat_eq_some {α : Type} {l : List α} {a x : α} {k : Nat} :
    (l ++ [a])[k]? = some x ↔ l[k]? = some x ∨ k = l.length ∧ a = x := by
  rcases Nat.lt_trichotomy k l.length with hlt | rfl | hgt
  · rw [List.getElem?_append_left hlt]
    have hne : k ≠ l.length := Nat.ne_of_lt hlt
    simp [hne]
  · simp
  · have hne : k ≠ l.length := (Nat.ne_of_lt hgt).symm
    rw [List.getElem?_eq_none (by simp; omega), List.getElem?_eq_none (by omega)]
    simp [hne]

theorem getElem?_set_eq_some {α : Type} {l : List α} {a b x : α} {j k : Nat} (hk : l[k]? = some a) :
    (l.set k b)[j]? = some x ↔ j ≠ k ∧ l[j]? = some x ∨ j = k ∧ b = x := by
  have hlt : k < l.length := (List.getElem?_eq_some_iff.mp hk).1
  rw [List.getElem?_set]
  by_cases hjk : k = j
  · subst hjk
    simp [hlt]
  · have hne : ¬ j = k := fun h => hjk h.symm
    simp [hjk, hne]

theorem SameDialogs.refl (held : List Held) : SameDialogs held held := fun _ _ _ _ => .rfl

theorem sameDialogs_concat (held : List Held) (n : Nat) (alive : Bool) (outcome : Option Settlement) :
    SameDialogs held (held ++ [⟨.call n, alive, outcome⟩]) := by
  intro k d a o
  rw [getElem?_concat_eq_some]
  simp

theorem sameDialogs_set {held : List Held} {k n : Nat} {e : Held} {alive : Bool}
    {outcome : Option Settlement} (he : held[k]? = some e) (hcall : e.handle = .call n) :
    SameDialogs held (held.set k ⟨.call n, alive, outcome⟩) := by
  intro j d a o
  rw [getElem?_set_eq_some he]
  refine ⟨fun h => ?_, fun h => ?_⟩
  · rcases h with ⟨-, h⟩ | ⟨-, h⟩
    · exact h
    · cases h
  · refine .inl ⟨?_, h⟩
    rintro rfl
    obtain rfl := Option.some.inj (he.symm.trans h)
    cases hcall

/-- What an operation can do to what is held and to the board. -/
inductive Turn (held : List Held) (B : Board) : List Held → Board → Prop
  /-- Dialogs are left alone. -/
  | other {held' : List Held} (h : SameDialogs held held') : Turn held B held' B
  | opened (name : String) (n : Nat) :
    Turn held B (held ++ [⟨.dialog ⟨name, B.handlers.count, some n⟩, true, none⟩]) (B.register name)
  | pushed (name : String) (v : Settlement) (late : Bool) : Turn held B held (B.take name v late)
  | ticked : Turn held B held B.arrive
  | canceled {k : Nat} {d : Dialog} {o : Option Settlement} (h : held[k]? = some ⟨.dialog d, true, o⟩) :
    Turn held B held (B.withdraw d.name d.token fun boxes n => boxes.deliver n (.error .canceled))
  | dropped {k : Nat} {d : Dialog} {o : Option Settlement} (h : held[k]? = some ⟨.dialog d, true, o⟩) :
    Turn held B (held.set k ⟨.dialog d, false, o⟩)
      ((B.withdraw d.name d.token .hangUp).drop d.token)
  /-- A look at the value. -/
  | looked {k : Nat} {d : Dialog} {r : Option Nat} (h : held[k]? = some ⟨.dialog d, true, none⟩)
    (hr : r = d.request ∨ r = none) :
    Turn held B (held.set k ⟨.dialog { d with request := r }, true,
      (Poll.ofInbox (B.boxes.peek d.token)).settlement?⟩) (B.read d.token)
  /-- A look finds that the request failed. -/
  | failed {k : Nat} {d : Dialog} {v : Settlement} (h : held[k]? = some ⟨.dialog d, true, none⟩) :
    Turn held B (held.set k ⟨.dialog { d with request := none }, true, some v⟩)
      (B.withdraw d.name d.token .hangUp)

namespace Session

variable {s : Session σ}

/-- An operation that changes neither what is held nor the board. -/
theorem turn_of_eq {s' : Session σ} (hheld : s'.held = s.held) (hboard : s'.bridge.board = s.bridge.board) :
    Turn s.held s.bridge.board s'.held s'.bridge.board := by
  rw [hheld, hboard]
  exact .other (.refl _)

/-- A look at a dialog that has found nothing yet. -/
theorem poll_dialog {k : Nat} {d : Dialog} (he : s.held[k]? = some ⟨.dialog d, true, none⟩) :
    s.poll k = ((s.bridge.pollDialog d).1.finding, ⟨(s.bridge.pollDialog d).2.2,
      s.held.set k ⟨.dialog (s.bridge.pollDialog d).2.1, true, (s.bridge.pollDialog d).1.settlement?⟩⟩) :=
  poll_live he

theorem turn_poll (k : Nat) : Turn s.held s.bridge.board (s.poll k).2.held (s.poll k).2.bridge.board := by
  rcases poll_cases s k with ⟨hsame, -⟩ | ⟨n | d, he, -⟩
  · rw [hsame]
    exact .other (.refl _)
  · -- a call that is looked at has nothing to do with dialogs
    have hboard : (pollHandle s.bridge (.call n)).2.2.board = s.bridge.board := board_poll s.bridge n
    rw [poll_live he]
    dsimp only
    rw [hboard]
    exact .other (sameDialogs_set he rfl)
  · rw [poll_dialog he]
    rcases pollDialog_cases s.bridge d with ⟨r, hr, hfound, hd, hb⟩ | ⟨e, hfound, hd, hb⟩
    all_goals
      dsimp only
      rw [hfound, hd, hb]
    · exact .looked he hr
    · exact .failed he

theorem turn_cancel (k : Nat) :
    Turn s.held s.bridge.board (s.cancel k).2.held (s.cancel k).2.bridge.board := by
  rcases cancel_cases s k with ⟨hsame, -⟩ | ⟨n | d, outcome, he, -, hcancel⟩
  · rw [hsame]
    exact .other (.refl _)
  · -- only the request of a call is canceled, and that is not on the board
    rw [hcancel]
    exact turn_of_eq rfl (board_settle s.bridge _ _)
  · rw [hcancel, cancelHandle]
    dsimp only
    rw [board_cancelDialog]
    exact .canceled he

theorem turn_drop (k : Nat) :
    Turn s.held s.bridge.board (s.drop k).held (s.drop k).bridge.board := by
  rcases drop_cases s k with ⟨hsame, -⟩ | ⟨n | d, outcome, he, -, hdrop⟩
  · rw [hsame]
    exact .other (.refl _)
  · rw [hdrop, dropHandle]
    dsimp only
    rw [board_drop]
    exact .other (sameDialogs_set he rfl)
  · rw [hdrop, dropHandle]
    dsimp only
    rw [board_dropDialog]
    exact .dropped he

/-- **What an operation can do to dialogs.** -/
theorem turn_step (op : Op) :
    Turn s.held s.bridge.board (s.step op).2.held (s.step op).2.bridge.board := by
  -- a push is taken by the handler of its name, whether the page or the host sends it
  have hpush : ∀ p, Turn s.held s.bridge.board s.held (s.bridge.notify p).2.board := by
    intro p
    rw [board_notify]
    exact .pushed _ _ _
  cases op with
  | call path args timeout =>
    simp only [step]
    rw [board_call]
    exact .other (sameDialogs_concat _ _ _ _)
  -- the handler is registered before the request is sent, which is no matter of the board
  | callNamed name path args =>
    have hboard : (s.bridge.callNamed name path args).2.board = s.bridge.board.register name :=
      (board_call _ path args none).trans (board_registerHandler s.bridge name)
    simp only [step]
    rw [hboard]
    exact .opened name s.bridge.registry.count
  | poll k => exact turn_poll k
  | cancel k => exact turn_cancel k
  | cancelDetached k =>
    simp only [step, cancelDetached]
    split
    · -- the request is canceled, but nothing that waits for a push
      exact turn_of_eq rfl (board_settle s.bridge _ _)
    · exact turn_of_eq rfl rfl
  | drop k => exact turn_drop k
  | invoke id data error => exact turn_of_eq rfl (board_settle s.bridge _ _)
  | reject id e => exact turn_of_eq rfl (board_settle s.bridge _ _)
  | notify p => exact hpush p
  | hostNotify p =>
    rcases board_hostNotify s.bridge p with hboard | hboard
    · -- a host that is not connected drops the push, and nothing happens
      have h := hpush p
      rw [← hboard] at h
      exact h
    · exact turn_of_eq rfl hboard
  | drain n =>
    refine turn_of_eq rfl ?_
    simp only [step, Router.drain]
    split
    · split <;> rfl
    · rfl
  | tick =>
    simp only [step]
    rw [board_tick]
    exact .ticked
  | advance ms =>
    simp only [step]
    -- a tick delivers all that was put off, so that the second one has nothing left to deliver
    rw [board_advance]
    exact .ticked
  | answer url => exact turn_of_eq rfl (board_answerScript s.bridge url)
  | answerNext =>
    rcases hl : s.bridge.page.loads with _ | ⟨url, rest⟩ <;> simp only [step, takeLoad, hl]
    · exact .other (.refl _)
    · let left : Bridge σ := { s.bridge with page := { s.bridge.page with loads := rest } }
      have hboard : (left.answerScript url).2.board = s.bridge.board := board_answerScript left url
      show Turn s.held s.bridge.board s.held (left.answerScript url).2.board
      rw [hboard]
      exact .other (.refl _)
  | reply n r => exact turn_of_eq rfl (board_reply s.bridge n r)
  | _ => exact turn_of_eq rfl rfl

end Session

end Hostlink.Bridge
