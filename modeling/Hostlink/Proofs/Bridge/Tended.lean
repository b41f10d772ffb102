import Hostlink.Proofs.Bridge.Dialogs

/-!
# Dialogs and the board in step

A handler waits for a dialog that is held, that has found nothing yet, and that is the newest of its
name. A dialog that has found nothing can still be told.

* `Bridge.Tended` — dialogs that are held and the board are in step;
* `Turn.tended` — **every operation keeps them so**; `Session.tended_run` — so does every run;
* `Bridge.Stays`, `Turn.dialog_stays`, `Session.dialog_run` — **a dialog stays where it is**, with its name and token.
-/

namespace Hostlink.Bridge

variable {σ : Type}

/-- Dialogs that are held and the board are in step. -/
structure Tended (held : List Held) (B : Board) : Prop where
  sound : B.Sound
  token_lt : ∀ {k : Nat} {d : Dialog} {a : Bool} {o : Option Settlement},
    held[k]? = some ⟨.dialog d, a, o⟩ → d.token < B.handlers.count
  /-- Later dialogs have larger tokens. -/
  ordered : ∀ {j k : Nat} {c d : Dialog} {a a' : Bool} {o o' : Option Settlement},
    held[j]? = some ⟨.dialog c, a, o⟩ → held[k]? = some ⟨.dialog d, a', o'⟩ → j < k →
    c.token < d.token
  /-- A handler waits for a dialog that is held and has found nothing yet. -/
  owned : ∀ x ∈ B.handlers.waiting, ∃ (k : Nat) (d : Dialog),
    held[k]? = some ⟨.dialog d, true, none⟩ ∧ d.name = x.name ∧ d.token = x.token
  newest : ∀ x ∈ B.handlers.waiting, ∀ {k : Nat} {d : Dialog} {a : Bool} {o : Option Settlement},
    held[k]? = some ⟨.dialog d, a, o⟩ → d.name = x.name → d.token ≤ x.token
  live : ∀ {k : Nat} {d : Dialog}, held[k]? = some ⟨.dialog d, true, none⟩ →
    (B.boxes.peek d.token).Live

/-- Two descriptions of one entry agree. -/
theorem held_dialog_inj {held : List Held} {k : Nat} {c d : Dialog} {a a' : Bool} {o o' : Option Settlement}
    (hc : held[k]? = some ⟨.dialog c, a, o⟩) (hd : held[k]? = some ⟨.dialog d, a', o'⟩) :
    c = d ∧ a = a' ∧ o = o' := by
  have heq := Option.some.inj (hc.symm.trans hd)
  simpa only [Held.mk.injEq, Handle.dialog.injEq] using heq

namespace Tended

theorem start : Tended [] .new where
  sound := Board.sound_new
  token_lt h := by cases h
  ordered h := by cases h
  owned x hx := absurd hx List.not_mem_nil
  newest x hx := absurd hx List.not_mem_nil
  live h := by cases h

variable {held held' : List Held} {B B' : Board} (hT : Tended held B)
include hT

/-- Dialogs that have the same token are one. -/
theorem eq_of_token {j k : Nat} {c d : Dialog} {a a' : Bool} {o o' : Option Settlement}
    (hc : held[j]? = some ⟨.dialog c, a, o⟩) (hd : held[k]? = some ⟨.dialog d, a', o'⟩)
    (htoken : c.token = d.token) : j = k := by
  rcases Nat.lt_trichotomy j k with hlt | heq | hgt
  · have := hT.ordered hc hd hlt
    omega
  · exact heq
  · have := hT.ordered hd hc hgt
    omega

/-- The handler that waits with the token of a dialog is its own. -/
theorem own {x : Handler} (hx : x ∈ B.handlers.waiting) {k : Nat} {d : Dialog} {a : Bool}
    {o : Option Settlement} (hd : held[k]? = some ⟨.dialog d, a, o⟩) (htoken : x.token = d.token) :
    x = ⟨d.name, d.token⟩ ∧ a = true ∧ o = none := by
  obtain ⟨j, c, hc, hname, hct⟩ := hT.owned x hx
  obtain rfl := hT.eq_of_token hc hd (hct.trans htoken)
  obtain ⟨rfl, rfl, rfl⟩ := held_dialog_inj hc hd
  refine ⟨?_, rfl, rfl⟩
  rw [hname, hct]

/-- A handler that waits belongs to a dialog that is held, and no dialog of its name is newer. -/
theorem newest_of_find? {name : String} {x : Handler} (hx : B.handlers.find? name = some x) :
    ∃ (k : Nat) (d : Dialog), held[k]? = some ⟨.dialog d, true, none⟩ ∧ d.name = name ∧
      d.token = x.token ∧ ∀ (j : Nat) (f : Held) (c : Dialog), held[j]? = some f →
        f.handle = .dialog c → c.name = name → j ≤ k := by
  obtain ⟨hmem, rfl⟩ := Handlers.find?_eq_some hx
  obtain ⟨k, d, hd, hname, htoken⟩ := hT.owned x hmem
  refine ⟨k, d, hd, hname, htoken, fun j f c hf hc hcname => ?_⟩
  obtain ⟨handle, alive, outcome⟩ := f
  obtain rfl : handle = .dialog c := hc
  have hle : c.token ≤ x.token := hT.newest x hmem hf hcname
  by_contra hkj
  have hlt : d.token < c.token := hT.ordered hd hf (Nat.lt_of_not_le hkj)
  omega

/-- A dialog that has found nothing waits for its handler, for a settlement that was put off, or has a
settlement to read: for one of them, and never for two. -/
theorem one_of_three {k : Nat} {d : Dialog} (hd : held[k]? = some ⟨.dialog d, true, none⟩) :
    let waits := B.handlers.find? d.name = some ⟨d.name, d.token⟩
    let late := ∃ v, ⟨d.token, v⟩ ∈ B.deferred
    let arrived := ∃ v, B.boxes.peek d.token = .holds v
    (waits ∧ ¬ late ∧ ¬ arrived) ∨ (¬ waits ∧ late ∧ ¬ arrived) ∨ (¬ waits ∧ ¬ late ∧ arrived) := by
  intro waits late arrived
  have hopen : waits → B.boxes.peek d.token = .waiting := fun hw =>
    hT.sound.waits _ (Handlers.find?_eq_some hw).1
  have hnot : waits → ¬ late := fun hw ⟨v, hv⟩ =>
    hT.sound.apart _ (Handlers.find?_eq_some hw).1 _ hv rfl
  -- an inbox that is alive waits, or holds a settlement; one that waits is served by a handler or by a late delivery
  rcases Inbox.live_iff.mp (hT.live hd) with hbox | ⟨v, hbox⟩
  · have hempty : ¬ arrived := by
      rintro ⟨v, hv⟩
      cases hbox.symm.trans hv
    rcases hT.sound.served d.token hbox with ⟨x, hx, htoken⟩ | ⟨e, he, htoken⟩
    · obtain ⟨rfl, -, -⟩ := hT.own hx hd htoken
      have hw : waits := (hT.sound.handlers.find?_eq_some_iff _).mpr ⟨hx, rfl⟩
      exact .inl ⟨hw, hnot hw, hempty⟩
    · have hlate : late := ⟨e.settlement, htoken ▸ he⟩
      exact .inr (.inl ⟨fun hw => hnot hw hlate, hlate, hempty⟩)
  · refine .inr (.inr ⟨fun hw => ?_, fun ⟨w, hw⟩ => ?_, v, hbox⟩)
    · cases hbox.symm.trans (hopen hw)
    · rcases hT.sound.late_waits _ hw with heq | heq
      · cases hbox.symm.trans heq
      · cases hbox.symm.trans heq

/-- Once its own handler is taken out, no handler waits with the token of a dialog. -/
theorem ne_of_withdraw {k : Nat} {d : Dialog} {a : Bool} {o : Option Settlement}
    (hd : held[k]? = some ⟨.dialog d, a, o⟩) (f : Inboxes → Nat → Inboxes) :
    ∀ x ∈ (B.withdraw d.name d.token f).handlers.waiting, x.token ≠ d.token := by
  intro x hx htoken
  unfold Board.withdraw at hx
  split at hx
  · obtain ⟨hx, hname⟩ := (Handlers.mem_erase _ _).mp hx
    exact hname (congrArg Handler.name (hT.own hx hd htoken).1)
  · next hfind =>
    obtain ⟨rfl, -, -⟩ := hT.own hx hd htoken
    exact hfind ((hT.sound.handlers.find?_eq_some_iff _).mpr ⟨hx, rfl⟩)

/-- The same dialogs are held, perhaps changed, and no handler is new. -/
theorem next (hsound : B'.Sound) (hcount : B'.handlers.count = B.handlers.count)
    (hwaiting : ∀ x ∈ B'.handlers.waiting, x ∈ B.handlers.waiting)
    (hheld : ∀ (k : Nat) (d : Dialog) (a : Bool) (o : Option Settlement),
      held'[k]? = some ⟨.dialog d, a, o⟩ → ∃ (c : Dialog) (a' : Bool) (o' : Option Settlement),
        held[k]? = some ⟨.dialog c, a', o'⟩ ∧ c.name = d.name ∧ c.token = d.token)
    (howned : ∀ x ∈ B'.handlers.waiting, ∀ (k : Nat) (d : Dialog),
      held[k]? = some ⟨.dialog d, true, none⟩ → d.token = x.token →
      ∃ c : Dialog, held'[k]? = some ⟨.dialog c, true, none⟩ ∧ c.name = d.name ∧ c.token = d.token)
    (hlive : ∀ (k : Nat) (d : Dialog), held'[k]? = some ⟨.dialog d, true, none⟩ →
      (B'.boxes.peek d.token).Live) : Tended held' B' where
  sound := hsound
  token_lt {k d a o} h := by
    obtain ⟨c, a', o', hc, -, htoken⟩ := hheld k d a o h
    rw [← htoken, hcount]
    exact hT.token_lt hc
  ordered {j k c d a a' o o'} hc hd hjk := by
    obtain ⟨c', _, _, hc', -, htc⟩ := hheld j c a o hc
    obtain ⟨d', _, _, hd', -, htd⟩ := hheld k d a' o' hd
    rw [← htc, ← htd]
    exact hT.ordered hc' hd' hjk
  owned x hx := by
    obtain ⟨k, d, hd, hname, htoken⟩ := hT.owned x (hwaiting x hx)
    obtain ⟨c, hc, hcname, hctoken⟩ := howned x hx k d hd htoken
    exact ⟨k, c, hc, hcname.trans hname, hctoken.trans htoken⟩
  newest x hx {k d a o} hd hname := by
    obtain ⟨c, a', o', hc, hcname, htoken⟩ := hheld k d a o hd
    rw [← htoken]
    exact hT.newest x (hwaiting x hx) hc (hcname.trans hname)
  live {k d} hd := hlive k d hd

/-- What is held stays the same, and inboxes can be told what they could be told before. -/
theorem same (hsound : B'.Sound) (hcount : B'.handlers.count = B.handlers.count)
    (hwaiting : ∀ x ∈ B'.handlers.waiting, x ∈ B.handlers.waiting)
    (hlive : ∀ t, (B.boxes.peek t).Live → (B'.boxes.peek t).Live) : Tended held B' :=
  hT.next hsound hcount hwaiting (fun _ d a o hd => ⟨d, a, o, hd, rfl, rfl⟩)
    (fun _ _ _ d hd _ => ⟨d, hd, rfl, rfl⟩) fun _ _ hd => hlive _ (hT.live hd)

/-- One dialog changes, without its name and its token; only its own handler and inbox do. -/
theorem change {k : Nat} {d d' : Dialog} {a a' : Bool} {o o' : Option Settlement}
    (hd : held[k]? = some ⟨.dialog d, a, o⟩) (hname : d'.name = d.name) (htoken : d'.token = d.token)
    (hsound : B'.Sound) (hcount : B'.handlers.count = B.handlers.count)
    (hwaiting : ∀ x ∈ B'.handlers.waiting, x ∈ B.handlers.waiting)
    (hpeek : ∀ t, t ≠ d.token → B'.boxes.peek t = B.boxes.peek t)
    (hdone : (a' = true ∧ o' = none) ∨ ∀ x ∈ B'.handlers.waiting, x.token ≠ d.token)
    (hlive : a' = true → o' = none → (B'.boxes.peek d.token).Live) :
    Tended (held.set k ⟨.dialog d', a', o'⟩) B' := by
  have hcases : ∀ {j : Nat} {c : Dialog} {a₁ : Bool} {o₁ : Option Settlement},
      (held.set k ⟨.dialog d', a', o'⟩)[j]? = some ⟨.dialog c, a₁, o₁⟩ →
      j ≠ k ∧ held[j]? = some ⟨.dialog c, a₁, o₁⟩ ∨ j = k ∧ c = d' ∧ a₁ = a' ∧ o₁ = o' := by
    intro j c a₁ o₁ hc
    rcases (getElem?_set_eq_some hd).mp hc with h | ⟨rfl, h⟩
    · exact .inl h
    · simp only [Held.mk.injEq, Handle.dialog.injEq] at h
      exact .inr ⟨rfl, h.1.symm, h.2.1.symm, h.2.2.symm⟩
  refine hT.next hsound hcount hwaiting (fun j c a₁ o₁ hc => ?_) (fun x hx j c hc hct => ?_)
    fun j c hc => ?_
  · rcases hcases hc with ⟨-, hc⟩ | ⟨rfl, rfl, -, -⟩
    · exact ⟨c, a₁, o₁, hc, rfl, rfl⟩
    · exact ⟨d, a, o, hd, hname.symm, htoken.symm⟩
  · -- the owner of a handler that still waits goes on waiting for it, also if it is the dialog that has changed
    by_cases hjk : j = k
    · subst hjk
      obtain ⟨rfl, rfl, rfl⟩ := held_dialog_inj hc hd
      rcases hdone with ⟨rfl, rfl⟩ | hnone
      · exact ⟨d', (getElem?_set_eq_some hd).mpr (.inr ⟨rfl, rfl⟩), hname, htoken⟩
      · exact absurd hct.symm (hnone x hx)
    · exact ⟨c, (getElem?_set_eq_some hd).mpr (.inl ⟨hjk, hc⟩), rfl, rfl⟩
  · rcases hcases hc with ⟨hjk, hc⟩ | ⟨rfl, rfl, ha, ho⟩
    · rw [hpeek _ fun heq => hjk (hT.eq_of_token hc hd heq)]
      exact hT.live hc
    · rw [htoken]
      exact hlive ha.symm ho.symm

/-- A new dialog is held, and its handler is registered. -/
theorem opened (name : String) (r : Option Nat) :
    Tended (held ++ [⟨.dialog ⟨name, B.handlers.count, r⟩, true, none⟩]) (B.register name) := by
  have hcount : (B.register name).handlers.count = B.handlers.count + 1 := rfl
  have hcases : ∀ {k : Nat} {d : Dialog} {a : Bool} {o : Option Settlement},
      (held ++ [⟨.dialog ⟨name, B.handlers.count, r⟩, true, none⟩])[k]? = some ⟨.dialog d, a, o⟩ →
      held[k]? = some ⟨.dialog d, a, o⟩ ∨ k = held.length ∧ d = ⟨name, B.handlers.count, r⟩ := by
    intro k d a o hd
    rcases getElem?_concat_eq_some.mp hd with hd | ⟨hk, heq⟩
    · exact .inl hd
    · simp only [Held.mk.injEq, Handle.dialog.injEq] at heq
      exact .inr ⟨hk, heq.1.symm⟩
  refine ⟨hT.sound.register name, fun hd => ?_, fun hc hd hjk => ?_, fun x hx => ?_,
    fun x hx k d a o hd hname => ?_, fun hd => ?_⟩
  · rw [hcount]
    rcases hcases hd with hd | ⟨-, rfl⟩
    · exact Nat.lt_succ_of_lt (hT.token_lt hd)
    · exact Nat.lt_succ_self _
  · -- what was held before has a smaller number than what is new
    have hlt := (List.getElem?_eq_some_iff.mp hd).1
    rw [List.length_append, List.length_singleton] at hlt
    rcases hcases hc with hc | ⟨rfl, -⟩
    · rcases hcases hd with hd | ⟨-, rfl⟩
      · exact hT.ordered hc hd hjk
      · exact hT.token_lt hc
    · omega
  · rcases (Board.mem_register B name).mp hx with ⟨hx, -⟩ | rfl
    · obtain ⟨k, d, hd, hd'⟩ := hT.owned x hx
      exact ⟨k, d, getElem?_concat_eq_some.mpr (.inl hd), hd'⟩
    · exact ⟨held.length, _, getElem?_concat_eq_some.mpr (.inr ⟨rfl, rfl⟩), rfl, rfl⟩
  · -- a handler of the same name is replaced, so that those that wait have other names than the new dialog
    rcases (Board.mem_register B name).mp hx with ⟨hx, hne⟩ | rfl
    · rcases hcases hd with hd | ⟨-, rfl⟩
      · exact hT.newest x hx hd hname
      · exact absurd hname.symm hne
    · rcases hcases hd with hd | ⟨-, rfl⟩
      · exact Nat.le_of_lt (hT.token_lt hd)
      · exact Nat.le_refl _
  · rcases hcases hd with hd | ⟨-, rfl⟩
    · rw [Board.peek_register B name hT.sound.length_eq (Nat.ne_of_lt (hT.token_lt hd))]
      split
      · exact (hT.live hd).deliver _
      · exact hT.live hd
    · rw [hT.sound.waits_register name]
      trivial

end Tended

/-- **Every operation keeps dialogs and the board in step.** -/
theorem Turn.tended {held held' : List Held} {B B' : Board} (turn : Turn held B held' B')
    (hT : Tended held B) : Tended held' B' := by
  cases turn with
  | other h =>
    -- dialogs are held as before, and nothing happens on the board
    exact hT.next hT.sound rfl (fun _ hx => hx) (fun k d a o hd => ⟨d, a, o, (h k d a o).mp hd, rfl, rfl⟩)
      (fun _ _ k d hd _ => ⟨d, (h k d true none).mpr hd, rfl, rfl⟩)
      fun k d hd => hT.live ((h k d true none).mp hd)
  | opened name n => exact hT.opened name (some n)
  | pushed name v late =>
    refine hT.same (hT.sound.take name v late) (B.count_take name v late)
      (fun x hx => ((B.mem_take name).mp hx).1) fun t ht => ?_
    -- an inbox stays as it is, or is told something, and is alive either way
    rcases B.peek_take name v late t with heq | heq
    · rw [heq]
      exact ht
    · rw [heq]
      exact ht.deliver v
  | ticked =>
    refine hT.same hT.sound.arrive rfl (fun _ hx => hx) fun t ht => ?_
    rcases hT.sound.peek_arrive t with heq | ⟨d, -, -, heq⟩
    · rw [heq]
      exact ht
    · rw [heq]
      exact ht.deliver _
  | @canceled k d o hd =>
    -- the dialog stays held, and its inbox is told that it was canceled if its own handler still waits
    refine hT.same (hT.sound.withdraw _ _ (fun _ _ => rfl) rfl (by simp [Inbox.deliver]))
      (B.count_withdraw ..) (fun x hx => B.mem_of_mem_withdraw _ _ _ hx) fun t ht => ?_
    rcases B.peek_withdraw_deliver d.name d.token (.error .canceled) t with heq | heq
    · rw [heq]
      exact ht
    · rw [heq]
      exact ht.deliver _
  | @dropped k d o hd =>
    -- the handler goes with its dialog, so that no inbox that anybody still waits for is closed
    have hgone := hT.ne_of_withdraw hd .hangUp
    refine hT.change hd rfl rfl
      ((hT.sound.withdraw _ _ (fun _ _ => rfl) rfl (by simp [Inbox.hangUp])).drop hgone)
      (B.count_withdraw ..) (fun x hx => B.mem_of_mem_withdraw _ _ _ hx) (fun t ht => ?_) (.inr hgone)
      fun h => by cases h
    refine (Inboxes.peek_drop ..).trans ?_
    rw [if_neg ht.symm]
    exact B.peek_withdraw_hangUp _ _ ht
  | @looked k d r hd hr =>
    have hread : ∀ t, (B.read d.token).boxes.peek t =
        if d.token = t then (B.boxes.peek t).afterRead else B.boxes.peek t := fun t => Inboxes.peek_read ..
    refine hT.change hd rfl rfl (hT.sound.read d.token) rfl (fun _ hx => hx) (fun t ht => ?_) ?_
      fun _ hnone => ?_
    · rw [hread, if_neg ht.symm]
    · -- who finds nothing is still open, so that the handler may still be its own; who is open no longer has no handler
      by_cases hbox : B.boxes.peek d.token = .waiting
      · exact .inl ⟨rfl, by rw [hbox]; rfl⟩
      · refine .inr fun x hx htoken => hbox ?_
        rw [← htoken]
        exact hT.sound.waits x hx
    · rw [hread, if_pos rfl, Poll.eq_waiting_of_settlement? hnone]
      trivial
  | @failed k d v hd =>
    -- the dialog has found that its request failed, and its handler is taken out with it
    have hgone := hT.ne_of_withdraw hd .hangUp
    exact hT.change hd rfl rfl (hT.sound.withdraw _ _ (fun _ _ => rfl) rfl (by simp [Inbox.hangUp]))
      (B.count_withdraw ..) (fun x hx => B.mem_of_mem_withdraw _ _ _ hx)
      (fun t ht => B.peek_withdraw_hangUp _ _ ht) (.inr hgone)
      fun _ h => by cases h

/-! ## Dialogs stay where they are -/

/-- The dialog `d` is held where it was, with its name and its token. If it is alive and has found nothing
afterwards, that was so before, and what had come for it is still there. -/
def Stays (B B' : Board) (held' : List Held) (k : Nat) (d : Dialog) (a : Bool) (o : Option Settlement) : Prop :=
  ∃ (r : Option Nat) (a' : Bool) (o' : Option Settlement),
    held'[k]? = some ⟨.dialog { d with request := r }, a', o'⟩ ∧ (r = d.request ∨ r = none) ∧
    (a' = true → o' = none → a = true ∧ o = none ∧
      ∀ v, B.boxes.peek d.token = .holds v → B'.boxes.peek d.token = .holds v)

namespace Stays

variable {held held' : List Held} {B B' : Board} {j k : Nat} {c d : Dialog} {a a₁ : Bool} {o o₁ : Option Settlement}

/-- Nothing happens to it, and at most one more settlement is brought to its inbox. -/
theorem same (h : held'[k]? = some ⟨.dialog d, a, o⟩)
    (hbox : B'.boxes.peek d.token = B.boxes.peek d.token ∨
      ∃ w, B'.boxes.peek d.token = (B.boxes.peek d.token).deliver w) : Stays B B' held' k d a o := by
  refine ⟨d.request, a, o, h, .inl rfl, fun ha ho => ⟨ha, ho, fun v hv => ?_⟩⟩
  rcases hbox with heq | ⟨w, heq⟩
  · exact heq.trans hv
  · rw [heq, hv]
    rfl

/-- Another dialog changes, and no inbox but its own does. -/
theorem other (hT : Tended held B) (hd : held[k]? = some ⟨.dialog d, a, o⟩)
    (hc : held[j]? = some ⟨.dialog c, a₁, o₁⟩) (hkj : k ≠ j) {e : Held}
    (hpeek : ∀ t, t ≠ c.token → B'.boxes.peek t = B.boxes.peek t) : Stays B B' (held.set j e) k d a o := by
  have hne : d.token ≠ c.token := fun htoken => hkj (hT.eq_of_token hd hc htoken)
  exact same ((getElem?_set_eq_some hc).mpr (.inl ⟨hkj, hd⟩)) (.inl (hpeek _ hne))

/-- It is dropped, or finds something, or may still find what has come for it. -/
theorem changed {a' : Bool} {o' : Option Settlement} {r : Option Nat} (hd : held[k]? = some ⟨.dialog d, true, o⟩)
    (hr : r = d.request ∨ r = none)
    (hkeep : a' = true → o' = none → o = none ∧
      ∀ v, B.boxes.peek d.token = .holds v → B'.boxes.peek d.token = .holds v) :
    Stays B B' (held.set k ⟨.dialog { d with request := r }, a', o'⟩) k d true o :=
  ⟨r, a', o', (getElem?_set_eq_some hd).mpr (.inr ⟨rfl, rfl⟩), hr, fun ha ho => ⟨rfl, hkeep ha ho⟩⟩

theorem trans {B'' : Board} {held'' : List Held} (h : Stays B B' held' k d a o)
    (hnext : ∀ r a' o', held'[k]? = some ⟨.dialog { d with request := r }, a', o'⟩ →
      Stays B' B'' held'' k { d with request := r } a' o') : Stays B B'' held'' k d a o := by
  obtain ⟨r₁, a₁, o₁, hd₁, hr₁, hkeep₁⟩ := h
  obtain ⟨r₂, a₂, o₂, hd₂, hr₂, hkeep₂⟩ := hnext r₁ a₁ o₁ hd₁
  refine ⟨r₂, a₂, o₂, hd₂, ?_, fun ha ho => ?_⟩
  · rcases hr₂ with rfl | rfl
    · exact hr₁
    · exact .inr rfl
  · obtain ⟨ha₁, ho₁, hv₂⟩ := hkeep₂ ha ho
    obtain ⟨ha₀, ho₀, hv₁⟩ := hkeep₁ ha₁ ho₁
    exact ⟨ha₀, ho₀, fun v hv => hv₂ v (hv₁ v hv)⟩

end Stays

/-- **No operation moves a dialog.** What has come for it is there until it is looked at or dropped. -/
theorem Turn.dialog_stays {held held' : List Held} {B B' : Board} (turn : Turn held B held' B')
    (hT : Tended held B) {k : Nat} {d : Dialog} {a : Bool} {o : Option Settlement}
    (hd : held[k]? = some ⟨.dialog d, a, o⟩) : Stays B B' held' k d a o := by
  cases turn with
  | other h => exact .same ((h k d a o).mpr hd) (.inl rfl)
  | opened name n =>
    refine .same (getElem?_concat_eq_some.mpr (.inl hd)) ?_
    rw [Board.peek_register B name hT.sound.length_eq (Nat.ne_of_lt (hT.token_lt hd))]
    split
    · exact .inr ⟨_, rfl⟩
    · exact .inl rfl
  | pushed name w late => exact .same hd ((B.peek_take name w late _).imp_right fun h => ⟨w, h⟩)
  | ticked =>
    refine .same hd ?_
    rcases hT.sound.peek_arrive d.token with h | ⟨e, -, -, h⟩
    · exact .inl h
    · exact .inr ⟨_, h⟩
  | @canceled j c o₁ hc => exact .same hd ((B.peek_withdraw_deliver _ _ _ _).imp_right fun h => ⟨_, h⟩)
  | @dropped j c o₁ hc =>
    by_cases hkj : k = j
    · subst hkj
      obtain ⟨rfl, rfl, rfl⟩ := held_dialog_inj hd hc
      -- it was dropped, so that there is nothing to keep
      exact .changed hd (.inl rfl) fun hdead => by cases hdead
    · refine .other hT hd hc hkj fun t ht => ?_
      refine (Inboxes.peek_drop ..).trans ?_
      rw [if_neg ht.symm, B.peek_withdraw_hangUp _ _ ht]
  | @looked j c r hc hr =>
    by_cases hkj : k = j
    · subst hkj
      obtain ⟨rfl, rfl, rfl⟩ := held_dialog_inj hd hc
      refine .changed hd hr fun _ hnone => ⟨rfl, fun v hv => ?_⟩
      -- what has come would have been found, so that nothing has
      cases (Poll.eq_waiting_of_settlement? hnone).symm.trans hv
    · refine .other hT hd hc hkj fun t ht => ?_
      refine (Inboxes.peek_read ..).trans ?_
      rw [if_neg ht.symm]
  | @failed j c w hc =>
    by_cases hkj : k = j
    · subst hkj
      obtain ⟨rfl, rfl, rfl⟩ := held_dialog_inj hd hc
      -- it has found that its request failed, so that there is nothing to keep
      exact .changed hd (.inr rfl) fun _ hfound => by cases hfound
    · exact .other hT hd hc hkj fun t ht => B.peek_withdraw_hangUp _ _ ht

namespace Session

variable {s : Session σ}

/-- The same after several operations. -/
theorem dialog_stays (hT : Tended s.held s.bridge.board) {k : Nat} {d : Dialog} {a : Bool}
    {o : Option Settlement} (hd : s.held[k]? = some ⟨.dialog d, a, o⟩) (more : List Op) :
    Stays s.bridge.board (s.run more).bridge.board (s.run more).held k d a o := by
  induction more generalizing s d a o with
  | nil => exact .same hd (.inl rfl)
  | cons op more ih =>
    have hturn := turn_step (s := s) op
    exact (hturn.dialog_stays hT hd).trans fun r a' o' hd' => ih (hturn.tended hT) hd'

/-- The dialog that is made by an operation. -/
theorem held_callNamed (s : Session σ) (name path : String) (args : Args) :
    (s.step (.callNamed name path args)).2.held[s.held.length]? =
      some ⟨.dialog ⟨name, s.bridge.router.handlers.count, some s.bridge.registry.count⟩, true, none⟩ := by
  have h : (s.step (.callNamed name path args)).2.held = s.held ++
      [⟨.dialog ⟨name, s.bridge.router.handlers.count, some s.bridge.registry.count⟩, true, none⟩] := rfl
  rw [h]
  simp

section

variable {config : Config} {actual : Transport} {runtime : Bool} {page : Document} {host : Host σ}
  {b : Bridge σ}

/-- **Dialogs and the board are in step** after every run. -/
theorem tended_run (hb : Bridge.new config actual runtime page host = .ok b) (ops : List Op) :
    Tended ((new b).run ops).held ((new b).run ops).bridge.board := by
  induction ops using List.reverseRecOn with
  | nil =>
    obtain ⟨-, -, rfl⟩ := new_eq_ok hb
    exact .start
  | append_singleton ops op ih =>
    rw [run_concat]
    exact (turn_step op).tended ih

/-- A dialog is held under the number it was made with. -/
theorem dialog_run (hb : Bridge.new config actual runtime page host = .ok b) (first more : List Op)
    (name path : String) (args : Args) :
    let made := (new b).run first
    ∃ (r : Option Nat) (a : Bool) (o : Option Settlement),
      ((new b).run (first ++ .callNamed name path args :: more)).held[made.held.length]? =
        some ⟨.dialog ⟨name, made.bridge.router.handlers.count, r⟩, a, o⟩ ∧
      (r = some made.bridge.registry.count ∨ r = none) := by
  intro made
  have hT : Tended (made.step (.callNamed name path args)).2.held
      (made.step (.callNamed name path args)).2.bridge.board := (turn_step _).tended (tended_run hb first)
  obtain ⟨r, a, o, hd, hr, -⟩ := dialog_stays hT (held_callNamed made name path args) more
  rw [run_append, run_cons]
  exact ⟨r, a, o, hd, hr⟩

end

end Session

end Hostlink.Bridge
