import Hostlink.Proofs.Bridge.Owners

/-!
# Dialogs whose request failed

A dialog lets go of its request when that was acknowledged or canceled, and waits for its value. Any
other failure of the request is what its caller finds next, and the handler waits no longer. Being
canceled is taken for a sign that the handler was told so itself, whoever canceled the request.

* `Session.let_go_run` — a dialog that let go of its request had it acknowledged or canceled;
* `Session.failed_request_reported` — **a request that failed fails its dialog**, unless it was canceled;
* `Session.canceled_request_unreported` — a request that was canceled by the host does not.
-/

namespace Hostlink.Bridge

open Registry (Ending Event History)

variable {σ : Type}

namespace Session

variable {s : Session σ} {stem : String} {h : History}

/-- A dialog that lets go of its request found it acknowledged or canceled. -/
theorem let_go_poll (hf : s.bridge.desk.Follows h) (hstem : s.bridge.registry.stem = stem)
    (hk : Kept stem s.held h) (ho : Owned stem s.held h) {k n : Nat} {d d' : Dialog}
    (hd : s.held[k]? = some ⟨.dialog d, true, none⟩) (hreq : d.request = some n)
    (hd' : (s.poll k).2.held[k]? = some ⟨.dialog d', true, none⟩) (hnone : d'.request = none) :
    ∃ v, h.ending? stem n = some (.settled v) ∧ ∀ e, v = .error e → e = .canceled := by
  have hlt : n < h.opened := (hk.fits k _ hd n hreq).1
  have hpeek : s.bridge.inboxes.peek n = h.inbox stem n := hstem ▸ hf.peek_eq n hlt
  rw [poll_dialog hd] at hd'
  rcases (getElem?_set_eq_some hd).mp hd' with ⟨hne, -⟩ | ⟨-, heq⟩
  · exact absurd rfl hne
  · obtain ⟨hhandle, -, houtcome⟩ := Held.mk.inj heq
    have hdialog := Handle.dialog.inj hhandle
    rcases History.unread_cases (ho.unread k d none n hd hreq) with ⟨-, hbox⟩ | ⟨v, hend, hbox⟩
    · rw [pollDialog_of_waiting s.bridge hreq (hpeek.trans hbox)] at hdialog
      rw [← hdialog, hreq] at hnone
      cases hnone
    · refine ⟨v, hend, fun e hv => ?_⟩
      -- any other error ends the dialog, which is alive by assumption
      by_contra he
      have hfound : Poll.ofInbox (s.bridge.inboxes.peek n) = .ready (.error e) := by
        rw [hpeek, hbox, hv]
        rfl
      rw [pollDialog_of_failed s.bridge hreq hfound he] at houtcome
      cases houtcome

section

variable {config : Config} {actual : Transport} {runtime : Bool} {page : Document} {host : Host σ}
  {b : Bridge σ} (hb : Bridge.new config actual runtime page host = .ok b)
include hb

/-- A dialog that let go of its request, and still waits, had it acknowledged or canceled. -/
theorem let_go_run (first more : List Op) (name path : String) (args : Args) {d : Dialog} :
    let made := (new b).run first
    let ops := first ++ .callNamed name path args :: more
    ((new b).run ops).held[made.held.length]? = some ⟨.dialog d, true, none⟩ → d.request = none →
    ∃ v, ((new b).history ops).ending? config.callbackStem made.bridge.registry.count =
      some (.settled v) ∧ ∀ e, v = .error e → e = .canceled := by
  intro made
  induction more using List.reverseRecOn generalizing d with
  | nil =>
    intro ops hd hnone
    rw [show ops = first ++ [.callNamed name path args] from rfl, run_concat] at hd
    rw [← (held_dialog_inj (held_callNamed made name path args) hd).1] at hnone
    cases hnone
  | append_singleton more op ih =>
    intro ops hd hnone
    let before := first ++ .callNamed name path args :: more
    have hops : ops = before ++ [op] := by simp [ops, before]
    rw [hops, run_concat] at hd
    rw [hops, history_concat]
    obtain ⟨r, a, o, hold, hr⟩ := dialog_run hb first more name path args
    obtain ⟨r', a', o', hnext, -, hkeep⟩ := (turn_step op).dialog_stays (tended_run hb before) hold
    obtain ⟨-, rfl, rfl⟩ := held_dialog_inj hnext hd
    obtain ⟨rfl, rfl, -⟩ := hkeep rfl rfl
    rcases hr with rfl | rfl
    · -- the request is let go by this operation, and only a look does that
      by_cases hpoll : op = .poll made.held.length
      · subst hpoll
        obtain ⟨v, hend, hv⟩ := let_go_poll (follows_history hb before) (stem_run hb before)
          (kept_run hb before) (owned_run hb before) hold rfl hd hnone
        exact ⟨v, History.ending?_append hend, hv⟩
      · by_cases hdrop : op = .drop made.held.length
        · subst hdrop
          cases dead_of_drop hd
        · have hsame := held_of_ne hold hpoll hdrop
          rw [← (held_dialog_inj hsame hd).1] at hnone
          cases hnone
    · -- the request was let go before, and a history that goes on keeps its endings
      obtain ⟨v, hend, hv⟩ := ih hold rfl
      exact ⟨v, History.ending?_append hend, hv⟩

/-- What a live dialog that has found nothing reads next, if its request has been settled with an error:
the error, unless that is that it was canceled. -/
theorem poll_of_failed_request (first more : List Op) (name path : String) (args : Args) {d : Dialog}
    {e : Rejection} :
    let made := (new b).run first
    let ops := first ++ .callNamed name path args :: more
    let s := (new b).run ops
    s.held[made.held.length]? = some ⟨.dialog d, true, none⟩ →
    ((new b).history ops).ending? config.callbackStem made.bridge.registry.count =
      some (.settled (.error e)) →
    (e ≠ .canceled → s.bridge.pollDialog d =
      (.ready (.error e), { d with request := none },
        (((s.bridge.poll made.bridge.registry.count).2.drop made.bridge.registry.count).takeOwn
          { d with request := none } .hangUp).2)) ∧
    (e = .canceled → (s.bridge.pollDialog d).1 = .ofInbox (s.bridge.dialogs.peek d.token) ∧
      (s.bridge.pollDialog d).2.2.board = s.bridge.board.read d.token) := by
  intro made ops s hd hend
  obtain ⟨r, a, o, hold, hr⟩ := dialog_run hb first more name path args
  obtain ⟨rfl, rfl, rfl⟩ := held_dialog_inj hold hd
  rcases hr with rfl | rfl
  · set n := made.bridge.registry.count
    have hlt : n < ((new b).history ops).opened := ((kept_run hb ops).fits _ _ hd n rfl).1
    have hpeek : s.bridge.inboxes.peek n = ((new b).history ops).inbox config.callbackStem n := by
      have hf := (follows_history hb ops).peek_eq n hlt
      rwa [show ((new b).run ops).bridge.desk.stem = config.callbackStem from stem_run hb ops] at hf
    have hbox : s.bridge.inboxes.peek n = .holds (.error e) := by
      -- a live dialog that holds its request has not read what settled it
      rcases History.unread_cases ((owned_run hb ops).unread _ _ _ n hd rfl) with ⟨hnone, -⟩ | ⟨v, hv, hbox⟩
      · cases hnone.symm.trans hend
      · obtain rfl := Ending.settled.inj (Option.some.inj (hv.symm.trans hend))
        exact hpeek.trans hbox
    have hfound : Poll.ofInbox (s.bridge.inboxes.peek n) = .ready (.error e) := by rw [hbox]; rfl
    refine ⟨fun he => pollDialog_of_failed s.bridge rfl hfound he, fun he => ?_⟩
    rw [pollDialog_of_let_go s.bridge rfl hfound fun e' he' => by cases he'; exact he]
    refine ⟨rfl, ?_⟩
    rw [board_pollValue, show ((s.bridge.poll n).2.drop n).board = s.bridge.board from board_drop _ n]
  · -- a request that was let go was settled with a value, or was canceled
    obtain ⟨v, hv, hcanceled⟩ := let_go_run hb first more name path args hd rfl
    obtain rfl := Ending.settled.inj (Option.some.inj (hv.symm.trans hend))
    refine ⟨fun he => absurd (hcanceled e rfl) he, fun _ => ?_⟩
    rw [pollDialog_of_none s.bridge rfl]
    exact ⟨rfl, rfl⟩

/-- **A request that failed fails its dialog.** Whatever settles the request of a dialog with an error
other than that it was canceled, its caller finds that error when it next looks, and its handler does
not wait any more. A request that was canceled leaves a handler that waits as it is, and the dialog
with it. -/
theorem failed_request_reported (first more : List Op) (name path : String) (args : Args) (e : Rejection) :
    let made := (new b).run first
    let ops := first ++ .callNamed name path args :: more
    let s := (new b).run ops
    let k := made.held.length
    let own : Handler := ⟨name, made.bridge.router.handlers.count⟩
    ∀ held, s.held[k]? = some held → held.alive = true → held.outcome = none →
      ((new b).history ops).ending? config.callbackStem made.bridge.registry.count =
        some (.settled (.error e)) →
      (e ≠ .canceled → (s.poll k).1 = .settled (.error e) ∧
        ∀ x ∈ (s.poll k).2.bridge.router.handlers.waiting, x.token ≠ own.token) ∧
      (e = .canceled → s.bridge.router.handlers.find? name = some own →
        (s.poll k).1 = .pending ∧ (s.poll k).2.bridge.router.handlers.find? name = some own) := by
  intro made ops s k own held hheld halive houtcome hend
  have hT : Tended s.held s.bridge.board := tended_run hb ops
  obtain ⟨handle, alive, outcome⟩ := held
  obtain rfl : alive = true := halive
  obtain rfl : outcome = none := houtcome
  -- the dialog has the number of its request from the call that made it, whatever came later
  obtain ⟨r, a, o, hold, hr⟩ := dialog_run hb first more name path args
  obtain ⟨rfl, rfl, rfl⟩ := Held.mk.inj (Option.some.inj (hold.symm.trans hheld))
  obtain ⟨hfailed, hcanceled⟩ := poll_of_failed_request hb first more name path args hheld hend
  refine ⟨fun he => ⟨?_, fun x hx => ?_⟩, fun he hown => ⟨?_, ?_⟩⟩
  · rw [poll_dialog hheld, hfailed he]
    rfl
  · rw [poll_dialog hheld, hfailed he] at hx
    -- a dialog that hangs up takes its own handler out, which nobody else can have
    refine hT.ne_of_withdraw hheld .hangUp x ?_
    have hboard := board_takeOwn ((s.bridge.poll made.bridge.registry.count).2.drop
      made.bridge.registry.count) ⟨name, own.token, none⟩ .hangUp
    rw [show ((s.bridge.poll made.bridge.registry.count).2.drop made.bridge.registry.count).board =
      s.bridge.board from board_drop _ _] at hboard
    rw [← hboard]
    exact hx
  · have hwaits : s.bridge.dialogs.peek own.token = .waiting :=
      hT.sound.waits own (Handlers.find?_eq_some hown).1
    rw [poll_dialog hheld, (hcanceled he).1]
    exact congrArg (fun box => (Poll.ofInbox box).finding) hwaits
  · rw [poll_dialog hheld]
    exact (congrArg (fun B => B.handlers.find? name) (hcanceled he).2).trans hown

end

/-- A dialog whose request timed out reads so, and its handler does not wait any more. -/
theorem failed_request_reported_timeout :
    let ops : List Op := [.callNamed "x" "/a" .none, .reject "__jp1" .timeout]
    let s := (new quiet).run ops
    Bridge.new .fetch .fetch true .new quiet.host = .ok quiet ∧
      s.held[0]? = some ⟨.dialog ⟨"x", 0, some 0⟩, true, none⟩ ∧
      ((new quiet).history ops).ending? "__jp" 0 = some (.settled (.error .timeout)) ∧
      (s.poll 0).1 = .settled (.error .timeout) ∧
      ∀ x ∈ (s.poll 0).2.bridge.router.handlers.waiting, x.token ≠ 0 :=
  ⟨rfl, rfl, rfl, (failed_request_reported new_quiet [] [.reject "__jp1" .timeout] "x" "/a" .none .timeout
    _ rfl rfl rfl rfl).1 (by simp)⟩

/-- A dialog whose request the host canceled goes on waiting: nobody has told its handler. -/
theorem canceled_request_unreported :
    let ops : List Op := [.callNamed "x" "/a" .none, .reject "__jp1" .canceled]
    let s := (new quiet).run ops
    Bridge.new .fetch .fetch true .new quiet.host = .ok quiet ∧
      ((new quiet).history ops).ending? "__jp" 0 = some (.settled (.error .canceled)) ∧
      s.bridge.router.handlers.find? "x" = some ⟨"x", 0⟩ ∧
      (s.poll 0).1 = .pending ∧ (s.poll 0).2.bridge.router.handlers.find? "x" = some ⟨"x", 0⟩ :=
  ⟨rfl, rfl, rfl, rfl, rfl⟩

end Session

end Hostlink.Bridge
