import Hostlink.Proofs.Bridge.Idle
import Hostlink.Proofs.Bridge.World.Aside
import Hostlink.Proofs.Bridge.World.Retold

/-!
# Every call is settled once

What a caller reads is the first settlement that was aimed at its own request, however calls, replies, fetches, timers,
cancellations and drops come about. What was aimed at whom is told by the operations alone, in the world around the
bridge, so that nothing counts as lost that was on its way.

* `Session.poll_told` — what a call reads is told by the world;
* `Session.idle_events` — what comes too late in the world does so at the bridge;
* `Session.held_aside` — what is about one id leaves what is found of other calls;
* `Session.run_settles_once` — **a call reads the first settlement aimed at its id, and no other**.
-/

namespace Hostlink.Bridge

open Registry (Ending Event History)

variable {σ : Type}

namespace Session

variable {s s' : Session σ} {w w' : World σ} {held : List Held} {calls : List Bool} {h h' t t' : History}

/-! ## What a call reads -/

/-- A call is held under the number of its request. -/
theorem Numbered.held_of_call (hn : Numbered held calls) {k : Nat} (hk : calls[k]? = some true) :
    ∃ alive outcome, held[k]? = some ⟨.call k, alive, outcome⟩ := by
  have hlt : k < held.length := hn.length_eq ▸ (List.getElem?_eq_some_iff.mp hk).1
  have he := List.getElem?_eq_getElem hlt
  rcases hhandle : held[k] with ⟨n | d, alive, outcome⟩
  all_goals
    rw [hhandle] at he
    have hat := hn.is_at k _ true he hk
  · obtain rfl : n = k := hat.1
    exact ⟨alive, outcome, he⟩
  · cases hat.1

/-- What a call reads is told by the world, unless it was dropped before. -/
theorem poll_told (hr : Retold s h w t) {k n : Nat} {alive : Bool} {outcome : Option Settlement}
    (he : s.held[k]? = some ⟨.call n, alive, outcome⟩) :
    (s.poll k).1 = if alive = false ∧ outcome = none then .dropped
      else findingOf (t.ending? s.bridge.registry.stem n) := by
  rw [← hr.agree.ending_eq n]
  exact poll_call hr.follows rfl hr.kept he

/-! ## What comes too late -/

/-- **What comes too late in the world, does so at the bridge.** -/
theorem idle_events (hr : Retold s h w t) {op : Op} (hop : op.owns = false)
    (hnext : Retold (s.step op).2 (h ++ s.events op) (w.step op).2 (t ++ (w.step op).1))
    (hidle : ∀ e ∈ (w.step op).1, s.bridge.Idle e) : ∀ e ∈ s.events op, s.bridge.Idle e := by
  have hstem : (s.step op).2.bridge.registry.stem = s.bridge.registry.stem :=
    Tells.stem_of_moves (moves_step hr.stands.sound op)
  have hlate : ∀ e ∈ s.events op, History.Late s.bridge.registry.stem h e := by
    -- histories that agree before and after have brought the same in between, up to what comes too late
    refine hr.agree.late_of_append (hstem ▸ hnext.agree) fun e he => ?_
    obtain ⟨id, v, rfl, hdead⟩ := hidle e he
    exact hr.agree.late (History.late_aimed ((hr.not_pending_iff id).mp hdead) _)
  intro e he
  obtain ⟨hopens, hending⟩ := hlate e he
  have hsettles := settles_events hop e he
  rcases e with _ | ⟨id, v | _⟩ | _ | _
  · cases hopens
  · refine ⟨id, v, rfl, (hr.not_pending_iff id).mpr ?_⟩
    -- whoever waited under the id would have been ended by this
    rintro ⟨n, hn, rfl, hnone⟩
    have hnot := hending n hn hnone
    rw [Event.endingOf?, if_pos rfl] at hnot
    cases hnot
  all_goals exact hsettles.elim

/-! ## Runs -/

section

variable {config : Config} {actual : Transport} {runtime : Bool} {page : Document} {host : Host σ} {b : Bridge σ}
  (hb : Bridge.new config actual runtime page host = .ok b) (hpage : page.Reached)
include hb hpage

theorem retold_run_concat (ops : List Op) (op : Op) :
    Retold (((new b).run ops).step op).2 ((new b).history ops ++ ((new b).run ops).events op)
      (((World.new config runtime page host).after ops).step op).2
      ((World.new config runtime page host).told ops ++ (((World.new config runtime page host).after ops).step op).1) := by
  have hr := retold_run hb hpage (ops ++ [op])
  rwa [run_concat, history_concat, World.after_concat, World.told_concat] at hr

/-- **What is about one id leaves what is found of other calls**, whatever comes later. -/
theorem held_aside (ops more : List Op) {op : Op} {id : String} {k : Nat}
    (hop : ((World.new config runtime page host).after ops).target? op = some id)
    (hid : id ≠ Registry.idOf config.callbackStem k)
    (hcall : ((World.new config runtime page host).after (ops ++ more)).calls[k]? = some true) :
    ((new b).run (ops ++ op :: more)).held[k]? = ((new b).run (ops ++ more)).held[k]? := by
  let w := World.new config runtime page host
  induction more using List.reverseRecOn with
  | nil =>
    rw [List.append_nil] at hcall ⊢
    obtain ⟨alive, outcome, he⟩ := (retold_run hb hpage ops).numbered.held_of_call hcall
    -- an operation that is about the call itself is about its id
    have hown : op ≠ .poll k ∧ op ≠ .drop k := by
      refine ⟨?_, ?_⟩
      · rintro rfl
        cases hop
      · rintro rfl
        refine hid (Option.some.inj hop.symm |>.trans ?_)
        rw [World.idOf, (w.ground_after ops).1]
        rfl
    rw [run_concat, he]
    exact held_of_ne he hown.1 hown.2
  | append_singleton more last ih =>
    have hr := retold_run hb hpage (ops ++ more)
    have hr' := retold_run hb hpage (ops ++ op :: more)
    have hcalls : (w.after (ops ++ op :: more)).calls = (w.after (ops ++ more)).calls := by
      have hhandle : World.handle? op = none := by cases op <;> first | rfl | cases hop
      rw [(w.ground_after _).2.2.2, (w.ground_after _).2.2.2, List.filterMap_append, List.filterMap_append,
        List.filterMap_cons, hhandle]
    have hsplit : ops ++ op :: (more ++ [last]) = (ops ++ op :: more) ++ [last] := by simp
    rw [← List.append_assoc, World.after_concat, World.calls_step] at hcall
    rw [hsplit, ← List.append_assoc, run_concat, run_concat]
    rcases Nat.lt_or_ge k (w.after (ops ++ more)).calls.length with hlt | hge
    · rw [List.getElem?_append_left hlt] at hcall
      have hsame := ih hcall
      obtain ⟨alive, outcome, he⟩ := hr.numbered.held_of_call hcall
      have he' := hsame.trans he
      by_cases hpoll : last = .poll k
      · subst hpoll
        have hread := held_poll he
        have hread' := held_poll he'
        rw [poll_told hr he, stem_run hb, ← World.ending?_told_aside w ops more hop hid] at hread
        rw [poll_told hr' he', stem_run hb] at hread'
        exact hread'.trans hread.symm
      · by_cases hdrop : last = .drop k
        · subst hdrop
          exact (held_drop he').trans (held_drop he).symm
        · rw [held_of_ne he hpoll hdrop, held_of_ne he' hpoll hdrop]
    · -- the call is made just now, in both
      have hlen := hr.numbered.length_eq
      have hlen' := hr'.numbered.length_eq.trans (congrArg List.length hcalls)
      have hcount := hr.stands.count_eq
      have hcount' := hr'.stands.count_eq.trans (congrArg List.length hcalls)
      rw [List.getElem?_append_right hge] at hcall
      cases last with
      | call path args timeout =>
        simp only [step]
        rw [List.getElem?_append_right (hlen' ▸ hge), List.getElem?_append_right (hlen ▸ hge), hlen, hlen', hcount, hcount']
      | callNamed name path args =>
        rcases hi : k - (w.after (ops ++ more)).calls.length with _ | i
        all_goals
          rw [hi] at hcall
          cases hcall
      | _ => cases hcall

/-- What is about one id changes nothing for the caller of another. -/
theorem poll_aside (ops more : List Op) {op : Op} {id : String} {k n : Nat}
    (hop : ((World.new config runtime page host).after ops).target? op = some id)
    (hc : ((new b).run (ops ++ more)).callAt k = some n) (hid : id ≠ Registry.idOf config.callbackStem n) :
    (((new b).run (ops ++ op :: more)).poll k).1 = (((new b).run (ops ++ more)).poll k).1 := by
  have hr := retold_run hb hpage (ops ++ more)
  obtain ⟨alive, outcome, he⟩ := callAt_eq_some.mp hc
  obtain ⟨rfl, hcall⟩ := hr.numbered.call_iff he
  have he' := (held_aside hb hpage ops more hop hid hcall).trans he
  rw [poll_told hr he, poll_told (retold_run hb hpage (ops ++ op :: more)) he', stem_run hb, stem_run hb,
    World.ending?_told_aside _ ops more hop hid]

/-- **Every call is settled once.** All that is aimed at requests is told by the operations alone. A call reads the
first settlement aimed at its own id, and later no other, or that it was dropped; and an id waits as long as nothing has
been aimed at it. A settlement for an id that does not wait is refused, and an operation that brings no other events
touches nothing. With or without what is about one id, others read the same, whatever comes later. That the other side is
gone a call reads only if the host or the fetcher supplied that. -/
theorem run_settles_once (ops : List Op) :
    let s := (new b).run ops
    let w := (World.new config runtime page host).after ops
    let told := (World.new config runtime page host).told ops
    let stem := config.callbackStem
    (∀ k n, s.callAt k = some n →
      ((s.poll k).1 = .dropped ∧ .drop k ∈ ops) ∨
      ((s.poll k).1 = .pending ∧ told.ending? stem n = none) ∨
      ∃ v, (s.poll k).1 = .settled v ∧ told.ending? stem n = some (.settled v)) ∧
    (∀ k n v u more, s.callAt k = some n → (s.poll k).1 = .settled v →
      ((s.run more).poll k).1 = .settled u → u = v) ∧
    (∀ id, s.bridge.registry.isPending id = true ↔ told.Waits stem id) ∧
    (∀ id, s.bridge.registry.isPending id = false →
      (∀ data error, s.step (.invoke id data error) = (.done false, s)) ∧
      (∀ e, s.step (.reject id e) = (.done false, s)) ∧
      (∀ k n, s.callAt k = some n → s.bridge.idOf n = id →
        s.step (.cancelDetached k) = (.canceled id false, s) ∧
        (s.step (.cancel k) = (.done false, s) ∨ s.step (.cancel k) = (.dropped, s)) ∧
        ((s.drop k).bridge = { s.bridge with inboxes := s.bridge.inboxes.drop n } ∨ s.drop k = s))) ∧
    (∀ op, (∀ k, op ≠ .poll k ∧ op ≠ .drop k) → (∀ e ∈ (w.step op).1, s.bridge.Idle e) →
      Untouched s.bridge (s.step op).2.bridge ∧ (s.step op).2.held = s.held) ∧
    (∀ op id more k n, w.target? op = some id → (s.run more).callAt k = some n → Registry.idOf stem n ≠ id →
      ((s.run (op :: more)).poll k).1 = ((s.run more).poll k).1) ∧
    (∀ k n, s.callAt k = some n → (s.poll k).1 = .settled (.error .disconnected) →
      .reject (Registry.idOf stem n) .disconnected ∈ ops ∨
        (∃ m, .reply m (.error .disconnected) ∈ ops) ∨
        host.conduct = .fixed (.error .disconnected)) := by
  intro s w told stem
  have hr := retold_run hb hpage ops
  have hrun : ∀ more, s.run more = (new b).run (ops ++ more) := fun more => (run_append (new b) ops more).symm
  refine ⟨fun k n hc => ?_, fun k n v u more hc hv hu => ?_, fun id => ?_, fun id hid => refused hid,
    fun op hop hidle => ?_, fun op id more k n hop hc hne => ?_, fun k n hc hv => disconnected_of_poll_run hb ops hc hv⟩
  · rw [← ending?_told hb hpage ops n]
    exact poll_run hb ops hc
  · exact poll_run_again hb ops more hc hv hu
  · rw [hr.stands.sound.isPending_iff_waits hr.follows, hr.agree.waits_iff, stem_run hb]
  · have howns : op.owns = false := by
      cases op with
      | poll k => exact absurd rfl (hop k).1
      | drop k => exact absurd rfl (hop k).2
      | _ => rfl
    -- looks and drops are left out, so that the bridge brings registrations and settlements only
    exact untouched_step hop (idle_events hr howns (retold_run_concat hb hpage ops op) hidle)
  · rw [hrun] at hc ⊢
    rw [hrun]
    exact poll_aside hb hpage ops more hop hc hne.symm

end

/-- Of two fetches that are both answered, one was canceled before. Its caller reads that, and the other one its reply,
as if nothing had been canceled. What comes for the first one later is refused. -/
theorem run_settles_once_two_fetches :
    let begun : List Op := [.call "/a" .none none, .call "/b" .none none, .tick]
    let replies : List Op := [.reply 0 (.ok (Utf8.encode "[false]")), .reply 1 (.ok (Utf8.encode "[true]")), .tick]
    let s := (new quiet).run (begun ++ .cancel 0 :: replies)
    Bridge.new .fetch .fetch true .new quiet.host = .ok quiet ∧ Document.new.Reached ∧
      (s.poll 0).1 = .settled (.error .canceled) ∧
      (s.poll 1).1 = .settled (.ok (.bool true)) ∧
      (((new quiet).run (begun ++ replies)).poll 1).1 = .settled (.ok (.bool true)) ∧
      s.step (.invoke "__jp1" (.bool true) none) = (.done false, s) ∧
      ∀ more u, ((s.run more).poll 0).1 = .settled u → u = .error .canceled := by
  intro begun replies s
  have hpage : Document.new.Reached := .build true
  obtain ⟨hreads, hagain, hwaits, hrefused, -⟩ := run_settles_once new_quiet hpage (begun ++ .cancel 0 :: replies)
  obtain ⟨-, -, -, -, -, hothers, -⟩ := run_settles_once new_quiet hpage begun
  let told := (World.new Config.fetch true .new quiet.host).told (begun ++ .cancel 0 :: replies)
  -- both endings are told by the operations, and neither bridge nor caller is asked
  have hcanceled : told.ending? "__jp" 0 = some (.settled (.error .canceled)) := rfl
  have hreplied : told.ending? "__jp" 1 = some (.settled (Bridge.settlementOf (.ok (Utf8.encode "[true]")))) := rfl
  have hbody : Bridge.settlementOf (.ok (Utf8.encode "[true]")) = .ok (.bool true) := rfl
  have hcall : s.callAt 0 = some 0 := callAt_made (new quiet) "/a" .none none _
  have hcall' : s.callAt 1 = some 1 := callAt_made ((new quiet).step (.call "/a" .none none)).2 "/b" .none none _
  have hfirst : (s.poll 0).1 = .settled (.error .canceled) := by
    rcases hreads 0 0 hcall with ⟨-, hdrop⟩ | ⟨-, hnone⟩ | ⟨v, hread, hend⟩
    · simp [begun, replies] at hdrop
    · cases hcanceled.symm.trans hnone
    · rw [hread, Ending.settled.inj (Option.some.inj (hend.symm.trans hcanceled))]
  have hsecond : (s.poll 1).1 = .settled (.ok (.bool true)) := by
    rcases hreads 1 1 hcall' with ⟨-, hdrop⟩ | ⟨-, hnone⟩ | ⟨v, hread, hend⟩
    · simp [begun, replies] at hdrop
    · cases hreplied.symm.trans hnone
    · rw [hread, Ending.settled.inj (Option.some.inj (hend.symm.trans hreplied)), hbody]
  have hgone : s.bridge.registry.isPending "__jp1" = false := by
    refine Bool.eq_false_iff.mpr fun hpending => ?_
    obtain ⟨n, -, hid, hnone⟩ := (hwaits "__jp1").mp hpending
    obtain rfl : n = 0 := Registry.idOf_inj.mp (hid : _ = Registry.idOf "__jp" 0)
    cases hcanceled.symm.trans hnone
  have hother : Registry.idOf "__jp" 1 ≠ "__jp1" := by decide
  refine ⟨rfl, hpage, hfirst, hsecond, ?_, (hrefused "__jp1" hgone).1 _ _, fun more u hu => ?_⟩
  · have hmade : ((new quiet).run (begun ++ replies)).callAt 1 = some 1 :=
      callAt_made ((new quiet).step (.call "/a" .none none)).2 "/b" .none none _
    rw [run_append] at hmade
    have hsame := hothers (.cancel 0) "__jp1" replies 1 1 rfl hmade hother
    rw [← run_append, ← run_append] at hsame
    exact hsame.symm.trans hsecond
  · exact hagain 0 0 _ u more hcall hfirst hu

end Session

end Hostlink.Bridge
