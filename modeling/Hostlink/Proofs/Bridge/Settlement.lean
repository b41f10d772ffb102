import Hostlink.Proofs.Bridge.Held

/-!
# What calls read

What a caller reads is the first settlement that was aimed at its own request, by the history of the requests.

* `Session.kept_run` — what is held agrees with the history after every run;
* `Session.poll_run`, `Session.poll_run_again` — **what a call reads after a run**, and later;
* `Session.poll_step` — what it reads before and after an operation;
* `Session.refused` — what is aimed at an id that does not wait changes nothing.
-/

namespace Hostlink.Bridge

open Registry (Ending Event History)

variable {σ : Type}

namespace Session

variable {s : Session σ}

/-! ## Runs -/

section

variable {config : Config} {actual : Transport} {runtime : Bool} {page : Document} {host : Host σ}
  {b : Bridge σ}

theorem kept_run (hb : Bridge.new config actual runtime page host = .ok b) (ops : List Op) :
    Kept config.callbackStem ((new b).run ops).held ((new b).history ops) := by
  induction ops using List.reverseRecOn with
  | nil => exact kept_new _
  | append_singleton ops op ih =>
    rw [run_concat, history_concat]
    exact kept_step (follows_history hb ops) (stem_run hb ops) ih op

/-- A call is dead only if its owner dropped it. -/
theorem drop_mem_of_dead (b : Bridge σ) (ops : List Op) {k : Nat} {e : Held}
    (he : ((new b).run ops).held[k]? = some e) (hdead : e.alive = false) : .drop k ∈ ops := by
  induction ops using List.reverseRecOn generalizing e with
  | nil => cases he
  | append_singleton ops op ih =>
    rw [run_concat] at he
    cases hold : ((new b).run ops).held[k]? with
    | none => exact absurd (alive_of_new hold he) (by simp [hdead])
    | some f =>
      obtain ⟨e', he', hages⟩ := ages_step hold op
      obtain rfl := Option.some.inj (he.symm.trans he')
      by_cases hop : op = .drop k
      · simp [hop]
      · exact List.mem_append_left _ (ih hold ((hages.alive_eq hop).symm.trans hdead))

/-- A call stays where it is. -/
theorem callAt_run {k n : Nat} (hc : s.callAt k = some n) (more : List Op) :
    (s.run more).callAt k = some n := by
  induction more generalizing s with
  | nil => exact hc
  | cons op more ih =>
    refine ih ?_
    obtain ⟨alive, outcome, he⟩ := callAt_eq_some.mp hc
    obtain ⟨⟨handle, alive', outcome'⟩, he', hages⟩ := ages_step he op
    have hcall : handle = .call n := hages.call_eq n rfl
    exact callAt_eq_some.mpr ⟨alive', outcome', hcall ▸ he'⟩

/-- A call stays where it was made. -/
theorem callAt_made (s : Session σ) (path : String) (args : Args) (timeout : Option Nat) (more : List Op) :
    (s.run (.call path args timeout :: more)).callAt s.held.length = some s.bridge.registry.count := by
  have hmade : (s.step (.call path args timeout)).2.callAt s.held.length = some s.bridge.registry.count :=
    callAt_eq_some.mpr ⟨true, none, List.getElem?_concat_length⟩
  exact callAt_run hmade more

/-- A call reads the first settlement of its request, if it was not dropped before. -/
theorem poll_run (hb : Bridge.new config actual runtime page host = .ok b) (ops : List Op)
    {k n : Nat} (hc : ((new b).run ops).callAt k = some n) :
    ((((new b).run ops).poll k).1 = .dropped ∧ .drop k ∈ ops) ∨
      ((((new b).run ops).poll k).1 = .pending ∧
        ((new b).history ops).ending? config.callbackStem n = none) ∨
      ∃ v, (((new b).run ops).poll k).1 = .settled v ∧
        ((new b).history ops).ending? config.callbackStem n = some (.settled v) := by
  obtain ⟨alive, outcome, he⟩ := callAt_eq_some.mp hc
  have hpoll := poll_call (follows_history hb ops) (stem_run hb ops) (kept_run hb ops) he
  by_cases hdead : alive = false ∧ outcome = none
  · rw [if_pos hdead] at hpoll
    exact .inl ⟨hpoll, drop_mem_of_dead b ops he hdead.1⟩
  · rw [if_neg hdead] at hpoll
    rcases ending_cases (kept_run hb ops) he hdead with hend | ⟨v, hend⟩
    · exact .inr (.inl ⟨by rw [hpoll, hend]; rfl, hend⟩)
    · exact .inr (.inr ⟨v, by rw [hpoll, hend]; rfl, hend⟩)

theorem ending_of_poll_run (hb : Bridge.new config actual runtime page host = .ok b) (ops : List Op)
    {k n : Nat} (hc : ((new b).run ops).callAt k = some n) {v : Settlement}
    (hv : (((new b).run ops).poll k).1 = .settled v) :
    ((new b).history ops).ending? config.callbackStem n = some (.settled v) := by
  rcases poll_run hb ops hc with ⟨hp, -⟩ | ⟨hp, -⟩ | ⟨w, hp, hend⟩
  · cases hv.symm.trans hp
  · cases hv.symm.trans hp
  · rw [Finding.settled.inj (hv.symm.trans hp)]
    exact hend

/-- What a call reads before and after an operation of somebody else, unless it was dropped. -/
theorem poll_step (hb : Bridge.new config actual runtime page host = .ok b) (ops : List Op)
    {k n : Nat} (hc : ((new b).run ops).callAt k = some n) {op : Op} (hop : op ≠ .drop k) :
    let s := (new b).run ops
    let ending := ((new b).history ops).ending? config.callbackStem n
    let aimed := (s.events op).findSome? (Event.endingOf? (Registry.idOf config.callbackStem n))
    ∃ dead : Bool, (s.poll k).1 = (if dead then .dropped else findingOf ending) ∧
      ((s.step op).2.poll k).1 = (if dead then .dropped else findingOf (ending.or aimed)) := by
  intro s ending aimed
  obtain ⟨alive, outcome, he⟩ := callAt_eq_some.mp hc
  obtain ⟨⟨handle, alive', outcome'⟩, he', hages⟩ := ages_step he op
  obtain rfl : handle = .call n := hages.call_eq n rfl
  have halive : alive' = alive := hages.alive_eq hop
  have hlt : n < ((new b).history ops).opened := ((kept_run hb ops).fits k _ he n rfl).1
  have hpoll := poll_call (follows_history hb ops) (stem_run hb ops) (kept_run hb ops) he
  rw [← run_concat] at he'
  have hpoll' := poll_call (follows_history hb _) (stem_run hb _) (kept_run hb _) he'
  rw [run_concat, history_concat, History.ending?_append_eq hlt] at hpoll'
  refine ⟨decide (alive = false ∧ outcome = none), by simpa using hpoll, ?_⟩
  cases alive with
  | true => simpa [halive] using hpoll'
  | false =>
    obtain rfl : outcome' = outcome := (Held.mk.inj (hages.eq_of_dead rfl)).2.2
    simpa [halive] using hpoll'

/-- A call that waits reads what is aimed at it first. -/
theorem poll_step_of_pending (hb : Bridge.new config actual runtime page host = .ok b) (ops : List Op)
    {k n : Nat} (hc : ((new b).run ops).callAt k = some n) (hpending : (((new b).run ops).poll k).1 = .pending)
    {op : Op} (hop : op ≠ .drop k) :
    ((((new b).run ops).step op).2.poll k).1 = findingOf ((((new b).run ops).events op).findSome?
      (Event.endingOf? (Registry.idOf config.callbackStem n))) := by
  obtain ⟨dead, hbefore, hafter⟩ := poll_step hb ops hc hop
  rw [hpending] at hbefore
  cases dead with
  | true => cases hbefore
  | false =>
    rcases poll_run hb ops hc with ⟨hp, -⟩ | ⟨-, hnone⟩ | ⟨v, hp, -⟩
    · cases hpending.symm.trans hp
    · rw [hafter, hnone]
      rfl
    · cases hpending.symm.trans hp

theorem disconnected_of_poll_run (hb : Bridge.new config actual runtime page host = .ok b)
    (ops : List Op) {k n : Nat} (hc : ((new b).run ops).callAt k = some n)
    (hv : (((new b).run ops).poll k).1 = .settled (.error .disconnected)) :
    .reject (Registry.idOf config.callbackStem n) .disconnected ∈ ops ∨
      (∃ m, .reply m (.error .disconnected) ∈ ops) ∨
      host.conduct = .fixed (.error .disconnected) := by
  obtain ⟨-, -, hnew⟩ := new_eq_ok hb
  have hmem := History.mem_of_ending? (ending_of_poll_run hb ops hc hv)
  have h := disconnected_of_mem_history (s := new b) (by rw [hnew]; rfl) hmem
  rwa [hnew] at h

/-- What is aimed at an id that does not wait is refused, and changes nothing else. -/
theorem refused {s : Session σ} {id : String} (hid : s.bridge.registry.isPending id = false) :
    (∀ data error, s.step (.invoke id data error) = (.done false, s)) ∧
      (∀ e, s.step (.reject id e) = (.done false, s)) ∧
      (∀ k n, s.callAt k = some n → s.bridge.idOf n = id →
        s.step (.cancelDetached k) = (.canceled id false, s) ∧
        (s.step (.cancel k) = (.done false, s) ∨ s.step (.cancel k) = (.dropped, s)) ∧
        ((s.drop k).bridge = { s.bridge with inboxes := s.bridge.inboxes.drop n } ∨ s.drop k = s)) := by
  have hrefuse : ∀ v, s.bridge.settle id v = (false, s.bridge) :=
    settle_of_not_pending (by simp [hid])
  refine ⟨fun data error => ?_, fun e => ?_, fun k n hc hidn => ?_⟩
  · simp only [step, invoke, hrefuse]
  · simp only [step, hrefuse]
  · obtain ⟨alive, outcome, he⟩ := callAt_eq_some.mp hc
    have hcancel : s.bridge.cancel n = (false, s.bridge) := by rw [Bridge.cancel, hidn, hrefuse]
    have hdrop : s.bridge.drop n = { s.bridge with inboxes := s.bridge.inboxes.drop n } := by
      rw [Bridge.drop, hidn, forget_of_not_pending (by simp [hid])]
    refine ⟨?_, ?_, ?_⟩
    · simp only [step, cancelDetached, he, Option.map_some, hcancel, hidn]
    · cases alive with
      | false => exact .inr (by simp [step, cancel, he])
      | true => exact .inl (by simp [step, cancel, he, hcancel])
    · cases alive with
      | false => exact .inr (by simp [drop, he])
      | true => exact .inl (by simp [drop, he, dropHandle, hdrop])

/-- What has been read of a call is what is read of it later. -/
theorem poll_run_again (hb : Bridge.new config actual runtime page host = .ok b) (ops more : List Op)
    {k n : Nat} (hc : ((new b).run ops).callAt k = some n) {v w : Settlement}
    (hv : (((new b).run ops).poll k).1 = .settled v)
    (hw : ((((new b).run ops).run more).poll k).1 = .settled w) : w = v := by
  have hend := ending_of_poll_run hb ops hc hv
  have hrun : ((new b).run ops).run more = (new b).run (ops ++ more) := (run_append (new b) ops more).symm
  have hc' : ((new b).run (ops ++ more)).callAt k = some n := hrun ▸ callAt_run hc more
  have hend' := ending_of_poll_run hb (ops ++ more) hc' (hrun ▸ hw)
  rw [history_append, History.ending?_append hend] at hend'
  exact (Ending.settled.inj (Option.some.inj hend')).symm

/-- Once a request has ended, what a call reads does not change, unless the call is dropped. -/
theorem poll_run_ended (hb : Bridge.new config actual runtime page host = .ok b) (ops more : List Op)
    {k n : Nat} (hc : ((new b).run ops).callAt k = some n)
    (hend : ((new b).history ops).ending? config.callbackStem n ≠ none) (hdrop : .drop k ∉ more) :
    (((new b).run (ops ++ more)).poll k).1 = (((new b).run ops).poll k).1 := by
  obtain ⟨en, hen⟩ := Option.ne_none_iff_exists'.mp hend
  induction more using List.reverseRecOn with
  | nil => rw [List.append_nil]
  | append_singleton more op ih =>
    have hop : op ≠ .drop k := fun heq => hdrop (heq ▸ List.mem_append_right _ List.mem_cons_self)
    have hc' : ((new b).run (ops ++ more)).callAt k = some n := run_append (new b) ops more ▸ callAt_run hc more
    obtain ⟨dead, hbefore, hafter⟩ := poll_step hb (ops ++ more) hc' hop
    rw [history_append, History.ending?_append hen] at hbefore hafter
    rw [← List.append_assoc, run_concat, hafter, Option.some_or, ← hbefore]
    exact ih fun hmem => hdrop (List.mem_append_left _ hmem)

end

end Session

end Hostlink.Bridge
