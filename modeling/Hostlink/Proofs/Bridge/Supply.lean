import Hostlink.Proofs.Bridge.Traffic

/-!
# Where settlements come from

A bridge makes up timeouts, cancellations and reasons why a call could not be sent. All else is supplied:
by those who call the page back, by those who answer a fetch, or by the host.

* `Event.SettlesBy` — an event that settles, if at all, as is allowed;
* `Session.Reads`, `Session.Fetches` — what an operation asks the host;
* `Session.Supplies` — the settlements that an operation supplies, and the answers that they come from;
* `Bridge.Stored`, `Host.AnswersBy` — what fetches and scripts will settle is allowed;
* `Session.Allows`, `Session.settlesBy_run` — **requests are settled as is allowed**, step by step in a run;
* `Session.came_of_mem_history` — **a settlement was made up by the bridge or supplied**;
* `Session.disconnected_of_mem_history` — **nobody is told that the bridge is gone unless the host or
  the fetcher supplied that**.
-/

namespace Hostlink

open Registry (Ending Event History)

/-! ## Kinds of events -/

/-- An event that neither reads nor drops nor forgets, and settles requests as is allowed. -/
def Registry.Event.SettlesBy (G : String → Settlement → Prop) : Event → Prop
  | .opened => True
  | .aimed id (.settled v) => G id v
  | _ => False

/-- A reason that a host gives, or that says what is wrong with its reply. -/
def Rejection.isForeign : Rejection → Bool
  | .host _ | .unknownResource _ | .malformed _ => true
  | _ => false

theorem Reply.foreign_of_settle (data : Json) (error : Option Json) {e : Rejection}
    (h : Reply.settle data error = .error e) : e.isForeign = true := by
  unfold Reply.settle at h
  split at h
  · split at h
    · rw [← Except.error.inj h]
      rfl
    · cases h
  · cases h

theorem Reply.foreign_of_decode {body : List UInt8} {e : Rejection} (h : Reply.decode body = .error e) :
    e.isForeign = true := by
  unfold Reply.decode at h
  split at h
  · rw [← Except.error.inj h]
    rfl
  · unfold Reply.settleItems at h
    split at h
    · exact Reply.foreign_of_settle _ _ h
    · exact Reply.foreign_of_settle _ _ h
    · rw [← Except.error.inj h]
      rfl
  · rw [← Except.error.inj h]
    rfl

theorem Host.foreign_of_settlementOf {answer : HostAnswer} {e : Rejection}
    (h : Host.settlementOf answer = .error e) : e.isForeign = true := by
  rcases answer with (x | v) | path
  · exact Reply.foreign_of_settle .null (some x.toJson) h
  · exact Reply.foreign_of_settle v none h
  · rw [← Except.error.inj h]
    rfl

namespace Host

variable {σ : Type} {h : Host σ} {url : String}

theorem answer_error {e : Rejection} (he : (h.answer url).1 = .error e) : ∃ text, e = .transport text := by
  unfold Host.answer at he
  split at he
  · exact ⟨_, (Except.error.inj he).symm⟩
  · dsimp only at he
    split at he <;> cases he

/-- The reply to a fetch is always the same, or an answer, or says that the URL could not be read. -/
theorem fetch_cases {reply : FetchReply} (hf : (h.fetch url).1 = some reply) :
    h.conduct = .fixed reply ∨
      (h.conduct = .routed ∧ ∃ r a, (h.answer url).1 = .ok (r, a) ∧ reply = replyOf a) ∨
      ∃ text, reply = .error (.transport text) := by
  unfold Host.fetch at hf
  split at hf
  · cases hf
  · next hfixed =>
    rw [hfixed, Option.some.inj hf]
    exact .inl rfl
  · next hrouted =>
    split at hf
    · next r a _ heq => exact .inr (.inl ⟨hrouted, r, a, congrArg Prod.fst heq, (Option.some.inj hf).symm⟩)
    · next e _ heq =>
      obtain ⟨text, rfl⟩ := answer_error (congrArg Prod.fst heq)
      exact .inr (.inr ⟨text, (Option.some.inj hf).symm⟩)

/-- Asked for several URLs one after another, a host answers as is allowed. -/
def AnswersBy (G : String → Settlement → Prop) (h : Host σ) (urls : List String) : Prop :=
  ∀ earlier url rest, urls = earlier ++ url :: rest → ∀ r a id, ((h.answered earlier).answer url).1 = .ok (r, a) →
    r.callback = some id → G id (settlementOf a)

theorem AnswersBy.imp {G G' : String → Settlement → Prop} (himp : ∀ id v, G id v → G' id v) {urls : List String}
    (hby : h.AnswersBy G urls) : h.AnswersBy G' urls :=
  fun earlier url rest heq r a id ha hid => himp id _ (hby earlier url rest heq r a id ha hid)

theorem AnswersBy.tail {G : String → Settlement → Prop} {urls : List String} (hby : h.AnswersBy G (url :: urls)) :
    (h.answer url).2.AnswersBy G urls := by
  intro earlier u rest heq
  exact hby (url :: earlier) u rest (by rw [heq, List.cons_append])

end Host

namespace Bridge

variable {σ : Type} {b : Bridge σ} {G : String → Settlement → Prop}

/-- What no host says, a reply settles only if the fetcher says so. -/
theorem settlementOf_eq_error {r : FetchReply} {e : Rejection} (he : e.isForeign = false) :
    settlementOf r = .error e ↔ r = .error e := by
  cases r with
  | error e' => simp [settlementOf]
  | ok body =>
    refine ⟨fun h => ?_, fun h => (by cases h)⟩
    have hforeign := Reply.foreign_of_decode h
    rw [he] at hforeign
    cases hforeign

/-! ## What fetches hold -/

/-- What fetches will settle is allowed. -/
def Stored (G : String → Settlement → Prop) (b : Bridge σ) : Prop :=
  ∀ f ∈ b.fetches, ∀ r, f.reply = some r → G f.id (settlementOf r)

namespace Stored

theorem imp {G' : String → Settlement → Prop} (himp : ∀ id v, G id v → G' id v) (h : Stored G b) : Stored G' b :=
  fun f hf r hr => himp f.id _ (h f hf r hr)

theorem modify (h : Stored G b) (n : Nat) {f : Fetch → Fetch} (hf : ∀ x, (f x).id = x.id ∧ (f x).reply = x.reply) :
    ∀ x ∈ b.fetches.modify n f, ∀ r, x.reply = some r → G x.id (settlementOf r) := by
  intro x hx r hr
  obtain ⟨i, hi⟩ := List.mem_iff_getElem?.mp hx
  rw [List.getElem?_modify] at hi
  cases hb : b.fetches[i]? with
  | none => simp [hb] at hi
  | some y =>
    rw [hb] at hi
    have hx : x.id = y.id ∧ x.reply = y.reply := by
      rw [← Option.some.inj hi]
      dsimp only [id]
      split
      · exact hf y
      · exact ⟨rfl, rfl⟩
    rw [hx.1]
    exact h y (List.mem_of_getElem? hb) r (hx.2 ▸ hr)

theorem after (h : Stored G b) (effects : List (Effect Artefact Nat)) (r : Registry Artefact Nat) :
    Stored G (b.after effects r) := by
  have hall : ∀ (es : List (Effect Artefact Nat)) (c : Bridge σ), Stored G c → Stored G (es.foldl perform c) := by
    intro es
    induction es with
    | nil => exact fun c hc => hc
    | cons e es ih =>
      intro c hc
      refine ih _ ?_
      -- only the release of a fetch reaches the fetches, and it keeps ids and replies
      rcases e with _ | (_ | n) | _ | _ | _
      case release.fetch =>
        exact hc.modify n fun f => by unfold Fetch.abort; split <;> exact ⟨rfl, rfl⟩
      all_goals exact hc
  exact hall effects _ h

/-- A call adds the reply that the host gives to its fetch. -/
theorem call (h : Stored G b) {path : String} {args : Args}
    (hfetch : b.config.transport = .fetch → ∀ url r,
      b.config.codec.encode path args (b.idOf b.registry.count) = .ok url → (b.host.fetch url).1 = some r →
      G (b.idOf b.registry.count) (settlementOf r)) (timeout : Option Nat) :
    Stored G (b.call path args timeout).2 := by
  rw [call_eq]
  refine sent_of (P := fun c => Stored G c ∧ c.host = b.host ∧ c.config = b.config) (Q := Stored G)
    (b := b.registered path) (fun v hc => hc.1.after _ _) (fun ms harm hc => ?_)
    (fun {c c' url} henc htrigger hc => ?_) (fun {c url _} _ hc => ?_) ⟨h, rfl, rfl⟩ timeout
  · rename_i c c'
    rw [armTimer_ok harm]
    have harmed : Stored G (c.armed (b.idOf b.registry.count) ms) := hc.1
    exact ⟨harmed.after _ _, (host_after (c.armed _ ms) _ _).trans hc.2.1,
      (config_after (c.armed _ ms) _ _).trans hc.2.2⟩
  · obtain ⟨hstored, hhost, hconfig⟩ := hc
    -- a fetch adds one that holds what the host gave, a script adds none
    rcases trigger_ok htrigger with ⟨ht, rfl⟩ | ⟨-, e, page, -, rfl⟩
    · have hasked : Stored G (c.asked (b.idOf b.registry.count) url) := by
        intro f hf r hr
        rcases List.mem_append.mp hf with hf | hf
        · exact hstored f hf r hr
        · rw [List.mem_singleton.mp hf] at hr ⊢
          exact hfetch (hconfig ▸ ht) url r henc (hhost ▸ hr)
      exact hasked.after _ _
    · obtain ⟨ready, hshown⟩ := shown_eq c page
      rw [hshown]
      have hplaced : Stored G { c with page := page, ready := ready } := hstored
      exact hplaced.after _ _
  · obtain ⟨page, hmissed⟩ := missed_eq c url
    rw [hmissed]
    exact hc

theorem reply (h : Stored G b) (n : Nat) {r : FetchReply}
    (hr : ∀ id, b.fetchIds[n]? = some id → G id (settlementOf r)) :
    Stored G (b.reply n r).2 := by
  -- a reply keeps the id of its fetch, so that it is enough to know the reply that is stored
  rcases reply_cases b n r with heq | ⟨f, g, more, hf, hid, hreply, -, heq⟩ <;> rw [heq]
  · exact h
  · intro x hx r' hr'
    rcases List.mem_or_eq_of_mem_set hx with hx | rfl
    · exact h x hx r' hr'
    · -- the fetch is for the same request, and holds what it held or the new reply
      rw [hid]
      rcases hreply with heq | heq
      · exact h f (List.mem_of_getElem? hf) r' (heq ▸ hr')
      · obtain rfl := Option.some.inj (heq.symm.trans hr')
        refine hr f.id ?_
        rw [fetchIds, List.getElem?_map, hf, Option.map_some]

end Stored

theorem invariant_stored (G : String → Settlement → Prop) : Invariant (fun b : Bridge σ => Stored G b) where
  settle id v h := h.after _ _
  forget id h := h.after _ _
  readInbox n h := h
  dropInbox n h := h
  answer url h := h
  takeLoads _ _ h := h
  setPhase n phase h := h.modify n fun _ => ⟨rfl, rfl⟩
  endAborted {b} h := by
    intro f hf r hr
    obtain ⟨g, hg, rfl⟩ := List.mem_map.mp hf
    have hold := h g hg r
    split at hr
    · rw [if_pos ‹_›]
      exact hold hr
    · rw [if_neg ‹_›]
      exact hold hr
  work _ _ _ _ _ h := h
  pushes _ _ _ h := h

/-! ## The events of ticks -/

theorem settlesBy_answerEvents {url : String}
    (hread : ∀ r a id, (b.host.answer url).1 = .ok (r, a) → r.callback = some id → G id (Host.settlementOf a)) :
    ∀ e ∈ b.answerEvents url, e.SettlesBy G := by
  intro e he
  unfold answerEvents at he
  split at he
  · split at he
    · exact absurd he List.not_mem_nil
    · next r a hanswer =>
      obtain ⟨id, hid, rfl⟩ := Option.map_eq_some_iff.mp (Option.mem_toList.mp he)
      exact hread r a id hanswer hid
  · exact absurd he List.not_mem_nil

theorem settlesBy_answersEvents {urls : List String} (hread : b.host.AnswersBy G urls) :
    ∀ e ∈ b.answersEvents urls, e.SettlesBy G := by
  induction urls generalizing b with
  | nil => exact fun e he => absurd he List.not_mem_nil
  | cons url urls ih =>
    intro e he
    by_cases hconnected : b.host.connected = true
    · rcases List.mem_append.mp he with he | he
      · exact settlesBy_answerEvents (hread [] url urls rfl) e he
      · refine ih (b := (b.answerScript url).2) ?_ e he
        rw [host_answerScript hconnected]
        exact hread.tail
    · -- a host that does not know the page brings no events
      have hnothing : ∀ us : List String, b.answersEvents us = [] := by
        intro us
        induction us with
        | nil => rfl
        | cons u us ih' =>
          have hsame : (b.answerScript u).2 = b := by rw [answerScript, if_neg hconnected]
          rw [answersEvents, hsame, ih', answerEvents, if_neg hconnected, List.append_nil]
      rw [hnothing] at he
      exact absurd he List.not_mem_nil

section

/-- After any task, the host answers what is left to read as is allowed. -/
theorem answersBy_run (hread : b.host.AnswersBy G b.page.loads) (t : Task) :
    (b.run t).host.AnswersBy G (b.run t).page.loads := by
  by_cases ht : t = .serve
  · subst ht
    rw [loads_run_serve]
    intro earlier url rest heq
    cases earlier <;> cases heq
  · obtain ⟨hhost, hloads⟩ := Prod.mk.inj (traffic_run (b := b) ht)
    rw [hhost, hloads]
    exact hread

theorem settlesBy_taskEvents (htimers : ∀ t ∈ b.timers, t.deadline ≤ b.clock → G t.id (.error .timeout))
    (hstored : Stored G b) (hread : b.host.AnswersBy G b.page.loads) (t : Task) :
    ∀ e ∈ b.taskEvents t, e.SettlesBy G := by
  intro e he
  cases t with
  | timer n =>
    simp only [taskEvents, timerEvents] at he
    split at he
    · exact absurd he List.not_mem_nil
    · next t ht =>
      split at he
      · next hdue =>
        rw [List.mem_singleton.mp he]
        exact htimers t (List.mem_of_getElem? ht) hdue
      · exact absurd he List.not_mem_nil
  | fetch n =>
    simp only [taskEvents, fetchEvents] at he
    split at he
    · exact absurd he List.not_mem_nil
    · next f hf =>
      split at he
      · exact absurd he List.not_mem_nil
      · next reply hreply =>
        rw [List.mem_singleton.mp he]
        exact hstored f (List.mem_of_getElem? hf) reply hreply
  | serve => exact settlesBy_answersEvents (b := b.withoutLoads) hread e he

/-- In a tick, requests are settled by timers that ran out, by what fetches hold, and by scripts. -/
theorem settlesBy_readyEvents (htimers : ∀ t ∈ b.timers, t.deadline ≤ b.clock → G t.id (.error .timeout))
    (hstored : Stored G b) (hread : b.host.AnswersBy G b.page.loads) (ts : List Task) :
    ∀ e ∈ b.readyEvents ts, e.SettlesBy G := by
  induction ts generalizing b with
  | nil => exact fun e he => absurd he List.not_mem_nil
  | cons t ts ih =>
    intro e he
    rcases List.mem_append.mp he with he | he
    · -- only what is still to be done runs, so a task that is gone brings nothing
      split at he
      · exact settlesBy_taskEvents (b := b.withoutTask t) htimers hstored hread t e he
      · exact absurd he List.not_mem_nil
    · obtain ⟨hset, hclock⟩ := Prod.mk.inj (times_runReady b t)
      refine ih ?_ ((invariant_stored G).runReady t hstored) ?_ e he
      · rw [hset, hclock]
        exact htimers
      · unfold runReady
        split
        · exact answersBy_run (b := b.withoutTask t) hread t
        · exact hread

theorem settlesBy_advanceEvents {ms : Nat}
    (htimers : ∀ t ∈ b.timers, t.deadline ≤ b.clock + ms → G t.id (.error .timeout)) (hstored : Stored G b)
    (hread : b.host.AnswersBy G b.page.loads)
    (hlater : (b.tick.later ms).host.AnswersBy G (b.tick.later ms).page.loads) :
    ∀ e ∈ b.advanceEvents ms, e.SettlesBy G := by
  intro e he
  rcases List.mem_append.mp he with he | he
  · exact settlesBy_readyEvents (fun t ht hdue => htimers t ht (Nat.le_add_right_of_le hdue)) hstored hread b.ready e he
  · -- the first tick moved no deadline, so that the second one has the timers of the beginning
    have hticked : Stored G (b.tick.later ms) := (invariant_stored G).tick hstored
    obtain ⟨hset, hclock⟩ := Prod.mk.inj (times_tick b)
    refine settlesBy_readyEvents (fun t ht hdue => htimers t ?_ ?_) hticked hlater _ e he
    · exact hset ▸ ht
    · exact hclock ▸ hdue

/-! ## The events of callers -/

/-- A URL that is not handed over has no place, or no runtime. -/
theorem triggerFailure?_cases {b : Bridge σ} {url : String} {e : Rejection} (h : b.triggerFailure? url = some e) :
    e = noPlace ∨ e = .noRuntime := by
  unfold triggerFailure? at h
  split at h
  · split at h
    · cases h
    · exact .inl (Option.some.inj h).symm
  · split at h
    · cases h
    · exact .inr (Option.some.inj h).symm

/-- A call that fails at once says neither that the other side is gone nor that its time is over. -/
theorem failure?_ne {b : Bridge σ} {id path : String} {args : Args} {timeout : Option Nat} {e : Rejection}
    (h : b.failure? id path args timeout = some e) : e ≠ .disconnected ∧ e ≠ .timeout := by
  unfold failure? at h
  split at h
  · rw [← Option.some.inj h]
    simp
  · split at h
    · rw [← Option.some.inj h]
      simp
    · rcases triggerFailure?_cases h with rfl | rfl
      · simp [noPlace]
      · simp

theorem settlesBy_callEvents (hmade : ∀ id e, e ≠ Rejection.disconnected → e ≠ .timeout → G id (.error e))
    (b : Bridge σ) (path : String) (args : Args) (timeout : Option Nat) :
    ∀ e ∈ b.callEvents path args timeout, e.SettlesBy G := by
  intro e he
  rcases List.mem_cons.mp he with rfl | he
  · trivial
  · obtain ⟨r, hr, rfl⟩ := Option.map_eq_some_iff.mp (Option.mem_toList.mp he)
    obtain ⟨hdisconnected, htimeout⟩ := failure?_ne hr
    exact hmade _ r hdisconnected htimeout

/-- Who is canceled is told so. -/
theorem settlesBy_cancelEvents (hcanceled : ∀ id, G id (.error .canceled)) (b : Bridge σ) (handle : Handle) :
    ∀ e ∈ b.cancelEvents handle, e.SettlesBy G := by
  intro e he
  rcases handle with n | ⟨name, token, _ | n⟩
  · rw [List.mem_singleton.mp he]
    exact hcanceled _
  · exact absurd he List.not_mem_nil
  · rw [List.mem_singleton.mp he]
    exact hcanceled _

end

/-- Does an operation look at a call, or drop it? -/
def Op.owns : Op → Bool
  | .poll _ | .drop _ => true
  | _ => false

namespace Session

/-! ## What an operation supplies -/

/-- An operation makes the host, as it is then, read a URL that a script has loaded. -/
inductive Reads (s : Session σ) : Op → Host σ → String → Prop
  | answer (url : String) : Reads s (.answer url) s.bridge.host url
  | answerNext {url : String} {rest : List String} (h : s.bridge.page.loads = url :: rest) :
    Reads s .answerNext s.bridge.host url
  | tick {earlier rest : List String} {url : String} (h : s.bridge.page.loads = earlier ++ url :: rest) :
    Reads s .tick (s.bridge.host.answered earlier) url
  | advance {ms : Nat} {earlier rest : List String} {url : String}
    (h : s.bridge.page.loads = earlier ++ url :: rest) : Reads s (.advance ms) (s.bridge.host.answered earlier) url
  /-- Time moves from one tick to another. -/
  | later {ms : Nat} {earlier rest : List String} {url : String}
    (h : (s.bridge.tick.later ms).page.loads = earlier ++ url :: rest) :
    Reads s (.advance ms) ((s.bridge.tick.later ms).host.answered earlier) url

/-- An operation makes a request that travels by a fetch of a URL. -/
def Fetches (s : Session σ) (op : Op) (url : String) : Prop :=
  s.bridge.config.transport = .fetch ∧ ∃ path args, op.request? = some (path, args) ∧
    s.bridge.config.codec.encode path args (s.bridge.idOf s.bridge.registry.count) = .ok url

/-- An operation supplies a settlement for a request: by hand, or from an answer of the host. -/
inductive Supplies (s : Session σ) : Op → String → Option HostAnswer → Settlement → Prop
  | invoke (id : String) (data : Json) (error : Option Json) :
    Supplies s (.invoke id data error) id none (Reply.settle data error)
  | reject (id : String) (e : Rejection) : Supplies s (.reject id e) id none (.error e)
  | reply {n : Nat} {id : String} (h : s.bridge.fetchIds[n]? = some id) (r : FetchReply) :
    Supplies s (.reply n r) id none (settlementOf r)
  /-- Every fetch gets the same reply. -/
  | fixed {op : Op} {url : String} {r : FetchReply} (hf : s.Fetches op url)
    (hfixed : s.bridge.host.conduct = .fixed r) :
    Supplies s op (s.bridge.idOf s.bridge.registry.count) none (settlementOf r)
  | fetched {op : Op} {url : String} {r : Request} {a : HostAnswer} (hf : s.Fetches op url)
    (hrouted : s.bridge.host.conduct = .routed) (ha : (s.bridge.host.answer url).1 = .ok (r, a)) :
    Supplies s op (s.bridge.idOf s.bridge.registry.count) (some a) (settlementOf (Host.replyOf a))
  | read {op : Op} {h : Host σ} {url id : String} {r : Request} {a : HostAnswer} (hr : s.Reads op h url)
    (ha : (h.answer url).1 = .ok (r, a)) (hid : r.callback = some id) :
    Supplies s op id (some a) (Host.settlementOf a)

variable {s : Session σ}

section

variable {op : Op} (hsupplies : ∀ id source v, s.Supplies op id source v → G id v)
include hsupplies

theorem answersBy_of_reads {h : Host σ} {urls : List String}
    (hreads : ∀ earlier url rest, urls = earlier ++ url :: rest → s.Reads op (h.answered earlier) url) :
    h.AnswersBy G urls := by
  intro earlier url rest heq r a id ha hid
  exact hsupplies id (some a) _ (.read (hreads earlier url rest heq) ha hid)

variable (hmade : ∀ id e, e ≠ Rejection.disconnected → e ≠ .timeout → G id (.error e))
include hmade

/-- The reply to a fetch is supplied, or says that the URL could not be read. -/
theorem fetch_of_supplies (ht : s.bridge.config.transport = .fetch) {path : String} {args : Args}
    (hop : op.request? = some (path, args)) (url : String) (r : FetchReply)
    (henc : s.bridge.config.codec.encode path args (s.bridge.idOf s.bridge.registry.count) = .ok url)
    (hr : (s.bridge.host.fetch url).1 = some r) : G (s.bridge.idOf s.bridge.registry.count) (settlementOf r) := by
  have hf : s.Fetches op url := ⟨ht, path, args, hop, henc⟩
  rcases Host.fetch_cases hr with hfixed | ⟨hrouted, q, a, ha, rfl⟩ | ⟨text, rfl⟩
  · exact hsupplies _ _ _ (.fixed hf hfixed)
  · exact hsupplies _ _ _ (.fetched hf hrouted ha)
  · exact hmade _ _ (by simp) (by simp)

/-- What is supplied is all that fetches hold after an operation. -/
theorem stored_step (hstored : Stored G s.bridge) : Stored G (s.step op).2.bridge := by
  cases op with
  | call path args timeout =>
    exact hstored.call (fun ht => fetch_of_supplies hsupplies hmade ht rfl) timeout
  | callNamed name path args =>
    have hregistered : Stored G (s.bridge.registerHandler name).2 :=
      (invariant_stored G).caller.registerHandler name hstored
    exact hregistered.call (fun ht => fetch_of_supplies hsupplies hmade ht rfl) none
  | reply n r => exact hstored.reply n fun id hid => hsupplies id none _ (.reply hid r)
  | _ =>
    refine (invariant_stored G).step _ (fun path args hreq => by cases hreq) (fun n r hop => by cases hop) hstored

/-- All operations but looks and drops settle, and only what is supplied or made up. -/
theorem settlesBy_events (htimers : ∀ t ∈ (s.step op).2.bridge.timers, t.deadline ≤ (s.step op).2.bridge.clock →
      G t.id (.error .timeout)) (hstored : Stored G s.bridge) (hop : op.owns = false) :
    ∀ e ∈ s.events op, e.SettlesBy G := by
  have hcancel := settlesBy_cancelEvents (fun id => hmade id .canceled (by simp) (by simp)) s.bridge
  intro e he
  cases op with
  | call path args timeout => exact settlesBy_callEvents hmade s.bridge path args timeout e he
  | callNamed name path args =>
    exact settlesBy_callEvents hmade (s.bridge.registerHandler name).2 path args none e he
  | poll k => cases hop
  | drop k => cases hop
  | cancel k =>
    rcases cancel_cases s k with ⟨-, hnone⟩ | ⟨handle, outcome, -, hevents, -⟩
    · rw [hnone] at he
      exact absurd he List.not_mem_nil
    · rw [hevents] at he
      exact hcancel handle e he
  | cancelDetached k =>
    simp only [events] at he
    split at he
    · exact hcancel _ e he
    · exact absurd he List.not_mem_nil
  | invoke id data error =>
    rw [List.mem_singleton.mp he]
    exact hsupplies id none _ (.invoke id data error)
  | reject id r =>
    rw [List.mem_singleton.mp he]
    exact hsupplies id none _ (.reject id r)
  | tick =>
    have hread := answersBy_of_reads hsupplies fun earlier url rest heq => .tick heq
    obtain ⟨hset, hclock⟩ := Prod.mk.inj (times_tick s.bridge)
    have hdue : ∀ t ∈ s.bridge.timers, t.deadline ≤ s.bridge.clock → G t.id (.error .timeout) := fun t ht hd =>
      htimers t (hset.symm ▸ ht) (hclock.symm ▸ hd)
    exact settlesBy_readyEvents hdue hstored hread s.bridge.ready e he
  | advance ms =>
    have hread := answersBy_of_reads hsupplies fun earlier url rest heq => .advance heq
    -- before the clock moves and after, the host reads two different lists of loads
    have hlater := answersBy_of_reads hsupplies fun earlier url rest heq => .later heq
    obtain ⟨hset, hclock⟩ := Prod.mk.inj (times_advance s.bridge ms)
    have hdue : ∀ t ∈ s.bridge.timers, t.deadline ≤ s.bridge.clock + ms → G t.id (.error .timeout) := fun t ht hd =>
      htimers t (hset.symm ▸ ht) (hclock.symm ▸ hd)
    exact settlesBy_advanceEvents hdue hstored hread hlater e he
  | answer url =>
    exact settlesBy_answerEvents (fun r a id ha hid => hsupplies id _ _ (.read (.answer url) ha hid)) e he
  | answerNext =>
    rcases hl : s.bridge.page.loads with _ | ⟨url, rest⟩
    all_goals simp only [events, takeLoad, hl] at he
    · exact absurd he List.not_mem_nil
    · exact settlesBy_answerEvents (fun r a id ha hid => hsupplies id _ _ (.read (.answerNext hl) ha hid)) e he
  | _ => exact absurd he List.not_mem_nil

end

/-- The events of somebody who looks at a call or drops it settle nothing. -/
theorem not_settled_of_owns {op : Op} (hop : op.owns) (id : String) (v : Settlement) :
    .aimed id (.settled v) ∉ s.events op := by
  intro he
  cases op with
  | poll k =>
    rcases poll_cases s k with ⟨-, hnone⟩ | ⟨n | d, -, hevents⟩
    · rw [hnone] at he
      exact absurd he List.not_mem_nil
    · rw [hevents] at he
      simp [pollEvents] at he
    · simp only [hevents, pollEvents, pollDialogEvents] at he
      split at he
      · exact absurd he List.not_mem_nil
      · split at he <;> simp at he
  | drop k =>
    rcases drop_cases s k with ⟨-, hnone⟩ | ⟨n | ⟨name, token, _ | n⟩, outcome, -, hevents, -⟩
    · rw [hnone] at he
      exact absurd he List.not_mem_nil
    all_goals rw [hevents] at he; simp [dropEvents] at he
  | _ => cases hop

/-! ## Runs -/

/-- What requests may be settled with in a run: with timeouts of timers that have run out, with what is
supplied, and with all else that the bridge makes up. -/
structure Allows (s : Session σ) (G : List Op → String → Settlement → Prop) : Prop where
  more : ∀ {ops id v} more, G ops id v → G (ops ++ more) id v
  held : Stored (G []) s.bridge
  made : ∀ ops id e, e ≠ Rejection.disconnected → e ≠ .timeout → G ops id (.error e)
  timers : ∀ ops, ∀ t ∈ (s.run ops).bridge.timers, t.deadline ≤ (s.run ops).bridge.clock → G ops t.id (.error .timeout)
  supplied : ∀ {ops op id source v}, (s.run ops).Supplies op id source v → G (ops ++ [op]) id v

/-- **Requests are settled as is allowed**, and fetches hold nothing else. -/
theorem settlesBy_run {G : List Op → String → Settlement → Prop} (hG : s.Allows G) (ops : List Op) :
    Stored (G ops) (s.run ops).bridge ∧ ∀ id v, .aimed id (.settled v) ∈ s.history ops → G ops id v := by
  induction ops using List.reverseRecOn with
  | nil => exact ⟨hG.held, fun id v he => absurd he List.not_mem_nil⟩
  | append_singleton ops op ih =>
    obtain ⟨hstored, hevents⟩ := ih
    have hmore : ∀ id v, G ops id v → G (ops ++ [op]) id v := fun id v => hG.more [op]
    have hstored : Stored (G (ops ++ [op])) (s.run ops).bridge := hstored.imp hmore
    refine ⟨?_, fun id v he => ?_⟩
    · rw [run_concat]
      exact stored_step (fun _ _ _ => hG.supplied) (hG.made _) hstored
    · rw [history_concat] at he
      rcases List.mem_append.mp he with he | he
      · exact hmore id v (hevents id v he)
      · -- who looks or drops settles nothing, and all others only as is allowed
        by_cases hop : op.owns
        · exact absurd he (not_settled_of_owns hop id v)
        · have hother : op.owns = false := by simpa using hop
          refine settlesBy_events (fun _ _ _ => hG.supplied) (hG.made _) (fun t ht hdue => ?_) hstored hother _ he
          rw [← run_concat] at ht hdue
          exact hG.timers _ t ht hdue

/-- A settlement for a request was made up by the bridge, or held by a fetch before a run, or supplied in
the run. -/
def Came (s : Session σ) (ops : List Op) (id : String) (v : Settlement) : Prop :=
  (∃ e, v = .error e ∧ e ≠ .disconnected) ∨
    (∃ f ∈ s.bridge.fetches, f.id = id ∧ ∃ r, f.reply = some r ∧ settlementOf r = v) ∨
    ∃ earlier op later source, ops = earlier ++ op :: later ∧ (s.run earlier).Supplies op id source v

theorem Came.append {ops : List Op} {id : String} {v : Settlement} (h : s.Came ops id v) (more : List Op) :
    s.Came (ops ++ more) id v := by
  rcases h with hmade | hheld | ⟨earlier, op, later, source, rfl, hsupplies⟩
  · exact .inl hmade
  · exact .inr (.inl hheld)
  · exact .inr (.inr ⟨earlier, op, later ++ more, source, by simp, hsupplies⟩)

theorem allows_came (s : Session σ) : s.Allows s.Came where
  more more h := h.append more
  held f hf r hr := .inr (.inl ⟨f, hf, rfl, r, hr, rfl⟩)
  made _ _ e he _ := .inl ⟨e, rfl, he⟩
  timers _ _ _ _ := .inl ⟨.timeout, rfl, by simp⟩
  supplied h := .inr (.inr ⟨_, _, [], _, rfl, h⟩)

/-- **Every settlement was made up by the bridge or supplied.** -/
theorem came_of_mem_history {ops : List Op} {id : String} {v : Settlement}
    (he : .aimed id (.settled v) ∈ s.history ops) : s.Came ops id v :=
  (settlesBy_run (allows_came s) ops).2 id v he

/-- What no host says is supplied by hand, or by a fetcher. -/
theorem Supplies.by_hand {op : Op} {id : String} {source : Option HostAnswer} {e : Rejection}
    (he : e.isForeign = false) (h : s.Supplies op id source (.error e)) :
    op = .reject id e ∨ (∃ n, op = .reply n (.error e)) ∨ s.bridge.host.conduct = .fixed (.error e) := by
  have hnever : ∀ {e'}, e' = e → e'.isForeign = true → False := fun heq hf => by
    rw [heq, he] at hf
    cases hf
  -- the error is named apart, since the cases of what is supplied are by the settlement
  generalize hv : (Except.error e : Settlement) = v at h
  cases h with
  | invoke _ data error => exact (hnever rfl (Reply.foreign_of_settle data error hv.symm)).elim
  | reject _ e' => exact .inl (by rw [Except.error.inj hv])
  | reply h r => exact .inr (.inl ⟨_, by rw [(settlementOf_eq_error he).mp hv.symm]⟩)
  | fixed hf hfixed => exact .inr (.inr (by rw [hfixed, (settlementOf_eq_error he).mp hv.symm]))
  | @fetched _ _ _ a =>
    have hreply := (settlementOf_eq_error he).mp hv.symm
    cases a with
    | routed answer => cases hreply
    | unknownResource path => exact (hnever (Except.error.inj hreply) rfl).elim
  | read hr ha hid => exact (hnever rfl (Host.foreign_of_settlementOf hv.symm)).elim

/-- **Nobody is told that the other side is gone unless the host or the fetcher supplied that.** -/
theorem disconnected_of_mem_history {ops : List Op} {id : String} (hfetches : s.bridge.fetches = [])
    (he : .aimed id (.settled (.error .disconnected)) ∈ s.history ops) :
    .reject id .disconnected ∈ ops ∨ (∃ n, .reply n (.error .disconnected) ∈ ops) ∨
      s.bridge.host.conduct = .fixed (.error .disconnected) := by
  rcases came_of_mem_history he with ⟨e, heq, hne⟩ | ⟨f, hf, -⟩ | ⟨earlier, op, later, source, rfl, hsupplies⟩
  · exact absurd (Except.error.inj heq).symm hne
  · rw [hfetches] at hf
    exact absurd hf List.not_mem_nil
  · have hop : op ∈ earlier ++ op :: later := List.mem_append_right _ List.mem_cons_self
    have hconduct : (s.run earlier).bridge.host.conduct = s.bridge.host.conduct :=
      congrArg (·.2.2.1.1) (frame_run s earlier)
    rcases hsupplies.by_hand rfl with rfl | ⟨n, rfl⟩ | hfixed
    · exact .inl hop
    · exact .inr (.inl ⟨n, hop⟩)
    · exact .inr (.inr (hconduct ▸ hfixed))

end Session

end Bridge

end Hostlink
