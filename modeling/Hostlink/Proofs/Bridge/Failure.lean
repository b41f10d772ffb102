import Hostlink.Proofs.Bridge.RoundTrip

/-!
# Failures of handlers

A handler that fails makes the page's call fail, over either transport, and whatever the error holds. The
empty text is the one error that does not count as one: a page takes it for a value.

* `Bridge.Meets`, `Bridge.carried` — what the host answers to a URL, and what that settles;
* `Session.rejected_call_tick` — a call that is left alone and meets a failure reads an error;
* `Session.rejected_by_script`, `Session.settled_by_tick` — so does a call that waits, whenever a failure comes;
* `Session.suppliedApart_of_value` — **a value that a call reads does not come from a failure**;
* `Session.failures_rejected` — **a failure never looks like a success**, if it says anything;
* `Session.blank_failure_resolves` — one that says nothing does.
-/

namespace Hostlink

open Registry (Ending Event History)

namespace Bridge

variable {σ : Type} {b : Bridge σ} {id url : String} {a : HostAnswer}

/-! ## Answers on their way -/

/-- A URL that is handed over now meets an answer: at once over a fetch, and over a script once the host has
read the scripts that were loaded before. -/
def Meets (b : Bridge σ) (id url : String) (a : HostAnswer) : Prop :=
  match b.config.transport with
  | .fetch => b.host.conduct = .routed ∧ ∃ name, b.host.GivesAfter [] url name a
  | .scriptTag => b.host.conduct = .routed ∧ b.host.connected = true ∧
      (∃ e page, insertScript b.page url = (some e, page) ∧ page.loads = b.page.loads ++ [url]) ∧
      b.host.GivesAfter b.page.loads url (some id) a

/-- What an answer settles at the other end of a transport. -/
def carried (t : Transport) (a : HostAnswer) : Settlement :=
  match t with
  | .fetch => settlementOf (Host.replyOf a)
  | .scriptTag => Host.settlementOf a

theorem Meets.delivers (h : b.Meets id url a) : b.Delivers id url (carried b.config.transport a) := by
  rw [Meets] at h
  rw [Delivers]
  cases ht : b.config.transport with
  | fetch =>
    rw [ht] at h
    obtain ⟨hrouted, name, hgives⟩ := h
    exact ⟨hrouted, name, a, hgives, rfl⟩
  | scriptTag =>
    rw [ht] at h
    obtain ⟨hrouted, hconnected, hplace, hgives⟩ := h
    exact ⟨hrouted, hconnected, hplace, a, hgives, rfl⟩

/-- Neither transport carries a failure as a value. -/
theorem carried_failure {e : HostError} (he : e ≠ .text "") (t : Transport) :
    ∃ x, carried t (.routed (.error e)) = .error x := by
  cases t with
  | fetch => exact Reply.decode_encode_failure he
  | scriptTag => exact ⟨_, Reply.settle_failure he .null⟩

namespace Session

/-- In a run, a value was supplied for a request, and not by a handler that failed with `e`. -/
def SuppliedApart (s : Session σ) (e : HostError) (ops : List Op) (id : String) (v : Json) : Prop :=
  ∃ earlier op later source, ops = earlier ++ op :: later ∧ (s.run earlier).Supplies op id source (.ok v) ∧
    source ≠ some (.routed (.error e))

/-- What is supplied by a handler that failed is an error. -/
theorem error_of_supplies {s : Session σ} {op : Op} {source : Option HostAnswer} {w : Settlement} {e : HostError}
    (he : e ≠ .text "") (hfailed : source = some (.routed (.error e))) (h : s.Supplies op id source w) :
    ∃ x, w = .error x := by
  cases h with
  | fetched hf hrouted ha =>
    rw [Option.some.inj hfailed]
    exact carried_failure he .fetch
  | read hr ha hid =>
    rw [Option.some.inj hfailed]
    exact carried_failure he .scriptTag
  | _ => cases hfailed

/-! ## Calls that meet a failure -/

section

variable {config : Config} {actual : Transport} {runtime : Bool} {page : Document} {host : Host σ}
  (hb : Bridge.new config actual runtime page host = .ok b)
include hb

/-- A call whose URL meets an answer is settled by it in the next tick, unless its time is over at once. -/
theorem settled_by_answer (first : List Op) {path : String} {args : Args} {timeout : Option Nat} {hasty : Prop} :
    let s := (new b).run first
    let id := s.bridge.idOf s.bridge.registry.count
    runtime = true → config.codec.encode path args id = .ok url → s.bridge.Meets id url a →
      (∀ u ∈ s.bridge.page.loads, s.bridge.host.codec.Spares id u) →
      (hasty ∨ timeout.or config.effectiveTimeout ≠ some 0) →
      ∃ w, ((s.run [.call path args timeout, .tick]).poll s.held.length).1 = .settled w ∧
        (w = carried config.transport a ∨ hasty ∧ w = .error .timeout) := by
  intro s id hrun henc hmeets hspares hlimit
  obtain ⟨hconfig, hruntime, -, -⟩ := setUp_run hb first
  have hdelivers := hmeets.delivers
  rw [hconfig] at hdelivers
  obtain ⟨⟨task, hawaits⟩, hevents⟩ := awaits_call (sound_run hb first) (traced_run (s := new b) (traced_new hb) first)
    (hruntime.trans hrun) hspares (hconfig ▸ henc) (hconfig ▸ hlimit) hdelivers
  exact settled_call_tick hb first hevents hawaits

/-- A call whose URL meets a failure reads an error after the next tick, and nothing else later. -/
theorem rejected_call_tick (first : List Op) {path : String} {args : Args} {timeout : Option Nat} {e : HostError}
    (he : e ≠ .text "") :
    let s := (new b).run first
    let id := s.bridge.idOf s.bridge.registry.count
    let t := s.run [.call path args timeout, .tick]
    runtime = true → config.codec.encode path args id = .ok url → s.bridge.Meets id url (.routed (.error e)) →
      (∀ u ∈ s.bridge.page.loads, s.bridge.host.codec.Spares id u) →
      ∃ x, (t.poll s.held.length).1 = .settled (.error x) ∧
        ∀ more w, ((t.run more).poll s.held.length).1 = .settled w → w = .error x := by
  intro s id t hrun henc hmeets hspares
  have hlimit : True ∨ timeout.or config.effectiveTimeout ≠ some 0 := .inl trivial
  obtain ⟨w, hread, hw⟩ := settled_by_answer hb first hrun henc hmeets hspares hlimit
  obtain ⟨x, rfl⟩ : ∃ x, w = .error x := by
    -- the failure comes in time, or the limit of the call before it
    rcases hw with rfl | ⟨-, rfl⟩
    · exact carried_failure he config.transport
    · exact ⟨.timeout, rfl⟩
  refine ⟨x, hread, ?_⟩
  intro more w hlater
  have hrun : t = (new b).run (first ++ [.call path args timeout, .tick]) := (run_append (new b) first _).symm
  have hcall : t.callAt s.held.length = some s.bridge.registry.count := callAt_made s path args timeout [.tick]
  rw [hrun] at hcall hlater
  exact poll_run_again hb _ more hcall (hrun ▸ hread) hlater

/-- A call that waits fails as soon as the host reads a script that names it and meets a failure. -/
theorem rejected_by_script (ops : List Op) {k n : Nat} {op : Op} {r : Request} {e : HostError} (he : e ≠ .text "") :
    let s := (new b).run ops
    s.callAt k = some n → (s.poll k).1 = .pending → s.bridge.host.connected = true →
      (op = .answer url ∨ op = .answerNext ∧ s.bridge.page.loads.head? = some url) →
      (s.bridge.host.answer url).1 = .ok (r, .routed (.error e)) → r.callback = some (s.bridge.idOf n) →
      ((s.step op).2.poll k).1 = .settled (.error (.host (.ofJson e.toJson))) := by
  intro s hcall hpending hconnected hop hanswer hid
  have hstem : s.bridge.registry.stem = config.callbackStem := stem_run hb ops
  -- said of any bridge with this host, since the URL may have been taken off the page before
  have hevent : ∀ c : Bridge σ, c.host = s.bridge.host → (c.answerEvents url).findSome?
      (Event.endingOf? (Registry.idOf config.callbackStem n)) =
        some (.settled (.error (.host (.ofJson e.toJson)))) := by
    intro c hhost
    rw [answerEvents, hhost, if_pos hconnected, hanswer]
    dsimp only
    rw [hid, idOf, hstem, Host.settlementOf, Reply.settle_failure he]
    simp [Event.endingOf?]
  have hkept : op ≠ .drop k := by
    rcases hop with rfl | ⟨rfl, -⟩
    all_goals simp
  have hfound : (s.events op).findSome? (Event.endingOf? (Registry.idOf config.callbackStem n)) =
      some (.settled (.error (.host (.ofJson e.toJson)))) := by
    rcases hop with rfl | ⟨rfl, hhead⟩
    · exact hevent s.bridge rfl
    · obtain ⟨rest, hloads⟩ := List.head?_eq_some_iff.mp hhead
      have htaken : s.bridge.takeLoad = (some url, { s.bridge with page := { s.bridge.page with loads := rest } }) := by
        rw [takeLoad, hloads]
      rw [events, htaken]
      exact hevent _ rfl
  rw [poll_step_of_pending hb ops hcall hpending hkept]
  exact congrArg findingOf hfound

/-- A call that waits is settled by the next tick if an answer is on its way to it. -/
theorem settled_by_tick (ops : List Op) {k n : Nat} {task : Task} {w : Settlement} :
    let s := (new b).run ops
    s.callAt k = some n → (s.poll k).1 = .pending → task ∈ s.bridge.ready →
      s.bridge.Brings (s.bridge.idOf n) w task → ∃ w', ((s.step .tick).2.poll k).1 = .settled w' := by
  intro s hcall hpending hready hbrings
  have hdue : s.bridge.Due (s.bridge.idOf n) w task :=
    ⟨traced_run (s := new b) (traced_new hb) ops, hready, hbrings⟩
  have howns : Op.owns .tick = false := rfl
  obtain ⟨w', hfound, -⟩ := hdue.tickEvents.settled (settles_events (s := s) howns)
  have hstem : s.bridge.registry.stem = config.callbackStem := stem_run hb ops
  rw [idOf, hstem] at hfound
  have hop : Op.tick ≠ .drop k := by simp
  refine ⟨w', ?_⟩
  rw [poll_step_of_pending hb ops hcall hpending hop]
  exact congrArg findingOf hfound

/-- **A value that a call reads does not come from a failure.** It was supplied after the call was made, and by
something else. -/
theorem suppliedApart_of_value (first more : List Op) {path : String} {args : Args} {timeout : Option Nat} {v : Json}
    {e : HostError} (he : e ≠ .text "") :
    let s := (new b).run first
    let ops : List Op := .call path args timeout :: more
    ((s.run ops).poll s.held.length).1 = .settled (.ok v) →
      s.SuppliedApart e ops (s.bridge.idOf s.bridge.registry.count) v := by
  intro s ops hread
  let h := (new b).history first
  let id := s.bridge.idOf s.bridge.registry.count
  have hcount : s.bridge.registry.count = h.opened := (follows_history hb first).count_eq
  have hstem : s.bridge.registry.stem = config.callbackStem := stem_run hb first
  have hid : id = Registry.idOf config.callbackStem h.opened := by
    rw [show id = Registry.idOf s.bridge.registry.stem s.bridge.registry.count from rfl, hstem, hcount]
  have hrun : s.run ops = (new b).run (first ++ ops) := (run_append (new b) first ops).symm
  have hcall : ((new b).run (first ++ ops)).callAt s.held.length = some h.opened := by
    rw [← hrun, ← hcount]
    exact callAt_made s path args timeout more
  -- what the call reads was aimed at it after it was made
  have hmem : .aimed id (.settled (.ok v)) ∈ s.history ops := by
    let rest := failureEvents id (s.bridge.failure? id path args timeout) ++
      (s.step (.call path args timeout)).2.history more
    have hhistory : s.history ops = .opened :: rest := rfl
    have hend := ending_of_poll_run hb (first ++ ops) hcall (hrun ▸ hread)
    rw [history_append, hhistory, History.ending?_opened] at hend
    rw [hhistory, hid]
    exact List.mem_cons_of_mem _ (Event.aimed_mem_of_findSome? hend)
  rcases came_of_mem_history hmem with ⟨x, heq, -⟩ | ⟨f, hf, hfid, -⟩ | ⟨earlier, op, later, source, heq, hsupplies⟩
  · cases heq
  · -- no fetch is older than its request
    obtain ⟨n, hn, heq⟩ := (traced_run (s := new b) (traced_new hb) first).fetches f.id (List.mem_map_of_mem hf)
    exact absurd (Registry.idOf_inj.mp (heq.symm.trans hfid)) (Nat.ne_of_lt hn)
  · -- a failure supplies errors only, and this is a value
    refine ⟨earlier, op, later, source, heq, hsupplies, fun hfailed => ?_⟩
    obtain ⟨x, hx⟩ := error_of_supplies he hfailed hsupplies
    cases hx

/-- **A failure never looks like a success**, unless it is the empty text. Over a fetch its body is read as an
error, and so is its value over a script. A call that is left alone and meets a failure reads an error after the
next tick, and nothing else ever. In whatever state a call waits, it reads the error once the host has read its
script, and it is settled by the tick that brings the failure; and whatever value it reads was supplied by
something else. -/
theorem failures_rejected {e : HostError} (he : e ≠ .text "") :
    (∃ x, Reply.decode (Reply.encode (.error e)) = .error x) ∧
    Reply.settle .null (some e.toJson) = .error (.host (.ofJson e.toJson)) ∧
    ∀ first path args timeout,
      let s := (new b).run first
      let id := s.bridge.idOf s.bridge.registry.count
      let k := s.held.length
      (∀ url, runtime = true → config.codec.encode path args id = .ok url →
        s.bridge.Meets id url (.routed (.error e)) →
        (∀ u ∈ s.bridge.page.loads, s.bridge.host.codec.Spares id u) →
        let t := s.run [.call path args timeout, .tick]
        ∃ x, (t.poll k).1 = .settled (.error x) ∧
          ∀ more w, ((t.run more).poll k).1 = .settled w → w = .error x) ∧
      ∀ more,
        let ops : List Op := .call path args timeout :: more
        let t := s.run ops
        ((t.poll k).1 = .pending →
          (∀ op url r, t.bridge.host.connected = true →
            (op = .answer url ∨ op = .answerNext ∧ t.bridge.page.loads.head? = some url) →
            (t.bridge.host.answer url).1 = .ok (r, .routed (.error e)) → r.callback = some id →
            ((t.step op).2.poll k).1 = .settled (.error (.host (.ofJson e.toJson)))) ∧
          ∀ task ∈ t.bridge.ready, t.bridge.Brings id (carried config.transport (.routed (.error e))) task →
            ∃ w, ((t.step .tick).2.poll k).1 = .settled w) ∧
        ∀ v, (t.poll k).1 = .settled (.ok v) → s.SuppliedApart e ops id v := by
  refine ⟨Reply.decode_encode_failure he, Reply.settle_failure he .null, ?_⟩
  intro first path args timeout s id k
  constructor
  · intro url hrun henc hmeets hspares
    exact rejected_call_tick hb first he hrun henc hmeets hspares
  · intro more ops t
    have hrun : t = (new b).run (first ++ ops) := (run_append (new b) first ops).symm
    have hcall : t.callAt k = some s.bridge.registry.count := callAt_made s path args timeout more
    have hid : t.bridge.idOf s.bridge.registry.count = id := by
      have hstem : t.bridge.registry.stem = s.bridge.registry.stem := by
        rw [hrun]
        exact (stem_run hb (first ++ ops)).trans (stem_run hb first).symm
      exact congrArg (Registry.idOf · s.bridge.registry.count) hstem
    -- what is said of `t` was proved of runs from the beginning
    constructor
    · intro hpending
      constructor
      · intro op url r hconnected hop hanswer hcallback
        rw [← hid] at hcallback
        rw [hrun] at hcall hpending hconnected hop hanswer hcallback ⊢
        exact rejected_by_script hb (first ++ ops) he hcall hpending hconnected hop hanswer hcallback
      · intro task hready hbrings
        rw [← hid] at hbrings
        rw [hrun] at hcall hpending hready hbrings ⊢
        exact settled_by_tick hb (first ++ ops) hcall hpending hready hbrings
    · intro v hread
      exact suppliedApart_of_value hb first more he hread

end

/-- A handler that fails without arguments is read so over scripts, now and later. -/
theorem failures_rejected_silence :
    let s := (new echoBridge).run [.call "/echo" .none none, .tick]
    Bridge.new .scriptTag .scriptTag true (.withScripts true []) echoHost = .ok echoBridge ∧
      HostError.text "silence" ≠ .text "" ∧
      ∃ x, (s.poll 0).1 = .settled (.error x) ∧
        ∀ more w, ((s.run more).poll 0).1 = .settled w → w = .error x := by
  intro s
  let id := Registry.idOf Config.scriptTag.callbackStem 0
  obtain ⟨url, henc⟩ : ∃ url, Config.scriptTag.codec.encode "/echo" .none id = .ok url := ⟨_, rfl⟩
  have hplain : Url.PlainPath "/echo" := by decide
  have hdecode : echoHost.codec.decode url = .ok ⟨"/echo", .none, some id⟩ :=
    Codec.decode_encode rfl rfl hplain (fun v hv => by cases hv) henc
  have hgives : echoHost.Gives url (some id) (.routed (.error (.text "silence"))) :=
    Host.answers_outcome stateless_echoHost hdecode
  have hplace : ∃ e page, insertScript echoBridge.page url = (some e, page) ∧
      page.loads = echoBridge.page.loads ++ [url] :=
    (shows_run (s := new echoBridge) (shows_new new_echo) []).insertScript (.inl rfl) url
  have hmeets : echoBridge.Meets id url (.routed (.error (.text "silence"))) :=
    ⟨rfl, rfl, hplace, hgives.after _⟩
  have hfailure : HostError.text "silence" ≠ .text "" := by simp
  obtain ⟨-, -, hcalls⟩ := failures_rejected new_echo hfailure
  exact ⟨new_echo, hfailure, (hcalls [] "/echo" .none none).1 url rfl henc hmeets fun u hu => by cases hu⟩

end Session

/-! ## The empty text -/

/-- A handler that fails and says nothing. -/
def blank : RouteHandler Unit := fun _ => throw (.ofJson (.string ""))

/-- A host with one route, which fails so. -/
def blankHost : Host Unit := ⟨.routed, ⟨[("blank", blank)]⟩, (), Config.fetch.codec, true, []⟩

/-- A fresh bridge to that host over fetches. -/
def blankBridge : Bridge Unit := fresh .fetch true .new blankHost

theorem new_blank : Bridge.new .fetch .fetch true .new blankHost = .ok blankBridge := rfl

namespace Session

/-- The empty text is an error that a handler can fail with, and no page takes it for one: its body reads as
`null`, a callback with it reads as its data, and a call to such a handler resolves. -/
theorem blank_failure_resolves :
    Bridge.new .fetch .fetch true .new blankHost = .ok blankBridge ∧
    HostError.Built (.ofJson (.string "")) ∧
    Reply.decode (Reply.encode (.error (.ofJson (.string "")))) = .ok .null ∧
    Reply.settle .null (some (HostError.ofJson (.string "")).toJson) = .ok .null ∧
    (((new blankBridge).run [.call "/blank" .none none, .tick]).poll 0).1 = .settled (.ok .null) := by
  refine ⟨new_blank, .ofJson _ trivial, Reply.decode_encode_blank, rfl, ?_⟩
  let id := Registry.idOf Config.fetch.callbackStem 0
  obtain ⟨url, henc⟩ : ∃ url, Config.fetch.codec.encode "/blank" .none id = .ok url := ⟨_, rfl⟩
  have hplain : Url.PlainPath "/blank" := by decide
  have hdecode := Codec.decode_encode (c := Config.fetch.codec) rfl rfl hplain (fun v hv => by cases hv) henc
  have hgives := Host.answers_outcome (h := blankHost) (fun _ _ _ _ _ _ => rfl) hdecode
  have hmeets : blankBridge.Meets id url (.routed (.error (.text ""))) := ⟨rfl, _, hgives.after _⟩
  obtain ⟨w, hread, rfl | ⟨hnever, -⟩⟩ := settled_by_answer new_blank [] rfl henc hmeets (fun u hu => by cases hu)
    (show False ∨ (none.or Config.fetch.effectiveTimeout) ≠ some 0 from .inr (by decide))
  · exact hread.trans (congrArg Finding.settled Reply.decode_encode_blank)
  · exact hnever.elim

end Session

end Bridge

end Hostlink
