import Hostlink.Proofs.Bridge.Exchange

/-!
# What a host is asked

A request that is sent reaches the host once: at once by a fetch, or when the host reads the scripts that the
page has loaded. What becomes of the request in between does not matter to the host.

* `Bridge.Unasked` — the host has nothing new to read;
* `Bridge.intake` — what the host has read, and what it is to read;
* `Bridge.sentRequest?` — the request of a call, if it is sent;
* `Bridge.intake_call` — **a call adds its request to the intake if it is sent, and nothing otherwise**;
* `Session.seen_run` — **the host reads every request that was sent, once and in order**.
-/

namespace Hostlink

/-! ## Hosts -/

/-- What a host reads of URLs. -/
def Host.reads {σ : Type} (h : Host σ) (urls : List String) : List Request :=
  urls.filterMap fun url => (h.codec.decode url).toOption

theorem Host.seen_answer {σ : Type} (h : Host σ) (url : String) : (h.answer url).2.seen = h.seen ++ h.reads [url] := by
  unfold Host.answer
  cases hd : h.codec.decode url with
  | error e => simp [reads, hd, Except.toOption]
  | ok r =>
    dsimp only
    split <;> simp [reads, hd, Except.toOption]

/-- A host reads URLs one after another. -/
theorem Host.seen_answered {σ : Type} (h : Host σ) (urls : List String) :
    (h.answered urls).seen = h.seen ++ h.reads urls := by
  induction urls generalizing h with
  | nil => exact (List.append_nil _).symm
  | cons url urls ih =>
    have hcodec : (h.answer url).2.codec = h.codec := congrArg (·.2.2.1) (h.frame_answer url)
    have hreads : h.reads (url :: urls) = h.reads [url] ++ h.reads urls := List.filterMap_append (l := [url])
    calc ((h.answer url).2.answered urls).seen = (h.answer url).2.seen ++ (h.answer url).2.reads urls := ih _
      _ = h.seen ++ h.reads [url] ++ h.reads urls := by rw [h.seen_answer, reads, reads, reads, hcodec]
      _ = h.seen ++ h.reads (url :: urls) := by rw [hreads, List.append_assoc]

namespace Bridge

variable {σ : Type} {b c d : Bridge σ}

/-! ## Nothing new -/

/-- The host has nothing new to read, and reads as soon as it did. -/
structure Unasked (b c : Bridge σ) : Prop where
  traffic : c.traffic = b.traffic
  serves : Task.serve ∈ b.ready → Task.serve ∈ c.ready

theorem Unasked.trans (hc : b.Unasked c) (hd : c.Unasked d) : b.Unasked d :=
  ⟨hd.traffic.trans hc.traffic, fun h => hd.serves (hc.serves h)⟩

theorem unasked_after (b : Bridge σ) (effects : List (Effect Artefact Nat)) (r : Registry Artefact Nat) :
    b.Unasked (b.after effects r) :=
  ⟨traffic_after b effects r, serve_mem_after r⟩

/-- What is done at the page leaves the host alone. -/
theorem unasked_invariant (b : Bridge σ) : CallerInvariant b.Unasked where
  settle _ _ hc := hc.trans (unasked_after _ _ _)
  forget _ hc := hc.trans (unasked_after _ _ _)
  readInbox _ hc := hc.trans ⟨rfl, id⟩
  dropInbox _ hc := hc.trans ⟨rfl, id⟩
  pushes _ _ _ _ hc := hc.trans ⟨rfl, id⟩

theorem Unasked.refl (b : Bridge σ) : b.Unasked b := ⟨rfl, id⟩

/-- Setting a timer leaves the host alone. -/
theorem unasked_limited {id : String} {limit : Option Nat} (h : b.Limited id limit d) : b.Unasked d := by
  cases limit with
  | none => exact h ▸ .refl b
  | some ms =>
    have harmed : b.Unasked (b.armed id ms) := ⟨rfl, List.mem_append_left _⟩
    exact armTimer_ok h ▸ harmed.trans (unasked_after (b.armed id ms) _ _)

/-- So does a URL that cannot be handed over. -/
theorem unasked_missed {id url : String} {e : Rejection} (h : b.trigger id url = .error e) :
    b.Unasked (b.missed url) := by
  have hloads := loads_missed h
  obtain ⟨page, hmissed⟩ := missed_eq b url
  rw [hmissed] at hloads ⊢
  exact ⟨Prod.ext rfl hloads, fun h => h⟩

theorem unasked_reply (b : Bridge σ) (n : Nat) (r : FetchReply) : b.Unasked (b.reply n r).2 := by
  rcases reply_cases b n r with heq | ⟨f, g, more, -, -, -, -, heq⟩ <;> rw [heq]
  · exact .refl b
  · exact ⟨rfl, List.mem_append_left _⟩

/-! ## What the host has read, and is to read -/

/-- The requests that the host has read, and those that it is to read. -/
def intake (b : Bridge σ) : List Request := b.host.seen ++ b.host.reads b.page.loads

/-- What the host is to read, it reads with the next tick. Over fetch, it is asked at once. -/
def Attended (t : Transport) (b : Bridge σ) : Prop := b.page.loads = [] ∨ t = .scriptTag ∧ .serve ∈ b.ready

theorem intake_of_traffic {h : Host σ} {urls : List String} (ht : b.traffic = (h, urls)) :
    b.intake = h.seen ++ h.reads urls := by
  obtain ⟨rfl, rfl⟩ := Prod.mk.inj ht
  rfl

namespace Unasked

variable (h : b.Unasked c)
include h

theorem intake_eq : c.intake = b.intake := intake_of_traffic h.traffic

theorem attended {t : Transport} (hb : b.Attended t) : c.Attended t := by
  have hloads : c.page.loads = b.page.loads := congrArg (·.2) h.traffic
  exact hb.imp hloads.trans fun hscript => ⟨hscript.1, h.serves hscript.2⟩

end Unasked

/-- After a tick, the host has read what there was. -/
theorem intake_tick {t : Transport} (hconnected : b.host.connected = true) (hb : b.Attended t) :
    b.tick.intake = b.intake ∧ b.tick.page.loads = [] ∧ b.tick.host.seen = b.intake := by
  have ht := traffic_tick hconnected (hb.imp_right And.right)
  obtain ⟨hhost, hloads⟩ := Prod.mk.inj ht
  have hseen : b.tick.host.seen = b.intake := by rw [hhost, Host.seen_answered]; rfl
  refine ⟨?_, hloads, hseen⟩
  calc b.tick.intake = b.tick.host.seen ++ b.tick.host.reads [] := by rw [intake, hloads]
    _ = b.intake := by rw [hseen]; exact List.append_nil _

/-- So it has when the clock has moved. -/
theorem intake_advance {t : Transport} (hconnected : b.host.connected = true) (hb : b.Attended t) (ms : Nat) :
    (b.advance ms).intake = b.intake ∧ (b.advance ms).page.loads = [] := by
  obtain ⟨hintake, hloads, -⟩ := intake_tick hconnected hb
  have hconnected' : (b.tick.later ms).host.connected = true := by
    have hhost := (Prod.mk.inj (traffic_tick hconnected (hb.imp_right And.right))).1
    show b.tick.host.connected = true
    rw [hhost]
    exact (congrArg (·.2.2.2) (b.host.frame_answered b.page.loads)).trans hconnected
  have hlater : (b.tick.later ms).Attended t := .inl hloads
  obtain ⟨hagain, hnone, -⟩ := intake_tick hconnected' hlater
  exact ⟨hagain.trans hintake, hnone⟩

theorem serve_mem_answerScript (url : String) (h : .serve ∈ b.ready) : Task.serve ∈ (b.answerScript url).2.ready := by
  unfold answerScript
  split
  · rcases b.host.answer url with ⟨e | ⟨r, a⟩, host⟩
    · exact h
    · dsimp only
      cases r.callback with
      | none => exact h
      | some id => exact serve_mem_after _ h
  · exact h

/-- The host may also be told to read the next script. -/
theorem intake_answerScript {t : Transport} {url : String} {rest : List String} (hconnected : b.host.connected = true)
    (hloads : b.page.loads = url :: rest) (hb : b.Attended t) :
    let left : Bridge σ := { b with page := { b.page with loads := rest } }
    (left.answerScript url).2.intake = b.intake ∧ (left.answerScript url).2.Attended t := by
  intro left
  obtain ⟨hscript, hserve⟩ := hb.resolve_left fun hnil => List.cons_ne_nil _ _ (hloads.symm.trans hnil)
  have ht : (left.answerScript url).2.traffic = ((b.host.answer url).2, rest) :=
    traffic_answerScript (b := left) hconnected url
  have hcodec : (b.host.answer url).2.codec = b.host.codec := congrArg (·.2.2.1) (b.host.frame_answer url)
  have hreads : b.host.reads (url :: rest) = b.host.reads [url] ++ b.host.reads rest :=
    List.filterMap_append (l := [url])
  refine ⟨?_, .inr ⟨hscript, serve_mem_answerScript url hserve⟩⟩
  calc (left.answerScript url).2.intake = (b.host.answer url).2.seen ++ (b.host.answer url).2.reads rest :=
        intake_of_traffic ht
    _ = b.host.seen ++ b.host.reads [url] ++ b.host.reads rest := by
      rw [Host.seen_answer, Host.reads, Host.reads, Host.reads, hcodec]
    _ = b.intake := by rw [intake, hloads, hreads, List.append_assoc]

/-! ## Calls -/

/-- The request of a call, if it is sent, as the host reads it. -/
def sentRequest? (b : Bridge σ) (path : String) (args : Args) (timeout : Option Nat) : Option Request :=
  let id := b.idOf b.registry.count
  match (b.registered path).send id path args timeout with
  | .ok _ => some ⟨path, b.config.codec.received args, b.config.codec.receivedName id⟩
  | .error _ => none

/-- A new script that has a place is loaded. -/
def LoadsScripts (page : Document) : Prop :=
  ∀ url e page', insertScript page url = (some e, page') → page'.loads = page.loads ++ [url]

theorem Shows.loadsScripts {config : Config} {calls : List (String × Args)} {srcs : List String}
    (hb : Shows config calls srcs b) : LoadsScripts b.page := by
  intro url e page hins
  obtain ⟨hs, bs, own, hflat, -, -⟩ := hb.mirror.layout
  rcases insertScript_flat hflat url with ⟨hnone, -⟩ | ⟨page', hs', bs', heq, -, hloads, -⟩
  · rw [hins] at hnone
    cases hnone
  · rw [hins] at heq
    rw [(Prod.mk.inj heq).2]
    exact hloads

/-- A URL is handed over for the host to read, over either transport. -/
theorem handsOver_trigger {id url : String} (hplace : b.config.transport = .scriptTag → LoadsScripts b.page)
    (hserves : b.config.transport = .scriptTag → serves b.config b.runtime b.host = true)
    (h : b.trigger id url = .ok c) : b.HandsOver url c := by
  rw [HandsOver]
  rcases trigger_ok h with ⟨ht, rfl⟩ | ⟨ht, e, page, hins, rfl⟩
  · rw [ht]
    exact traffic_after (b.asked id url) _ _
  · rw [ht]
    obtain ⟨ready, hshown, hready⟩ := shown_of_serves (hserves ht) page
    have htraffic : ({ b with page := page, ready := ready } : Bridge σ).traffic = (b.host, b.page.loads ++ [url]) :=
      congrArg (b.host, ·) (hplace ht url e page hins)
    rw [hshown]
    exact ⟨(traffic_after { b with page := page, ready := ready } _ _).trans htraffic, serve_mem_after _ hready⟩

/-- What is handed over is one more request for the host to read. -/
theorem HandsOver.intake_eq {url : String} {r : Request} (h : b.HandsOver url c) (hrouted : b.host.conduct = .routed)
    (hdecode : b.host.codec.decode url = .ok r) (hb : b.Attended b.config.transport) :
    c.intake = b.intake ++ [r] ∧ c.Attended b.config.transport := by
  have hreads : b.host.reads [url] = [r] := by simp [Host.reads, hdecode, Except.toOption]
  rw [HandsOver] at h
  cases ht : b.config.transport with
  | fetch =>
    -- a page that fetches loads nothing, so that all the host reads is what it has read
    rw [ht] at h hb
    have hnone : b.page.loads = [] := hb.resolve_right fun hscript => by cases hscript.1
    refine ⟨?_, .inl ((congrArg (·.2) h).trans hnone)⟩
    have hintake : b.intake = b.host.seen := by rw [intake, hnone]; exact List.append_nil _
    calc c.intake = (b.host.fetch url).2.seen ++ (b.host.fetch url).2.reads b.page.loads := intake_of_traffic h
      _ = (b.host.answer url).2.seen := by rw [hnone, Host.fetch_snd hrouted]; exact List.append_nil _
      _ = b.intake ++ [r] := by rw [Host.seen_answer, hreads, hintake]
  | scriptTag =>
    rw [ht] at h
    refine ⟨?_, .inr ⟨rfl, h.2⟩⟩
    calc c.intake = b.host.seen ++ b.host.reads (b.page.loads ++ [url]) := intake_of_traffic h.1
      _ = b.host.seen ++ (b.host.reads b.page.loads ++ b.host.reads [url]) := by
        rw [Host.reads, List.filterMap_append]
        rfl
      _ = b.intake ++ [r] := by rw [hreads, intake, List.append_assoc]

/-- The host reads by itself what the page asks it, in the language of the page. -/
structure Converses (b : Bridge σ) : Prop where
  routed : b.host.conduct = .routed
  connected : b.host.connected = true
  codec : b.host.codec = b.config.codec
  base : b.config.codec.baseUrl = "prefs://"
  key : Request.isMarked b.config.codec.callbackKey = false
  place : b.config.transport = .scriptTag → LoadsScripts b.page

/-- **A call adds its request to what the host reads if it is sent**, and nothing otherwise. -/
theorem intake_call (h : b.Converses) {path : String} {args : Args} (hr : Request.Portable path args)
    (hb : b.Attended b.config.transport) (timeout : Option Nat) :
    (b.call path args timeout).2.intake = b.intake ++ (b.sentRequest? path args timeout).toList ∧
      (b.call path args timeout).2.Attended b.config.transport := by
  have hregistered : b.Unasked (b.registered path) := ⟨rfl, id⟩
  rw [call_eq, sent, sentRequest?]
  cases hsend : (b.registered path).send (b.idOf b.registry.count) path args timeout with
  | error c =>
    -- a timer may have been armed, and a script made that found no place; the host is asked by neither
    obtain ⟨d, e, rfl, hd⟩ := send_error hsend
    have hlimited : (b.registered path).Unasked d := by
      rcases hd with rfl | ⟨d', url, hl, htrigger, rfl⟩
      · exact .refl _
      · exact (unasked_limited hl).trans (unasked_missed htrigger)
    have hsame : b.Unasked (d.settle (b.idOf b.registry.count) (.error e)).2 :=
      (hregistered.trans hlimited).trans (unasked_after d _ _)
    exact ⟨hsame.intake_eq.trans (List.append_nil _).symm, hsame.attended hb⟩
  | ok c =>
    obtain ⟨url, d, henc, hlimited, htrigger⟩ := send_ok hsend
    have hsame := hregistered.trans (unasked_limited hlimited)
    obtain ⟨hconfig, hruntime, hpage, hhost⟩ := hlimited.frame
    have hconfig' : d.config = b.config := hconfig
    have hhost' : d.host = b.host := hhost
    have hpage' : d.page = b.page := hpage
    have hserves : d.config.transport = .scriptTag → serves d.config d.runtime d.host = true := by
      intro ht
      obtain ⟨ms, hms⟩ := Config.limit_of_scriptTag (hconfig ▸ ht) timeout
      rw [hms] at hlimited
      have hrun : d.runtime = true := hruntime.trans hlimited.runtime_eq
      simp [serves, ht, hrun, hhost', h.routed, Conduct.isRouted]
    have hhands : d.HandsOver url c := handsOver_trigger (by rw [hconfig', hpage']; exact h.place) hserves htrigger
    have hdecode : d.host.codec.decode url =
        .ok ⟨path, b.config.codec.received args, b.config.codec.receivedName (b.idOf b.registry.count)⟩ := by
      rw [hhost', h.codec]
      exact Codec.decode_encode h.base h.key hr.plain hr.values henc
    have hmore := hhands.intake_eq (hhost' ▸ h.routed) hdecode (hconfig' ▸ hsame.attended hb)
    rw [hsame.intake_eq, hconfig'] at hmore
    exact hmore

namespace Session

/-! ## Runs -/

/-- The request of an operation, if it makes one that is sent. -/
def sentRequest? (s : Session σ) : Op → Option Request
  | .call path args timeout => s.bridge.sentRequest? path args timeout
  | .callNamed name path args => (s.bridge.registerHandler name).2.sentRequest? path args none
  | _ => none

/-- The requests of operations that are done one after another, as far as they are sent. -/
def sentRequests (s : Session σ) : List Op → List Request
  | [] => []
  | op :: ops => (s.sentRequest? op).toList ++ sentRequests (s.step op).2 ops

theorem sentRequests_concat (s : Session σ) (ops : List Op) (op : Op) :
    s.sentRequests (ops ++ [op]) = s.sentRequests ops ++ ((s.run ops).sentRequest? op).toList := by
  induction ops generalizing s with
  | nil => exact List.append_nil _
  | cons first ops ih => rw [List.cons_append, sentRequests, ih, sentRequests, List.append_assoc, run_cons]

variable {s : Session σ}

/-- **An operation adds its request to what the host reads**, if it makes one that is sent. -/
theorem intake_step (h : s.bridge.Converses) (hs : s.bridge.Attended s.bridge.config.transport) {op : Op}
    (hop : ∀ path args, op.request? = some (path, args) → Request.Portable path args)
    (hread : op ≠ .requests ∧ ∀ url, op ≠ .answer url) :
    (s.step op).2.bridge.intake = s.bridge.intake ++ (s.sentRequest? op).toList ∧
      (s.step op).2.bridge.Attended s.bridge.config.transport := by
  have alone : ∀ {c : Bridge σ}, s.bridge.Unasked c →
      c.intake = s.bridge.intake ++ (none : Option Request).toList ∧ c.Attended s.bridge.config.transport :=
    fun hc => ⟨hc.intake_eq.trans (List.append_nil _).symm, hc.attended hs⟩
  cases op with
  | call path args timeout => exact intake_call h (hop path args rfl) hs timeout
  | callNamed name path args =>
    have h' : (s.bridge.registerHandler name).2.Converses := ⟨h.routed, h.connected, h.codec, h.base, h.key, h.place⟩
    exact intake_call h' (hop path args rfl) hs none
  | tick =>
    obtain ⟨hintake, hloads, -⟩ := intake_tick h.connected hs
    exact ⟨hintake.trans (List.append_nil _).symm, .inl hloads⟩
  | advance ms =>
    obtain ⟨hintake, hloads⟩ := intake_advance h.connected hs ms
    exact ⟨hintake.trans (List.append_nil _).symm, .inl hloads⟩
  | requests => exact absurd rfl hread.1
  | answer url => exact absurd rfl (hread.2 url)
  | answerNext =>
    rcases hloads : s.bridge.page.loads with _ | ⟨url, rest⟩
    all_goals simp only [step, takeLoad, hloads]
    · exact alone (.refl _)
    · obtain ⟨hintake, hattended⟩ := intake_answerScript h.connected hloads hs
      exact ⟨hintake.trans (List.append_nil _).symm, hattended⟩
  | reply n r => exact alone (unasked_reply _ n r)
  | _ => exact alone ((unasked_invariant s.bridge).step rfl (.refl _))

section

variable {config : Config} {runtime withHead : Bool} {srcs : List String} {host : Host σ} {b : Bridge σ}
  (hb : Bridge.new config config.transport runtime (.withScripts withHead srcs) host = .ok b)
  (hbase : config.baseUrl = "prefs://") (hkey : Request.isMarked config.callbackKey = false)
  (hrouted : host.conduct = .routed) (hconnected : host.connected = true) (hcodec : host.codec = config.codec)
include hb hbase hkey hrouted hconnected hcodec

theorem converses_run (ops : List Op) : ((new b).run ops).bridge.Converses := by
  obtain ⟨hconfig, -, hhost, -⟩ := setUp_run hb ops
  have hcodec' : ((new b).run ops).bridge.host.codec = config.codec := (congrArg (·.2.2.1) hhost).trans hcodec
  refine ⟨(congrArg (·.1) hhost).trans hrouted, (congrArg (·.2.2.2) hhost).trans hconnected, ?_, ?_, ?_, fun ht => ?_⟩
  · rw [hconfig, hcodec']
  · exact hconfig ▸ hbase
  · exact hconfig ▸ hkey
  · have ht' : config.transport = .scriptTag := hconfig ▸ ht
    rw [ht'] at hb
    exact (shows_run (s := new b) (shows_new hb) ops).loadsScripts

/-- What the host has read and is to read, are the requests that were sent. -/
theorem intake_run (ops : List Op) (hportable : ∀ op ∈ ops, ∀ path args, op.request? = some (path, args) →
      Request.Portable path args) (hread : ∀ op ∈ ops, op ≠ .requests ∧ ∀ url, op ≠ .answer url) :
    ((new b).run ops).bridge.intake = host.seen ++ (new b).sentRequests ops ∧
      ((new b).run ops).bridge.Attended config.transport := by
  induction ops using List.reverseRecOn with
  | nil =>
    obtain ⟨-, -, rfl⟩ := new_eq_ok hb
    have hnone : (Document.withScripts withHead srcs).loads = [] := Document.loads_withScripts withHead srcs
    refine ⟨?_, .inl hnone⟩
    show host.seen ++ host.reads (Document.withScripts withHead srcs).loads = host.seen ++ []
    rw [hnone]
    rfl
  | append_singleton ops op ih =>
    have hop : op ∈ ops ++ [op] := List.mem_append_right _ List.mem_cons_self
    obtain ⟨hintake, hattended⟩ := ih (fun op' h => hportable op' (List.mem_append_left _ h))
      fun op' h => hread op' (List.mem_append_left _ h)
    have hconverses := converses_run hb hbase hkey hrouted hconnected hcodec ops
    have hconfig : ((new b).run ops).bridge.config = config := (setUp_run hb ops).1
    have hstep := intake_step hconverses (hconfig ▸ hattended) (hportable op hop) (hread op hop)
    rw [hconfig, hintake] at hstep
    rw [run_concat, sentRequests_concat, ← List.append_assoc]
    exact hstep

/-- **The host reads every request that was sent, once and in order.** Take any set-up that is accepted, with
base `prefs://` and a callback key without mark, and a host that reads by itself in the same language. However
calls, dialogs, answers, pushes and time follow on each other, after one more tick the host has read the
requests of the calls that were sent, in the order of the calls and as they were made, whether or not the calls
were canceled, dropped or settled before that. A call that failed at once is not among them. Only the URLs that
wait for the host must not be taken from it, nor any be put to it from elsewhere. -/
theorem seen_run (ops : List Op) (hportable : ∀ op ∈ ops, ∀ path args, op.request? = some (path, args) →
      Request.Portable path args) (hread : ∀ op ∈ ops, op ≠ .requests ∧ ∀ url, op ≠ .answer url) :
    ((new b).run (ops ++ [.tick])).bridge.host.seen = host.seen ++ (new b).sentRequests ops := by
  obtain ⟨hintake, hattended⟩ := intake_run hb hbase hkey hrouted hconnected hcodec ops hportable hread
  have hconnected' := (converses_run hb hbase hkey hrouted hconnected hcodec ops).connected
  rw [run_append, ← hintake]
  exact (intake_tick hconnected' hattended).2.2

end

/-- Of four calls, one cannot be written, one is canceled and one is dropped before the host reads. -/
theorem seen_run_let_go :
    let ops : List Op := [.call "/a" (.named [("x", .bool true)]) none, .call "/b" (.positional [.bool true]) none,
      .call "/c" .none (some 5), .call "/d" .none none, .cancel 0, .drop 2]
    let read := ((new echoBridge).run (ops ++ [.tick])).bridge.host.seen
    read.map (·.path) = ["/a", "/c", "/d"] ∧ read = (new echoBridge).sentRequests ops := by
  intro ops read
  have hone : ∀ v ∈ [Json.bool true], v.Portable 126 := fun v hv =>
    List.mem_singleton.mp hv ▸ ⟨trivial, trivial, Nat.zero_le _⟩
  have hnone : ∀ path, Url.PlainPath path → Request.Portable path .none := fun path hp =>
    ⟨hp, fun v hv => (by cases hv)⟩
  have hall : ∀ r ∈ ops.filterMap Op.request?, Request.Portable r.1 r.2 :=
    List.forall_mem_cons.mpr ⟨⟨by decide, hone⟩, List.forall_mem_cons.mpr ⟨⟨by decide, hone⟩,
      List.forall_mem_cons.mpr ⟨hnone "/c" (by decide), List.forall_mem_cons.mpr ⟨hnone "/d" (by decide),
        List.forall_mem_nil _⟩⟩⟩⟩
  have hportable : ∀ op ∈ ops, ∀ path args, op.request? = some (path, args) → Request.Portable path args :=
    fun op hop path args hreq => hall (path, args) (List.mem_filterMap.mpr ⟨op, hop, hreq⟩)
  have hread : ∀ op ∈ ops, op ≠ .requests ∧ ∀ url, op ≠ .answer url := by simp [ops]
  have h : read = (new echoBridge).sentRequests ops :=
    seen_run new_echo rfl (by decide) rfl rfl rfl ops hportable hread
  exact ⟨h ▸ rfl, h⟩

end Session

end Bridge

end Hostlink
