import Hostlink.Proofs.Bridge.Scripts
import Hostlink.Proofs.Bridge.Sending
import Hostlink.Proofs.Bridge.Settlement
import Hostlink.Proofs.Reply
import Hostlink.Proofs.Request.RoundTrip

/-!
# Calls come back

A call travels to its host as a URL, over either transport and in every layout, and the host's answer
travels back. What is read at the page is what the handler said.

* `Host.outcome`, `Host.answers_outcome` — what a host answers whose handlers are functions of their arguments;
* `Bridge.Addressed`, `Session.addressed_run` — scripts that are loaded name requests that were made;
* `Shows.insertScript` — a page with a head or a script of its own has a place for a request;
* `Session.call_reads_outcome` — **a call reads what its handler answers**.
-/

namespace Hostlink

open Registry (Ending Event History)

/-! ## Requests and hosts -/

/-- A request that every layout carries: a plain path, and values that come through JSON. -/
structure Request.Portable (path : String) (args : Args) : Prop where
  plain : Url.PlainPath path
  values : ∀ v ∈ args.values, v.Portable 126

/-- Handlers are functions of their arguments: their answers do not depend on the state. -/
def RouteTable.Stateless {σ : Type} (t : RouteTable σ) : Prop :=
  ∀ path handler, t.handler? path = some handler →
    ∀ args s s', ((handler args).run.run s).1 = ((handler args).run.run s').1

namespace Host

variable {σ : Type}

/-- What a host answers to arguments under a path. -/
def outcome (h : Host σ) (path : String) (args : Args) : HostAnswer :=
  match h.table.handler? path with
  | some handler => .routed ((handler args).run.run h.state).1
  | none => .unknownResource path

/-- **Whatever it has answered before, a host answers a request that it can read by its handler.** -/
theorem answers_outcome {h : Host σ} (hstateless : h.table.Stateless) {url path : String} {args : Args}
    {name : Option String} (hdecode : h.codec.decode url = .ok ⟨path, args, name⟩) : h.Gives url name (h.outcome path args) := by
  intro h' hframe
  have htable : h'.table = h.table := congrArg (·.2.1) hframe
  have hcodec : h'.codec = h.codec := congrArg (·.2.2.1) hframe
  refine ⟨⟨path, args, name⟩, ?_, rfl⟩
  rw [answer, hcodec, hdecode]
  dsimp only
  rw [htable, RouteTable.contains, RouteTable.dispatch, outcome]
  cases hhandler : h.table.handler? path with
  | none => rfl
  | some handler =>
    rw [Option.isSome_some, if_pos rfl]
    dsimp only
    rw [hstateless path handler hhandler args h'.state h.state]

end Host

/-- Where no limit is zero, no request runs out of time at once. -/
theorem Config.limit_ne_zero {c : Config} (hc : c.timeout ≠ some 0) {timeout : Option Nat} (ht : timeout ≠ some 0) :
    timeout.or c.effectiveTimeout ≠ some 0 := by
  cases timeout with
  | some ms => exact ht
  | none =>
    rw [Option.none_or, effectiveTimeout]
    split
    · next ms _ hms => exact hms ▸ hc
    · decide
    · decide

namespace Codec

variable {c : Codec} {path url id : String} {args : Args}

theorem receivedName_eq_some {id' : String} (h : c.receivedName id = some id') : id' = id := by
  rw [receivedName] at h
  split at h
  · exact (Option.some.inj h).symm
  · exact (Option.some.inj h).symm
  · cases h

/-- The URL of a request asks for an answer under its own name only. -/
theorem callback_of_encode (hbase : c.baseUrl = "prefs://") (hkey : Request.isMarked c.callbackKey = false)
    (hr : Request.Portable path args) (he : c.encode path args id = .ok url) {r : Request} {id' : String}
    (hd : c.decode url = .ok r) (hid : r.callback = some id') : id' = id := by
  rw [decode_encode hbase hkey hr.plain hr.values he] at hd
  obtain rfl := Except.ok.inj hd
  exact receivedName_eq_some hid

end Codec

namespace Bridge

variable {σ : Type}

/-! ## What is loaded -/

theorem frame_attachGuard (r : Registry Artefact Nat) (id : String) (g : Artefact) :
    (r.attachGuard id g).2.stem = r.stem ∧ (r.attachGuard id g).2.count = r.count := by
  unfold Registry.attachGuard
  split <;> exact ⟨rfl, rfl⟩

/-- A new script loads its own URL, and nothing else. -/
theorem insertScript_fresh {page : Document} (hf : page.Fresh) (url : String) :
    (insertScript page url).2.Fresh ∧ ∀ u ∈ (insertScript page url).2.loads, u ∈ page.loads ∨ u = url := by
  refine insertScript_of (P := fun d => d.Fresh ∧ ∀ u ∈ d.loads, u ∈ page.loads ∨ u = url) page url
    ⟨hf.createScript url, fun u hu => .inl hu⟩ (fun parent at? => ?_) fun d hd => ?_
  · refine ⟨((hf.createScript url).attach parent _ at?).load _, fun u hu => ?_⟩
    have hsrc : ((page.createScript url).2.attach parent page.next at?).src? page.next = some url :=
      Document.src?_withScript hf.next_notMem parent url at? page.next |>.trans (if_pos rfl)
    unfold Document.load at hu
    split at hu
    · rw [hsrc] at hu
      rcases List.mem_append.mp hu with hu | hu
      · exact .inl hu
      · exact .inr (List.mem_singleton.mp hu)
    · exact .inl hu
  · refine ⟨hd.1.remove _, ?_⟩
    rw [Document.loads_remove]
    exact hd.2

/-- Both sides speak one language, and scripts that are loaded name requests that were made. -/
structure Addressed (c : Codec) (b : Bridge σ) : Prop where
  writes : b.config.codec = c
  reads : b.host.codec = c
  issued : ∀ url ∈ b.page.loads, ∀ r id, c.decode url = .ok r → r.callback = some id → b.Issued id
  fresh : b.page.Fresh

namespace Addressed

variable {c : Codec} {b d : Bridge σ} (hb : b.Addressed c)
include hb

theorem of_eq (hconfig : d.config = b.config) (hframe : d.host.frame = b.host.frame)
    (hissued : ∀ id, b.Issued id → d.Issued id) (hloads : d.page.loads ⊆ b.page.loads) (hfresh : d.page.Fresh) :
    d.Addressed c := by
  have hcodec : d.host.codec = b.host.codec := congrArg (·.2.2.1) hframe
  refine ⟨hconfig ▸ hb.writes, hcodec.trans hb.reads, fun url hurl r id hr hid => ?_, hfresh⟩
  exact hissued id (hb.issued url (hloads hurl) r id hr hid)

theorem same (hconfig : d.config = b.config) (hframe : d.host.frame = b.host.frame)
    (hregistry : d.registry = b.registry) (hpage : d.page = b.page) : d.Addressed c :=
  hb.of_eq hconfig hframe (fun _ hid => hid.of_eq (by rw [hregistry]) (by rw [hregistry]))
    (by rw [hpage]; exact List.Subset.refl _) (hpage ▸ hb.fresh)

theorem after (effects : List (Effect Artefact Nat)) {r : Registry Artefact Nat} (hstem : r.stem = b.registry.stem)
    (hcount : r.count = b.registry.count) : (b.after effects r).Addressed c := by
  have hprospects := prospects_after b effects r
  have hloads : (b.after effects r).page.loads = b.page.loads := congrArg (·.2.1) hprospects
  refine hb.of_eq (config_after b effects r) (congrArg (·.1) hprospects) (fun id hid => ?_)
    (by rw [hloads]; exact List.Subset.refl _) ?_
  · refine hid.of_eq ?_ ?_
    · rw [registry_after, hstem]
    · rw [registry_after, hcount]
  · refine List.foldlRecOn effects perform (motive := fun d : Bridge σ => d.page.Fresh) hb.fresh fun d hd e _ => ?_
    rcases e with _ | (e | _) | _ | _ | _
    case release.script => exact hd.remove e
    all_goals exact hd

theorem settle (id : String) (v : Settlement) : (b.settle id v).2.Addressed c := by
  refine hb.after _ ?_ ?_
  all_goals split <;> rfl

theorem forget (id : String) : (b.forget id).Addressed c := by
  refine hb.after _ ?_ ?_
  all_goals split <;> rfl

theorem registered (path : String) : (b.registered path).Addressed c :=
  hb.of_eq rfl rfl (fun _ hid => hid.of_eq rfl (Nat.le_succ _)) (List.Subset.refl _) hb.fresh

theorem armTimer {id : String} {ms : Nat} (h : b.armTimer id ms = .ok d) : d.Addressed c := by
  have harmed : (b.armed id ms).Addressed c := hb.same rfl rfl rfl rfl
  obtain ⟨hstem, hcount⟩ := frame_attachTimer (b.armed id ms).registry id b.timers.length
  rw [armTimer_ok h]
  exact harmed.after _ hstem hcount

/-- A request that is sent loads a URL that names itself, if any. -/
theorem trigger {id url : String} (hid : b.Issued id)
    (hnames : ∀ r id', c.decode url = .ok r → r.callback = some id' → id' = id) (h : b.trigger id url = .ok d) :
    d.Addressed c := by
  have hguard : ∀ {a : Bridge σ} (g : Artefact), a.Addressed c → (a.attachGuard id g).Addressed c := by
    intro a g ha
    obtain ⟨hstem, hcount⟩ := frame_attachGuard a.registry id g
    exact ha.after _ hstem hcount
  rcases trigger_ok h with ⟨-, rfl⟩ | ⟨-, e, page, hins, rfl⟩
  · exact hguard _ (hb.same rfl (Host.frame_fetch b.host url) rfl rfl)
  · obtain ⟨ready, hshown⟩ := shown_eq b page
    obtain ⟨hfresh, hloads⟩ := insertScript_fresh hb.fresh url
    rw [hins] at hfresh hloads
    rw [hshown]
    refine hguard _ ⟨hb.writes, hb.reads, fun u hu r id' hr hid' => ?_, hfresh⟩
    rcases hloads u hu with hu | rfl
    · exact hb.issued u hu r id' hr hid'
    · exact hnames r id' hr hid' ▸ hid

/-- A request that finds no place loads nothing. -/
theorem missed {id url : String} {e : Rejection} (h : b.trigger id url = .error e) : (b.missed url).Addressed c := by
  have hloads := loads_missed h
  rcases trigger_error h with ⟨-, -, -, hmissed⟩ | ⟨-, -, -, hmissed⟩
  · rw [hmissed]
    exact hb
  · rw [hmissed] at hloads ⊢
    exact hb.of_eq rfl rfl (fun _ hid => hid) (hloads ▸ List.Subset.refl _) (insertScript_fresh hb.fresh url).1

theorem call {path : String} {args : Args} (hnames : ∀ url, c.encode path args (b.idOf b.registry.count) = .ok url →
      ∀ r id, c.decode url = .ok r → r.callback = some id → id = b.idOf b.registry.count) (timeout : Option Nat) :
    (b.call path args timeout).2.Addressed c := by
  have hid : (b.registered path).Issued (b.idOf b.registry.count) := ⟨b.registry.count, Nat.lt_succ_self _, rfl⟩
  rw [call_eq]
  refine sent_of (P := fun d => d.Addressed c ∧ d.Issued (b.idOf b.registry.count)) (fun v hd => hd.1.settle _ v)
    (fun ms harm hd => ⟨hd.1.armTimer harm, hd.2.armTimer harm⟩) (fun {d d' url} henc htrigger hd => ?_)
    (fun {_ url _} hfail hd => ⟨hd.1.missed hfail, hd.2.missed url⟩) ⟨hb.registered path, hid⟩ timeout
  have hwrites : (b.registered path).config.codec = c := hb.writes
  rw [hwrites] at henc
  exact hd.1.trigger hd.2 (hnames url henc) htrigger

/-- No script that is loaded names a request to come. -/
theorem spares : ∀ url ∈ b.page.loads, b.host.codec.Spares (b.idOf b.registry.count) url := by
  intro url hurl r hr hid
  rw [hb.reads] at hr
  obtain ⟨n, hn, heq⟩ := hb.issued url hurl r _ hr hid
  exact Nat.ne_of_gt hn (Registry.idOf_inj.mp heq)

theorem reply (n : Nat) (r : FetchReply) : (b.reply n r).2.Addressed c := by
  obtain ⟨fetches, ready, heq⟩ := reply_eq b n r
  rw [heq]
  exact hb.same rfl rfl rfl rfl

end Addressed

theorem invariant_addressed (c : Codec) : Invariant (fun b : Bridge σ => b.Addressed c) where
  settle id v hb := hb.settle id v
  forget id hb := hb.forget id
  readInbox _ hb := hb.same rfl rfl rfl rfl
  dropInbox _ hb := hb.same rfl rfl rfl rfl
  answer url hb := hb.same rfl (Host.frame_answer _ url) rfl rfl
  takeLoads _ hleft hb := hb.of_eq rfl rfl (fun _ hid => hid) hleft hb.fresh
  setPhase _ _ hb := hb.same rfl rfl rfl rfl
  endAborted hb := hb.same rfl rfl rfl rfl
  work _ _ _ _ _ hb := hb.same rfl rfl rfl rfl
  pushes _ _ _ hb := hb.same rfl rfl rfl rfl

theorem addressed_new {config : Config} {actual : Transport} {runtime withHead : Bool} {srcs : List String}
    {host : Host σ} {b : Bridge σ} (hb : Bridge.new config actual runtime (.withScripts withHead srcs) host = .ok b)
    (hcodec : host.codec = config.codec) : b.Addressed config.codec := by
  obtain ⟨-, -, rfl⟩ := new_eq_ok hb
  obtain ⟨bs, hflat, -⟩ := Document.flat_withScripts withHead srcs
  refine ⟨rfl, hcodec, fun url hurl => ?_, hflat.fresh⟩
  have hloads : url ∈ (Document.withScripts withHead srcs).loads := hurl
  rw [Document.loads_withScripts] at hloads
  cases hloads

/-- **Scripts that are loaded name requests that were made**, after every run with portable requests. -/
theorem Session.addressed_run {s : Session σ} {c : Codec} (hs : s.bridge.Addressed c) (hbase : c.baseUrl = "prefs://")
    (hkey : Request.isMarked c.callbackKey = false) {ops : List Op}
    (hops : ∀ op ∈ ops, ∀ path args, op.request? = some (path, args) → Request.Portable path args) :
    (s.run ops).bridge.Addressed c := by
  induction ops generalizing s with
  | nil => exact hs
  | cons op ops ih =>
    refine ih ?_ fun op hop => hops op (List.mem_cons_of_mem _ hop)
    refine (invariant_addressed c).step op (fun path args hreq b timeout hb => ?_) (fun n r _ => hs.reply n r) hs
    have hr := hops op List.mem_cons_self path args hreq
    exact hb.call (fun url he r id => Codec.callback_of_encode hbase hkey hr he) timeout

/-! ## A place for scripts -/

/-- A page with a head or a script of its own has a place for a request, and loads it at once. -/
theorem Shows.insertScript {config : Config} {calls : List (String × Args)} {srcs : List String} {b : Bridge σ}
    (hb : Shows config calls srcs b) (hplace : b.page.head.isSome = true ∨ srcs ≠ []) (url : String) :
    ∃ e page, insertScript b.page url = (some e, page) ∧ page.loads = b.page.loads ++ [url] := by
  obtain ⟨hs, bs, own, hflat, hsplit, hown⟩ := hb.mirror.layout
  rcases insertScript_flat hflat url with ⟨-, hhead, rfl, rfl⟩ | ⟨page, hs', bs', heq, -, hloads, -⟩
  · have hnone : own = [] := by
      rcases hsplit with ⟨-, rfl⟩ | ⟨-, heq⟩
      · rfl
      · exact (List.append_eq_nil_iff.mp heq.symm).2
    rcases hplace with hsome | hsrcs
    · rw [hhead] at hsome
      cases hsome
    · rw [hnone] at hown
      exact absurd (List.map_eq_nil_iff.mp hown.symm) hsrcs
  · exact ⟨_, page, heq, hloads⟩

/-- Operations are changes that add no scripts of the page's own. -/
theorem Session.shows_run {s : Session σ} {config : Config} {calls : List (String × Args)} {srcs : List String}
    (hs : Shows config calls srcs s.bridge) (ops : List Op) :
    Shows config (calls ++ ops.filterMap Op.request?) srcs (s.run ops).bridge := by
  have h := Session.shows_changed hs (ops.map .operation)
  have hrun : s.changed (ops.map .operation) = s.run ops := List.foldl_map
  have hnone : (fun op => (Change.operation op).src?) = fun _ : Op => none := rfl
  rw [hrun, List.filterMap_map, List.filterMap_map, Function.comp_def, Function.comp_def, hnone,
    List.filterMap_none, List.append_nil] at h
  exact h

/-! ## Calls -/

/-- The body of a fetch settles what the answer says. -/
theorem settlementOf_replyOf {a : HostAnswer} (ha : a.Portable) : settlementOf (Host.replyOf a) = a.settlement := by
  rcases a with (e | v) | path
  · exact Reply.decode_encode_error ha
  · exact Reply.decode_encode_ok ha
  · rfl

/-- What a host will answer is delivered, over either transport. -/
theorem delivers_of_gives {b : Bridge σ} {id url : String} {name : Option String} {a : HostAnswer}
    (hrouted : b.host.conduct = .routed) (hconnected : b.host.connected = true)
    (hgives : b.host.GivesAfter [] url name a) (ha : a.Portable)
    (hscript : b.config.transport = .scriptTag → b.host.GivesAfter b.page.loads url (some id) a ∧
      ∃ e page, insertScript b.page url = (some e, page) ∧ page.loads = b.page.loads ++ [url]) :
    b.Delivers id url a.settlement := by
  rw [Delivers]
  cases ht : b.config.transport with
  | fetch => exact ⟨hrouted, name, a, hgives, settlementOf_replyOf ha⟩
  | scriptTag =>
    obtain ⟨hgives, hplace⟩ := hscript ht
    exact ⟨hrouted, hconnected, hplace, a, hgives, Host.settlementOf_eq ha⟩

/-- What a host answers whatever it has answered before is delivered. -/
theorem delivers_answer {b : Bridge σ} {id url : String} {name : Option String} {a : HostAnswer}
    (hrouted : b.host.conduct = .routed) (hconnected : b.host.connected = true) (hgives : b.host.Gives url name a)
    (ha : a.Portable) (hscript : b.config.transport = .scriptTag → name = some id ∧
      ∃ e page, insertScript b.page url = (some e, page) ∧ page.loads = b.page.loads ++ [url]) :
    b.Delivers id url a.settlement := by
  refine delivers_of_gives hrouted hconnected (hgives.after []) ha fun ht => ?_
  obtain ⟨rfl, hplace⟩ := hscript ht
  exact ⟨hgives.after b.page.loads, hplace⟩

/-- A set-up that is accepted names its requests if they travel by script. -/
theorem receivedName_of_validate {config : Config} (hv : config.validate = .ok ()) (ht : config.transport = .scriptTag)
    (id : String) : config.codec.receivedName id = some id := by
  rw [Codec.receivedName]
  cases henc : config.codec.encoding with
  | b64Json => rfl
  | jsonQuery => rfl
  | argsArray =>
    have henc' : config.encoding = .argsArray := henc
    unfold Config.validate at hv
    split at hv
    · cases hv
    · split at hv
      · cases hv
      · rw [if_pos ⟨ht, henc'⟩] at hv
        cases hv

/-! ## A host that echoes -/

/-- Answers with the values that arrive, if there are any. -/
def echo : RouteHandler Unit := fun args =>
  if args.isEmpty then throw (.ofJson (.string "silence")) else pure (.array args.values)

/-- A host with one route. -/
def echoHost : Host Unit := ⟨.routed, ⟨[("echo", echo)]⟩, (), Config.scriptTag.codec, true, []⟩

/-- A fresh bridge to that host over script tags, from a page with a head. -/
def echoBridge : Bridge Unit := fresh .scriptTag true (.withScripts true []) echoHost

theorem new_echo : Bridge.new .scriptTag .scriptTag true (.withScripts true []) echoHost = .ok echoBridge := rfl

theorem stateless_echoHost : echoHost.table.Stateless := fun _ _ _ _ _ _ => rfl

namespace Session

/-- A call whose request is settled by the next tick reads that, or that its time is over. -/
theorem settled_call_tick {config : Config} {actual : Transport} {runtime : Bool} {page : Document} {host : Host σ}
    {b : Bridge σ} (hb : Bridge.new config actual runtime page host = .ok b) (ops : List Op) {path : String}
    {args : Args} {timeout : Option Nat} {v : Settlement} {task : Task} {hasty : Prop} :
    let s := (new b).run ops
    s.bridge.callEvents path args timeout = [.opened] →
      (s.bridge.call path args timeout).2.Awaits (s.bridge.idOf s.bridge.registry.count) v task hasty →
      ∃ w, ((s.run [.call path args timeout, .tick]).poll s.held.length).1 = .settled w ∧
        (w = v ∨ hasty ∧ w = .error .timeout) := by
  intro s hevents hawaits
  let more : List Op := [.call path args timeout, .tick]
  let h := (new b).history ops
  have hcount : s.bridge.registry.count = h.opened := (follows_history hb ops).count_eq
  have hstem : s.bridge.registry.stem = config.callbackStem := stem_run hb ops
  have hrun : s.run more = (new b).run (ops ++ more) := (run_append (new b) ops more).symm
  -- the call registers its request, and all else happens in the tick
  have hhistory : (new b).history (ops ++ more) =
      h ++ .opened :: (s.bridge.call path args timeout).2.tickEvents := by
    have hcall : s.events (.call path args timeout) = [.opened] := hevents
    rw [history_append, history, history, history, hcall, List.append_nil]
    rfl
  have hheld : ((new b).run (ops ++ more)).held[s.held.length]? = some ⟨.call h.opened, true, none⟩ := by
    have hheld : (s.run more).held = s.held ++ [⟨.call s.bridge.registry.count, true, none⟩] := rfl
    rw [← hrun, hheld, List.getElem?_concat_length, hcount]
  obtain ⟨w, htick, hw⟩ := hawaits.tickEvents
  have hending : ((new b).history (ops ++ more)).ending? config.callbackStem h.opened = some (.settled w) := by
    rw [idOf, hstem, hcount] at htick
    rw [hhistory, History.ending?_opened, htick]
  refine ⟨w, ?_, hw⟩
  rw [hrun, poll_call (follows_history hb _) (stem_run hb _) (kept_run hb _) hheld, if_neg (by simp), hending]
  rfl

/-- A call that has time, and whose request is settled by the next tick, reads that. -/
theorem poll_call_tick {config : Config} {actual : Transport} {runtime : Bool} {page : Document} {host : Host σ}
    {b : Bridge σ} (hb : Bridge.new config actual runtime page host = .ok b) (ops : List Op) {path : String}
    {args : Args} {timeout : Option Nat} {v : Settlement} {task : Task} :
    let s := (new b).run ops
    s.bridge.callEvents path args timeout = [.opened] →
      (s.bridge.call path args timeout).2.Awaits (s.bridge.idOf s.bridge.registry.count) v task False →
      ((s.run [.call path args timeout, .tick]).poll s.held.length).1 = .settled v := by
  intro s hevents hawaits
  obtain ⟨w, hw, rfl | ⟨hnever, -⟩⟩ := settled_call_tick hb ops hevents hawaits
  · exact hw
  · exact hnever.elim

/-- **A call reads what its handler answers.** Take any set-up that is accepted, with base `prefs://`, a
callback key without mark and no limit of zero, on a page that has a place for scripts if they are needed,
and a host that routes by itself, whose handlers are functions of their arguments. After a run with
portable requests, one more call that is left alone until the ready tasks have run reads that there is no
such resource, or the result or the error of the handler on the arguments as they arrive. -/
theorem call_reads_outcome {config : Config} {withHead : Bool} {srcs : List String} {host : Host σ} {b : Bridge σ}
    (hb : Bridge.new config config.transport true (.withScripts withHead srcs) host = .ok b)
    (hplace : config.transport = .scriptTag → withHead = true ∨ srcs ≠ []) (hbase : config.baseUrl = "prefs://")
    (hkey : Request.isMarked config.callbackKey = false) (hlimit : config.timeout ≠ some 0)
    (hrouted : host.conduct = .routed) (hconnected : host.connected = true) (hcodec : host.codec = config.codec)
    (hstateless : host.table.Stateless) (ops : List Op)
    (hops : ∀ op ∈ ops, ∀ path args, op.request? = some (path, args) → Request.Portable path args)
    {path url : String} {args : Args} {timeout : Option Nat} (hrequest : Request.Portable path args)
    (htimeout : timeout ≠ some 0) :
    let s := (new b).run ops
    let read := ((s.run [.call path args timeout, .tick]).poll s.held.length).1
    config.codec.encode path args (s.bridge.idOf s.bridge.registry.count) = .ok url →
      (host.table.handler? path = none → read = .settled (.error (.unknownResource path))) ∧
      ∀ handler, host.table.handler? path = some handler →
        (∀ v, ((handler (config.codec.received args)).run.run host.state).1 = .ok v → v.Portable 126 →
          read = .settled (.ok v)) ∧
        ∀ e, ((handler (config.codec.received args)).run.run host.state).1 = .error e → e.Portable →
          read = .settled (.error (.host e)) := by
  intro s read henc
  have hframe : s.bridge.frame = _ := (frame_run (new b) ops).trans (frame_new hb)
  obtain ⟨hconfig, hrest⟩ := Prod.mk.inj hframe
  obtain ⟨hruntime, hrest⟩ := Prod.mk.inj hrest
  obtain ⟨hhost, hhead⟩ := Prod.mk.inj hrest
  have haddressed : s.bridge.Addressed config.codec := addressed_run (addressed_new hb hcodec) hbase hkey hops
  have hlimits : timeout.or s.bridge.config.effectiveTimeout ≠ some 0 := by
    rw [hconfig]
    exact Config.limit_ne_zero hlimit htimeout
  have hgives : host.Gives url (config.codec.receivedName (s.bridge.idOf s.bridge.registry.count))
      (host.outcome path (config.codec.received args)) := by
    refine Host.answers_outcome hstateless ?_
    rw [hcodec]
    exact Codec.decode_encode hbase hkey hrequest.plain hrequest.values henc
  -- whatever comes through JSON is read
  have hread : (host.outcome path (config.codec.received args)).Portable →
      read = .settled (host.outcome path (config.codec.received args)).settlement := by
    intro hportable
    have hdelivers : s.bridge.Delivers (s.bridge.idOf s.bridge.registry.count) url
        (host.outcome path (config.codec.received args)).settlement := by
      refine delivers_answer ((congrArg (·.1) hhost).trans hrouted) ((congrArg (·.2.2.2) hhost).trans hconnected)
        (fun h' hh' => hgives h' (hh'.trans hhost)) hportable fun ht => ?_
      have ht' : config.transport = .scriptTag := hconfig ▸ ht
      rw [ht'] at hb
      refine ⟨receivedName_of_validate (new_eq_ok hb).1 ht' _,
        (shows_run (s := new b) (shows_new hb) ops).insertScript ?_ url⟩
      rw [hhead, Document.head_withScripts]
      exact hplace ht'
    obtain ⟨⟨task, hawaits⟩, hevents⟩ := awaits_call (sound_run hb ops) (traced_run (s := new b) (traced_new hb) ops)
      hruntime haddressed.spares (hconfig ▸ henc) (.inr hlimits) hdelivers
    exact poll_call_tick hb ops hevents hawaits
  rw [Host.outcome] at hread
  refine ⟨fun hnone => ?_, fun handler hhandler => ⟨fun v hv hportable => ?_, fun e he hportable => ?_⟩⟩
  · rw [hnone] at hread
    exact hread trivial
  · rw [hhandler] at hread
    dsimp only at hread
    rw [hv] at hread
    exact hread hportable
  · rw [hhandler] at hread
    dsimp only at hread
    rw [he] at hread
    exact hread hportable

/-- After one call, three more: a path without a route, an echo, and silence. -/
theorem call_reads_outcome_echo :
    let s := (new echoBridge).run [.call "/echo" .none none]
    let read := fun path args => ((s.run [.call path args none, .tick]).poll s.held.length).1
    read "/other" .none = .settled (.error (.unknownResource "/other")) ∧
      read "/echo" (.named [("x", .bool true)]) = .settled (.ok (.array [.bool true])) ∧
      read "/echo" .none = .settled (.error (.host (.text "silence"))) := by
  intro s read
  have hnone : ∀ path, Url.PlainPath path → Request.Portable path .none := fun path hp =>
    ⟨hp, fun v hv => (by cases hv)⟩
  have htrue : ∀ room, (Json.bool true).Portable room := fun room => ⟨trivial, trivial, Nat.zero_le _⟩
  have hx : Request.Portable "/echo" (.named [("x", .bool true)]) :=
    ⟨by decide, fun v hv => List.mem_singleton.mp hv ▸ htrue 126⟩
  have hbefore : ∀ op ∈ [Op.call "/echo" .none none], ∀ path args, op.request? = some (path, args) →
      Request.Portable path args := by
    intro op hop path args hreq
    obtain rfl := List.mem_singleton.mp hop
    obtain ⟨rfl, rfl⟩ := Prod.mk.inj (Option.some.inj hreq)
    exact hnone "/echo" (by decide)
  have key := fun {path url : String} {args : Args} (hr : Request.Portable path args) =>
    @call_reads_outcome Unit .scriptTag true [] echoHost echoBridge new_echo (fun _ => .inl rfl) rfl rfl (by decide)
      rfl rfl rfl stateless_echoHost [.call "/echo" .none none] hbefore path url args none hr (by decide)
  refine ⟨(key (hnone "/other" (by decide)) rfl).1 rfl, ((key hx rfl).2 echo rfl).1 _ rfl ?_,
    ((key (hnone "/echo" (by decide)) rfl).2 echo rfl).2 _ rfl ?_⟩
  · exact Json.portable_array fun v hv => List.mem_singleton.mp hv ▸ htrue 125
  · exact ⟨.ofJson (.string "silence") trivial, trivial, Nat.zero_le _, rfl⟩

end Session

end Bridge

end Hostlink
