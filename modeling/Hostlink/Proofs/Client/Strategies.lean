import Hostlink.Proofs.Bridge.Exchange
import Hostlink.Proofs.Preferences.Operations

/-!
# What comes of operations does not depend on the strategy

A client performs operations one after another, each awaited before the next. Whatever transport and encoding
the page is set up with, it finds what the handlers of the host make of these operations.

* `PreferencesPage` — a page for a host of preferences;
* `Host.answer_operation` — the host answers an operation by its handler;
* `PreferencesPage.Rests` — all requests of a session have been settled;
* `PreferencesPage.perform_rests` — **its client performs an operation as the handlers do**, and rests again;
* `PreferencesPage.outcomes_eq` — **two pages find the same**.
-/

namespace Hostlink

open Bridge (Session)

/-- What a client finds that performs operations one after another. -/
def Client.outcomes {σ : Type} (c : Client σ) : List Operation → List (Option (Except Rejection OperationValue))
  | [] => []
  | op :: ops => (c.perform op).1 :: (c.perform op).2.outcomes ops

/-! ## The host -/

/-- A request with a route is answered by it. -/
theorem Host.answer_of_decode {σ : Type} {h : Host σ} {url : String} {r : Request} (hread : h.codec.decode url = .ok r)
    (hcontains : h.table.contains r.path = true) :
    (h.answer url).1 = .ok (r, .routed (h.table.dispatch r.path r.args h.state).1) ∧
      (h.answer url).2.state = (h.table.dispatch r.path r.args h.state).2 := by
  rw [answer, hread]
  dsimp only
  rw [if_pos hcontains]
  exact ⟨rfl, rfl⟩

/-- **A host of preferences answers an operation by its handler**, in whatever layout it was sent. -/
theorem Host.answer_operation {h : Host Preferences} {c : Codec} {op : Operation} {id url : String}
    (htable : h.table = Preferences.routes) (hcodec : h.codec = c) (hbase : c.baseUrl = "prefs://")
    (hkey : c.callbackKey = "callback") (hop : op.Portable 100)
    (he : c.encode op.path (op.args c.encoding) id = .ok url) :
    h.GivesAfter [] url (c.receivedName id) (.routed (h.state.answer op).1) ∧
      (h.answer url).2.state = (h.state.answer op).2 := by
  subst hcodec
  have hmarked : Request.isMarked h.codec.callbackKey = false := by
    rw [hkey]
    decide
  have hread := Codec.decode_encode hbase hmarked op.plain_path (op.portable_args hop h.codec.encoding) he
  have hcontains : h.table.contains op.path = true := by
    rw [htable, RouteTable.contains, op.handler?_path]
    rfl
  have hdispatch : h.table.dispatch op.path (h.codec.received (op.args h.codec.encoding)) h.state =
      h.state.answer op := by
    rw [htable, Preferences.answer, RouteTable.dispatch, RouteTable.dispatch, op.handler?_path]
    dsimp only
    rw [op.handler_received h.codec]
  obtain ⟨hanswer, hstate⟩ := answer_of_decode hread hcontains
  dsimp only at hanswer hstate
  rw [hdispatch] at hanswer hstate
  exact ⟨⟨_, hanswer, rfl⟩, hstate⟩

/-! ## Pages -/

/-- A page for a host of preferences. Its set-up is accepted and names the host and its requests as the
default one does; its document has a place for a script if requests travel by script. -/
structure PreferencesPage where
  config : Config
  withHead : Bool
  srcs : List String
  valid : config.validate = .ok ()
  baseUrl_eq : config.baseUrl = Config.fetch.baseUrl
  callbackKey_eq : config.callbackKey = Config.fetch.callbackKey
  /-- A request that may not wait at all can be given up before its answer is read. -/
  limit : config.timeout ≠ some 0
  place : config.transport = .scriptTag → withHead = true ∨ srcs ≠ []

namespace PreferencesPage

variable (u : PreferencesPage)

/-- The host: preferences that nothing has been done to. -/
def host : Host Preferences := ⟨.routed, Preferences.routes, Preferences.initial, u.config.codec, true, []⟩

/-- The bridge from the page to the host. -/
def bridge : Bridge Preferences := Bridge.fresh u.config true (.withScripts u.withHead u.srcs) u.host

theorem new_bridge :
    Bridge.new u.config u.config.transport true (.withScripts u.withHead u.srcs) u.host = .ok u.bridge := by
  rw [Bridge.new, u.valid]
  simp only [ne_eq, not_true, if_false]
  rfl

/-- A session of the page whose requests have all been settled; the host has read them and keeps `p`. -/
structure Rests (s : Session Preferences) (p : Preferences) : Prop where
  reached : ∃ ops, (Session.new u.bridge).run ops = s
  quiet : s.bridge.page.loads = []
  keeps : s.bridge.host.state = p
  sound : p.Sound

theorem rests_new : u.Rests (.new u.bridge) .initial :=
  ⟨⟨[], rfl⟩, Document.loads_withScripts u.withHead u.srcs, rfl, Preferences.sound_initial⟩

variable {u} {s : Session Preferences} {p : Preferences}

/-- **A client performs an operation as the handlers do**, and rests again. -/
theorem perform_rests (h : u.Rests s p) {op : Operation} (hop : op.Portable 100) :
    ∃ t, (⟨s.bridge, []⟩ : Client Preferences).perform op = (some (p.perform op).1, ⟨t.bridge, []⟩) ∧
      u.Rests t (p.perform op).2 := by
  obtain ⟨⟨ops, hs⟩, hquiet, rfl, hsound⟩ := h
  obtain ⟨hconfig, -, hhost, -⟩ := Session.setUp_run u.new_bridge ops
  rw [hs] at hconfig hhost
  have htable : s.bridge.host.table = Preferences.routes := congrArg (·.2.1) hhost
  have hcodec : s.bridge.host.codec = u.config.codec := congrArg (·.2.2.1) hhost
  obtain ⟨url, henc⟩ : ∃ url, u.config.codec.encode op.path (op.args u.config.encoding)
      (s.bridge.idOf s.bridge.registry.count) = .ok url :=
    Codec.encode_ok_iff.mpr (op.accepts (c := u.config.codec) u.callbackKey_eq)
  obtain ⟨hgives, hkept⟩ := Host.answer_operation htable hcodec u.baseUrl_eq u.callbackKey_eq hop henc
  obtain ⟨hsound', hportable⟩ := hsound.answer hop
  obtain ⟨hrequest, htraffic⟩ :=
    Session.request_settled u.new_bridge u.place u.limit rfl rfl hs hquiet henc hgives hportable
  obtain ⟨hread, hquiet'⟩ := Prod.mk.inj htraffic
  let more := Session.exchange op.path (op.args u.config.encoding) s.held.length
  have hreached : (Session.new u.bridge).run (ops ++ more) = s.run more := by
    rw [Session.run_append, hs]
  refine ⟨s.run more, ?_, ⟨_, hreached⟩, hquiet', ?_, hsound'⟩
  · rw [Client.perform]
    dsimp only
    rw [hconfig, hrequest]
    rfl
  · exact (congrArg Host.state hread).trans hkept

/-- So it is for operations that are performed one after another. -/
theorem outcomes_rests (h : u.Rests s p) {ops : List Operation} (hops : ∀ op ∈ ops, op.Portable 100) :
    (⟨s.bridge, []⟩ : Client Preferences).outcomes ops = (p.outcomes ops).map some := by
  induction ops generalizing s p with
  | nil => rfl
  | cons op ops ih =>
    obtain ⟨t, hperform, hrests⟩ := perform_rests h (hops op List.mem_cons_self)
    have hlater := ih hrests fun op hop => hops op (List.mem_cons_of_mem _ hop)
    rw [Client.outcomes, hperform, hlater]
    rfl

/-- **What comes of operations does not depend on the strategy**: two pages find the same, and this is what the
handlers make of the operations. -/
theorem outcomes_eq (u u' : PreferencesPage) {ops : List Operation} (hops : ∀ op ∈ ops, op.Portable 100) :
    (Client.new u.bridge).outcomes ops = (Client.new u'.bridge).outcomes ops ∧
      (Client.new u.bridge).outcomes ops = (Preferences.initial.outcomes ops).map some := by
  have hfound := outcomes_rests u.rests_new hops
  exact ⟨hfound.trans (outcomes_rests u'.rests_new hops).symm, hfound⟩

/-- A page with a head and no script, set up as by default but for the transport and the encoding. -/
def ofPair (transport : Transport) (encoding : Encoding) (h : ¬(transport = .scriptTag ∧ encoding = .argsArray)) :
    PreferencesPage where
  config := { Config.fetch with transport, encoding }
  withHead := true
  srcs := []
  valid := by
    have hstem : Config.fetch.callbackStem ≠ "" := by decide
    have hkey : Config.fetch.callbackKey ≠ "" := by decide
    rw [Config.validate, if_neg hstem, if_neg hkey, if_neg h]
  baseUrl_eq := rfl
  callbackKey_eq := rfl
  limit := fun h => by cases h
  place := fun _ => .inl rfl

/-- A record that is added is listed with the number it was given, by script as by fetch. -/
theorem outcomes_eq_added_shortcut :
    let ops : List Operation := [.set "volume" (.int 11), .removeShortcut "google-search",
      .addShortcut ⟨"Notes", "n", "notes & co=1", none, false⟩, .toggleExtension "none" true, .getShortcuts]
    let added : Shortcut := ⟨"new-id-1", "Notes", "n", "notes & co=1", none, false⟩
    (∀ op ∈ ops, op.Portable 100) ∧
      (Client.new (ofPair .scriptTag .jsonQuery (by decide)).bridge).outcomes ops =
        (Client.new (ofPair .fetch .argsArray (by decide)).bridge).outcomes ops ∧
      (Client.new (ofPair .scriptTag .jsonQuery (by decide)).bridge).outcomes ops =
        [some (.ok .nothing), some (.ok .nothing), some (.ok (.shortcut added)),
          some (.error (.host (.ofType "No extension with id 'none'" "LookupError"))),
          some (.ok (.shortcuts [added]))] := by
  intro ops added
  have hvolume : (Json.int 11).Portable 100 := ⟨⟨by decide, by decide⟩, trivial, by decide⟩
  have hops : ∀ op ∈ ops, op.Portable 100 := by simp [ops, Operation.Portable, hvolume]
  obtain ⟨hsame, hfound⟩ :=
    outcomes_eq (ofPair .scriptTag .jsonQuery (by decide)) (ofPair .fetch .argsArray (by decide)) hops
  exact ⟨hops, hsame, hfound.trans (by decide +kernel)⟩

end PreferencesPage

end Hostlink
