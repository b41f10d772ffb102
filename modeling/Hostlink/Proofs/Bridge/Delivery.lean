import Hostlink.Proofs.Bridge.Supply

/-!
# Requests that the next tick settles

A request whose answer is on its way has a task of its own that brings it: its fetch has a reply, or
the host is to read its script. Other tasks leave that task alone, unless they settle the request themselves.

* `Host.Gives`, `Host.GivesAfter` — what a host answers to a URL, whatever it has answered before, or after
  it has answered certain other URLs;
* `stopped`, `ready_after` — what effects stop, and the tasks that are left to run;
* `Bridge.Due` — a request has a task that is ready to settle it;
* `Due.run_other`, `Due.tickEvents` — other tasks leave it so or settle it, and so **the next tick settles it**;
* `Bridge.Awaits` — nothing else is about to settle it;
* `Awaits.tickEvents` — **the next tick settles it as its task brings it**.
-/

namespace Hostlink

open Registry (Ending Event History)

/-! ## Hosts -/

/-- Whatever it has answered before, a host answers a URL with `a`, and knows the request as `name`. -/
def Host.Gives {σ : Type} (h : Host σ) (url : String) (name : Option String) (a : HostAnswer) : Prop :=
  ∀ h' : Host σ, h'.frame = h.frame → ∃ r, (h'.answer url).1 = .ok (r, a) ∧ r.callback = name

/-- Once it has answered `earlier`, a host answers a URL with `a`, and knows the request as `name`. -/
def Host.GivesAfter {σ : Type} (h : Host σ) (earlier : List String) (url : String) (name : Option String)
    (a : HostAnswer) : Prop :=
  ∃ r, ((h.answered earlier).answer url).1 = .ok (r, a) ∧ r.callback = name

/-- What a host answers whatever it has answered before, it answers after all URLs. -/
theorem Host.Gives.after {σ : Type} {h : Host σ} {url : String} {name : Option String} {a : HostAnswer}
    (hgives : h.Gives url name a) (earlier : List String) : h.GivesAfter earlier url name a :=
  hgives (h.answered earlier) (h.frame_answered earlier)

/-- What a host answers is the reply to a fetch. -/
theorem Host.fetch_of_gives {σ : Type} {h : Host σ} {url : String} {name : Option String} {a : HostAnswer}
    (hrouted : h.conduct = .routed) (hgives : h.GivesAfter [] url name a) : (h.fetch url).1 = some (replyOf a) := by
  obtain ⟨r, hanswer, -⟩ := hgives
  have hanswer : (h.answer url).1 = .ok (r, a) := hanswer
  rw [Host.fetch, hrouted]
  rcases hpair : h.answer url with ⟨e | ⟨r', a'⟩, host⟩
  all_goals rw [hpair] at hanswer
  · cases hanswer
  · obtain rfl := (Prod.mk.inj (Except.ok.inj hanswer)).2
    rfl

/-- A URL that asks for no answer under a name. -/
def Codec.Spares (c : Codec) (id url : String) : Prop := ∀ r, c.decode url = .ok r → r.callback ≠ some id

theorem Host.decode_of_answer {σ : Type} {h : Host σ} {url : String} {r : Request} {a : HostAnswer}
    (ha : (h.answer url).1 = .ok (r, a)) : h.codec.decode url = .ok r := by
  unfold Host.answer at ha
  split at ha
  · cases ha
  · next r' hr =>
    dsimp only at ha
    rw [hr]
    split at ha <;> rw [(Prod.mk.inj (Except.ok.inj ha)).1]

namespace Bridge

variable {σ : Type}

/-! ## What decides how requests are settled -/

/-- The request of a fetch, and its reply as far as that is known. -/
def pledge (f : Fetch) : String × Option FetchReply := (f.id, f.reply)

/-- What fetches will settle, and how. -/
def pledges (b : Bridge σ) : List (String × Option FetchReply) := b.fetches.map pledge

/-- The host, what the page has loaded, time, timers, and the replies of fetches. -/
def prospects (b : Bridge σ) :
    (Conduct × RouteTable σ × Codec × Bool) × List String × Nat × List Timer × List (String × Option FetchReply) :=
  (b.host.frame, b.page.loads, b.clock, b.timers, b.pledges)

theorem fetchIds_of_pledges {b : Bridge σ} {n : Nat} {id : String} {r : Option FetchReply}
    (h : b.pledges[n]? = some (id, r)) : b.fetchIds[n]? = some id := by
  rw [pledges, List.getElem?_map] at h
  rw [fetchIds, List.getElem?_map]
  obtain ⟨f, hf, heq⟩ := Option.map_eq_some_iff.mp h
  rw [hf, Option.map_some, (Prod.mk.inj heq).1]

theorem pledge_abort (f : Fetch) : pledge (Fetch.abort f) = pledge f := by
  unfold Fetch.abort
  split <;> rfl

/-- Effects decide nothing. -/
theorem prospects_after (b : Bridge σ) (effects : List (Effect Artefact Nat)) (r : Registry Artefact Nat) :
    (b.after effects r).prospects = b.prospects := by
  refine foldl_perform_of prospects effects (fun e _ b => ?_) _
  rcases e with _ | (e | n) | _ | _ | _
  case release.script => simp only [prospects, perform, pledges, Document.loads_remove]
  case release.fetch =>
    have hpledges := map_modify_of b.fetches n pledge_abort
    simp only [prospects, perform, pledges, hpledges]
  all_goals rfl

/-- The task that an effect takes from those that are ready. -/
def stops : Effect Artefact Nat → Option Task
  | .abort t => some (.timer t)
  | .release (.fetch n) => some (.fetch n)
  | _ => none

/-- Does one of several effects stop a task? -/
def stopped (effects : List (Effect Artefact Nat)) (t : Task) : Bool := effects.any (stops · = some t)

theorem not_stopped {effects : List (Effect Artefact Nat)} {t : Task} :
    (! stopped effects t) = true ↔ ∀ e ∈ effects, stops e ≠ some t := by
  simp [stopped]

/-- Is a task that of a request, its timer or its fetch? -/
def Owns (s : Slot Artefact Nat) : Task → Prop
  | .timer n => s.timer = some n
  | .fetch n => s.guard = some (.fetch n)
  | .serve => False

/-- The end of a request stops its own tasks, and no others. -/
theorem stopped_cleanup {slot : Slot Artefact Nat} {rest : List (Effect Artefact Nat)}
    (hrest : ∀ e ∈ rest, stops e = none) (t : Task) :
    stopped (Registry.cleanup slot ++ rest) t = true ↔ Owns slot t := by
  have hnone : rest.any (stops · = some t) = false :=
    List.any_eq_false.mpr fun e he => by simp [hrest e he]
  obtain ⟨id, number, path, timer, guard, since⟩ := slot
  rw [stopped, List.any_append, hnone, Bool.or_false]
  rcases timer with _ | m <;> rcases guard with _ | (e | n) <;> cases t <;>
    simp [Registry.cleanup, stops, Owns]

/-- What one effect takes those tasks from that it stops, several take all those from that they stop. -/
theorem foldl_perform_filter {α : Type} (f : Bridge σ → List α) (task : α → Task)
    (hf : ∀ b e, f (perform b e) = (f b).filter fun x => ! decide (stops e = some (task x)))
    (effects : List (Effect Artefact Nat)) (b : Bridge σ) :
    f (effects.foldl perform b) = (f b).filter fun x => ! stopped effects (task x) := by
  induction effects generalizing b with
  | nil => exact (List.filter_eq_self.mpr fun _ _ => rfl).symm
  | cons e es ih =>
    rw [List.foldl_cons, ih, hf, List.filter_filter]
    refine List.filter_congr fun x _ => ?_
    rw [stopped, stopped, List.any_cons, Bool.not_or, Bool.and_comm]

/-- A task stays ready unless an effect stops it. -/
theorem ready_after (b : Bridge σ) (effects : List (Effect Artefact Nat)) (r : Registry Artefact Nat) :
    (b.after effects r).ready = b.ready.filter fun t => ! stopped effects t := by
  refine foldl_perform_filter ready id (fun c e => ?_) effects _
  rcases e with t | (e | n) | _ | _ | _ <;> simp [perform, stops, eq_comm]

theorem sleepers_after (b : Bridge σ) (effects : List (Effect Artefact Nat)) (r : Registry Artefact Nat) :
    (b.after effects r).sleepers = b.sleepers.filter fun n => ! stopped effects (.timer n) := by
  refine foldl_perform_filter sleepers .timer (fun c e => ?_) effects _
  rcases e with t | (e | n) | _ | _ | _ <;> simp [perform, stops, eq_comm]

theorem mem_ready_after_iff (b : Bridge σ) (effects : List (Effect Artefact Nat)) (r : Registry Artefact Nat)
    {task : Task} :
    task ∈ (b.after effects r).ready ↔ task ∈ b.ready ∧ ∀ e ∈ effects, stops e ≠ some task := by
  rw [ready_after, List.mem_filter, not_stopped]

theorem mem_ready_after {b : Bridge σ} {task : Task} {effects : List (Effect Artefact Nat)}
    (r : Registry Artefact Nat) (h : task ∈ b.ready) (hstops : ∀ e ∈ effects, stops e ≠ some task) :
    task ∈ (b.after effects r).ready :=
  (mem_ready_after_iff b effects r).mpr ⟨h, hstops⟩

/-! ## Requests that wait for a task -/

/-- A task settles a request with `v`. -/
def Brings (b : Bridge σ) (id : String) (v : Settlement) : Task → Prop
  | .timer _ => False
  | .fetch n => ∃ r, b.pledges[n]? = some (id, some r) ∧ settlementOf r = v
  | .serve => b.host.connected = true ∧ ∃ earlier url rest a, b.page.loads = earlier ++ url :: rest ∧
      b.host.GivesAfter earlier url (some id) a ∧ Host.settlementOf a = v

/-- A request has a task that is ready to settle it with `v`. -/
structure Due (b : Bridge σ) (id : String) (v : Settlement) (task : Task) : Prop where
  traced : b.Traced
  ready : task ∈ b.ready
  brings : b.Brings id v task

/-- A bridge of the same prospects has the same tasks for a request, if the host has not changed or is not
asked. -/
theorem Brings.congr {b c : Bridge σ} {id : String} {v : Settlement} {task : Task} (h : b.Brings id v task)
    (hp : c.prospects = b.prospects) (hhost : task = .serve → c.host = b.host) : c.Brings id v task := by
  obtain ⟨-, hrest⟩ := Prod.mk.inj hp
  obtain ⟨hloads, hrest⟩ := Prod.mk.inj hrest
  have hpledges : c.pledges = b.pledges := congrArg (·.2.2) hrest
  cases task with
  | timer n => exact h
  | fetch n =>
    obtain ⟨r, hr, hv⟩ := h
    exact ⟨r, hpledges ▸ hr, hv⟩
  | serve =>
    rw [Brings, hhost rfl, hloads]
    exact h

/-- The host answers each URL once it has answered those before it. -/
theorem mem_answersEvents {b : Bridge σ} {id url : String} {a : HostAnswer} {earlier rest : List String}
    (hconnected : b.host.connected = true) (hgives : b.host.GivesAfter earlier url (some id) a) :
    .aimed id (.settled (Host.settlementOf a)) ∈ b.answersEvents (earlier ++ url :: rest) := by
  induction earlier generalizing b with
  | nil =>
    obtain ⟨r, hr, hcallback⟩ := hgives
    have hr : (b.host.answer url).1 = .ok (r, a) := hr
    have hevents : b.answerEvents url = [.aimed id (.settled (Host.settlementOf a))] := by
      rw [answerEvents, if_pos hconnected, hr]
      dsimp only
      rw [hcallback]
      rfl
    rw [List.nil_append, answersEvents, hevents]
    exact List.mem_cons_self
  | cons u us ih =>
    have hconnected' : (b.answerScript u).2.host.connected = true :=
      (congrArg (·.2.2.2) (hostFrame_answerScript b u)).trans hconnected
    rw [List.cons_append, answersEvents]
    refine List.mem_append_right _ (ih hconnected' ?_)
    rw [host_answerScript hconnected]
    exact hgives

/-- **A task settles its request.** -/
theorem Brings.mem_taskEvents {b : Bridge σ} {id : String} {v : Settlement} {task : Task} (h : b.Brings id v task) :
    .aimed id (.settled v) ∈ b.taskEvents task := by
  cases task with
  | timer n => exact h.elim
  | fetch n =>
    obtain ⟨r, hr, rfl⟩ := h
    rw [pledges, List.getElem?_map] at hr
    obtain ⟨f, hf, heq⟩ := Option.map_eq_some_iff.mp hr
    obtain ⟨rfl, hreply⟩ := Prod.mk.inj heq
    simp [taskEvents, fetchEvents, hf, hreply]
  | serve =>
    obtain ⟨hconnected, earlier, url, rest, a, hloads, hgives, rfl⟩ := h
    have hurls : b.page.takeLoads.1 = earlier ++ url :: rest := hloads
    rw [taskEvents, hurls]
    exact mem_answersEvents (b := b.withoutLoads) hconnected hgives

/-! ## Other tasks -/

/-- Some event of a history ends a request. -/
def Ends (h : History) (id : String) : Prop := ∃ e ∈ h, e.endingOf? id ≠ none

theorem Ends.aimed {h : History} {id : String} {en : Ending} (he : .aimed id en ∈ h) : Ends h id :=
  ⟨_, he, by simp [Event.endingOf?]⟩

theorem Ends.left {h t : History} {id : String} (hends : Ends h id) : Ends (h ++ t) id := by
  obtain ⟨e, he, hne⟩ := hends
  exact ⟨e, List.mem_append_left t he, hne⟩

theorem Ends.right {h t : History} {id : String} (hends : Ends t id) : Ends (h ++ t) id := by
  obtain ⟨e, he, hne⟩ := hends
  exact ⟨e, List.mem_append_right h he, hne⟩

/-- Where events settle as is allowed, a request that ends is settled so. -/
theorem Ends.settled {h : History} {id : String} {G : String → Settlement → Prop} (hends : Ends h id)
    (hby : ∀ e ∈ h, e.SettlesBy G) : ∃ w, h.findSome? (Event.endingOf? id) = some (.settled w) ∧ G id w := by
  obtain ⟨e, he, hne⟩ := hends
  cases hfound : h.findSome? (Event.endingOf? id) with
  | none => exact absurd (List.findSome?_eq_none_iff.mp hfound e he) hne
  | some en =>
    have hallowed := hby _ (Event.aimed_mem_of_findSome? hfound)
    cases en with
    | settled w => exact ⟨w, rfl, hallowed⟩
    | forgotten => exact hallowed.elim

namespace Due

variable {b c : Bridge σ} {id : String} {v : Settlement} {task : Task} (h : b.Due id v task)
include h

theorem congr (htraced : c.Traced) (hready : task ∈ c.ready) (hp : c.prospects = b.prospects)
    (hhost : task = .serve → c.host = b.host) : c.Due id v task :=
  ⟨htraced, hready, h.brings.congr hp hhost⟩

/-- Another request is settled. -/
theorem settle {id' : String} (hid : id' ≠ id) (v' : Settlement) : (b.settle id' v').2.Due id v task := by
  refine h.congr (h.traced.settle id' v') ?_ (prospects_after b _ _) fun _ => host_after b _ _
  refine mem_ready_after _ h.ready fun e he hstops => ?_
  split at he
  · exact absurd he List.not_mem_nil
  · next slot hslot =>
    have hmem := List.mem_of_find?_eq_some hslot
    have hslotId : slot.id = id' := by simpa using List.find?_some hslot
    rcases e with t | (e | n) | _ | _ | _
    case abort =>
      obtain rfl := Option.some.inj hstops
      exact h.brings
    case release.fetch =>
      -- a request releases its own fetch only
      obtain rfl := Option.some.inj hstops
      have hguard : slot.guard = some (.fetch n) := by
        simpa [Registry.cleanup] using he
      have hown := h.traced.linked slot hmem n hguard
      obtain ⟨r, hr, -⟩ := h.brings
      exact hid (hslotId.symm.trans (Option.some.inj (hown.symm.trans (fetchIds_of_pledges hr))))
    all_goals cases hstops

/-- A request is settled that may be this one. -/
theorem settle_or (id' : String) (v' : Settlement) :
    Ends [.aimed id' (.settled v')] id ∨ (b.settle id' v').2.Due id v task := by
  by_cases hid : id' = id
  · subst hid
    exact .inl (.aimed List.mem_cons_self)
  · exact .inr (h.settle hid v')

/-- A script is answered, while a fetch is awaited. -/
theorem answerScript (url : String) (htask : task ≠ .serve) :
    Ends (b.answerEvents url) id ∨ (b.answerScript url).2.Due id v task := by
  unfold answerEvents Bridge.answerScript
  split
  · have hhost : ({ b with host := (b.host.answer url).2 } : Bridge σ).Due id v task := by
      refine h.congr (invariant_traced.answer url h.traced) h.ready ?_ fun heq => absurd heq htask
      rw [prospects, Host.frame_answer]
      rfl
    rcases ha : b.host.answer url with ⟨e | ⟨r, a⟩, host⟩
    all_goals rw [ha] at hhost
    · exact .inr hhost
    · dsimp only
      cases r.callback with
      | none => exact .inr hhost
      | some id' => exact hhost.settle_or id' (Host.settlementOf a)
  · exact .inr h

theorem answerScripts (urls : List String) (htask : task ≠ .serve) :
    Ends (b.answersEvents urls) id ∨ (b.answerScripts urls).Due id v task := by
  induction urls generalizing b with
  | nil => exact .inr h
  | cons url urls ih =>
    rcases h.answerScript url htask with hends | hrest
    · exact .inl hends.left
    · exact (ih hrest).imp_left Ends.right

/-- Other tasks settle a request, or leave it alone. -/
theorem run_other {t : Task} (ht : t ≠ task) : Ends (b.taskEvents t) id ∨ (b.run t).Due id v task := by
  cases t with
  | timer n =>
    simp only [taskEvents, timerEvents, Bridge.run, runTimer]
    rcases b.timers[n]? with _ | t
    · exact .inr h
    · dsimp only
      split
      · exact h.settle_or t.id _
      · exact .inr (h.congr (h.traced.same rfl rfl rfl) h.ready rfl fun _ => rfl)
  | fetch n =>
    simp only [taskEvents, fetchEvents, Bridge.run, runFetch]
    have hphase : ∀ phase, (b.setPhase n phase).Due id v task := fun phase => by
      refine h.congr (invariant_traced.setPhase n phase h.traced) h.ready ?_ fun _ => rfl
      have hpledges : (b.setPhase n phase).pledges = b.pledges := map_modify_of b.fetches n fun _ => rfl
      rw [prospects, hpledges]
      rfl
    -- a fetch without a reply goes on waiting, and one that has a reply settles its request
    rcases b.fetches[n]? with _ | ⟨id', _ | reply, answered, phase⟩
    · exact .inr h
    · exact .inr (hphase _)
    · exact (hphase .gone).settle_or id' _
  | serve =>
    -- the host reads for others, and the task is none of its own
    have hrest : b.withoutLoads.Due id v task := by
      refine ⟨invariant_traced.takeLoads [] (List.nil_subset _) h.traced, h.ready, ?_⟩
      have hbrings := h.brings
      cases task with
      | timer n => exact hbrings
      | fetch n => exact hbrings
      | serve => exact absurd rfl ht
    exact hrest.answerScripts b.page.takeLoads.1 ht.symm

theorem withoutTask {t : Task} (ht : t ≠ task) : (b.withoutTask t).Due id v task :=
  h.congr (h.traced.same rfl rfl rfl) (List.mem_filter.mpr ⟨h.ready, decide_eq_true fun heq => ht heq.symm⟩) rfl
    fun _ => rfl

/-! ## Ticks -/

/-- Of tasks that run one after another, that of a request or one before it settles it. -/
theorem readyEvents {ts : List Task} (hmem : task ∈ ts) : Ends (b.readyEvents ts) id := by
  induction ts generalizing b with
  | nil => exact absurd hmem List.not_mem_nil
  | cons t ts ih =>
    rw [Bridge.readyEvents]
    -- a task that comes before may end the request, and then that counts
    by_cases ht : t = task
    · subst ht
      have hbrings : (b.withoutTask t).Brings id v t := h.brings.congr rfl fun _ => rfl
      rw [if_pos h.ready]
      exact (Ends.aimed hbrings.mem_taskEvents).left
    · have hmem' : task ∈ ts := (List.mem_cons.mp hmem).resolve_left fun heq => ht heq.symm
      by_cases hready : t ∈ b.ready
      · rw [if_pos hready, runReady, if_pos hready]
        rcases (h.withoutTask ht).run_other ht with hends | hrun
        · exact hends.left
        · exact (ih hrun hmem').right
      · rw [if_neg hready, List.nil_append, runReady, if_neg hready]
        exact ih h hmem'

/-- **The next tick settles a request whose task is ready.** -/
theorem tickEvents : Ends b.tickEvents id := h.readyEvents h.ready

end Due

/-! ## Requests that nothing else settles -/

/-- A request, if it is settled at all, is settled with `v`. -/
def Only (id : String) (v : Settlement) (id' : String) (w : Settlement) : Prop := id' = id → w = v

/-- A request has a task that is ready to settle it with `v`, and nothing else is about to end it, unless it is
hasty: then its time may be over. -/
structure Awaits (b : Bridge σ) (id : String) (v : Settlement) (task : Task) (hasty : Prop) : Prop extends
    Due b id v task where
  timers : ∀ t ∈ b.timers, t.id = id → hasty ∨ b.clock < t.deadline
  stored : b.Stored (Only id v)
  read : b.host.AnswersBy (Only id v) b.page.loads

/-- A host that is asked under other names only settles this request in no way. -/
theorem answersBy_of_spares {host : Host σ} {id : String} {urls : List String}
    (hspares : ∀ url ∈ urls, host.codec.Spares id url) (v : Settlement) : host.AnswersBy (Only id v) urls := by
  intro earlier url rest heq r a id' ha hid hown
  have hcodec : (host.answered earlier).codec = host.codec := congrArg (·.2.2.1) (host.frame_answered earlier)
  have hmem : url ∈ urls := heq ▸ List.mem_append_right _ List.mem_cons_self
  exact absurd (hown ▸ hid) (hspares url hmem r (hcodec ▸ Host.decode_of_answer ha))

/-- One more URL is answered as is allowed, if its answer is the one that is meant. -/
theorem answersBy_concat {host : Host σ} {id url : String} {name : Option String} {urls : List String} {a : HostAnswer}
    (h : host.AnswersBy (Only id (Host.settlementOf a)) urls) (hgives : host.GivesAfter urls url name a) :
    host.AnswersBy (Only id (Host.settlementOf a)) (urls ++ [url]) := by
  intro earlier u rest heq r a' id' ha hid
  rcases List.eq_nil_or_concat rest with rfl | ⟨rest, last, rfl⟩
  · obtain ⟨rfl, hlast⟩ := List.append_inj' heq rfl
    obtain rfl := List.singleton_inj.mp hlast
    obtain ⟨r', hr', -⟩ := hgives
    obtain ⟨-, rfl⟩ := Prod.mk.inj (Except.ok.inj (hr'.symm.trans ha))
    exact fun _ => rfl
  · have hinner : urls = earlier ++ u :: rest := by
      have hsplit : urls ++ [url] = (earlier ++ u :: rest) ++ [last] := by
        rw [heq, List.append_assoc, List.cons_append, List.concat_eq_append]
      exact (List.append_inj' hsplit rfl).1
    exact h earlier u rest hinner r a' id' ha hid

/-- **The next tick settles a request as its task brings it**, or it runs out of time. -/
theorem Awaits.tickEvents {b : Bridge σ} {id : String} {v : Settlement} {task : Task} {hasty : Prop}
    (h : b.Awaits id v task hasty) :
    ∃ w, b.tickEvents.findSome? (Event.endingOf? id) = some (.settled w) ∧ (w = v ∨ hasty ∧ w = .error .timeout) := by
  let G : String → Settlement → Prop := fun id' w => id' = id → w = v ∨ hasty ∧ w = .error .timeout
  have honly : ∀ id' w, Only id v id' w → G id' w := fun id' w hw hid => .inl (hw hid)
  have hby : ∀ e ∈ b.tickEvents, e.SettlesBy G := by
    refine settlesBy_readyEvents (fun t ht hdue hid => ?_) (h.stored.imp honly) (h.read.imp honly) b.ready
    exact .inr ⟨(h.timers t ht hid).resolve_right (Nat.not_lt_of_le hdue), rfl⟩
  obtain ⟨w, hfound, hw⟩ := h.toDue.tickEvents.settled hby
  exact ⟨w, hfound, hw rfl⟩

end Bridge

end Hostlink
