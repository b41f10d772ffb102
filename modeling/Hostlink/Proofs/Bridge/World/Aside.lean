import Hostlink.Proofs.Bridge.World
import Hostlink.Proofs.Registry.Tellings

/-!
# What is aimed at one id, and the rest of the world

An event for one id leaves the world to others as it was. Two worlds that differ in the reply of one fetch only go on
alike, and nothing but what is aimed at the request of that fetch tells them apart.

* `World.blind` — a world without the reply of a fetch, and without its work;
* `World.blind_step` — **an operation does the same in both**, but for what is aimed at one id;
* `World.aside_told_cons` — **an operation that is about one id is nothing to others**, whatever comes later;
* `World.ending?_told_aside` — nor does it end their requests.
-/

namespace Hostlink.Bridge.World

open Registry (Ending Event History)

variable {σ : Type} {w v : World σ} {id : String} {n : Nat}

/-- A world in which a fetch has no reply and is not to run. -/
def blind (n : Nat) (w : World σ) : World σ :=
  { w with
    fetches := w.fetches.modify n fun p => (p.1, none)
    work := w.work.filter (· ≠ .fetch n) }

theorem blind_blind (n : Nat) (w : World σ) : (w.blind n).blind n = w.blind n := by
  simp only [blind, List.modify_modify_eq, List.filter_filter, Bool.and_self]
  rfl

theorem mem_work_blind {t : Task} (ht : t ≠ .fetch n) : t ∈ (w.blind n).work ↔ t ∈ w.work := by
  simp [blind, ht]

theorem fetches_blind_of_ne {m : Nat} (hm : m ≠ n) : (w.blind n).fetches[m]? = w.fetches[m]? := by
  exact List.getElem?_modify_ne _ _ hm.symm

/-! ## Calls -/

theorem blind_push {t : Task} (ht : t ≠ .fetch n) (w : World σ) : (w.push t).blind n = (w.blind n).push t := by
  unfold push
  by_cases hmem : t ∈ w.work
  · rw [if_pos hmem, if_pos ((mem_work_blind ht).mpr hmem)]
  · rw [if_neg hmem, if_neg (mt (mem_work_blind ht).mp hmem)]
    simp [blind, ht]

theorem blind_limit (w : World σ) (id : String) (limit : Option Nat) :
    (w.limit id limit).blind n = (w.blind n).limit id limit := by
  cases limit with
  | none => rfl
  | some ms => simp [blind, limit]

theorem blind_ask (hn : n < w.fetches.length) (id url : String) : (w.ask id url).blind n = (w.blind n).ask id url := by
  have hne : w.fetches.length ≠ n := Nat.ne_of_gt hn
  let mute : String × Option FetchReply → String × Option FetchReply := fun p => (p.1, none)
  have hconcat : (w.fetches ++ [(id, (w.host.fetch url).1)]).modify n mute =
      w.fetches.modify n mute ++ [(id, (w.host.fetch url).1)] := by
    refine List.ext_getElem? fun i => ?_
    rw [List.getElem?_modify, getElem?_append_singleton, getElem?_append_singleton, List.length_modify, List.getElem?_modify]
    by_cases hi : i = w.fetches.length
    · rw [if_pos hi, if_pos hi]
      exact congrArg some (if_neg (hi.trans_ne hne).symm)
    · rw [if_neg hi, if_neg hi]
  simp only [blind, ask, List.filter_append, List.length_modify]
  rw [hconcat]
  simp [mute, hne]

theorem blind_load (w : World σ) (url : String) : (w.load url).blind n = (w.blind n).load url := by
  unfold load
  dsimp only
  have hserves : serves (w.blind n).config (w.blind n).runtime (w.blind n).host = serves w.config w.runtime w.host := rfl
  rw [hserves]
  split
  · exact blind_push (by simp) _
  · rfl

theorem blind_hand (hn : n < w.fetches.length) (id url : String) : (w.hand id url).blind n = (w.blind n).hand id url := by
  have hfailure : (w.blind n).handFailure? = w.handFailure? := rfl
  have hconfig : (w.blind n).config = w.config := rfl
  rw [hand, hand, hfailure, hconfig]
  split
  · rfl
  · cases w.config.transport with
    | scriptTag => exact blind_load w url
    | fetch => exact blind_ask hn id url

theorem blind_send (hn : n < w.fetches.length) (id path : String) (args : Args) (timeout : Option Nat) :
    (w.send id path args timeout).blind n = (w.blind n).send id path args timeout := by
  have hconfig : (w.blind n).config = w.config := rfl
  have hruntime : (w.blind n).runtime = w.runtime := rfl
  rw [send, send, hconfig, hruntime]
  cases w.config.codec.encode path args id with
  | error e => rfl
  | ok url =>
    dsimp only
    split
    · rfl
    · have hlimit : n < (w.limit id (timeout.or w.config.effectiveTimeout)).fetches.length := by
        cases timeout.or w.config.effectiveTimeout <;> exact hn
      rw [blind_hand hlimit, blind_limit]

/-- A call sets the same going. -/
theorem blind_call (hn : n < w.fetches.length) (isCall : Bool) (path : String) (args : Args) (timeout : Option Nat) :
    (w.call isCall path args timeout).2.blind n = ((w.blind n).call isCall path args timeout).2 ∧
      (w.call isCall path args timeout).1 = ((w.blind n).call isCall path args timeout).1 :=
  ⟨blind_send (w := { w with calls := w.calls ++ [isCall] }) hn _ path args timeout, rfl⟩

/-! ## The host and time -/

theorem blind_read (w : World σ) (url : String) :
    (w.read url).2.blind n = ((w.blind n).read url).2 ∧ (w.read url).1 = ((w.blind n).read url).1 := by
  have hhost : (w.blind n).host = w.host := rfl
  rw [read, read, hhost]
  split <;> exact ⟨rfl, rfl⟩

theorem blind_readAll (w : World σ) (urls : List String) :
    (w.readAll urls).2.blind n = ((w.blind n).readAll urls).2 ∧ (w.readAll urls).1 = ((w.blind n).readAll urls).1 := by
  induction urls generalizing w with
  | nil => exact ⟨rfl, rfl⟩
  | cons url urls ih =>
    obtain ⟨hread, hevents⟩ := blind_read (n := n) w url
    obtain ⟨hrest, hmore⟩ := ih (w.read url).2
    rw [hread] at hrest hmore
    rw [readAll, readAll, hevents, hmore]
    exact ⟨hrest, rfl⟩

/-- Any other task does the same in both. -/
theorem blind_run {t : Task} (ht : t ≠ .fetch n) (w : World σ) :
    (w.run t).2.blind n = ((w.blind n).run t).2 ∧ (w.run t).1 = ((w.blind n).run t).1 := by
  cases t with
  | timer m =>
    have htimers : (w.blind n).timers = w.timers := rfl
    have hclock : (w.blind n).clock = w.clock := rfl
    rw [run, run, htimers, hclock]
    cases w.timers[m]? with
    | none => exact ⟨rfl, rfl⟩
    | some t =>
      dsimp only
      split <;> exact ⟨rfl, rfl⟩
  | fetch m =>
    have hm : m ≠ n := fun heq => ht (heq ▸ rfl)
    rw [run, run, fetches_blind_of_ne hm]
    rcases w.fetches[m]? with _ | ⟨id, _ | reply⟩ <;> exact ⟨rfl, rfl⟩
  | serve => exact blind_readAll { w with loads := [] } w.loads

theorem blind_runNext {t : Task} (ht : t ≠ .fetch n) (w : World σ) :
    (w.runNext t).2.blind n = ((w.blind n).runNext t).2 ∧ (w.runNext t).1 = ((w.blind n).runNext t).1 := by
  rw [runNext, runNext]
  by_cases hmem : t ∈ w.work
  · have htaken : ({ w.blind n with work := (w.blind n).work.filter (· ≠ t) } : World σ) =
        blind n { w with work := w.work.filter (· ≠ t) } := by
      simp only [blind, List.filter_comm]
    rw [if_pos hmem, if_pos ((mem_work_blind ht).mpr hmem), htaken]
    exact blind_run ht _
  · rw [if_neg hmem, if_neg (mt (mem_work_blind ht).mp hmem)]
    exact ⟨rfl, rfl⟩

/-- The fetch itself brings what is aimed at its request, and nothing else. -/
theorem blind_runNext_self (hid : w.owner? (.fetch n) = some id) :
    (w.runNext (.fetch n)).2.blind n = w.blind n ∧ History.aside id (w.runNext (.fetch n)).1 = [] := by
  have htaken : blind n { w with work := w.work.filter (· ≠ .fetch n) } = w.blind n := by
    simp only [blind, List.filter_filter, Bool.and_self]
  rw [runNext]
  by_cases hmem : .fetch n ∈ w.work
  · rw [if_pos hmem, run]
    rw [owner?] at hid
    dsimp only
    rcases hf : w.fetches[n]? with _ | ⟨id', _ | reply⟩
    all_goals rw [hf] at hid
    · cases hid
    · exact ⟨htaken, rfl⟩
    · obtain rfl : id' = id := Option.some.inj hid
      refine ⟨htaken, List.filter_cons_of_neg ?_⟩
      simp [Event.endingOf?]
  · rw [if_neg hmem]
    exact ⟨rfl, rfl⟩

theorem owner?_runNext (w : World σ) (t x : Task) : (w.runNext t).2.owner? x = w.owner? x := by
  have hrun := runAll_of (f := fun w : World σ => w.owner? x) (fun w _ _ _ _ => by cases x <;> rfl) w [t]
  exact hrun

/-- Tasks are done in both, but for the fetch. -/
theorem blind_runAll (hid : w.owner? (.fetch n) = some id) (ts : List Task) :
    (w.runAll ts).2.blind n = ((w.blind n).runAll (ts.filter (· ≠ .fetch n))).2 ∧
      History.aside id (w.runAll ts).1 = History.aside id ((w.blind n).runAll (ts.filter (· ≠ .fetch n))).1 := by
  induction ts generalizing w with
  | nil => exact ⟨rfl, rfl⟩
  | cons t ts ih =>
    have hid' : (w.runNext t).2.owner? (.fetch n) = some id := (owner?_runNext w t _).trans hid
    obtain ⟨hrest, hmore⟩ := ih hid'
    rw [runAll, History.aside_append, hmore]
    by_cases ht : t = .fetch n
    · -- the fetch is not done in the other world, and what it brings is aimed at its own request
      subst ht
      obtain ⟨hworld, hnone⟩ := blind_runNext_self hid
      rw [hworld] at hrest
      rw [List.filter_cons_of_neg (by simp), hnone, hworld]
      exact ⟨hrest, rfl⟩
    · obtain ⟨hworld, hevents⟩ := blind_runNext ht w
      rw [hworld] at hrest
      rw [List.filter_cons_of_pos (by simpa using ht), runAll, History.aside_append, hevents, hworld]
      exact ⟨hrest, rfl⟩

theorem blind_tick (hid : w.owner? (.fetch n) = some id) :
    w.tick.2.blind n = (w.blind n).tick.2 ∧ History.aside id w.tick.1 = History.aside id (w.blind n).tick.1 :=
  blind_runAll hid w.work

theorem blind_later (w : World σ) (ms : Nat) : (w.later ms).blind n = (w.blind n).later ms := by
  have hwork : ∀ due : List Nat, (w.work ++ due.map Task.timer).filter (· ≠ .fetch n) =
      w.work.filter (· ≠ .fetch n) ++ due.map .timer := by
    intro due
    have hall : (due.map Task.timer).filter (· ≠ .fetch n) = due.map .timer := by
      refine List.filter_eq_self.mpr fun t ht => ?_
      obtain ⟨m, -, rfl⟩ := List.mem_map.mp ht
      rfl
    rw [List.filter_append, hall]
  exact congrArg (fun work => ({ (w.blind n).later ms with work := work } : World σ)) (hwork _)

theorem blind_advance (hid : w.owner? (.fetch n) = some id) (ms : Nat) :
    (w.advance ms).2.blind n = ((w.blind n).advance ms).2 ∧
      History.aside id (w.advance ms).1 = History.aside id ((w.blind n).advance ms).1 := by
  have hid' : (w.tick.2.later ms).owner? (.fetch n) = some id :=
    (runAll_of (f := fun w : World σ => w.owner? (.fetch n)) (fun _ _ _ _ _ => rfl) w w.work).trans hid
  obtain ⟨hbefore, hevents⟩ := blind_tick hid
  obtain ⟨hafter, hmore⟩ := blind_tick hid'
  rw [blind_later, hbefore] at hafter hmore
  rw [advance, advance, History.aside_append, History.aside_append, hevents, hmore]
  exact ⟨hafter, rfl⟩

/-! ## Operations -/

/-- The reply of another fetch is the same in both. -/
theorem blind_reply_of_ne {m : Nat} (hm : m ≠ n) (w : World σ) (r : FetchReply) :
    (w.reply m r).blind n = (w.blind n).reply m r := by
  rw [reply, reply, fetches_blind_of_ne hm]
  rcases w.fetches[m]? with _ | ⟨id, _ | reply⟩
  · rfl
  · dsimp only
    rw [blind_push (by simpa using hm)]
    have hset : (w.fetches.set m (id, some r)).modify n (fun p => (p.1, none)) =
        (w.fetches.modify n fun p => (p.1, none)).set m (id, some r) := by
      refine List.ext_getElem? fun i => ?_
      rw [List.getElem?_modify, List.getElem?_set, List.getElem?_set, List.getElem?_modify, List.length_modify]
      by_cases hi : m = i
      · subst hi
        simp [hm.symm]
      · rw [if_neg hi, if_neg hi]
    exact congrArg (fun fs => ({ w.blind n with fetches := fs } : World σ).push (.fetch m)) hset
  · rfl

/-- Its own reply is not seen. -/
theorem blind_reply_self (w : World σ) (r : FetchReply) : (w.reply n r).blind n = w.blind n := by
  rw [reply]
  rcases hf : w.fetches[n]? with _ | ⟨id, _ | reply⟩
  · rfl
  · dsimp only
    have hset : (w.fetches.set n (id, some r)).modify n (fun p => (p.1, none)) =
        w.fetches.modify n fun p => (p.1, none) := by
      refine List.ext_getElem? fun i => ?_
      rw [List.getElem?_modify, List.getElem?_modify, List.getElem?_set]
      by_cases hi : n = i
      · subst hi
        rw [if_pos rfl, if_pos (List.getElem?_eq_some_iff.mp hf).1, hf]
        simp
      · rw [if_neg hi]
    have hblind : blind n { w with fetches := w.fetches.set n (id, some r) } = w.blind n :=
      congrArg (fun fs => ({ w.blind n with fetches := fs } : World σ)) hset
    rw [push]
    split
    · exact hblind
    · rw [← hblind]
      simp [blind, List.filter_append]
  · rfl

/-- What a call sets going adds to the fetches. -/
theorem fetches_send (w : World σ) (id path : String) (args : Args) (timeout : Option Nat) :
    w.fetches <+: (w.send id path args timeout).fetches := by
  have hhand : ∀ (w : World σ) url, w.fetches <+: (w.hand id url).fetches := by
    intro w url
    unfold hand
    split
    · exact List.prefix_rfl
    · cases w.config.transport with
      | scriptTag =>
        dsimp only [load]
        split
        · exact ⟨[], by rw [List.append_nil, push_eq]⟩
        · exact List.prefix_rfl
      | fetch => exact List.prefix_append ..
  unfold send
  split
  · exact List.prefix_rfl
  · dsimp only
    split
    · exact List.prefix_rfl
    · cases timeout.or w.config.effectiveTimeout with
      | none => exact hhand w _
      | some ms => exact hhand (w.limit id (some ms)) _

/-- An operation gives no fetch to another request. -/
theorem owner?_step (hid : w.owner? (.fetch n) = some id) (op : Op) : (w.step op).2.owner? (.fetch n) = some id := by
  have hrun : ∀ (w : World σ) ts, (w.runAll ts).2.owner? (.fetch n) = w.owner? (.fetch n) :=
    runAll_of (f := fun w : World σ => w.owner? (.fetch n)) fun _ _ _ _ _ => rfl
  have hread : ∀ (w : World σ) url, (w.read url).2.owner? (.fetch n) = w.owner? (.fetch n) :=
    read_of (f := fun w : World σ => w.owner? (.fetch n)) fun _ _ _ _ _ => rfl
  obtain ⟨p, hp, rfl⟩ := Option.map_eq_some_iff.mp hid
  have hlt : n < w.fetches.length := (List.getElem?_eq_some_iff.mp hp).1
  have hcall : ∀ c path args timeout, (w.call c path args timeout).2.owner? (.fetch n) = some p.1 := by
    intro c path args timeout
    obtain ⟨more, hmore⟩ := fetches_send { w with calls := w.calls ++ [c] } (w.idOf w.calls.length) path args timeout
    rw [call, owner?, ← hmore, List.getElem?_append_left hlt, hp]
    rfl
  cases op with
  | call path args timeout => exact hcall true path args timeout
  | callNamed name path args => exact hcall false path args none
  | tick => exact (hrun w w.work).trans hid
  | advance ms => exact (hrun (w.tick.2.later ms) _).trans ((hrun w w.work).trans hid)
  | answer url => exact (hread w url).trans hid
  | answerNext =>
    rw [step]
    cases w.loads with
    | nil => exact hid
    | cons url rest => exact (hread _ url).trans hid
  | reply m r => exact (congrFun (owner?_reply w m r) _).trans hid
  | _ => exact hid

/-- **An operation does the same in both**, but for what is aimed at one id. -/
theorem blind_step (hid : w.owner? (.fetch n) = some id) (op : Op) :
    (w.step op).2.blind n = ((w.blind n).step op).2.blind n ∧
      History.aside id (w.step op).1 = History.aside id ((w.blind n).step op).1 := by
  have hn : n < w.fetches.length := by
    obtain ⟨p, hp, -⟩ := Option.map_eq_some_iff.mp hid
    exact (List.getElem?_eq_some_iff.mp hp).1
  -- but for its own reply, the fetch is all that the two differ in afterwards
  have hsame : ∀ {x y : World σ}, x.blind n = y → x.blind n = y.blind n := by
    rintro x y rfl
    exact (blind_blind n x).symm
  cases op with
  | call path args timeout =>
    obtain ⟨hworld, hevents⟩ := blind_call hn true path args timeout
    exact ⟨hsame hworld, congrArg _ hevents⟩
  | callNamed name path args =>
    obtain ⟨hworld, hevents⟩ := blind_call hn false path args none
    exact ⟨hsame hworld, congrArg _ hevents⟩
  | tick =>
    obtain ⟨hworld, hevents⟩ := blind_tick hid
    exact ⟨hsame hworld, hevents⟩
  | advance ms =>
    obtain ⟨hworld, hevents⟩ := blind_advance hid ms
    exact ⟨hsame hworld, hevents⟩
  | answer url =>
    obtain ⟨hworld, hevents⟩ := blind_read (n := n) w url
    exact ⟨hsame hworld, congrArg _ hevents⟩
  | answerNext =>
    have hloads : (w.blind n).loads = w.loads := rfl
    rw [step, step, hloads]
    cases w.loads with
    | nil => exact ⟨hsame rfl, rfl⟩
    | cons url rest =>
      obtain ⟨hworld, hevents⟩ := blind_read (n := n) { w with loads := rest } url
      exact ⟨hsame hworld, congrArg _ hevents⟩
  | reply m r =>
    by_cases hm : m = n
    · subst hm
      exact ⟨(blind_reply_self w r).trans ((blind_blind m w).symm.trans (blind_reply_self (w.blind m) r).symm), rfl⟩
    · exact ⟨hsame (blind_reply_of_ne hm w r), rfl⟩
  | _ => exact ⟨hsame rfl, rfl⟩

/-- Worlds that differ in one fetch only bring the same, but for what is aimed at its request. -/
theorem aside_told_of_blind (ops : List Op) (hw : w.owner? (.fetch n) = some id) (hv : v.owner? (.fetch n) = some id)
    (hblind : w.blind n = v.blind n) : History.aside id (w.told ops) = History.aside id (v.told ops) := by
  induction ops generalizing w v with
  | nil => rfl
  | cons op ops ih =>
    obtain ⟨hworld, hevents⟩ := blind_step hw op
    obtain ⟨hworld', hevents'⟩ := blind_step hv op
    rw [told, told, History.aside_append, History.aside_append, hevents, hevents', hblind]
    rw [hblind] at hworld
    rw [ih (owner?_step hw op) (owner?_step hv op) (hworld.trans hworld'.symm)]

/-- **What is about one id is nothing to others**, whatever comes later. -/
theorem aside_told_cons {op : Op} (hop : w.target? op = some id) (more : List Op) :
    History.aside id (w.told (op :: more)) = History.aside id (w.told more) := by
  rw [told, History.aside_append]
  have haimed : ∀ en : Ending, History.aside id [.aimed id en] = [] := fun en =>
    List.filter_cons_of_neg (by simp [Event.endingOf?])
  cases op with
  | reply n r =>
    -- nothing is told at once, and later only what the reply settles
    have howner := owner?_step hop (.reply n r)
    exact aside_told_of_blind more howner hop (blind_reply_self w r)
  | invoke id' data error =>
    obtain rfl := Option.some.inj hop
    exact congrArg (· ++ _) (haimed _)
  | reject id' e =>
    obtain rfl := Option.some.inj hop
    exact congrArg (· ++ _) (haimed _)
  | cancel k =>
    obtain rfl := Option.some.inj hop
    rw [step]
    split
    · exact congrArg (· ++ _) (haimed _)
    · rfl
  | cancelDetached k =>
    obtain rfl := Option.some.inj hop
    rw [step]
    split
    · exact congrArg (· ++ _) (haimed _)
    · rfl
  | drop k =>
    obtain rfl := Option.some.inj hop
    rw [step]
    split
    · exact congrArg (· ++ _) (haimed _)
    · rfl
  | _ => cases hop

/-- What is about one id does not end the requests of others. -/
theorem ending?_told_aside {stem : String} {m : Nat} (w : World σ) (ops more : List Op) {op : Op}
    (hop : (w.after ops).target? op = some id) (hid : id ≠ Registry.idOf stem m) :
    (w.told (ops ++ op :: more)).ending? stem m = (w.told (ops ++ more)).ending? stem m := by
  rw [← History.ending?_aside hid, told_append, History.aside_append, aside_told_cons hop, ← History.aside_append,
    ← told_append, History.ending?_aside hid]

end Hostlink.Bridge.World
