import Hostlink.Bridge.Session
import Hostlink.Proofs.Bridge.Calls

/-!
# The world around the requests

What reaches the requests of a bridge can be told from the operations alone. Somebody calls, and a timer runs, a
fetch is under way, or the page loads a script; the host and the fetcher answer, time passes, and callers and the host
aim at ids. A world knows all this and no requests: nobody waits in it, so nothing is ever stopped, taken away or given
up, and whatever is on its way arrives.

* `World.new` — the world around a bridge that nothing has happened to;
* `World.step` — an operation, and the events that it brings;
* `World.told` — **all events that operations bring**;
* `World.target?` — the id that an operation is about.
-/

namespace Hostlink.Bridge

open Registry (Ending Event History)

/-- What goes on around requests, whoever waits for them. -/
structure World (σ : Type) where
  config : Config
  runtime : Bool
  /-- Does the page take scripts? -/
  room : Bool
  host : Host σ
  /-- Milliseconds since the start. -/
  clock : Nat
  /-- For each handle that was given out, is it that of a call? The others are dialogs. -/
  calls : List Bool
  /-- Sources that the page has loaded and that nobody has taken. -/
  loads : List String
  timers : List Timer
  /-- Timers that wait for their deadline. -/
  sleepers : List Nat
  /-- The request of each fetch, and its reply as soon as there is one. -/
  fetches : List (String × Option FetchReply)
  /-- Work for the next tick. -/
  work : List Task

namespace World

variable {σ : Type}

/-- The world around a bridge that nothing has happened to. A page takes scripts if it has a head, or a script that
another one can go before. -/
def new (config : Config) (runtime : Bool) (page : Document) (host : Host σ) : World σ where
  config := config
  runtime := runtime
  room := page.head.isSome || page.firstScript.isSome
  host := host
  clock := 0
  calls := []
  loads := page.loads
  timers := []
  sleepers := []
  fetches := []
  work := if serves config runtime host then [.serve] else []

/-- The id of the request that was made with a handle. -/
def idOf (w : World σ) (k : Nat) : String := Registry.idOf w.config.callbackStem k

/-- One more task, unless it is to be done anyway. -/
def push (w : World σ) (t : Task) : World σ := if t ∈ w.work then w else { w with work := w.work ++ [t] }

/-- The request that a task is for. -/
def owner? (w : World σ) : Task → Option String
  | .timer n => w.timers[n]?.map Timer.id
  | .fetch n => w.fetches[n]?.map Prod.fst
  | .serve => none

/-! ## Calls -/

/-- Why a URL cannot be handed over. -/
def handFailure? (w : World σ) : Option Rejection :=
  match w.config.transport with
  | .scriptTag => if w.room then none else some noPlace
  | .fetch => if w.runtime then none else some .noRuntime

/-- Why a call fails at once. -/
def failure? (w : World σ) (id path : String) (args : Args) (timeout : Option Nat) : Option Rejection :=
  match w.config.codec.encode path args id with
  | .error e => some (.encode e)
  | .ok _ => if (timeout.or w.config.effectiveTimeout).isSome && !w.runtime then some .noRuntime else w.handFailure?

/-- The time of a request begins, if it has a limit. -/
def limit (w : World σ) (id : String) : Option Nat → World σ
  | none => w
  | some ms => { w with
      timers := w.timers ++ [⟨id, w.clock + ms⟩]
      work := w.work ++ [.timer w.timers.length] }

/-- A fetch begins. -/
def ask (w : World σ) (id url : String) : World σ :=
  { w with
    host := (w.host.fetch url).2
    fetches := w.fetches ++ [(id, (w.host.fetch url).1)]
    work := w.work ++ [.fetch w.fetches.length] }

/-- The page loads a script, and the host is to read it if it serves the page. -/
def load (w : World σ) (url : String) : World σ :=
  let w := { w with loads := w.loads ++ [url] }
  if serves w.config w.runtime w.host then w.push .serve else w

/-- A URL is handed over, if that is possible. -/
def hand (w : World σ) (id url : String) : World σ :=
  if w.handFailure?.isSome then w
  else
    match w.config.transport with
    | .scriptTag => w.load url
    | .fetch => w.ask id url

/-- What a call sets going. -/
def send (w : World σ) (id path : String) (args : Args) (timeout : Option Nat) : World σ :=
  match w.config.codec.encode path args id with
  | .error _ => w
  | .ok url =>
    let ms := timeout.or w.config.effectiveTimeout
    if ms.isSome && !w.runtime then w else (w.limit id ms).hand id url

/-- A handle is given out, that of a call or of a dialog, and its request is sent. -/
def call (w : World σ) (isCall : Bool) (path : String) (args : Args) (timeout : Option Nat) : History × World σ :=
  let id := w.idOf w.calls.length
  (.opened :: failureEvents id (w.failure? id path args timeout),
    { w with calls := w.calls ++ [isCall] }.send id path args timeout)

/-! ## The host reads scripts -/

/-- The host reads a URL, if it knows the page, and answers under the name that it finds there. -/
def read (w : World σ) (url : String) : History × World σ :=
  if w.host.connected then
    (match (w.host.answer url).1 with
      | .error _ => []
      | .ok (r, answer) => (r.callback.map fun id => Event.aimed id (.settled (Host.settlementOf answer))).toList,
      { w with host := (w.host.answer url).2 })
  else ([], w)

/-- The host reads several URLs. -/
def readAll (w : World σ) : List String → History × World σ
  | [] => ([], w)
  | url :: urls =>
    let rest := (w.read url).2.readAll urls
    ((w.read url).1 ++ rest.1, rest.2)

/-! ## Time -/

/-- A task runs: a timer runs out or goes to sleep, a fetch brings its reply, or the host reads what was loaded. -/
def run (w : World σ) : Task → History × World σ
  | .timer n =>
    match w.timers[n]? with
    | none => ([], w)
    | some t =>
      if t.deadline ≤ w.clock then ([.aimed t.id (.settled (.error .timeout))], w)
      else ([], { w with sleepers := w.sleepers ++ [n] })
  | .fetch n =>
    match w.fetches[n]? with
    | some (id, some reply) => ([.aimed id (.settled (settlementOf reply))], w)
    | _ => ([], w)
  | .serve => { w with loads := [] }.readAll w.loads

/-- A task runs, if it is still to be done. -/
def runNext (w : World σ) (t : Task) : History × World σ :=
  if t ∈ w.work then { w with work := w.work.filter (· ≠ t) }.run t else ([], w)

/-- Tasks run one after another. -/
def runAll (w : World σ) : List Task → History × World σ
  | [] => ([], w)
  | t :: ts =>
    let rest := (w.runNext t).2.runAll ts
    ((w.runNext t).1 ++ rest.1, rest.2)

/-- All work is done. -/
def tick (w : World σ) : History × World σ := w.runAll w.work

/-- The deadline of a timer. -/
def deadline (w : World σ) (n : Nat) : Nat := (w.timers[n]?.map Timer.deadline).getD 0

/-- The clock moves, and timers whose deadline has come are to run, the earliest first. -/
def later (w : World σ) (ms : Nat) : World σ :=
  let now := w.clock + ms
  let due := (w.sleepers.filter (w.deadline · ≤ now)).mergeSort fun m n => w.deadline m ≤ w.deadline n
  { w with
    clock := now
    sleepers := w.sleepers.filter (now < w.deadline ·)
    work := w.work ++ due.map .timer }

/-- A tick, then the clock moves, then a tick. -/
def advance (w : World σ) (ms : Nat) : History × World σ :=
  let before := w.tick
  let after := (before.2.later ms).tick
  (before.1 ++ after.1, after.2)

/-- A fetch is answered, if it has not been answered before. The reply comes with the next tick. -/
def reply (w : World σ) (n : Nat) (r : FetchReply) : World σ :=
  match w.fetches[n]? with
  | some (id, none) => { w with fetches := w.fetches.set n (id, some r) }.push (.fetch n)
  | _ => w

/-! ## Operations -/

/-- One operation: the events that it brings, and the world after it. Looking at a handle, pushes and subscribers have
nothing to do with requests. -/
def step (w : World σ) : Op → History × World σ
  | .call path args timeout => w.call true path args timeout
  | .callNamed _ path args => w.call false path args none
  | .cancel k => (if k < w.calls.length then [.aimed (w.idOf k) (.settled (.error .canceled))] else [], w)
  | .cancelDetached k => (if w.calls[k]? = some true then [.aimed (w.idOf k) (.settled (.error .canceled))] else [], w)
  | .drop k => (if k < w.calls.length then [.aimed (w.idOf k) .forgotten] else [], w)
  | .invoke id data error => ([.aimed id (.settled (Reply.settle data error))], w)
  | .reject id e => ([.aimed id (.settled (.error e))], w)
  | .tick => w.tick
  | .advance ms => w.advance ms
  | .requests => ([], { w with loads := [] })
  | .answer url => w.read url
  | .answerNext =>
    match w.loads with
    | [] => ([], w)
    | url :: rest => { w with loads := rest }.read url
  | .reply n r => ([], w.reply n r)
  | .poll _ | .notify _ | .hostNotify _ | .subscribe | .unsubscribe _ | .drain _ => ([], w)

/-- The world after several operations. -/
def after (w : World σ) (ops : List Op) : World σ := ops.foldl (fun w op => (w.step op).2) w

/-- All events that operations bring. -/
def told (w : World σ) : List Op → History
  | [] => []
  | op :: ops => (w.step op).1 ++ (w.step op).2.told ops

theorem after_append (w : World σ) (ops more : List Op) : w.after (ops ++ more) = (w.after ops).after more :=
  List.foldl_append

theorem after_concat (w : World σ) (ops : List Op) (op : Op) : w.after (ops ++ [op]) = ((w.after ops).step op).2 := by
  rw [after_append]
  rfl

theorem told_append (w : World σ) (ops more : List Op) :
    w.told (ops ++ more) = w.told ops ++ (w.after ops).told more := by
  induction ops generalizing w with
  | nil => rfl
  | cons op ops ih =>
    rw [List.cons_append, told, ih, told, List.append_assoc]
    rfl

theorem told_concat (w : World σ) (ops : List Op) (op : Op) :
    w.told (ops ++ [op]) = w.told ops ++ ((w.after ops).step op).1 := by
  rw [told_append, told, told, List.append_nil]

/-! ## What stays -/

/-- What does not change in a world, and the handles that were given out. -/
def ground (w : World σ) : Config × Bool × Bool × List Bool := (w.config, w.runtime, w.room, w.calls)

theorem push_eq (w : World σ) (t : Task) :
    w.push t = { w with work := w.work ++ if t ∈ w.work then [] else [t] } := by
  unfold push
  split <;> simp

theorem mem_work_push {w : World σ} {t x : Task} : x ∈ (w.push t).work ↔ x ∈ w.work ∨ x = t := by
  unfold push
  split
  · next hmem => exact ⟨.inl, fun hx => hx.elim id fun heq => heq ▸ hmem⟩
  · simp

theorem ground_push (w : World σ) (t : Task) : (w.push t).ground = w.ground := by rw [push_eq, ground, ground]

theorem ground_hand (w : World σ) (id url : String) : (w.hand id url).ground = w.ground := by
  unfold hand
  split
  · rfl
  · cases w.config.transport with
    | scriptTag =>
      dsimp only [load]
      split
      · exact ground_push _ _
      · rfl
    | fetch => rfl

theorem ground_send (w : World σ) (id path : String) (args : Args) (timeout : Option Nat) :
    (w.send id path args timeout).ground = w.ground := by
  unfold send
  split
  · rfl
  · dsimp only
    split
    · rfl
    · rw [ground_hand]
      cases timeout.or w.config.effectiveTimeout <;> rfl

section

variable {α : Type} {f : World σ → α}
  (hf : ∀ (w : World σ) host loads sleepers work, f { w with host, loads, sleepers, work } = f w)
include hf

theorem read_of (w : World σ) (url : String) : f (w.read url).2 = f w := by
  unfold read
  split
  · exact hf w _ w.loads w.sleepers w.work
  · rfl

theorem readAll_of (w : World σ) (urls : List String) : f (w.readAll urls).2 = f w := by
  induction urls generalizing w with
  | nil => rfl
  | cons url urls ih => exact (ih _).trans (read_of hf w url)

theorem run_of (w : World σ) (t : Task) : f (w.run t).2 = f w := by
  cases t with
  | timer n =>
    rw [run]
    cases w.timers[n]? with
    | none => rfl
    | some t =>
      dsimp only
      split
      · rfl
      · exact hf w w.host w.loads _ w.work
  | fetch n =>
    rw [run]
    split <;> rfl
  | serve => exact (readAll_of hf _ w.loads).trans (hf w w.host [] w.sleepers w.work)

/-- **What does not depend on the host, on loads and on work, tasks leave alone.** -/
theorem runAll_of (w : World σ) (ts : List Task) : f (w.runAll ts).2 = f w := by
  have hnext : ∀ (w : World σ) t, f (w.runNext t).2 = f w := by
    intro w t
    unfold runNext
    split
    · exact (run_of hf _ t).trans (hf w w.host w.loads w.sleepers _)
    · rfl
  induction ts generalizing w with
  | nil => rfl
  | cons t ts ih => exact (ih _).trans (hnext w t)

end

theorem ground_runAll (w : World σ) (ts : List Task) : (w.runAll ts).2.ground = w.ground :=
  runAll_of (fun _ _ _ _ _ => rfl) w ts

/-- Is a handle given out, and is it that of a call? -/
def handle? : Op → Option Bool
  | .call _ _ _ => some true
  | .callNamed _ _ _ => some false
  | _ => none

/-- **Nothing changes for good but the handles that are given out.** -/
theorem ground_step (w : World σ) (op : Op) :
    (w.step op).2.ground = (w.config, w.runtime, w.room, w.calls ++ (handle? op).toList) := by
  have hsame : w.ground = (w.config, w.runtime, w.room, w.calls ++ []) := by rw [List.append_nil, ground]
  cases op with
  | call path args timeout => exact ground_send _ _ path args timeout
  | callNamed name path args => exact ground_send _ _ path args none
  | tick => exact (w.ground_runAll _).trans hsame
  | advance ms =>
    have htick : w.tick.2.ground = w.ground := w.ground_runAll w.work
    have hlater : (w.tick.2.later ms).tick.2.ground = (w.tick.2.later ms).ground := ground_runAll _ _
    exact (hlater.trans htick).trans hsame
  | answer url => exact (read_of (f := ground) (fun _ _ _ _ _ => rfl) w url).trans hsame
  | answerNext =>
    rw [step]
    cases w.loads with
    | nil => exact hsame
    | cons url rest => exact (read_of (f := ground) (fun _ _ _ _ _ => rfl) _ url).trans hsame
  | reply n r =>
    rw [step, reply]
    split
    · exact (ground_push _ _).trans hsame
    · exact hsame
  | _ => exact hsame

theorem calls_step (w : World σ) (op : Op) : (w.step op).2.calls = w.calls ++ (handle? op).toList :=
  congrArg (·.2.2.2) (w.ground_step op)

/-- Set-up and room of a world do not change, and its handles are those that were given out, in order. -/
theorem ground_after (w : World σ) (ops : List Op) :
    (w.after ops).config = w.config ∧ (w.after ops).runtime = w.runtime ∧ (w.after ops).room = w.room ∧
      (w.after ops).calls = w.calls ++ ops.filterMap handle? := by
  induction ops generalizing w with
  | nil => exact ⟨rfl, rfl, rfl, (List.append_nil _).symm⟩
  | cons op ops ih =>
    obtain ⟨hconfig, hruntime, hroom, hcalls⟩ := ih (w.step op).2
    have hground := w.ground_step op
    simp only [ground, Prod.mk.injEq] at hground
    obtain ⟨hconfig', hruntime', hroom', hcalls'⟩ := hground
    refine ⟨hconfig.trans hconfig', hruntime.trans hruntime', hroom.trans hroom', hcalls.trans ?_⟩
    rw [hcalls', List.append_assoc, List.filterMap_cons]
    cases handle? op <;> rfl

/-! ## New tasks -/

/-- A list has one more element at its end. -/
theorem getElem?_append_singleton {α : Type} (l : List α) (x : α) (n : Nat) :
    (l ++ [x])[n]? = if n = l.length then some x else l[n]? := by
  rcases Nat.lt_trichotomy n l.length with hn | rfl | hn
  · rw [List.getElem?_append_left hn, if_neg (Nat.ne_of_lt hn)]
  · rw [List.getElem?_concat_length, if_pos rfl]
  · rw [if_neg (Nat.ne_of_gt hn), List.getElem?_eq_none (Nat.le_of_lt hn), List.getElem?_eq_none]
    rw [List.length_append]
    exact hn

theorem owner?_limit (w : World σ) (id : String) (ms : Nat) (t : Task) :
    (w.limit id (some ms)).owner? t = if t = .timer w.timers.length then some id else w.owner? t := by
  cases t with
  | timer n =>
    simp only [owner?, limit, getElem?_append_singleton, Task.timer.injEq]
    split <;> rfl
  | fetch n => rfl
  | serve => rfl

theorem owner?_ask (w : World σ) (id url : String) (t : Task) :
    (w.ask id url).owner? t = if t = .fetch w.fetches.length then some id else w.owner? t := by
  cases t with
  | timer n => rfl
  | fetch n =>
    simp only [owner?, ask, getElem?_append_singleton, Task.fetch.injEq]
    split <;> rfl
  | serve => rfl

/-- A reply is for the request of its fetch, and gives no task to another one. -/
theorem owner?_reply (w : World σ) (n : Nat) (r : FetchReply) : (w.reply n r).owner? = w.owner? := by
  unfold reply
  rcases hn : w.fetches[n]? with _ | ⟨id, _ | reply⟩
  · rfl
  · funext t
    dsimp only
    rw [push_eq]
    cases t with
    | fetch m =>
      simp only [owner?, List.getElem?_set]
      by_cases hm : n = m
      · subst hm
        rw [if_pos rfl, if_pos (List.getElem?_eq_some_iff.mp hn).1, hn]
        rfl
      · rw [if_neg hm]
    | _ => rfl
  · rfl

/-- The id that an operation is about, where it aims at a request or brings a reply to one. -/
def target? (w : World σ) : Op → Option String
  | .invoke id _ _ | .reject id _ => some id
  | .cancel k | .cancelDetached k | .drop k => some (w.idOf k)
  | .reply n _ => w.fetches[n]?.map Prod.fst
  | _ => none

end World

end Hostlink.Bridge
