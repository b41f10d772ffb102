import Hostlink.Proofs.EventLog
import Hostlink.Proofs.Registry.Guards
import Hostlink.Proofs.Registry.Run

/-!
# What a registry logs

A slot that is taken away leaves a line in the log, and nothing else does. Which line that is follows from the moves
before: the path and the time that the request was registered with, and what was aimed at it first.

* `Registry.entries` — what effects log;
* `Registry.history`, `Registry.registrations` — what moves do to requests, and what those were registered with;
* `Registry.closing?`, `Registry.closings` — the line of a move, told from the moves before it, and those of several;
* `Registry.entries_effects` — **moves log their lines, in order**;
* `Registry.subjects_after` — **every request waits, or has one line**;
* `Registry.removals_logged` — both, and the log that is left of a run.
-/

namespace Hostlink.Registry

open EventLog (Entry)

variable {γ τ : Type}

/-! ## Entries -/

/-- What effects log, in order. -/
def entries (es : List (Effect γ τ)) : List Entry :=
  es.filterMap fun
    | .record id path label ms => some (.request id path label ms)
    | _ => none

/-- The ids of the requests that entries are about. -/
def subjects (es : List Entry) : List String :=
  es.filterMap fun
    | .request id _ _ _ => some id
    | _ => none

theorem entries_append (es es' : List (Effect γ τ)) : entries (es ++ es') = entries es ++ entries es' :=
  List.filterMap_append

theorem subjects_append (es es' : List Entry) : subjects (es ++ es') = subjects es ++ subjects es' :=
  List.filterMap_append

/-- Stopping a timer and cleaning up is not logged. -/
theorem entries_cleanup (slot : Slot γ τ) (rest : List (Effect γ τ)) :
    entries (cleanup slot ++ rest) = entries rest := by
  unfold cleanup
  cases slot.timer <;> cases slot.guard <;> rfl

theorem entries_map_release (guard : Option γ) : entries (guard.map (Effect.release (τ := τ))).toList = [] := by
  cases guard <;> rfl

/-! ## Lines told from the moves before -/

/-- How an ending is called in the log. -/
def Ending.outcome : Ending → String
  | .settled (.ok _) => "resolved"
  | .settled (.error .timeout) => "timeout"
  | .settled (.error .canceled) => "canceled"
  | .settled (.error _) => "rejected"
  | .forgotten => "dropped"

theorem label_eq (v : Settlement) : label v = (Ending.settled v).outcome := by
  rcases v with e | v
  · cases e <;> rfl
  · rfl

/-- What a move does to requests; attaching something is nothing to them. -/
def Move.event? : Move γ τ → Option Event
  | .register _ _ => some .opened
  | .settle _ id v => some (.aimed id (.settled v))
  | .forget _ id => some (.aimed id .forgotten)
  | .attachGuard _ _ | .attachTimer _ _ => none

/-- What several moves do to requests. -/
def history (ms : List (Move γ τ)) : History := ms.filterMap Move.event?

/-- The paths that requests were registered with, and when, by number. -/
def registrations (ms : List (Move γ τ)) : List (String × Nat) :=
  ms.filterMap fun
    | .register path now => some (path, now)
    | _ => none

/-- The number of the request that waits under an id. -/
def waiting? (stem : String) (h : History) (id : String) : Option Nat :=
  ((List.range h.opened).filter fun n => (h.ending? stem n).isNone).find? (idOf stem · = id)

/-- The line of a request that ends under an id; none if no request waits there. -/
def closed? (stem : String) (before : List (Move γ τ)) (id : String) (e : Ending) (now : Nat) : Option Entry := do
  let n ← waiting? stem (history before) id
  let (path, since) ← (registrations before)[n]?
  some (.request id path e.outcome (now - since))

/-- The line of a move, told from the moves before it. -/
def closing? (stem : String) (before : List (Move γ τ)) : Move γ τ → Option Entry
  | .settle now id v => closed? stem before id (.settled v) now
  | .forget now id => closed? stem before id .forgotten now
  | .register _ _ | .attachGuard _ _ | .attachTimer _ _ => none

/-- The lines of several moves, after others. -/
def closings (stem : String) (before : List (Move γ τ)) : List (Move γ τ) → List Entry
  | [] => []
  | m :: ms => (closing? stem before m).toList ++ closings stem (before ++ [m]) ms

theorem closings_concat (stem : String) (m : Move γ τ) : ∀ before ms : List (Move γ τ),
    closings stem before (ms ++ [m]) = closings stem before ms ++ (closing? stem (before ++ ms) m).toList
  | before, [] => by simp [closings]
  | before, m' :: ms => by
    rw [List.cons_append, closings, closings, closings_concat stem m (before ++ [m']) ms]
    simp

theorem history_append (ms ms' : List (Move γ τ)) : history (ms ++ ms') = history ms ++ history ms' :=
  List.filterMap_append

theorem registrations_append (ms ms' : List (Move γ τ)) :
    registrations (ms ++ ms') = registrations ms ++ registrations ms' :=
  List.filterMap_append

/-! ## Who waits, told from the moves before -/

/-- A move does at the desk what it does to requests. -/
theorem Sound.desk_move {r : Registry γ τ} (h : r.Sound) (boxes : Inboxes) (m : Move γ τ) :
    ∃ boxes', (r.move m).2.desk boxes' = (r.desk boxes).run m.event?.toList := by
  cases m with
  | register path now => exact ⟨_, desk_register r boxes path now⟩
  | settle now id v => exact ⟨_, h.desk_settle boxes now id v⟩
  | forget now id => exact ⟨_, h.desk_forget boxes now id⟩
  | attachGuard id guard => exact ⟨_, desk_attachGuard r boxes id guard⟩
  | attachTimer id timer => exact ⟨_, desk_attachTimer r boxes id timer⟩

variable (stem : String) (ms : List (Move γ τ))

theorem desk_after : ∃ boxes, (after stem ms).desk boxes = (Desk.new stem).run (history ms) := by
  induction ms using List.reverseRecOn with
  | nil => exact ⟨[], rfl⟩
  | append_singleton ms m ih =>
    obtain ⟨boxes, hboxes⟩ := ih
    obtain ⟨boxes', hmove⟩ := (sound_after stem ms).desk_move boxes m
    refine ⟨boxes', ?_⟩
    rw [after_concat, hmove, hboxes, history_append, Desk.run_append]
    cases hm : m.event? <;> simp [history, hm]

theorem number_find? (id : String) : ((after stem ms).find? id).map (·.number) = waiting? stem (history ms) id := by
  obtain ⟨boxes, hboxes⟩ := desk_after stem ms
  have hwaiting := (Desk.follows_run stem (history ms)).waiting_eq
  rw [Desk.stem_run] at hwaiting
  rw [← (sound_after stem ms).desk_find? boxes, hboxes, Desk.find?, hwaiting, Desk.stem_run]
  rfl

/-! ## What requests were registered with -/

theorem opened_history : (history ms).opened = (registrations ms).length := by
  rw [History.opened, history, List.countP_filterMap, registrations, List.length_filterMap_eq_countP]
  refine List.countP_congr fun m _ => ?_
  cases m <;> exact Iff.rfl

theorem count_after : (after stem ms).count = (registrations ms).length := by
  obtain ⟨boxes, hboxes⟩ := desk_after stem ms
  have hcount : ((after stem ms).desk boxes).count = (history ms).opened :=
    hboxes ▸ (Desk.follows_run stem (history ms)).count_eq
  exact hcount.trans (opened_history ms)

/-- A slot has the path and the time that its request was registered with. -/
theorem registrations_getElem? {s : Slot γ τ} (hs : s ∈ (after stem ms).slots) :
    (registrations ms)[s.number]? = some (s.path, s.since) := by
  induction ms using List.reverseRecOn generalizing s with
  | nil => exact absurd hs List.not_mem_nil
  | append_singleton ms m ih =>
    rw [after_concat] at hs
    rw [registrations_append]
    rcases slot_move hs with ⟨old, hold, hsame, -⟩ | ⟨hnumber, -, -, rfl⟩
    · have hlt := (sound_after stem ms).number_lt old hold
      rw [count_after] at hlt
      rw [hsame, List.getElem?_append_left hlt, ih hold]
    · rw [hnumber, count_after]
      exact List.getElem?_concat_length

/-! ## The lines of a run -/

/-- The line of a request that waits under an id. -/
theorem closed?_eq (id : String) (e : Ending) (now : Nat) :
    closed? stem ms id e now =
      ((after stem ms).find? id).map fun slot => .request id slot.path e.outcome (now - slot.since) := by
  rw [closed?, ← number_find?]
  cases hf : (after stem ms).find? id with
  | none => rfl
  | some slot =>
    have hslot := ((sound_after stem ms).find?_eq_some.mp hf).1
    simp [registrations_getElem? stem ms hslot]

/-- **A move logs the line that the moves before it tell.** -/
theorem entries_move (m : Move γ τ) : entries ((after stem ms).move m).1 = (closing? stem ms m).toList := by
  cases m with
  | register path now => rfl
  | settle now id v =>
    rw [closing?, closed?_eq, move, settle]
    cases (after stem ms).find? id with
    | none => rfl
    | some slot =>
      dsimp only
      rw [entries_cleanup, label_eq]
      rfl
  | forget now id =>
    rw [closing?, closed?_eq, move, forget]
    cases (after stem ms).find? id with
    | none => rfl
    | some slot =>
      dsimp only
      rw [entries_cleanup]
      rfl
  | attachGuard id guard =>
    rw [move, attachGuard]
    split
    · exact entries_map_release _
    · rfl
  | attachTimer id timer =>
    rw [move, attachTimer]
    split <;> rfl

theorem entries_effects : entries (effects stem ms) = closings stem [] ms := by
  induction ms using List.reverseRecOn with
  | nil => rfl
  | append_singleton ms m ih =>
    rw [effects_concat, entries_append, ih, entries_move, closings_concat, List.nil_append]

/-! ## One line for each slot that was taken away -/

/-- The ids of the slots that wait. -/
def ids (r : Registry γ τ) : List String := r.slots.map (·.id)

theorem ids_update (r : Registry γ τ) (id : String) (f : Slot γ τ → Slot γ τ) (hf : ∀ s, (f s).id = s.id) :
    (r.update id f).ids = r.ids := by
  rw [ids, update, List.map_map]
  refine List.map_congr_left fun s _ => ?_
  rw [Function.comp_apply]
  split
  · exact hf s
  · rfl

/-- A slot that goes takes its id along. -/
theorem Sound.ids_erase {r : Registry γ τ} (h : r.Sound) {id : String} {slot : Slot γ τ} (hf : r.find? id = some slot) :
    (id :: (r.erase id).ids).Perm r.ids := by
  obtain ⟨front, back, hslots, herase, -⟩ := h.split hf
  obtain ⟨-, rfl⟩ := h.find?_eq_some.mp hf
  rw [ids, ids, herase, hslots, List.map_append, List.map_append, List.map_cons]
  exact List.perm_middle.symm

/-- **An id that waited waits on, or has its line now.** -/
theorem Sound.subjects_move {r : Registry γ τ} (h : r.Sound) (m : Move γ τ) :
    (subjects (entries (r.move m).1) ++ (r.move m).2.ids).Perm
      (r.ids ++ (registrations [m]).map fun _ => idOf r.stem r.count) := by
  have hsame : r.ids.Perm (r.ids ++ []) := .of_eq (List.append_nil _).symm
  cases m with
  | register path now =>
    rw [ids, Registry.move, Registry.register, List.map_append]
    exact .refl _
  | settle now id v =>
    rw [Registry.move, Registry.settle]
    cases hf : r.find? id with
    | none => exact hsame
    | some slot =>
      -- the line that is logged is that of the slot that goes
      dsimp only
      rw [entries_cleanup]
      exact (h.ids_erase hf).trans hsame
  | forget now id =>
    rw [Registry.move, Registry.forget]
    cases hf : r.find? id with
    | none => exact hsame
    | some slot =>
      dsimp only
      rw [entries_cleanup]
      exact (h.ids_erase hf).trans hsame
  | attachGuard id guard =>
    rw [Registry.move, Registry.attachGuard]
    split
    · have hids := ids_update r id (fun s => { s with guard := some guard }) fun _ => rfl
      dsimp only
      rw [entries_map_release, hids]
      exact hsame
    · exact hsame
  | attachTimer id timer =>
    rw [Registry.move, Registry.attachTimer]
    split
    · have hids := ids_update r id (fun s => { s with timer := some timer }) fun _ => rfl
      dsimp only
      rw [hids]
      exact hsame
    · exact hsame

/-- **Every request waits, or has one line.** -/
theorem subjects_after : (subjects (entries (effects stem ms)) ++ (after stem ms).ids).Perm
    ((List.range (registrations ms).length).map (idOf stem)) := by
  induction ms using List.reverseRecOn with
  | nil => exact .refl _
  | append_singleton ms m ih =>
    have hissued : (List.range (registrations (ms ++ [m])).length).map (idOf stem) =
        (List.range (registrations ms).length).map (idOf stem) ++
          (registrations [m]).map fun _ => idOf stem (after stem ms).count := by
      rw [registrations_append, count_after]
      cases m with
      | register path now =>
        rw [List.length_append]
        exact (congrArg _ List.range_succ).trans List.map_append
      | _ => simp [registrations]
    have hmove := (sound_after stem ms).subjects_move m
    rw [stem_after] at hmove
    rw [effects_concat, after_concat, entries_append, subjects_append, List.append_assoc, hissued]
    refine (hmove.append_left _).trans ?_
    rw [← List.append_assoc]
    exact ih.append_right _

theorem nodup_issued (n : Nat) : ((List.range n).map (idOf stem)).Nodup :=
  List.nodup_range.map fun _ _ h => idOf_inj.mp h

theorem subjects_nodup : (subjects (entries (effects stem ms))).Nodup :=
  (List.nodup_append.mp ((subjects_after stem ms).nodup_iff.mpr (nodup_issued stem _))).1

theorem mem_subjects {id : String} : id ∈ subjects (entries (effects stem ms)) ↔
    (∃ n < (after stem ms).count, idOf stem n = id) ∧ ¬ (after stem ms).isPending id := by
  have hperm := subjects_after stem ms
  have hapart := (List.nodup_append.mp (hperm.nodup_iff.mpr (nodup_issued stem _))).2.2
  have hids : id ∈ (after stem ms).ids ↔ (after stem ms).isPending id := by
    rw [isPending_iff]
    exact List.mem_map
  have hissued : id ∈ subjects (entries (effects stem ms)) ++ (after stem ms).ids ↔
      ∃ n < (after stem ms).count, idOf stem n = id := by
    rw [hperm.mem_iff, count_after]
    simp
  rw [← hissued, ← hids, List.mem_append]
  constructor
  · intro hmem
    exact ⟨.inl hmem, fun hwaits => hapart id hmem id hwaits rfl⟩
  · rintro ⟨hmem | hmem, hgone⟩
    · exact hmem
    · exact absurd hmem hgone

/-! ## Runs of a session -/

namespace Session

/-- The move of an operation; looking into an inbox and giving it up is none. -/
def move? (s : Session) : Op → Option (Move String Nat)
  | .register path => some (.register path 0)
  | .settle id v => some (.settle 0 id v)
  | .settleNumber n v => some (.settle 0 (s.idAt n) v)
  | .forget id => some (.forget 0 id)
  | .attachGuard n label => some (.attachGuard (s.idAt n) label)
  | .attachTimer n => some (.attachTimer (s.idAt n) s.timers)
  | .read _ | .drop _ => none

/-- The moves of operations that are done one after another. -/
def moves (s : Session) : List Op → List (Move String Nat)
  | [] => []
  | op :: ops => (s.move? op).toList ++ moves (s.step op).2 ops

theorem log_after (s : Session) (es : List (Effect String Nat)) (r : Registry String Nat) :
    (s.after es r).log = s.log.logAll (entries es) := by
  have hfold : ∀ s : Session, (es.foldl perform s).log = s.log.logAll (entries es) := by
    induction es with
    | nil => exact fun _ => rfl
    | cons e es ih =>
      intro s
      rw [List.foldl_cons, ih]
      cases e <;> rfl
  exact hfold _

/-- An operation does its move, and logs what that asks for. -/
theorem step_eq (s : Session) (op : Op) :
    (s.step op).2.registry = (s.move? op).elim s.registry (fun m => (s.registry.move m).2) ∧
      (s.step op).2.log = s.log.logAll ((s.move? op).elim [] fun m => entries (s.registry.move m).1) := by
  cases op with
  | register path => exact ⟨rfl, rfl⟩
  | read n => exact ⟨rfl, rfl⟩
  | drop n => exact ⟨rfl, rfl⟩
  | _ => exact ⟨registry_after _ _ _, log_after _ _ _⟩

/-- A run logs the lines of its moves. -/
theorem log_run {stem : String} (ops : List Op) : ∀ {s : Session} {before : List (Move String Nat)},
    s.registry = Registry.after stem before → (s.run ops).log = s.log.logAll (closings stem before (s.moves ops)) := by
  induction ops with
  | nil => exact fun _ => rfl
  | cons op ops ih =>
    intro s before hs
    obtain ⟨hregistry, hlog⟩ := step_eq s op
    rw [run_cons, moves]
    cases hm : s.move? op with
    | none =>
      rw [hm] at hregistry hlog
      rw [ih (hregistry.trans hs), hlog]
      rfl
    | some m =>
      rw [hm, hs] at hregistry hlog
      rw [ih (hregistry.trans (after_concat stem before m).symm), hlog]
      dsimp only [Option.elim_some]
      rw [entries_move, ← EventLog.logAll_append]
      rfl

end Session

/-! ## The log of a run -/

/-- Nothing is logged for an id that was not given out, or that something was aimed at before. -/
theorem closed?_eq_none {id : String} (hid : ¬ (history ms).Waits stem id) (e : Ending) (now : Nat) :
    closed? stem ms id e now = none := by
  have hnone : waiting? stem (history ms) id = none := by
    rw [waiting?, List.find?_eq_none]
    intro n hn
    obtain ⟨hlt, hend⟩ := List.mem_filter.mp hn
    simp only [decide_eq_true_eq]
    exact fun heq => hid ⟨n, List.mem_range.mp hlt, heq, Option.isNone_iff_eq_none.mp hend⟩
  rw [closed?, hnone]
  rfl

/-- **The log is faithful.** Whatever is logged, the log holds the last fifty lines of it, oldest first. A registry
logs one line for each slot that was taken away, in order, with its id and path, and what became of it. What is aimed
at an id that was not given out, or that has ended, logs nothing. -/
theorem removals_logged (stem : String) (calls : List Entry) (ms : List (Move γ τ)) (ops : List Op) :
    (EventLog.empty.logAll calls).lines = (calls.map Entry.text).rtake 50 ∧
    entries (effects stem ms) = closings stem [] ms ∧
    (subjects (closings stem [] ms)).Nodup ∧
    (∀ id, id ∈ subjects (closings stem [] ms) ↔
      (∃ n < (after stem ms).count, idOf stem n = id) ∧ ¬ (after stem ms).isPending id) ∧
    (∀ id, ¬ (history ms).Waits stem id → ∀ now,
      (∀ v, entries (effects stem (ms ++ [.settle now id v])) = entries (effects stem ms)) ∧
      entries (effects stem (ms ++ [.forget now id])) = entries (effects stem ms)) ∧
    ((Session.new stem).run ops).log.lines =
      ((closings stem [] ((Session.new stem).moves ops)).map Entry.text).rtake 50 := by
  refine ⟨congrArg EventLog.lines (EventLog.logAll_empty calls), entries_effects stem ms, ?_, fun id => ?_,
    fun id hid now => ⟨fun v => ?_, ?_⟩, ?_⟩
  · rw [← entries_effects]
    exact subjects_nodup stem ms
  · rw [← entries_effects]
    exact mem_subjects stem ms
  · rw [effects_concat, entries_append, entries_move, closing?, closed?_eq_none stem ms hid]
    exact List.append_nil _
  · rw [effects_concat, entries_append, entries_move, closing?, closed?_eq_none stem ms hid]
    exact List.append_nil _
  · have hnew : (Session.new stem).registry = after stem [] := rfl
    rw [Session.log_run ops hnew]
    exact congrArg EventLog.lines (EventLog.logAll_empty _)

/-- A request that is settled late, one that is given up, and ids that nobody waits under. -/
theorem removals_logged_late :
    entries (effects (γ := String) (τ := Nat) "r"
      [.register "/a" 0, .register "/b" 5, .settle 7 "r1" (.ok .null), .settle 8 "r1" (.error .timeout),
        .forget 9 "r2", .forget 9 "r2", .settle 10 "r3" (.error .canceled)]) =
      [.request "r1" "/a" "resolved" 7, .request "r2" "/b" "dropped" 4] :=
  (removals_logged "r" [] _ []).2.1.trans (by decide)

end Hostlink.Registry
