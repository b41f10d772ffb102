import Hostlink.Proofs.Registry.History

/-!
# Desks

A desk is what callers see of a registry: the requests that wait, and their inboxes.

* `Desk.run` — a desk is changed by one event after another;
* `Desk.Follows` — it tells no more and no less than a history;
* `Desk.follows_run` — **a desk follows its history**.
-/

namespace Hostlink.Registry

/-- What callers see of a registry: how many requests there were, which of them wait, oldest first,
and their inboxes. -/
structure Desk where
  stem : String
  count : Nat
  waiting : List Nat
  boxes : Inboxes

namespace Desk

/-- Nothing has happened. -/
def new (stem : String) : Desk := ⟨stem, 0, [], []⟩

/-- The number of the request that waits under an id. -/
def find? (d : Desk) (id : String) : Option Nat := d.waiting.find? (idOf d.stem · = id)

/-- Ends the request that waits under an id; nothing happens if there is none. -/
def aim (d : Desk) (id : String) (e : Ending) : Desk :=
  match d.find? id with
  | none => d
  | some n => { d with waiting := d.waiting.filter (· ≠ n), boxes := d.boxes.modify n e.act }

/-- One event. -/
def step (d : Desk) : Event → Desk
  | .opened => { d with
      count := d.count + 1
      waiting := d.waiting ++ [d.count]
      boxes := d.boxes.opened }
  | .aimed id e => d.aim id e
  | .read n => { d with boxes := (d.boxes.read n).2 }
  | .dropped n => { d with boxes := d.boxes.drop n }

/-- Several events. -/
def run (d : Desk) (h : History) : Desk := h.foldl step d

@[simp] theorem run_nil (d : Desk) : d.run [] = d := rfl

@[simp] theorem run_cons (d : Desk) (e : Event) (h : History) : d.run (e :: h) = (d.step e).run h := rfl

theorem run_append (d : Desk) (h h' : History) : d.run (h ++ h') = (d.run h).run h' :=
  List.foldl_append

@[simp] theorem stem_step (d : Desk) (e : Event) : (d.step e).stem = d.stem := by
  cases e with
  | aimed id e => simp only [step, aim]; split <;> rfl
  | _ => rfl

@[simp] theorem stem_run (d : Desk) (h : History) : (d.run h).stem = d.stem := by
  induction h generalizing d with
  | nil => rfl
  | cons e h ih => rw [run_cons, ih, stem_step]

theorem count_step (d : Desk) (e : Event) : (d.step e).count = d.count + if e.opens then 1 else 0 := by
  cases e with
  | aimed id e => simp only [step, aim]; split <;> rfl
  | _ => rfl

theorem count_run (d : Desk) (h : History) : (d.run h).count = d.count + h.opened := by
  induction h generalizing d with
  | nil => rfl
  | cons e h ih =>
    rw [run_cons, ih, count_step, History.opened, History.opened, List.countP_cons]
    omega

theorem find?_eq_some {d : Desk} {id : String} {n : Nat} (h : d.find? id = some n) :
    n ∈ d.waiting ∧ idOf d.stem n = id :=
  ⟨List.mem_of_find?_eq_some h, by simpa using List.find?_some h⟩

theorem find?_eq_none {d : Desk} {id : String} :
    d.find? id = none ↔ ∀ n ∈ d.waiting, idOf d.stem n ≠ id := by
  simp [find?, List.find?_eq_none]

theorem find?_idOf {d : Desk} {n : Nat} (h : n ∈ d.waiting) : d.find? (idOf d.stem n) = some n := by
  cases hf : d.find? (idOf d.stem n) with
  | none => exact absurd rfl (find?_eq_none.mp hf n h)
  | some m => rw [idOf_inj.mp (find?_eq_some hf).2]

/-! ## A desk follows its history -/

/-- A desk agrees with a history: it counts the registrations, those wait at whom nothing has been
aimed since, and the inboxes are as the history says. -/
structure Follows (d : Desk) (h : History) : Prop where
  count_eq : d.count = h.opened
  waiting_eq : d.waiting = (List.range h.opened).filter fun n => (h.ending? d.stem n).isNone
  length_eq : d.boxes.length = h.opened
  peek_eq : ∀ n < h.opened, d.boxes.peek n = h.inbox d.stem n

theorem follows_new (stem : String) : (new stem).Follows [] :=
  ⟨rfl, rfl, rfl, by simp⟩

namespace Follows

variable {d : Desk} {h : History} (hd : d.Follows h)
include hd

theorem mem_waiting {n : Nat} : n ∈ d.waiting ↔ n < h.opened ∧ h.ending? d.stem n = none := by
  rw [hd.waiting_eq]
  simp

theorem step_opened : (d.step .opened).Follows (h ++ [.opened]) := by
  have ho : (h ++ [Event.opened]).opened = h.opened + 1 := by simp [History.opened_concat, Event.opens]
  have hend : ∀ n < h.opened, (h ++ [Event.opened]).ending? d.stem n = h.ending? d.stem n := by
    intro n hn
    rw [History.ending?_concat hn]
    simp [Event.endingOf?]
  refine ⟨by simp [step, ho, hd.count_eq], ?_, by simp [step, ho, hd.length_eq], fun n hn => ?_⟩
  · rw [ho, List.range_succ, List.filter_append]
    have hlast : (h ++ [Event.opened]).ending? d.stem h.opened = none :=
      History.ending?_concat_opened rfl
    simp only [step, hd.waiting_eq, hd.count_eq, List.filter_cons, List.filter_nil, hlast,
      Option.isNone_none, if_true]
    congr 1
    refine List.filter_congr fun n hn => ?_
    rw [hend n (List.mem_range.mp hn)]
  · -- inboxes that were there stay as they are, and nothing has come for the new one
    simp only [step, Inboxes.peek_opened, hd.length_eq]
    rcases Nat.lt_or_ge n h.opened with hlt | hge
    · rw [if_neg (Nat.ne_of_lt hlt), hd.peek_eq n hlt, History.inbox_concat hlt, Event.on]
    · have hn' : n = h.opened := by omega
      have hnone : h.since h.opened = none := History.since_eq_none.mpr (Nat.le_refl _)
      rw [if_pos hn', hn']
      simp [History.inbox, History.since_concat, hnone, Event.opens, History.inboxAfter,
        History.inboxOf]

/-- An event that registers nothing: enough to know what it does to each request. -/
theorem step_of {e : Event} (he : e.opens = false) (hcount : (d.step e).count = d.count)
    (hlen : (d.step e).boxes.length = d.boxes.length)
    (hwait : (d.step e).waiting = d.waiting.filter fun n => (e.endingOf? (idOf d.stem n)).isNone)
    (hpeek : ∀ n < h.opened, (d.step e).boxes.peek n = e.on (idOf d.stem n) n (d.boxes.peek n)) :
    (d.step e).Follows (h ++ [e]) := by
  have ho : (h ++ [e]).opened = h.opened := by simp [History.opened_concat, he]
  refine ⟨by rw [hcount, ho, hd.count_eq], ?_, by rw [hlen, ho, hd.length_eq], fun n hn => ?_⟩
  · rw [hwait, hd.waiting_eq, List.filter_filter, ho, stem_step]
    refine List.filter_congr fun n hn => ?_
    rw [History.ending?_concat (List.mem_range.mp hn)]
    cases h.ending? d.stem n <;> simp
  · rw [ho] at hn
    rw [hpeek n hn, hd.peek_eq n hn, stem_step, History.inbox_concat hn]

/-- What was ended before is not ended again. -/
theorem act_peek {n : Nat} (hn : n < h.opened) (hw : n ∉ d.waiting) (e : Ending) :
    e.act (d.boxes.peek n) = d.boxes.peek n := by
  obtain ⟨t, ht⟩ := History.exists_since hn
  have hend : h.ending? d.stem n ≠ none := fun hnone => hw (hd.mem_waiting.mpr ⟨hn, hnone⟩)
  rw [hd.peek_eq n hn]
  simp only [History.ending?, ht, Option.bind_some] at hend
  simp only [History.inbox, ht, History.inboxAfter, History.inboxOf]
  split
  · cases e <;> rfl
  · split
    · contradiction
    · cases e <;> rfl
    · split <;> cases e <;> rfl

theorem step_aimed (id : String) (e : Ending) : (d.step (.aimed id e)).Follows (h ++ [.aimed id e]) := by
  cases hf : d.find? id with
  | none =>
    have hstep : d.step (.aimed id e) = d := by simp [step, aim, hf]
    have hne := find?_eq_none.mp hf
    refine hd.step_of rfl (by rw [hstep]) (by rw [hstep]) ?_ fun n hn => ?_
    · rw [hstep, List.filter_eq_self.mpr]
      intro n hn
      simp [Event.endingOf?, (hne n hn).symm]
    · rw [hstep, Event.on]
      split
      -- who does not wait under his id has been told something, and is told nothing else
      · next hid => exact (hd.act_peek hn (fun hw => hne n hw hid.symm) e).symm
      · rfl
  | some m =>
    obtain ⟨hm, hid⟩ := find?_eq_some hf
    refine hd.step_of rfl (by simp [step, aim, hf]) (by simp [step, aim, hf]) ?_ fun n hn => ?_
    · simp only [step, aim, hf]
      refine List.filter_congr fun n _ => ?_
      rw [← hid]
      by_cases hnm : n = m
      · simp [hnm, Event.endingOf?]
      · have : ¬ m = n := fun h => hnm h.symm
        simp [hnm, this, Event.endingOf?, idOf_inj]
    · simp only [step, aim, hf, Event.on]
      rw [Inboxes.peek_modify _ _ _ _ (by cases e <;> rfl), ← hid]
      simp only [idOf_inj]

theorem step_read (m : Nat) : (d.step (.read m)).Follows (h ++ [.read m]) :=
  hd.step_of rfl rfl (by simp [step]) (by simp [step, Event.endingOf?])
    fun n _ => by simp [step, Event.on]

theorem step_dropped (m : Nat) : (d.step (.dropped m)).Follows (h ++ [.dropped m]) :=
  hd.step_of rfl rfl (by simp [step]) (by simp [step, Event.endingOf?])
    fun n _ => by simp [step, Event.on]

theorem step (e : Event) : (d.step e).Follows (h ++ [e]) := by
  cases e with
  | opened => exact hd.step_opened
  | aimed id e => exact hd.step_aimed id e
  | read m => exact hd.step_read m
  | dropped m => exact hd.step_dropped m

theorem run (t : History) : (d.run t).Follows (h ++ t) := by
  induction t generalizing d h with
  | nil => simpa using hd
  | cons e t ih => simpa using ih (hd.step e)

end Follows

/-- **A desk follows its history.** -/
theorem follows_run (stem : String) (h : History) : ((new stem).run h).Follows h := by
  simpa using (follows_new stem).run h

end Desk

end Hostlink.Registry
