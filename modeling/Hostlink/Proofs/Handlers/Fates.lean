import Hostlink.Handlers.Session
import Hostlink.Proofs.Handlers
import Mathlib.Data.List.Induction

/-!
# What becomes of registrations

A registration waits, is taken out, and is settled or given up, and no two of these hold at once. A ledger says so
from the operations alone, one entry for each registration; handlers, taken handlers and inboxes are kept in step
with it.

* `Handlers.Fate` — what becomes of one registration; `Fate.after` — what an operation changes about that;
* `Handlers.Ledger` — the fates of all registrations, and what their owners did;
* `Handlers.Session.Kept` — a session is what its ledger says; `Kept.step` — every operation keeps it so;
* `Session.registrations_kept` — **no registration is lost, superseded once it was taken, or settled twice**.
-/

namespace Hostlink.Handlers

/-! ## The ledger -/

/-- What became of a registration. -/
inductive Fate where
  | pending
  /-- In the hands of who took it out; those who did are numbered. -/
  | taken (k : Nat)
  | settled (v : Settlement)
  /-- Dropped by who took it out. -/
  | abandoned
  deriving DecidableEq

/-- What the owner of a registration did with its inbox. -/
inductive Owner where
  | listens
  /-- It has received the settlement. -/
  | served
  | gone

/-- A registration, as the ledger has it. -/
structure Entry where
  name : String
  fate : Fate
  owner : Owner

/-- The registration that an operation is. -/
def Op.opened : Op → Option Entry
  | .register name => some ⟨name, .pending, .listens⟩
  | _ => none

/-- All registrations by token, and how many were taken out. -/
structure Ledger where
  entries : List Entry
  takes : Nat

/-- The token that an operation answers. -/
def Answer.token? : Answer → Option Nat
  | .token n => some n
  | _ => none

/-- The name whose handler an operation takes out of the table. -/
def Op.takesOut : Op → Option String
  | .register name | .take name | .settle name _ => some name
  | _ => none

namespace Fate

/-- The fate of a registration of a name after an operation, when so many were taken out before. -/
def after (name : String) (takes : Nat) : Op → Fate → Fate
  | .register other, .pending => if other = name then .settled (superseded name) else .pending
  | .take other, .pending => if other = name then .taken takes else .pending
  | .settle other v, .pending => if other = name then .settled v else .pending
  | .send k v, .taken j => if k = j then .settled v else .taken j
  | .dropTaken k, .taken j => if k = j then .abandoned else .taken j
  | _, fate => fate

/-- An operation is no reason for a registration of a name to change its fate. Who took it out keeps it, whatever
becomes of the name; and what is settled or abandoned stays so. -/
def KeptBy (name : String) (op : Op) : Fate → Prop
  | .pending => op.takesOut ≠ some name
  | .taken k => (∀ v, op ≠ .send k v) ∧ op ≠ .dropTaken k
  | .settled _ | .abandoned => True

/-- What an owner finds that listens. -/
def box : Fate → Inbox
  | .pending | .taken _ => .waiting
  | .settled v => .holds v
  | .abandoned => .closed

end Fate

/-- What the owner of an inbox has done after an operation, which may be to read what became of its registration. -/
def Owner.after (n : Nat) (fate : Fate) : Op → Owner → Owner
  | .read m, .listens =>
    match fate with
    | .settled _ => if m = n then .served else .listens
    | _ => .listens
  | .drop m, owner => if m = n then .gone else owner
  | _, owner => owner

namespace Entry

/-- The entry of a token after an operation. -/
def after (takes : Nat) (op : Op) (n : Nat) (e : Entry) : Entry :=
  ⟨e.name, e.fate.after e.name takes op, e.owner.after n e.fate op⟩

/-- The inbox of a registration. -/
def box (e : Entry) : Inbox :=
  match e.owner with
  | .listens => e.fate.box
  | .served => .closed
  | .gone => .dropped

/-- Is it pending under a name? -/
def isPending (e : Entry) (name : String) : Bool :=
  match e.fate with
  | .pending => e.name = name
  | _ => false

theorem isPending_iff {e : Entry} {name : String} :
    e.isPending name = true ↔ e.name = name ∧ e.fate = .pending := by
  rw [isPending]
  cases e.fate <;> simp

end Entry

namespace Ledger

/-- Is a registration pending under a name? -/
def isPending (l : Ledger) (name : String) : Bool := l.entries.any (·.isPending name)

/-- The ledger after an operation. -/
def after (l : Ledger) (op : Op) : Ledger where
  entries := l.entries.mapIdx (Entry.after l.takes op) ++ op.opened.toList
  takes :=
    match op with
    | .take name => if l.isPending name then l.takes + 1 else l.takes
    | _ => l.takes

/-- The ledger of a run. -/
def of (ops : List Op) : Ledger := ops.foldl after ⟨[], 0⟩

/-- A registration has this fate. -/
def Has (l : Ledger) (x : Handler) (fate : Fate) : Prop :=
  ∃ e, l.entries[x.token]? = some e ∧ e.name = x.name ∧ e.fate = fate

end Ledger

/-! ## What an operation changes -/

namespace Fate

variable {name : String} {takes k : Nat} {op : Op} {fate : Fate}

/-- What is pending stays so until its name is registered, taken or settled. -/
theorem after_eq_pending : fate.after name takes op = .pending ↔ fate = .pending ∧ op.takesOut ≠ some name := by
  cases fate <;> cases op <;> grind [after, Op.takesOut]

/-- Only what is pending is taken, and the taker keeps it until it settles or drops it. -/
theorem after_eq_taken :
    fate.after name takes op = .taken k ↔
      (fate = .pending ∧ op = .take name ∧ takes = k) ∨
        (fate = .taken k ∧ (∀ v, op ≠ .send k v) ∧ op ≠ .dropTaken k) := by
  cases fate <;> cases op <;> grind [after]

theorem KeptBy.after (hkept : fate.KeptBy name op) : fate.after name takes op = fate := by
  cases fate with
  | pending => exact after_eq_pending.mpr ⟨rfl, hkept⟩
  | taken k => exact after_eq_taken.mpr (.inr ⟨rfl, hkept⟩)
  | _ => cases op <;> rfl

end Fate

/-- The inbox of a registration after an operation. -/
theorem Entry.box_after (e : Entry) (takes n : Nat) (op : Op) :
    (e.after takes op n).box =
      match op with
      | .register name => if e.name = name ∧ e.fate = .pending then e.box.deliver (superseded name) else e.box
      | .settle name v => if e.name = name ∧ e.fate = .pending then e.box.deliver v else e.box
      | .send k v => if e.fate = .taken k then e.box.deliver v else e.box
      | .dropTaken k => if e.fate = .taken k then e.box.hangUp else e.box
      | .read m => if m = n then e.box.afterRead else e.box
      | .drop m => if m = n then .dropped else e.box
      | .take _ => e.box := by
  obtain ⟨name, fate, owner⟩ := e
  cases op <;> cases fate <;> cases owner <;>
    grind [Entry.after, Fate.after, Owner.after, Entry.box, Fate.box, Inbox.deliver, Inbox.hangUp, Inbox.afterRead]

namespace Ledger

variable {l : Ledger} {op : Op} {x : Handler} {fate : Fate} {n : Nat}

/-- An entry was there before, or is that of a new registration. -/
theorem getElem?_after {e : Entry} :
    (l.after op).entries[n]? = some e ↔
      (∃ older, l.entries[n]? = some older ∧ older.after l.takes op n = e) ∨
        (n = l.entries.length ∧ op.opened = some e) := by
  have hentries : (l.after op).entries = l.entries.mapIdx (Entry.after l.takes op) ++ op.opened.toList := rfl
  rw [hentries, List.getElem?_append, List.length_mapIdx, List.getElem?_mapIdx]
  -- before the new registration, at it, or beyond
  rcases Nat.lt_trichotomy n l.entries.length with hlt | rfl | hgt
  · rw [if_pos hlt, Option.map_eq_some_iff]
    simp [Nat.ne_of_lt hlt]
  · rw [if_neg (Nat.lt_irrefl _), Nat.sub_self]
    cases op.opened <;> simp
  · have hpos : n - l.entries.length ≠ 0 := Nat.sub_ne_zero_of_lt hgt
    have hnone : op.opened.toList[n - l.entries.length]? = none := by
      cases op.opened <;> simp [hpos]
    rw [if_neg (Nat.lt_asymm hgt), hnone]
    simp [Nat.ne_of_gt hgt, List.getElem?_eq_none (Nat.le_of_lt hgt)]

theorem opened_eq_some {e : Entry} :
    op.opened = some e ↔ ∃ name, op = .register name ∧ e = ⟨name, .pending, .listens⟩ := by
  cases op <;> simp [Op.opened, eq_comm]

theorem length_after (l : Ledger) (op : Op) :
    (l.after op).entries.length = l.entries.length + op.opened.toList.length := by
  simp [after]

theorem of_concat (ops : List Op) (op : Op) : of (ops ++ [op]) = (of ops).after op := List.foldl_append

theorem has_after :
    (l.after op).Has x fate ↔
      (∃ older, l.Has x older ∧ older.after x.name l.takes op = fate) ∨
        (x.token = l.entries.length ∧ op = .register x.name ∧ fate = .pending) := by
  constructor
  · rintro ⟨e, he, hname, rfl⟩
    rcases getElem?_after.mp he with ⟨older, holder, rfl⟩ | ⟨hn, hopened⟩
    · exact .inl ⟨older.fate, ⟨older, holder, hname, rfl⟩, hname ▸ rfl⟩
    · obtain ⟨name, rfl, rfl⟩ := opened_eq_some.mp hopened
      exact .inr ⟨hn, congrArg Op.register hname, rfl⟩
  · rintro (⟨_, ⟨older, holder, hname, rfl⟩, rfl⟩ | ⟨hn, rfl, rfl⟩)
    · exact ⟨_, getElem?_after.mpr (.inl ⟨older, holder, rfl⟩), hname, hname ▸ rfl⟩
    · exact ⟨_, getElem?_after.mpr (.inr ⟨hn, rfl⟩), rfl, rfl⟩

/-- A registration stays in the ledger, and keeps its fate until an operation is a reason to change it. -/
theorem entry_later {ops : List Op} (later : List Op) {e : Entry} (he : (of ops).entries[n]? = some e) :
    ∃ e', (of (ops ++ later)).entries[n]? = some e' ∧ e'.name = e.name ∧
      ((∀ op ∈ later, e.fate.KeptBy e.name op) → e'.fate = e.fate) := by
  induction later using List.reverseRecOn with
  | nil => exact ⟨e, (List.append_nil ops).symm ▸ he, rfl, fun _ => rfl⟩
  | append_singleton later op ih =>
    obtain ⟨e', he', hname, hfate⟩ := ih
    rw [← List.append_assoc, of_concat]
    refine ⟨_, getElem?_after.mpr (.inl ⟨e', he', rfl⟩), hname, fun hkept => ?_⟩
    have hbefore : e'.fate = e.fate := hfate fun o ho => hkept o (List.mem_append_left _ ho)
    have hop : e'.fate.KeptBy e'.name op := by
      rw [hbefore, hname]
      exact hkept op (by simp)
    exact hop.after.trans hbefore

end Ledger

/-! ## What an operation does to a session -/

/-- What an operation makes of the handlers that wait. -/
def Op.onHandlers : Op → Handlers → Handlers
  | .register name, h => (h.register name).2.2
  | .take name, h | .settle name _, h => h.erase name
  | _, h => h

/-- What an operation makes of the handlers that were taken out. -/
def Op.onTaken (h : Handlers) : Op → List (Option Handler) → List (Option Handler)
  | .take name, taken => taken ++ ((h.find? name).map some).toList
  | .send k _, taken | .dropTaken k, taken => taken.set k none
  | _, taken => taken

theorem Op.getElem?_onTaken {h : Handlers} (hs : h.Sound) {op : Op} {taken : List (Option Handler)} {k : Nat}
    {x : Handler} :
    (op.onTaken h taken)[k]? = some (some x) ↔
      (x ∈ h.waiting ∧ op = .take x.name ∧ taken.length = k) ∨
        (taken[k]? = some (some x) ∧ (∀ v, op ≠ .send k v) ∧ op ≠ .dropTaken k) := by
  cases op with
  | take name =>
    rw [onTaken, List.getElem?_append]
    by_cases hlt : k < taken.length
    · rw [if_pos hlt]
      simp [Nat.ne_of_gt hlt]
    · have hle : taken.length ≤ k := Nat.le_of_not_lt hlt
      have hnew : (((h.find? name).map some).toList)[k - taken.length]? = some (some x) ↔
          taken.length = k ∧ x ∈ h.waiting ∧ x.name = name := by
        rw [← hs.find?_eq_some_iff, show taken.length = k ↔ k - taken.length = 0 by omega]
        cases h.find? name <;> simp [List.getElem?_singleton]
      rw [if_neg hlt, hnew, List.getElem?_eq_none hle]
      simp [eq_comm, and_left_comm, and_comm, and_assoc]
  | send j v | dropTaken j =>
    rw [onTaken, List.getElem?_set]
    by_cases hj : j = k <;> simp [hj]
  | _ => simp [onTaken]

theorem Op.mem_onHandlers {h : Handlers} {op : Op} {x : Handler} :
    x ∈ (op.onHandlers h).waiting ↔
      (x ∈ h.waiting ∧ op.takesOut ≠ some x.name) ∨ (x.token = h.count ∧ op = .register x.name) := by
  cases op with
  | register name =>
    have hsplit : x ∈ ((Op.register name).onHandlers h).waiting ↔
        x ∈ (h.erase name).waiting ∨ x ∈ [⟨name, h.count⟩] := List.mem_append
    obtain ⟨xname, xtoken⟩ := x
    rw [hsplit, mem_erase]
    simp [Op.takesOut, eq_comm, and_comm]
  | take name | settle name v =>
    refine (mem_erase h name).trans ?_
    simp [Op.takesOut, eq_comm]
  | _ => simp [Op.onHandlers, Op.takesOut]

theorem Sound.onHandlers {h : Handlers} (hs : h.Sound) (op : Op) : (op.onHandlers h).Sound := by
  cases op with
  | register name => exact hs.register name
  | take name | settle name v => exact hs.erase name
  | _ => exact hs

theorem Op.count_onHandlers (h : Handlers) (op : Op) :
    (op.onHandlers h).count = h.count + op.opened.toList.length := by
  cases op <;> rfl

namespace Session

variable (s : Session) (op : Op)

theorem handlers_step : (s.step op).2.handlers = op.onHandlers s.handlers := by
  have hgive : ∀ k f, (s.give k f).2.handlers = s.handlers := by
    intro k f
    unfold give
    split <;> rfl
  cases op with
  | take name | settle name v =>
    cases hx : s.handlers.find? name with
    | none => simp [step, take, hx, Op.onHandlers, erase_of_find?_eq_none hx]
    | some x => simp [step, take, hx, Op.onHandlers]
  | send k v | dropTaken k => exact hgive ..
  | _ => rfl

theorem taken_step : (s.step op).2.taken = op.onTaken s.handlers s.taken := by
  have hgive : ∀ k f, (s.give k f).2.taken = s.taken.set k none := by
    intro k f
    cases hk : s.taken[k]? with
    | none =>
      rw [List.set_eq_of_length_le (List.getElem?_eq_none_iff.mp hk)]
      simp [give, hk]
    | some held =>
      obtain ⟨hlt, rfl⟩ := List.getElem?_eq_some_iff.mp hk
      cases hheld : s.taken[k] with
      | none =>
        -- it was given up before
        rw [← hheld, List.set_getElem_self]
        simp [give, hk, hheld]
      | some x => simp [give, hk, hheld]
  cases op with
  | take name =>
    cases hx : s.handlers.find? name <;> simp [step, take, hx, Op.onTaken]
  | settle name v =>
    cases hx : s.handlers.find? name <;> simp [step, take, hx, Op.onTaken]
  | send k v | dropTaken k => exact hgive ..
  | _ => rfl

theorem length_step : (s.step op).2.inboxes.length = s.inboxes.length + op.opened.toList.length := by
  have hgive : ∀ k f, (∀ boxes n, (f boxes n).length = boxes.length) →
      (s.give k f).2.inboxes.length = s.inboxes.length := by
    intro k f hf
    unfold give
    split
    · exact hf ..
    · rfl
  cases op with
  | register name =>
    cases hx : s.handlers.find? name <;> simp [step, register, take, hx, Op.opened]
  | take name | settle name v =>
    cases hx : s.handlers.find? name <;> simp [step, take, hx, Op.opened]
  | send k v => exact hgive k _ fun _ _ => Inboxes.length_deliver ..
  | dropTaken k => exact hgive k _ fun _ _ => Inboxes.length_hangUp ..
  | read m => exact Inboxes.length_read ..
  | drop m => exact Inboxes.length_drop ..

/-! ## A session and its ledger -/

/-- A session is what its ledger says. -/
structure Kept (s : Session) (l : Ledger) : Prop where
  handlers : s.handlers.Sound
  count_eq : s.handlers.count = l.entries.length
  waiting_iff : ∀ x, x ∈ s.handlers.waiting ↔ l.Has x .pending
  takes_eq : s.taken.length = l.takes
  taken_iff : ∀ k x, s.taken[k]? = some (some x) ↔ l.Has x (.taken k)
  length_eq : s.inboxes.length = l.entries.length
  peek_eq : ∀ n e, l.entries[n]? = some e → s.inboxes.peek n = e.box

theorem kept_new : new.Kept ⟨[], 0⟩ where
  handlers := sound_new
  count_eq := rfl
  waiting_iff x := by simp [new, Handlers.new, Ledger.Has]
  takes_eq := rfl
  taken_iff k x := by simp [new, Ledger.Has]
  length_eq := rfl
  peek_eq n e he := by simp at he

namespace Kept

variable {s : Session} {l : Ledger} (hk : s.Kept l)
include hk

/-- Who waits under a name is whose registration is pending. -/
theorem find?_iff {n : Nat} {e : Entry} (he : l.entries[n]? = some e) (name : String) :
    s.handlers.find? name = some ⟨name, n⟩ ↔ e.name = name ∧ e.fate = .pending := by
  rw [hk.handlers.find?_eq_some_iff, hk.waiting_iff, and_iff_left rfl]
  constructor
  · rintro ⟨e', he', hname, hfate⟩
    obtain rfl := Option.some.inj (he.symm.trans he')
    exact ⟨hname, hfate⟩
  · rintro ⟨hname, hfate⟩
    exact ⟨e, he, hname, hfate⟩

theorem taken_eq_iff {n k : Nat} {e : Entry} (he : l.entries[n]? = some e) :
    s.taken[k]? = some (some ⟨e.name, n⟩) ↔ e.fate = .taken k := by
  rw [hk.taken_iff]
  constructor
  · rintro ⟨e', he', -, hfate⟩
    obtain rfl := Option.some.inj (he.symm.trans he')
    exact hfate
  · exact fun hfate => ⟨e, he, rfl, hfate⟩

/-- A name is pending in the ledger if a handler waits under it. -/
theorem isPending_eq (name : String) : l.isPending name = (s.handlers.find? name).isSome := by
  rw [Bool.eq_iff_iff, Option.isSome_iff_exists, Ledger.isPending, List.any_eq_true]
  constructor
  · rintro ⟨e, he, hpending⟩
    obtain ⟨n, hn⟩ := List.mem_iff_getElem?.mp he
    exact ⟨_, (hk.find?_iff hn name).mpr (Entry.isPending_iff.mp hpending)⟩
  · rintro ⟨x, hx⟩
    obtain ⟨hmem, rfl⟩ := find?_eq_some hx
    obtain ⟨e, he, hname, hfate⟩ := (hk.waiting_iff x).mp hmem
    exact ⟨e, List.mem_of_getElem? he, Entry.isPending_iff.mpr ⟨hname, hfate⟩⟩

/-! ### What an operation does to an inbox -/

/-- Who was taken out is settled or dropped by its taker. -/
theorem peek_give {n : Nat} {e : Entry} (he : l.entries[n]? = some e) (k : Nat) {f : Inboxes → Nat → Inboxes}
    {g : Inbox → Inbox} (hf : ∀ boxes m, (f boxes m).peek n = if m = n then g (boxes.peek n) else boxes.peek n) :
    (s.give k f).2.inboxes.peek n = if e.fate = .taken k then g e.box else e.box := by
  rw [← hk.peek_eq n e he]
  by_cases hfate : e.fate = .taken k
  · have hheld := (hk.taken_eq_iff he).mpr hfate
    simp [give, hheld, hf, hfate]
  · rw [if_neg hfate]
    unfold give
    split
    · next x hheld =>
      refine (hf ..).trans (if_neg fun htoken => hfate ?_)
      obtain ⟨e', he', hname, hfate'⟩ := (hk.taken_iff k x).mp hheld
      rw [htoken, he] at he'
      rw [Option.some.inj he', hfate']
    · rfl

theorem peek_step {n : Nat} {e : Entry} (he : l.entries[n]? = some e) (op : Op) :
    (s.step op).2.inboxes.peek n = (e.after l.takes op n).box := by
  rw [Entry.box_after]
  cases op with
  | register name =>
    -- the new inbox is another
    have hnew : n ≠ s.inboxes.length := by
      rw [hk.length_eq]
      exact Nat.ne_of_lt (List.getElem?_eq_some_iff.mp he).1
    have hinboxes : (s.step (.register name)).2.inboxes =
        s.handlers.told name (superseded name) s.inboxes.opened := rfl
    rw [hinboxes, Handlers.peek_told, Inboxes.peek_opened, if_neg hnew, hk.peek_eq n e he]
    simp only [hk.find?_iff he]
  | take name =>
    rw [← hk.peek_eq n e he]
    cases hx : s.handlers.find? name <;> simp [step, take, hx]
  | send k v => exact hk.peek_give he k fun boxes m => Inboxes.peek_deliver ..
  | dropTaken k => exact hk.peek_give he k fun boxes m => Inboxes.peek_hangUp ..
  | settle name v =>
    have hinboxes : (s.step (.settle name v)).2.inboxes = s.handlers.told name v s.inboxes := by
      cases hx : s.handlers.find? name <;> simp [step, take, told, hx]
    rw [hinboxes, Handlers.peek_told, hk.peek_eq n e he]
    simp only [hk.find?_iff he]
  | read m =>
    refine (Inboxes.peek_read ..).trans ?_
    rw [hk.peek_eq n e he]
  | drop m =>
    refine (Inboxes.peek_drop ..).trans ?_
    rw [hk.peek_eq n e he]

/-- A new registration has nothing yet. -/
theorem peek_registered (name : String) :
    (s.step (.register name)).2.inboxes.peek l.entries.length = .waiting := by
  have hinboxes : (s.step (.register name)).2.inboxes =
      s.handlers.told name (superseded name) s.inboxes.opened := rfl
  rw [hinboxes, Handlers.peek_told, if_neg, Inboxes.peek_opened, if_pos hk.length_eq.symm]
  intro hfind
  have hlt := hk.handlers.token_lt _ (find?_eq_some hfind).1
  exact Nat.ne_of_lt hlt hk.count_eq.symm

/-- Every operation keeps a session in step with its ledger. -/
theorem step (op : Op) : (s.step op).2.Kept (l.after op) := by
  refine ⟨?_, ?_, fun x => ?_, ?_, fun k x => ?_, ?_, fun n e he => ?_⟩
  -- the handlers that wait, those that were taken out, and the inboxes, each with how many there are
  · rw [handlers_step]
    exact hk.handlers.onHandlers op
  · rw [handlers_step, op.count_onHandlers, l.length_after, hk.count_eq]
  · rw [handlers_step, Op.mem_onHandlers, Ledger.has_after, hk.waiting_iff, hk.count_eq]
    simp [Fate.after_eq_pending, and_left_comm]
  · rw [taken_step]
    cases op with
    | take name =>
      rw [Ledger.after, Op.onTaken, List.length_append, hk.takes_eq, hk.isPending_eq]
      cases s.handlers.find? name <;> rfl
    | send k v | dropTaken k => exact List.length_set.trans hk.takes_eq
    | _ => exact hk.takes_eq
  · rw [taken_step, Op.getElem?_onTaken hk.handlers, Ledger.has_after, hk.waiting_iff, hk.taken_iff, hk.takes_eq]
    simp only [Fate.after_eq_taken]
    grind
  · rw [length_step, l.length_after, hk.length_eq]
  · rcases Ledger.getElem?_after.mp he with ⟨older, holder, rfl⟩ | ⟨rfl, hopened⟩
    · exact hk.peek_step holder op
    · obtain ⟨name, rfl, rfl⟩ := Ledger.opened_eq_some.mp hopened
      exact hk.peek_registered name

end Kept

/-! ## Runs -/

theorem run_concat (s : Session) (ops : List Op) (op : Op) : s.run (ops ++ [op]) = ((s.run ops).step op).2 :=
  List.foldl_append

theorem kept_run (ops : List Op) : (new.run ops).Kept (Ledger.of ops) := by
  induction ops using List.reverseRecOn with
  | nil => exact kept_new
  | append_singleton ops op ih =>
    rw [run_concat, Ledger.of_concat]
    exact ih.step op

/-- What the operations of a run answer. -/
def answers (s : Session) : List Op → List Answer
  | [] => []
  | op :: ops => (s.step op).1 :: answers (s.step op).2 ops

/-- The tokens that a run gives out. -/
def tokens (s : Session) (ops : List Op) : List Nat := (s.answers ops).filterMap Answer.token?

theorem answers_concat (s : Session) (ops : List Op) (op : Op) :
    s.answers (ops ++ [op]) = s.answers ops ++ [((s.run ops).step op).1] := by
  induction ops generalizing s with
  | nil => rfl
  | cons o ops ih =>
    rw [List.cons_append, answers, ih]
    rfl

/-- Only a registration is given a token: how many there were before. -/
theorem token?_step (s : Session) (op : Op) : (s.step op).1.token? = op.opened.map fun _ => s.handlers.count := by
  have hgive : ∀ k f, (s.give k f).1.token? = none := by
    intro k f
    unfold give
    split <;> rfl
  cases op with
  | take name | settle name v => cases hx : s.handlers.find? name <;> simp [step, take, hx, Answer.token?, Op.opened]
  | send k v | dropTaken k => exact hgive ..
  | _ => rfl

theorem tokens_eq (ops : List Op) : new.tokens ops = List.range (Ledger.of ops).entries.length := by
  induction ops using List.reverseRecOn with
  | nil => rfl
  | append_singleton ops op ih =>
    have hstep : new.tokens (ops ++ [op]) = new.tokens ops ++ (((new.run ops).step op).1.token?).toList := by
      rw [tokens, answers_concat, List.filterMap_append]
      rfl
    rw [hstep, ih, token?_step, Ledger.of_concat, Ledger.length_after, (kept_run ops).count_eq]
    cases op.opened with
    | none => exact List.append_nil _
    | some e => exact List.range_succ.symm

/-- **No registration is lost, superseded once it was taken, or settled twice.** After any operations, tokens have
numbered the registrations, and no name waits twice. The handlers that wait are those whose registration is pending,
and who took a handler out holds it while its registration is taken. An owner that listens finds nothing in both
cases, else the settlement, or that none will come. Settling a name works if a registration is pending under it. And
whatever follows, a registration keeps its name, and its fate until an operation is a reason to change it. -/
theorem registrations_kept (ops : List Op) :
    let s := new.run ops
    let l := Ledger.of ops
    new.tokens ops = List.range l.entries.length ∧
      s.handlers.waiting.Pairwise (·.name ≠ ·.name) ∧
      (∀ x, x ∈ s.handlers.waiting ↔ l.Has x .pending) ∧
      (∀ k x, s.taken[k]? = some (some x) ↔ l.Has x (.taken k)) ∧
      (∀ n e, l.entries[n]? = some e → e.owner = .listens → (s.step (.read n)).1 = .inbox e.fate.box) ∧
      (∀ name v, (s.step (.settle name v)).1 = .done (l.isPending name)) ∧
      ∀ later (n : Nat) (e : Entry), l.entries[n]? = some e →
        ∃ e' : Entry, (Ledger.of (ops ++ later)).entries[n]? = some e' ∧ e'.name = e.name ∧
          ((∀ op ∈ later, e.fate.KeptBy e.name op) → e'.fate = e.fate) := by
  intro s l
  have hk : s.Kept l := kept_run ops
  refine ⟨tokens_eq ops, hk.handlers.apart, hk.waiting_iff, hk.taken_iff, fun n e he howner => ?_, fun name v => ?_,
    fun later n e he => Ledger.entry_later later he⟩
  · have hread : (s.step (.read n)).1 = .inbox (s.inboxes.peek n) := rfl
    rw [hread, hk.peek_eq n e he, Entry.box, howner]
  · rw [hk.isPending_eq]
    cases hx : s.handlers.find? name <;> simp [step, take, hx]

/-- A registration is taken, and two more follow under its name before it is settled. -/
theorem registrations_kept_superseded :
    let ops : List Op := [.register "a", .take "a", .register "a", .register "a"]
    let later : List Op := [.send 0 (.ok .null)]
    let s := new.run (ops ++ later)
    (Ledger.of ops).entries = [⟨"a", .taken 0, .listens⟩, ⟨"a", .settled (superseded "a"), .listens⟩,
        ⟨"a", .pending, .listens⟩] ∧
      (∃ e, (Ledger.of (ops ++ later)).entries[1]? = some e ∧ e.fate = .settled (superseded "a")) ∧
      (∃ e, (Ledger.of (ops ++ later)).entries[2]? = some e ∧ e.fate = .pending) ∧
      (s.step (.read 0)).1 = .inbox (.holds (.ok .null)) ∧
      (s.step (.read 1)).1 = .inbox (.holds (superseded "a")) ∧
      (s.step (.read 2)).1 = .inbox .waiting := by
  intro ops later s
  obtain ⟨-, -, -, -, -, -, hlater⟩ := registrations_kept ops
  obtain ⟨e, he, -, hsettled⟩ := hlater later 1 _ rfl
  obtain ⟨e', he', -, hpending⟩ := hlater later 2 _ rfl
  obtain ⟨-, -, -, -, hread, -⟩ := registrations_kept (ops ++ later)
  refine ⟨rfl, ⟨e, he, hsettled ?_⟩, ⟨e', he', hpending ?_⟩, hread 0 _ rfl rfl, hread 1 _ rfl rfl, hread 2 _ rfl rfl⟩
  · exact fun _ _ => trivial
  · intro op hop
    rw [List.mem_singleton.mp hop]
    exact fun h => by cases h

end Session

end Hostlink.Handlers
