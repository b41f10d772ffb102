import Hostlink.Proofs.Inbox
import Hostlink.Proofs.Registry.Slots
import Mathlib.Data.List.Induction
import Mathlib.Data.List.TakeWhile

/-!
# Histories of requests

What becomes of a request follows from the events since it was registered: the first one that aims at
its id ends it, and all others pass it by.

* `History.ending?` — the first ending aimed at a request since its registration;
* `History.inbox` — what its inbox holds then.

A history lists events oldest first.
-/

namespace Hostlink.Registry

/-- How a request ends. -/
inductive Ending where
  | settled (s : Settlement)
  /-- Nobody waits for it any more. -/
  | forgotten

/-- What an ending does to the inbox of its request. -/
def Ending.act : Ending → Inbox → Inbox
  | .settled s => .deliver s
  | .forgotten => .hangUp

/-- What may happen to requests and their inboxes. -/
inductive Event where
  /-- One more request is registered. -/
  | opened
  /-- Somebody wants to end the request of an id. -/
  | aimed (id : String) (e : Ending)
  | read (number : Nat)
  | dropped (number : Nat)

namespace Event

/-- Does it register a request? -/
def opens : Event → Bool
  | .opened => true
  | _ => false

/-- The ending that it aims at an id. -/
def endingOf? (id : String) : Event → Option Ending
  | .aimed i e => if i = id then some e else none
  | _ => none

/-- Is the inbox of a number read? -/
def reads (n : Nat) : Event → Bool
  | .read m => m = n
  | _ => false

/-- Is the inbox of a number dropped? -/
def drops (n : Nat) : Event → Bool
  | .dropped m => m = n
  | _ => false

theorem eq_aimed_of_endingOf? {id : String} {e : Event} {en : Ending} (he : e.endingOf? id = some en) :
    e = .aimed id en := by
  cases e with
  | aimed i en' =>
    by_cases hi : i = id
    · simpa [endingOf?, hi] using he
    · simp [endingOf?, hi] at he
  | _ => cases he

/-- What ends a request was aimed at its id. -/
theorem aimed_mem_of_findSome? {id : String} {t : List Event} {en : Ending}
    (hfind : t.findSome? (endingOf? id) = some en) : .aimed id en ∈ t := by
  obtain ⟨e, hmem, he⟩ := List.exists_of_findSome?_eq_some hfind
  exact eq_aimed_of_endingOf? he ▸ hmem

end Event

/-- Events, oldest first. -/
abbrev History := List Event

namespace History

/-- How many requests were registered. -/
def opened (h : History) : Nat := h.countP Event.opens

/-- The events since the request of a number was registered; none if it never was. -/
def since : Nat → History → Option History
  | _, [] => none
  | n, e :: h =>
    if e.opens then
      match n with
      | 0 => some h
      | n + 1 => since n h
    else since n h

/-- The first ending aimed at a request since it was registered. -/
def ending? (stem : String) (h : History) (n : Nat) : Option Ending :=
  (since n h).bind fun t => t.findSome? (Event.endingOf? (idOf stem n))

/-- Was an id given out, and has nothing been aimed at it since? -/
def Waits (stem : String) (h : History) (id : String) : Prop :=
  ∃ n < h.opened, idOf stem n = id ∧ ending? stem h n = none

/-- Was the inbox of a number read after something was aimed at an id? -/
def readAfterEnding (id : String) (n : Nat) (t : History) : Bool :=
  (t.dropWhile fun e => (e.endingOf? id).isNone).any (·.reads n)

/-- An inbox, by whether it was dropped, the first ending aimed at its request, and whether it was
read after that. A settlement can be read once; nothing comes where nobody waits any more. -/
def inboxOf (isDropped : Bool) (ending : Option Ending) (isRead : Bool) : Inbox :=
  if isDropped then .dropped
  else
    match ending with
    | none => .waiting
    | some .forgotten => .closed
    | some (.settled s) => if isRead then .closed else .holds s

/-- The inbox of a request after the events `t` since its registration. -/
def inboxAfter (id : String) (n : Nat) (t : History) : Inbox :=
  inboxOf (t.any (·.drops n)) (t.findSome? (Event.endingOf? id)) (readAfterEnding id n t)

/-- The inbox of a request; one that was never registered counts as dropped. -/
def inbox (stem : String) (h : History) (n : Nat) : Inbox :=
  match since n h with
  | none => .dropped
  | some t => inboxAfter (idOf stem n) n t

/-! ## One more event -/

@[simp] theorem opened_nil : opened [] = 0 := rfl

theorem opened_concat (h : History) (e : Event) :
    opened (h ++ [e]) = opened h + if e.opens then 1 else 0 := by
  simp [opened, List.countP_append, List.countP_singleton]

theorem since_concat : ∀ (n : Nat) (h : History) (e : Event),
    since n (h ++ [e]) =
      match since n h with
      | some t => some (t ++ [e])
      | none => if e.opens ∧ n = opened h then some [] else none
  | n, [], e => by
    cases n with
    | zero => simp [since]
    | succ n => simp [since]
  | n, f :: h, e => by
    simp only [List.cons_append, since]
    by_cases hf : f.opens
    · cases n with
      | zero => simp [hf]
      | succ n =>
        have hn : n + 1 = opened (f :: h) ↔ n = opened h := by simp [opened, hf]
        simp only [hf, if_true, since_concat n h e, hn]
    · have hn : opened (f :: h) = opened h := by simp [opened, hf]
      simp only [hf, Bool.false_eq_true, if_false, since_concat n h e, hn]

/-- The events since a registration are known if there was one. -/
theorem since_eq_none {n : Nat} : ∀ {h : History}, since n h = none ↔ opened h ≤ n := by
  intro h
  induction h generalizing n with
  | nil => simp [since]
  | cons e h ih =>
    simp only [since]
    by_cases he : e.opens
    · cases n with
      | zero => simp [he, opened]
      | succ n => simpa [he, opened] using ih
    · simpa [he, opened] using ih

theorem exists_since {h : History} {n : Nat} (hn : n < opened h) : ∃ t, since n h = some t := by
  cases ht : since n h with
  | none => exact absurd (since_eq_none.mp ht) (by omega)
  | some t => exact ⟨t, rfl⟩

/-- An ending counts only if none was aimed at the request before. -/
theorem ending?_concat {stem : String} {h : History} {n : Nat} (hn : n < opened h) (e : Event) :
    ending? stem (h ++ [e]) n = (ending? stem h n).or (e.endingOf? (idOf stem n)) := by
  obtain ⟨t, ht⟩ := exists_since hn
  simp [ending?, since_concat, ht, List.findSome?_append]

theorem ending?_of_opened_le {stem : String} {h : History} {n : Nat} (hn : opened h ≤ n) :
    ending? stem h n = none := by
  simp [ending?, since_eq_none.mpr hn]

theorem ending?_concat_opened {stem : String} {h : History} {e : Event} (he : e.opens) :
    ending? stem (h ++ [e]) (opened h) = none := by
  simp [ending?, since_concat, since_eq_none.mpr (Nat.le_refl _), he]

end History

/-- What one event does to the inbox of the request `n`, whose id is `id`. -/
def Event.on (id : String) (n : Nat) : Event → Inbox → Inbox
  | .opened, b => b
  | .aimed i e, b => if i = id then e.act b else b
  | .read m, b => if m = n then b.afterRead else b
  | .dropped m, b => if m = n then .dropped else b

namespace History

theorem readAfterEnding_of_none {id : String} {n : Nat} {t : History}
    (h : t.findSome? (Event.endingOf? id) = none) : readAfterEnding id n t = false := by
  have hall : ∀ e ∈ t, e.endingOf? id = none := by simpa using h
  have hnil : (t.dropWhile fun e => (e.endingOf? id).isNone) = [] := by
    simpa [List.dropWhile_eq_nil_iff] using hall
  rw [readAfterEnding, hnil]
  rfl

/-- A read counts if something was aimed at the request before. -/
theorem readAfterEnding_concat (id : String) (n : Nat) (e : Event) : ∀ t : History,
    readAfterEnding id n (t ++ [e]) =
      (readAfterEnding id n t || (t.findSome? (Event.endingOf? id)).isSome && e.reads n)
  | [] => by
    cases e with
    | aimed i en => by_cases hi : i = id <;> simp [readAfterEnding, Event.endingOf?, Event.reads, hi]
    | _ => simp [readAfterEnding, Event.endingOf?]
  | f :: t => by
    cases hf : f.endingOf? id with
    | none => simpa [readAfterEnding, hf] using readAfterEnding_concat id n e t
    | some en => simp [readAfterEnding, hf, Bool.or_assoc]

/-- The inbox of a request follows its events one by one. -/
theorem inboxAfter_concat (id : String) (n : Nat) (t : History) (e : Event) :
    inboxAfter id n (t ++ [e]) = e.on id n (inboxAfter id n t) := by
  have hd : (t ++ [e]).any (·.drops n) = (t.any (·.drops n) || e.drops n) := by simp
  have hn : t.findSome? (Event.endingOf? id) = none → readAfterEnding id n t = false :=
    readAfterEnding_of_none
  rw [inboxAfter, inboxAfter, hd, List.findSome?_append, readAfterEnding_concat]
  generalize t.any (·.drops n) = d
  generalize t.findSome? (Event.endingOf? id) = en at hn ⊢
  generalize readAfterEnding id n t = r at hn ⊢
  cases e with
  | opened => cases en <;> simp [Event.drops, Event.endingOf?, Event.reads, Event.on]
  | aimed i e =>
    -- only the first ending reaches an inbox that still waits
    by_cases hi : i = id
    · cases d <;> rcases en with _ | (s | _) <;> rcases e with s' | _ <;> cases r <;>
        simp_all [inboxOf, Event.drops, Event.endingOf?, Event.reads, Event.on, Ending.act,
          Inbox.deliver, Inbox.hangUp]
    · cases en <;> simp [Event.drops, Event.endingOf?, Event.reads, Event.on, hi]
  | read m =>
    by_cases hm : m = n
    · cases d <;> rcases en with _ | (s | _) <;> cases r <;>
        simp [inboxOf, Event.drops, Event.endingOf?, Event.reads, Event.on, Inbox.afterRead, hm]
    · cases en <;> simp [Event.drops, Event.endingOf?, Event.reads, Event.on, hm]
  | dropped m =>
    by_cases hm : m = n
    · simp [inboxOf, Event.drops, Event.on, hm]
    · cases en <;> simp [Event.drops, Event.endingOf?, Event.reads, Event.on, hm]

theorem inbox_concat {stem : String} {h : History} {n : Nat} (hn : n < opened h) (e : Event) :
    inbox stem (h ++ [e]) n = e.on (idOf stem n) n (inbox stem h n) := by
  obtain ⟨t, ht⟩ := exists_since hn
  simp only [inbox, since_concat, ht, inboxAfter_concat]

/-! ## Requests that wait to be read -/

/-- Nobody has taken the settlement of a request out of its inbox, and nobody has given it up. -/
def Unread (stem : String) (h : History) (n : Nat) : Prop :=
  match ending? stem h n with
  | none => inbox stem h n = .waiting
  | some (.settled v) => inbox stem h n = .holds v
  | some .forgotten => False

/-- An event that neither takes the settlement of a request out of its inbox nor gives it up. -/
def Spares (stem : String) (n : Nat) : Event → Prop
  | .opened => True
  | .aimed _ (.settled _) => True
  | .aimed id .forgotten => id ≠ idOf stem n
  | .read m => m ≠ n
  | .dropped m => m ≠ n

theorem unread_opened (stem : String) {h : History} : Unread stem (h ++ [.opened]) (opened h) := by
  have hnone : since (opened h) h = none := since_eq_none.mpr (Nat.le_refl _)
  have hend : ending? stem (h ++ [.opened]) (opened h) = none := ending?_concat_opened rfl
  rw [Unread, hend]
  simp [Event.opens, inbox, since_concat, hnone, inboxAfter, inboxOf]

theorem unread_cases {stem : String} {h : History} {n : Nat} (hu : Unread stem h n) :
    (ending? stem h n = none ∧ inbox stem h n = .waiting) ∨
      ∃ v, ending? stem h n = some (.settled v) ∧ inbox stem h n = .holds v := by
  unfold Unread at hu
  rcases hend : ending? stem h n with _ | (v | _) <;> rw [hend] at hu
  · exact .inl ⟨rfl, hu⟩
  · exact .inr ⟨v, rfl, hu⟩
  · exact hu.elim

theorem unread_concat {stem : String} {h : History} {n : Nat} (hn : n < opened h)
    (hu : Unread stem h n) {e : Event} (he : Spares stem n e) : Unread stem (h ++ [e]) n := by
  unfold Unread at hu ⊢
  rw [ending?_concat hn, inbox_concat hn]
  cases e with
  | opened => simpa [Event.endingOf?, Event.on] using hu
  | read m => simpa [Event.endingOf?, Event.on, show ¬ m = n from he] using hu
  | dropped m => simpa [Event.endingOf?, Event.on, show ¬ m = n from he] using hu
  | aimed id en =>
    by_cases hid : id = idOf stem n
    · cases en with
      | forgotten => exact absurd hid he
      | settled v =>
        -- what is aimed at it settles it now, or comes after it was settled
        cases hend : ending? stem h n with
        | none =>
          rw [hend] at hu
          simp [Event.endingOf?, Event.on, hid, hu, Ending.act, Inbox.deliver]
        | some en' =>
          rw [hend] at hu
          cases en' with
          | forgotten => exact hu.elim
          | settled w => simp [Event.on, hid, hu, Ending.act, Inbox.deliver]
    · simpa [Event.endingOf?, Event.on, hid] using hu

theorem opened_le_append (h t : History) : opened h ≤ opened (h ++ t) := by
  simp [opened, List.countP_append]

theorem unread_append {stem : String} {n : Nat} : ∀ {t h : History}, n < opened h →
    Unread stem h n → (∀ e ∈ t, Spares stem n e) → Unread stem (h ++ t) n
  | [], h, _, hu, _ => by simpa using hu
  | e :: t, h, hn, hu, ht => by
    have hn' : n < opened (h ++ [e]) := Nat.lt_of_lt_of_le hn (opened_le_append h [e])
    have hrest := unread_append hn' (unread_concat hn hu (ht e List.mem_cons_self))
      fun f hf => ht f (List.mem_cons_of_mem _ hf)
    simpa using hrest

theorem mem_of_since {n : Nat} : ∀ {h t : History}, since n h = some t → ∀ e ∈ t, e ∈ h
  | [], t, ht => by cases ht
  | f :: h, t, ht => by
    intro e he
    simp only [since] at ht
    split at ht
    · cases n with
      | zero => exact List.mem_cons_of_mem _ (Option.some.inj ht ▸ he)
      | succ n => exact List.mem_cons_of_mem _ (mem_of_since ht e he)
    · exact List.mem_cons_of_mem _ (mem_of_since ht e he)

/-- The ending of a request was aimed at its id. -/
theorem mem_of_ending? {stem : String} {h : History} {n : Nat} {en : Ending}
    (he : ending? stem h n = some en) : .aimed (idOf stem n) en ∈ h := by
  obtain ⟨t, ht, hfind⟩ := Option.bind_eq_some_iff.mp he
  exact mem_of_since ht _ (Event.aimed_mem_of_findSome? hfind)

/-- A request ends by what was aimed at it first, before or later. -/
theorem ending?_append_eq {stem : String} {h : History} {n : Nat} (hn : n < opened h) (t : History) :
    ending? stem (h ++ t) n = (ending? stem h n).or (t.findSome? (Event.endingOf? (idOf stem n))) := by
  induction t using List.reverseRecOn with
  | nil => simp
  | append_singleton t e ih =>
    have hlt : n < opened (h ++ t) := Nat.lt_of_lt_of_le hn (opened_le_append h t)
    rw [← List.append_assoc, ending?_concat hlt, ih, List.findSome?_append, Option.or_assoc]
    simp

/-- The newest request ends by what is aimed at it afterwards. -/
theorem ending?_opened (stem : String) (h t : History) :
    ending? stem (h ++ .opened :: t) (opened h) = t.findSome? (Event.endingOf? (idOf stem (opened h))) := by
  have hlt : opened h < opened (h ++ [.opened]) := by
    rw [opened_concat]
    exact Nat.lt_succ_self _
  have hsplit : h ++ .opened :: t = (h ++ [.opened]) ++ t := by simp
  rw [hsplit, ending?_append_eq hlt, ending?_concat_opened rfl, Option.none_or]

/-- The first ending stays the first. -/
theorem ending?_append {stem : String} {n : Nat} {en : Ending} {t h : History} (he : ending? stem h n = some en) :
    ending? stem (h ++ t) n = some en := by
  have hn : n < opened h := by
    refine Nat.lt_of_not_le fun hle => ?_
    rw [ending?_of_opened_le hle] at he
    cases he
  rw [ending?_append_eq hn, he, Option.some_or]

theorem ending?_eq_none_of_append {stem : String} {n : Nat} {h t : History}
    (hnone : ending? stem (h ++ t) n = none) : ending? stem h n = none := by
  cases hend : ending? stem h n with
  | none => rfl
  | some en =>
    rw [ending?_append hend] at hnone
    cases hnone

/-- What is forgotten has ended. -/
theorem ending?_forgotten_ne_none {stem : String} {n : Nat} {h t : History} (hn : n < opened h)
    (hmem : .aimed (idOf stem n) .forgotten ∈ t) : ending? stem (h ++ t) n ≠ none := by
  obtain ⟨t₁, t₂, rfl⟩ := List.append_of_mem hmem
  intro hnone
  have hsplit : h ++ (t₁ ++ .aimed (idOf stem n) .forgotten :: t₂) =
      (h ++ t₁ ++ [.aimed (idOf stem n) .forgotten]) ++ t₂ := by simp
  rw [hsplit] at hnone
  have hlast := ending?_eq_none_of_append hnone
  have hlt : n < opened (h ++ t₁) := Nat.lt_of_lt_of_le hn (opened_le_append h t₁)
  rw [ending?_concat hlt, Event.endingOf?, if_pos rfl] at hlast
  cases hend : ending? stem (h ++ t₁) n <;> rw [hend] at hlast <;> cases hlast

end History

end Hostlink.Registry
