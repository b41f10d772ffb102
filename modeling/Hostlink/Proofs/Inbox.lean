import Hostlink.Inbox

/-!
# What happens to inboxes

One lemma for each operation on numbered inboxes: it changes the inbox of its number, and no other.
An inbox that was never opened counts as dropped, which every operation leaves as it is.

* `Inboxes.peek_deliver`, `Inboxes.peek_hangUp`, `Inboxes.peek_drop`, `Inboxes.peek_read`;
* `Inboxes.peek_opened` — the new inbox waits;
* `Inbox.Live` — an inbox that was neither read nor given up.
-/

namespace Hostlink

namespace Inbox

/-- Something may come, or has come and was not read. -/
def Live : Inbox → Prop
  | .waiting | .holds _ => True
  | .closed | .dropped => False

theorem live_iff {b : Inbox} : b.Live ↔ b = .waiting ∨ ∃ v, b = .holds v := by
  cases b <;> simp [Live]

theorem Live.deliver {b : Inbox} (hb : b.Live) (v : Settlement) : (b.deliver v).Live := by
  cases b with
  | waiting => trivial
  | _ => exact hb

end Inbox

namespace Inboxes

variable (boxes : Inboxes) (m n : Nat)

/-! ## One inbox -/

theorem peek_of_length_le {boxes : Inboxes} {n : Nat} (h : boxes.length ≤ n) :
    boxes.peek n = .dropped := by
  simp [peek, List.getD_eq_getElem?_getD, List.getElem?_eq_none h]

/-- A change of one inbox that leaves dropped inboxes alone. -/
theorem peek_modify (f : Inbox → Inbox) (hf : f .dropped = .dropped) :
    Inboxes.peek (boxes.modify m f) n = if m = n then f (boxes.peek n) else boxes.peek n := by
  simp only [peek, List.getD_eq_getElem?_getD, List.getElem?_modify]
  by_cases hmn : m = n
  · cases h : boxes[n]? with
    | none => simp [hmn, hf]
    | some b => simp [hmn]
  · simp [hmn]

@[simp] theorem peek_deliver (s : Settlement) :
    (boxes.deliver m s).peek n = if m = n then (boxes.peek n).deliver s else boxes.peek n :=
  peek_modify boxes m n _ rfl

@[simp] theorem peek_hangUp :
    (boxes.hangUp m).peek n = if m = n then (boxes.peek n).hangUp else boxes.peek n :=
  peek_modify boxes m n _ rfl

@[simp] theorem peek_drop :
    (boxes.drop m).peek n = if m = n then .dropped else boxes.peek n :=
  peek_modify boxes m n _ rfl

@[simp] theorem peek_read :
    (boxes.read m).2.peek n = if m = n then (boxes.peek n).afterRead else boxes.peek n :=
  peek_modify boxes m n _ rfl

@[simp] theorem read_fst : (boxes.read n).1 = boxes.peek n := rfl

theorem peek_concat (b : Inbox) :
    Inboxes.peek (boxes ++ [b]) n = if n = boxes.length then b else boxes.peek n := by
  simp only [peek, List.getD_eq_getElem?_getD]
  by_cases h : n = boxes.length
  · simp [h]
  · rcases Nat.lt_or_gt_of_ne h with h' | h'
    · simp [List.getElem?_append_left h', h]
    · rw [List.getElem?_eq_none (by simp; omega), List.getElem?_eq_none (by omega), if_neg h]

theorem peek_opened :
    boxes.opened.peek n = if n = boxes.length then .waiting else boxes.peek n := peek_concat boxes n .waiting

/-- What comes into the newest inbox. -/
theorem deliver_opened (s : Settlement) : boxes.opened.deliver boxes.length s = boxes ++ [.holds s] := by
  rw [deliver, opened, List.modify_eq_take_cons_drop (by simp)]
  simp [Inbox.deliver]

/-! ## How many there are -/

@[simp] theorem length_deliver (s : Settlement) : (boxes.deliver m s).length = boxes.length :=
  List.length_modify ..

@[simp] theorem length_hangUp : (boxes.hangUp m).length = boxes.length := List.length_modify ..

@[simp] theorem length_drop : (boxes.drop m).length = boxes.length := List.length_modify ..

@[simp] theorem length_read : (boxes.read m).2.length = boxes.length := List.length_modify ..

@[simp] theorem length_opened : boxes.opened.length = boxes.length + 1 := by simp [opened]

end Inboxes

end Hostlink
