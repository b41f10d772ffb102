import Hostlink.Rejection

/-!
# Inboxes

An inbox is the receiving end of one settlement. It is filled at most once, read at most once, and
its owner may drop it at any time.

* `Inbox.deliver`, `Inbox.hangUp` — what the sending end does;
* `Inbox.receive`, `Inbox.drop` — what the owner does.

Inboxes are numbered; `Inboxes` holds them in the order they were opened.
-/

namespace Hostlink

/-- The receiving end of a settlement. -/
inductive Inbox where
  /-- Nothing has come yet. -/
  | waiting
  | holds (s : Settlement)
  /-- It was read, or nothing will come. -/
  | closed
  /-- Its owner dropped it. -/
  | dropped
  deriving Repr

namespace Inbox

/-- Puts a settlement in, if somebody still waits for it. -/
def deliver (s : Settlement) : Inbox → Inbox
  | .waiting => .holds s
  | inbox => inbox

/-- Nothing will come any more. -/
def hangUp : Inbox → Inbox
  | .waiting => .closed
  | inbox => inbox

/-- The inbox after it was read. -/
def afterRead : Inbox → Inbox
  | .holds _ => .closed
  | inbox => inbox

end Inbox

/-- Inboxes by number. -/
abbrev Inboxes := List Inbox

namespace Inboxes

/-- The inbox of a number; one that was never opened counts as dropped. -/
def peek (boxes : Inboxes) (n : Nat) : Inbox := boxes.getD n .dropped

/-- Opens one more. -/
def opened (boxes : Inboxes) : Inboxes := boxes ++ [.waiting]

/-- Puts a settlement into one. -/
def deliver (boxes : Inboxes) (n : Nat) (s : Settlement) : Inboxes := boxes.modify n (.deliver s)

/-- Nothing will come into one any more. -/
def hangUp (boxes : Inboxes) (n : Nat) : Inboxes := boxes.modify n .hangUp

/-- Drops one. -/
def drop (boxes : Inboxes) (n : Nat) : Inboxes := boxes.modify n fun _ => .dropped

/-- Reads one: what it held before, and the inboxes after. -/
def read (boxes : Inboxes) (n : Nat) : Inbox × Inboxes :=
  (boxes.peek n, boxes.modify n .afterRead)

end Inboxes

end Hostlink
