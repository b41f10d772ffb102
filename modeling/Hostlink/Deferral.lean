import Hostlink.Inbox

/-!
# Deliveries, and work that is put off

A push that takes out a handler brings a settlement, which is delivered into the inbox of the handler. That must not
always be done inside the call that causes it: work is put off until the next tick, and where there is no runtime, and so
no ticks, it is done at once.

* `Delivery.makeAll` — makes deliveries, in order;
* `Deferral.put` — what is to be done at once, and what waits for the next tick.
-/

namespace Hostlink

/-- A settlement for a handler that was taken out. -/
structure Delivery where
  token : Nat
  settlement : Settlement

/-- Makes deliveries, in order, into inboxes that are numbered by tokens. -/
def Delivery.makeAll (boxes : Inboxes) (ds : List Delivery) : Inboxes :=
  ds.foldl (fun boxes d => boxes.deliver d.token d.settlement) boxes

namespace Deferral

variable {α : Type}

/-- One more piece of work: what is to be done at once, and what waits for the next tick. -/
def put (runtime : Bool) (waiting : List α) (work : α) : List α × List α :=
  if runtime then ([], waiting ++ [work]) else ([work], waiting)

end Deferral

end Hostlink
