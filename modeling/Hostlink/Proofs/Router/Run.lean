import Hostlink.Proofs.Handlers
import Hostlink.Proofs.Inbox
import Hostlink.Router.Session

/-!
# What happens to a router

Handlers and channels go their own ways: what an operation makes of either does not depend on the
other, nor on when settlements are delivered.

* `Delivery.peek_makeAll_of_ne`, `Delivery.makeAll_deliver`, … — several deliveries, inbox by inbox;
* `Router.takeHandler_eq` — whom a push is for;
* `Router.Session.handlers_step`, `Router.Session.channels_step` — **what an operation makes of
  handlers and of channels**.
-/

namespace Hostlink

/-! ## Deliveries -/

namespace Delivery

theorem length_makeAll (boxes : Inboxes) (ds : List Delivery) :
    (makeAll boxes ds).length = boxes.length := by
  induction ds generalizing boxes with
  | nil => rfl
  | cons d ds ih => exact (ih _).trans (Inboxes.length_deliver ..)

theorem makeAll_concat (boxes : Inboxes) (ds : List Delivery) (d : Delivery) :
    makeAll boxes (ds ++ [d]) = (makeAll boxes ds).deliver d.token d.settlement :=
  List.foldl_append

theorem peek_makeAll_of_ne {boxes : Inboxes} {ds : List Delivery} {t : Nat} (hne : ∀ d ∈ ds, d.token ≠ t) :
    (makeAll boxes ds).peek t = boxes.peek t := by
  induction ds generalizing boxes with
  | nil => rfl
  | cons d ds ih =>
    have hrest : (makeAll (boxes.deliver d.token d.settlement) ds).peek t =
        (boxes.deliver d.token d.settlement).peek t := ih fun e he => hne e (List.mem_cons_of_mem _ he)
    refine hrest.trans ?_
    rw [Inboxes.peek_deliver, if_neg (hne d List.mem_cons_self)]

/-- Each of several deliveries reaches its own inbox. -/
theorem peek_makeAll_of_mem (boxes : Inboxes) {ds : List Delivery} (hds : ds.Pairwise (·.token ≠ ·.token))
    {d : Delivery} (hd : d ∈ ds) :
    (makeAll boxes ds).peek d.token = (boxes.peek d.token).deliver d.settlement := by
  induction ds generalizing boxes with
  | nil => exact absurd hd List.not_mem_nil
  | cons e ds ih =>
    obtain ⟨hfirst, hrest⟩ := List.pairwise_cons.mp hds
    rcases List.mem_cons.mp hd with rfl | hd
    · have hlater : (makeAll (boxes.deliver d.token d.settlement) ds).peek d.token =
          (boxes.deliver d.token d.settlement).peek d.token :=
        peek_makeAll_of_ne fun e he => (hfirst e he).symm
      refine hlater.trans ?_
      rw [Inboxes.peek_deliver, if_pos rfl]
    · refine (ih (boxes.deliver e.token e.settlement) hrest hd).trans ?_
      rw [Inboxes.peek_deliver, if_neg (hfirst d hd)]

/-- Only what an inbox holds counts for what deliveries make of it. -/
theorem peek_makeAll_congr {boxes boxes' : Inboxes} {t : Nat} (h : boxes.peek t = boxes'.peek t)
    (ds : List Delivery) : (makeAll boxes ds).peek t = (makeAll boxes' ds).peek t := by
  induction ds generalizing boxes boxes' with
  | nil => exact h
  | cons d ds ih =>
    refine ih ?_
    rw [Inboxes.peek_deliver, Inboxes.peek_deliver, h]

/-- An inbox that does not wait takes no delivery. -/
theorem peek_makeAll_of_ne_waiting {boxes : Inboxes} {t : Nat} (h : boxes.peek t ≠ .waiting)
    (ds : List Delivery) : (makeAll boxes ds).peek t = boxes.peek t := by
  have hkeep : ∀ v, (boxes.peek t).deliver v = boxes.peek t := by
    intro v
    cases hbox : boxes.peek t with
    | waiting => exact absurd hbox h
    | _ => rfl
  induction ds generalizing boxes with
  | nil => rfl
  | cons d ds ih =>
    have hfirst : (boxes.deliver d.token d.settlement).peek t = boxes.peek t := by
      rw [Inboxes.peek_deliver, hkeep, ite_self]
    have hrest : (makeAll (boxes.deliver d.token d.settlement) ds).peek t =
        (boxes.deliver d.token d.settlement).peek t := ih (hfirst ▸ h) (hfirst ▸ hkeep)
    exact hrest.trans hfirst

end Delivery

namespace Router

/-! ## Pushes -/

/-- A push is for the handler of its name, which is taken out. -/
theorem takeHandler_eq (r : Router) (p : Push) :
    r.takeHandler p =
      ((r.handlers.find? (addressee p).1).map fun x =>
          ((addressee p).1, ⟨x.token, settlementOf (addressee p).1 (addressee p).2⟩),
        { r with handlers := r.handlers.erase (addressee p).1 }) := by
  unfold takeHandler Handlers.take
  rcases addressee p with ⟨name, value⟩
  dsimp only
  cases hx : r.handlers.find? name with
  | none =>
    rw [Handlers.erase_of_find?_eq_none hx]
    rfl
  | some x => rfl

/-! ## Channels -/

/-- A subscriber that listens reads all that it has received. -/
theorem channels_drain (r : Router) (n : Nat) :
    (r.drain n).2.channels = r.channels.modify n fun c => if c.live then { c with queue := [] } else c := by
  unfold drain
  cases hc : r.channels[n]? with
  | none => exact (List.modify_eq_self (List.getElem?_eq_none_iff.mp hc)).symm
  | some c =>
    refine List.ext_getElem? fun i => ?_
    by_cases hi : n = i
    · subst hi
      cases hlive : c.live <;> simp [hc, hlive]
    · cases hlive : c.live <;> simp [hi, hlive]

/-! ## Operations -/

namespace Op

/-- The push that an operation dispatches. -/
def push? : Op → Option Push
  | .dispatch p => some p
  | _ => none

/-- Does an operation open a subscription? -/
def subscribes : Op → Bool
  | .subscribe => true
  | _ => false

/-- What an operation makes of handlers. -/
def onHandlers (op : Op) (h : Handlers) : Handlers :=
  match op with
  | .register name => (h.register name).2.2
  | .dispatch p => h.erase (addressee p).1
  | _ => h

/-- What an operation makes of channels. -/
def onChannels (op : Op) (cs : List Channel) : List Channel :=
  match op with
  | .dispatch p => cs.map (·.send p)
  | .subscribe => cs ++ [⟨[], true, true⟩]
  | .unsubscribe n => cs.modify n fun c => { c with queue := [], live := false }
  | .drain n => cs.modify n fun c => if c.live then { c with queue := [] } else c
  | _ => cs

end Op

namespace Session

variable (s : Session)

theorem run_concat (ops : List Op) (op : Op) : s.run (ops ++ [op]) = ((s.run ops).step op).2 :=
  List.foldl_append

theorem router_step_dispatch (p : Push) :
    (s.step (.dispatch p)).2.router =
      { s.router with
        handlers := s.router.handlers.erase (addressee p).1
        channels := s.router.channels.map (·.send p) } := by
  simp only [step, dispatch, takeHandler_eq]
  cases s.router.handlers.find? (addressee p).1 <;> rfl

/-- The name of the handler that takes a push. -/
theorem answer_dispatch (p : Push) :
    (s.step (.dispatch p)).1 =
      .handler ((s.router.handlers.find? (addressee p).1).map fun _ => (addressee p).1) := by
  simp only [step, dispatch, takeHandler_eq]
  cases s.router.handlers.find? (addressee p).1 <;> rfl

/-- **Handlers change by registrations and pushes only.** -/
theorem handlers_step (op : Op) : (s.step op).2.router.handlers = op.onHandlers s.router.handlers := by
  cases op with
  | dispatch p => rw [router_step_dispatch]; rfl
  | drain n =>
    simp only [step, Router.drain]
    split
    · split <;> rfl
    · rfl
  | _ => rfl

/-- **Channels change by subscribers and pushes only.** -/
theorem channels_step (op : Op) : (s.step op).2.router.channels = op.onChannels s.router.channels := by
  cases op with
  | dispatch p => rw [router_step_dispatch]; rfl
  | drain n => exact channels_drain s.router n
  | _ => rfl

end Session

end Router

end Hostlink
