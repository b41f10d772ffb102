import Hostlink.Proofs.Bridge.Held
import Hostlink.Proofs.Bridge.Scripts
import Hostlink.Proofs.Bridge.Timers

/-!
# Sessions as they come about

A session is reached from a fresh bridge by operations, while the page gets scripts of its own and callers are
inside of a runtime or outside. What holds of timers, of callers and of the page then holds all at once.

* `Session.Reached` — sessions that are reached;
* `Session.Consistent` — timers, callers and the page agree with the requests;
* `Session.consistent_change`, `Session.consistent_caller` — whatever happens keeps this;
* `Reached.consistent` — **every session that is reached is consistent**.
-/

namespace Hostlink.Bridge

variable {σ : Type}

namespace Session

/-- Sessions as they come about: by operations, by scripts that the page gets, and with callers who are inside of
a runtime or outside. -/
inductive Reached (b : Bridge σ) : Session σ → Prop where
  | new : Reached b (new b)
  | change {s : Session σ} (c : Change) (hs : Reached b s) : Reached b (s.change c)
  | caller {s : Session σ} (inside : Bool) (hs : Reached b s) :
    Reached b { s with bridge := { s.bridge with runtime := inside } }

/-- Timers, callers and the page agree with the requests that were made. -/
structure Consistent (s : Session σ) : Prop where
  timed : ∃ dues, s.bridge.Timed dues none
  kept : ∃ h, s.bridge.desk.Follows h ∧ Kept s.bridge.registry.stem s.held h
  shows : s.bridge.config.transport = .scriptTag → ∃ config calls srcs, Shows config calls srcs s.bridge

/-- A handle is bound to a request that was made. -/
theorem Consistent.request_lt {s : Session σ} (hs : s.Consistent) {k n : Nat} {e : Held} (he : s.held[k]? = some e)
    (hn : e.handle.request? = some n) : n < s.bridge.registry.count := by
  obtain ⟨h, hfollows, hkept⟩ := hs.kept
  exact Nat.lt_of_lt_of_eq (hkept.fits k e he n hn).1 hfollows.count_eq.symm

theorem consistent_step {s : Session σ} (hs : s.Consistent) (op : Op) : (s.step op).2.Consistent := by
  obtain ⟨dues, htimed⟩ := hs.timed
  obtain ⟨h, hfollows, hkept⟩ := hs.kept
  have hmoves := moves_step htimed.sound op
  have hstem : (s.step op).2.bridge.registry.stem = s.bridge.registry.stem := by
    have heq := congrArg Registry.Desk.stem hmoves.desk_eq
    rw [Registry.Desk.stem_run] at heq
    exact heq
  refine ⟨⟨_, timed_step htimed op⟩, ⟨h ++ s.events op, ?_, ?_⟩, fun ht => ?_⟩
  · rw [hmoves.desk_eq]
    exact hfollows.run _
  · rw [hstem]
    exact kept_step hfollows rfl hkept op
  · have hframe : (s.step op).2.bridge.frame = s.bridge.frame := frame_run s [op]
    have hconfig : (s.step op).2.bridge.config = s.bridge.config := congrArg Prod.fst hframe
    obtain ⟨config, calls, srcs, hshows⟩ := hs.shows (hconfig ▸ ht)
    exact ⟨config, _, _, shows_change hshows (.operation op)⟩

theorem consistent_change {s : Session σ} (hs : s.Consistent) (c : Change) : (s.change c).Consistent := by
  cases c with
  | operation op => exact consistent_step hs op
  | pageScript src =>
    obtain ⟨dues, htimed⟩ := hs.timed
    refine ⟨⟨dues, htimed.congr ?_ (htimed.traced.same rfl rfl rfl)⟩, hs.kept, fun ht => ?_⟩
    · exact .of_eq rfl rfl rfl fun _ => .rfl
    · obtain ⟨config, calls, srcs, hshows⟩ := hs.shows ht
      exact ⟨config, _, _, shows_change hshows (.pageScript src)⟩

theorem consistent_caller {s : Session σ} (hs : s.Consistent) (inside : Bool) :
    ({ s with bridge := { s.bridge with runtime := inside } } : Session σ).Consistent := by
  obtain ⟨dues, htimed⟩ := hs.timed
  refine ⟨⟨dues, htimed.congr ?_ (htimed.traced.same rfl rfl rfl)⟩, hs.kept, fun ht => ?_⟩
  · exact .of_eq rfl rfl rfl fun _ => .rfl
  · obtain ⟨config, calls, srcs, hshows⟩ := hs.shows ht
    exact ⟨config, calls, srcs, hshows.same rfl rfl rfl⟩

theorem consistent_new {config : Config} {actual : Transport} {runtime withHead : Bool} {srcs : List String}
    {host : Host σ} {b : Bridge σ} (hb : Bridge.new config actual runtime (.withScripts withHead srcs) host = .ok b) :
    (new b).Consistent := by
  refine ⟨⟨[], timed_new hb⟩, ⟨[], ?_, kept_new _⟩, fun ht => ?_⟩
  · show b.desk.Follows []
    rw [desk_new hb]
    exact Registry.Desk.follows_new _
  · obtain ⟨-, hactual, rfl⟩ := new_eq_ok hb
    obtain rfl : actual = .scriptTag := hactual.trans ht
    exact ⟨config, [], srcs, shows_new hb⟩

/-- **Every session that is reached is consistent.** -/
theorem Reached.consistent {config : Config} {actual : Transport} {runtime withHead : Bool} {srcs : List String}
    {host : Host σ} {b : Bridge σ} (hb : Bridge.new config actual runtime (.withScripts withHead srcs) host = .ok b)
    {s : Session σ} (hs : Reached b s) : s.Consistent := by
  induction hs with
  | new => exact consistent_new hb
  | change c _ ih => exact consistent_change ih c
  | caller inside _ ih => exact consistent_caller ih inside

end Session

end Hostlink.Bridge
