import Hostlink.RouteTable

/-!
# What an action does

An action runs from a state to a result and a state. `Action.Runs x s Q` says of both what `Q` says, and is
taken apart along the action.

* `Action.Runs` — what holds after an action;
* `Action.runs_bind` and its siblings — one rule for each way to put actions together.
-/

namespace Hostlink.Action

variable {σ α β : Type} {s : σ} {Q : Except HostError α → σ → Prop}

/-- `x` run from `s` has a result and leaves a state that satisfy `Q`. -/
def Runs (x : Action σ α) (s : σ) (Q : Except HostError α → σ → Prop) : Prop := Q (x.run.run s).1 (x.run.run s).2

@[simp] theorem runs_pure (a : α) : Runs (pure a : Action σ α) s Q ↔ Q (.ok a) s := Iff.rfl

@[simp] theorem runs_throw (e : HostError) : Runs (throw e : Action σ α) s Q ↔ Q (.error e) s := Iff.rfl

@[simp] theorem runs_get {Q : Except HostError σ → σ → Prop} : Runs (get : Action σ σ) s Q ↔ Q (.ok s) s := Iff.rfl

@[simp] theorem runs_modify {Q : Except HostError Unit → σ → Prop} (f : σ → σ) :
    Runs (modify f : Action σ Unit) s Q ↔ Q (.ok ()) (f s) := Iff.rfl

/-- The second action runs from where the first one ends, unless that fails. -/
@[simp] theorem runs_bind (x : Action σ α) (f : α → Action σ β) {Q : Except HostError β → σ → Prop} :
    Runs (x >>= f) s Q ↔ x.Runs s fun r t => match r with
      | .ok a => (f a).Runs t Q
      | .error e => Q (.error e) t := by
  have hrun : (x >>= f).run.run s = match x.run.run s with
      | (.ok a, t) => (f a).run.run t
      | (.error e, t) => (.error e, t) := by
    rw [ExceptT.run_bind, StateT.run_bind]
    rcases x.run.run s with ⟨e | a, t⟩ <;> rfl
  rw [Runs, Runs, hrun]
  rcases x.run.run s with ⟨e | a, t⟩ <;> exact Iff.rfl

theorem runs_get_bind {f : σ → Action σ α} : Runs (get >>= f) s Q ↔ (f s).Runs s Q :=
  (runs_bind _ f).trans runs_get

theorem runs_modify_bind (g : σ → σ) {f : Unit → Action σ α} : Runs (modify g >>= f) s Q ↔ (f ()).Runs (g s) Q :=
  (runs_bind _ f).trans (runs_modify g)

end Hostlink.Action
