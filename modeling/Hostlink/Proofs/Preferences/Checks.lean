import Hostlink.Preferences
import Hostlink.Proofs.Action

/-!
# The checks of a host of preferences

A handler of requests begins with checks. One that fails ends the handler and has changed nothing, and the handler
goes on from where it was with what the others found.

* `Preferences.runs_required`, `Preferences.runs_requiredText` — arguments that have to be there;
* `Preferences.runs_recordOf` — a record that has to be there, `Args.record?`;
* `Preferences.runs_findExtension` — an extension that has to be kept.
-/

namespace Hostlink

open Json (Members)

/-- The record that arguments are: all that have names, or an object in the first place. -/
def Args.record? : Args → Option Members
  | .named pairs => some (Members.ofList pairs)
  | .positional (.object ms :: _) => some ms
  | _ => Option.none

/-- The value of a text is that text. -/
theorem Json.eq_string_of_asString? {v : Json} {s : String} (h : v.asString? = some s) : v = .string s := by
  cases v with
  | string t => rw [Option.some.inj h]
  | _ => cases h

namespace Preferences

variable {α : Type} {args : Args} {key id : String} {index : Nat} {p : Preferences}
  {Q : Except HostError α → Preferences → Prop}

theorem runs_required {f : Json → Action Preferences α} (hrefused : ∀ message, Q (.error (invalid message)) p)
    (h : ∀ v, args.find? key index = some v → (f v).Runs p Q) : (required args key index >>= f).Runs p Q := by
  rw [Action.runs_bind, required]
  split
  · next v hv => exact h v hv
  · exact hrefused _

theorem runs_requiredText {f : String → Action Preferences α} (hrefused : ∀ message, Q (.error (invalid message)) p)
    (h : ∀ s, args.find? key index = some (.string s) → s ≠ "" → (f s).Runs p Q) :
    (requiredText args key index >>= f).Runs p Q := by
  rw [Action.runs_bind, requiredText]
  split
  · next s hs =>
    obtain ⟨htext, hne⟩ := Option.filter_eq_some_iff.mp hs
    obtain ⟨v, hv, hstring⟩ := Option.bind_eq_some_iff.mp htext
    exact h s (hv.trans (congrArg some (Json.eq_string_of_asString? hstring))) (by simpa using hne)
  · exact hrefused _

theorem runs_recordOf {f : Members → Action Preferences α} (hrefused : ∀ message, Q (.error (invalid message)) p)
    (h : ∀ ms, args.record? = some ms → (f ms).Runs p Q) : (recordOf args >>= f).Runs p Q := by
  rw [Action.runs_bind, recordOf.eq_def]
  split
  · exact h _ rfl
  · exact h _ rfl
  · exact hrefused _
  · exact hrefused _

theorem runs_findExtension {f : Members → Action Preferences α}
    (hrefused : p.extensions.find? (idOf · = some id) = none → Q (.error (notFound "extension" id)) p)
    (h : ∀ ms, p.extensions.find? (idOf · = some id) = some ms → (f ms).Runs p Q) :
    (findExtension id >>= f).Runs p Q := by
  rw [Action.runs_bind, findExtension, Action.runs_get_bind]
  split
  · next ms hms => exact h ms hms
  · next hnone => exact hrefused hnone

end Preferences

end Hostlink
