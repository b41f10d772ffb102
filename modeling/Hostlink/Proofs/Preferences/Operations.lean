import Hostlink.Proofs.Preferences.Portable
import Hostlink.Proofs.Request.Layouts

/-!
# Operations on preferences

What a host of preferences makes of an operation, and why each operation gets there: its path is plain, its
arguments are carried, and no name among them is one that a layout keeps for itself.

* `Operation.Portable` — the JSON arguments of an operation are carried;
* `Operation.keeps` — **what is kept stays carried, and so is the answer**;
* `Operation.plain_path`, `Operation.portable_args`, `Operation.accepts` — **every layout writes it**;
* `Preferences.answer` — what the host answers an operation;
* `Preferences.perform`, `Preferences.outcomes` — what comes of operations, one after another.
-/

namespace Hostlink

open Json (Members)

/-! ## Records -/

/-- Names of arguments. -/
def Operation.argumentKeys : List String :=
  ["property", "value", "url", "id", "data", "enabled", "name", "keyword", "cmd", "icon", "is_default_search"]

/-- A record as an object: its members are scalars under known names. -/
def Operation.IsRecord (v : Json) : Prop :=
  ∃ pairs, v = Json.ofMembers pairs ∧ (∀ p ∈ pairs, p.2.Portable 0) ∧ ∀ p ∈ pairs, p.1 ∈ argumentKeys

theorem portable_optionalText (s : Option String) : (optionalText s).Portable 0 := by
  cases s with
  | none => exact Json.portable_null 0
  | some s => exact Json.portable_string 0 s

theorem Shortcut.isRecord (r : Shortcut) : Operation.IsRecord r.toJson := by
  refine ⟨_, rfl, ?_, ?_⟩
  · simp [Json.portable_string, Json.portable_bool, portable_optionalText]
  · simp [Operation.argumentKeys]

theorem ShortcutDraft.isRecord (r : ShortcutDraft) : Operation.IsRecord r.toJson := by
  refine ⟨_, rfl, ?_, ?_⟩
  · cases r.icon <;> simp [Json.portable_string, Json.portable_bool]
  · cases r.icon <;> simp [Operation.argumentKeys]

namespace Operation

variable {op : Operation}

/-- The JSON arguments of an operation are carried; all others are scalars. -/
def Portable (room : Nat) : Operation → Prop
  | .set _ v => v.Portable room
  | .updateExtensionPrefs _ data => data.Portable room
  | _ => True

/-! ## At the host -/

/-- **The handler of an operation keeps what is kept carried, and its answer is carried.** -/
theorem keeps (hop : op.Portable 100) : Preferences.Keeps (op.handler (op.args .b64Json)) := by
  have hrecord : ∀ {v}, IsRecord v → ∃ pairs, recordArgs .b64Json v = .named pairs ∧ ∀ q ∈ pairs, q.2.Portable 100 := by
    rintro v ⟨pairs, rfl, hpairs, -⟩
    exact ⟨_, rfl, fun q hq => (hpairs q (Members.mem_of_mem_ofList hq)).mono (by decide)⟩
  cases op with
  | getAll => exact Preferences.keeps_getAll .none
  | set property v => exact Preferences.keeps_setAny fun w hw => by obtain rfl := Option.some.inj hw; exact hop
  | setHotkey => exact Preferences.keeps_setHotkey
  | setAutostart enabled =>
    exact Preferences.keeps_setAny fun w hw => by
      obtain rfl := Option.some.inj hw
      exact Json.portable_bool 100 enabled
  | openWebUrl => exact Preferences.keeps_openWebUrl
  | openExtensionsDir => exact Preferences.keeps_openExtensionsDir .none
  | getShortcuts => exact Preferences.keeps_getShortcuts .none
  | addShortcut draft =>
    obtain ⟨pairs, heq, hpairs⟩ := hrecord draft.isRecord
    rw [args, heq]
    exact Preferences.keeps_addShortcut hpairs
  | updateShortcut shortcut =>
    obtain ⟨pairs, heq, hpairs⟩ := hrecord shortcut.isRecord
    rw [args, heq]
    exact Preferences.keeps_updateShortcut hpairs
  | removeShortcut => exact Preferences.keeps_removeShortcut
  | getExtensions => exact Preferences.keeps_getExtensions .none
  | addExtension => exact Preferences.keeps_addExtension
  | updateExtensionPrefs id data =>
    exact Preferences.keeps_updateExtensionPrefs fun w hw => by obtain rfl := Option.some.inj hw; exact hop
  | checkExtensionUpdates => exact Preferences.keeps_checkExtension
  | updateExtension => exact Preferences.keeps_updateExtension
  | toggleExtension => exact Preferences.keeps_toggleExtension
  | removeExtension => exact Preferences.keeps_removeExtension

/-! ## On the way there -/

theorem plain_path (op : Operation) : Url.PlainPath op.path := by
  have hplain : ∀ path ∈ Preferences.handlers.map (·.1), Url.PlainPath path := by decide
  exact hplain _ (List.mem_map_of_mem op.mem_handlers)

/-- The arguments of an operation are carried in every layout. -/
theorem portable_args (hop : op.Portable 100) (encoding : Encoding) :
    ∀ v ∈ (op.args encoding).values, v.Portable 126 := by
  have hrecord : ∀ {r}, IsRecord r → ∀ v ∈ (recordArgs encoding r).values, v.Portable 126 := by
    rintro r ⟨pairs, rfl, hpairs, -⟩ v hv
    unfold recordArgs at hv
    split at hv
    · rw [List.mem_singleton.mp hv]
      exact (Json.portable_ofMembers hpairs).mono (by decide)
    · obtain ⟨q, hq, rfl⟩ := List.mem_map.mp hv
      exact (hpairs q (Members.mem_of_mem_ofList hq)).mono (by decide)
  have hmono : ∀ {v : Json}, v.Portable 100 → v.Portable 126 := fun h => h.mono (by decide)
  cases op with
  | addShortcut draft => exact hrecord draft.isRecord
  | updateShortcut shortcut => exact hrecord shortcut.isRecord
  | set property v => simp [args, Args.values, Json.portable_string, hmono hop]
  | updateExtensionPrefs id data => simp [args, Args.values, Json.portable_string, hmono hop]
  | _ => simp [args, Args.values, Json.portable_string, Json.portable_bool]

/-- The arguments of an operation have names of their own, where they have names. -/
theorem keys_args (op : Operation) (encoding : Encoding) : ∀ p ∈ (op.args encoding).pairs, p.1 ∈ argumentKeys := by
  have hrecord : ∀ {r}, IsRecord r → ∀ p ∈ (recordArgs encoding r).pairs, p.1 ∈ argumentKeys := by
    rintro r ⟨pairs, rfl, -, hkeys⟩ p hp
    unfold recordArgs at hp
    split at hp
    · cases hp
    · exact hkeys p (Members.mem_of_mem_ofList hp)
  cases op with
  | addShortcut draft => exact hrecord draft.isRecord
  | updateShortcut shortcut => exact hrecord shortcut.isRecord
  | _ => simp [args, Args.pairs, argumentKeys]

/-- **Every layout writes an operation**, under the key that names requests if nothing else is said. -/
theorem accepts (op : Operation) {c : Codec} (hkey : c.callbackKey = "callback") : c.Accepts (op.args c.encoding) := by
  have hfree : ∀ key ∈ argumentKeys, key ≠ "callback" ∧ Request.isMarked key = false := by decide
  have hkeys := op.keys_args c.encoding
  have hnamed : c.encoding ≠ .argsArray → c.Names (op.args c.encoding) := by
    intro henc
    refine ⟨?_, fun p hp => hkey ▸ (hfree p.1 (hkeys p hp)).1⟩
    have hrecord : ∀ {r}, IsRecord r → ∀ values, recordArgs c.encoding r ≠ .positional values := by
      rintro r ⟨pairs, rfl, -⟩ values h
      rw [recordArgs, if_neg henc] at h
      cases h
    cases op with
    | addShortcut draft => exact hrecord draft.isRecord
    | updateShortcut shortcut => exact hrecord shortcut.isRecord
    | _ => exact fun values h => by cases h
  rw [Codec.Accepts]
  cases henc : c.encoding with
  | b64Json =>
    rw [henc] at hnamed hkeys
    exact ⟨hnamed (by decide), fun p hp => (hfree p.1 (hkeys p hp)).2⟩
  | jsonQuery =>
    rw [henc] at hnamed
    exact hnamed (by decide)
  | argsArray => trivial

end Operation

/-! ## One after another -/

namespace Preferences

/-- What the handler of an operation answers to its arguments as they are, and what is kept after it. -/
@[irreducible] def answer (p : Preferences) (op : Operation) : Except HostError Json × Preferences :=
  routes.dispatch op.path (op.args .b64Json) p

/-- Preferences stay carried, and an operation is answered with what is carried. -/
theorem Sound.answer {p : Preferences} (hp : p.Sound) {op : Operation} (hop : op.Portable 100) :
    (p.answer op).2.Sound ∧ (HostAnswer.routed (p.answer op).1).Portable := by
  rw [Preferences.answer, RouteTable.dispatch, op.handler?_path]
  exact op.keeps hop p hp

/-- What comes of an operation, and what is kept after it. -/
def perform (p : Preferences) (op : Operation) : Except Rejection OperationValue × Preferences :=
  ((HostAnswer.routed (p.answer op).1).settlement >>= op.result, (p.answer op).2)

/-- What comes of operations, one after another. -/
def outcomes (p : Preferences) : List Operation → List (Except Rejection OperationValue)
  | [] => []
  | op :: ops => (p.perform op).1 :: (p.perform op).2.outcomes ops

end Preferences

end Hostlink
