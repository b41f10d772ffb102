import Hostlink.Client.Operation
import Hostlink.Preferences
import Hostlink.Proofs.Request.RoundTrip

/-!
# The arguments of an operation, as they arrive

A layout brings named arguments in their order, in the order of their names, or without names. A handler
looks for an argument under its name, and at its place if there are no names, so that it finds the same in
every layout.

* `Codec.find?_received` — **an argument is found in every layout**;
* `Preferences.recordOf_received` — so is a record;
* `Operation.handler`, `Operation.handler?_path` — the handler of an operation;
* `Operation.handler_received` — **it does the same in every layout**.
-/

namespace Hostlink

open Json (Members)

/-! ## Maps -/

namespace Json.Members

theorem insert_ne_nil (key : String) (v : Json) (ms : Members) : insert key v ms ≠ [] := by
  cases ms with
  | nil => exact List.cons_ne_nil _ _
  | cons m ms =>
    rw [insert]
    split
    · exact List.cons_ne_nil _ _
    · split <;> exact List.cons_ne_nil _ _

theorem ofList_ne_nil {pairs : List (String × Json)} (h : pairs ≠ []) : ofList pairs ≠ [] := by
  induction pairs using List.reverseRecOn with
  | nil => exact absurd rfl h
  | append_singleton pairs p _ =>
    rw [ofList_concat]
    exact insert_ne_nil _ _ _

end Json.Members

/-! ## Arguments -/

theorem Request.find?_namedArgs (pairs : List (String × Json)) (key : String) (i : Nat) :
    (namedArgs pairs).find? key i = Members.lookup key pairs := by
  rw [← get?_namedArgs, namedArgs]
  split <;> rfl

/-- **An argument is found in every layout**, under its name or at its place. -/
theorem Codec.find?_received (c : Codec) {pairs : List (String × Json)} (hnodup : (pairs.map (·.1)).Nodup) {i : Nat}
    {key : String} {v : Json} (hi : pairs[i]? = some (key, v)) : (c.received (.named pairs)).find? key i = some v := by
  have hmem : (key, v) ∈ pairs := List.mem_of_getElem? hi
  rw [received]
  cases c.encoding with
  | b64Json =>
    dsimp only
    rw [Request.find?_namedArgs]
    exact Members.lookup_of_mem hnodup hmem
  | jsonQuery =>
    dsimp only
    rw [Request.find?_namedArgs]
    show Members.lookup key (Members.ofList pairs) = _
    rw [Members.lookup_ofList]
    refine Members.lookup_of_mem ?_ (List.mem_reverse.mpr hmem)
    rw [List.map_reverse]
    exact (List.reverse_perm _).nodup_iff.mpr hnodup
  | argsArray =>
    have hne : (Args.named pairs).isEmpty = false := by
      cases pairs with
      | nil => cases hi
      | cons p pairs => rfl
    dsimp only
    rw [hne]
    show (pairs.map (·.2))[i]? = some v
    rw [List.getElem?_map, hi]
    rfl

theorem Codec.find?_received_eq (c : Codec) {pairs : List (String × Json)} (hnodup : (pairs.map (·.1)).Nodup) {i : Nat}
    {key : String} {v : Json} (hi : pairs[i]? = some (key, v)) :
    (c.received (.named pairs)).find? key i = (Args.named pairs).find? key i :=
  (c.find?_received hnodup hi).trans (Members.lookup_of_mem hnodup (List.mem_of_getElem? hi)).symm

namespace Preferences

/-- Every handler is found under its path. -/
theorem handler?_of_mem : ∀ route ∈ handlers, routes.handler? route.1 = some route.2 := by
  rw [handlers]
  repeat' refine List.forall_mem_cons.mpr ⟨rfl, ?_⟩
  exact fun _ h => absurd h List.not_mem_nil

/-- A record arrives in every layout: flat where there are names, else as one object. -/
theorem recordOf_received (c : Codec) {ms : Members} (hordered : ms.Ordered) (hne : ms ≠ []) :
    recordOf (c.received (Operation.recordArgs c.encoding (.object ms))) = pure ms := by
  have hlist : Members.ofList ms = ms := Members.ofList_of_ordered hordered
  rw [Codec.received]
  cases c.encoding with
  | b64Json =>
    show recordOf (Request.namedArgs ms) = _
    rw [Request.namedArgs, if_neg hne, recordOf, hlist]
  | jsonQuery =>
    show recordOf (Request.namedArgs (Members.ofList ms)) = _
    rw [hlist, Request.namedArgs, if_neg hne, recordOf, hlist]
  | argsArray => rfl

end Preferences

/-! ## Operations -/

namespace Operation

/-- The handler of an operation. -/
def handler : Operation → RouteHandler Preferences
  | .getAll => Preferences.getAll
  | .set _ _ | .setAutostart _ => Preferences.setAny
  | .setHotkey _ => Preferences.setHotkey
  | .openWebUrl _ => Preferences.openWebUrl
  | .openExtensionsDir => Preferences.openExtensionsDir
  | .getShortcuts => Preferences.getShortcuts
  | .addShortcut _ => Preferences.addShortcut
  | .updateShortcut _ => Preferences.updateShortcut
  | .removeShortcut _ => Preferences.removeShortcut
  | .getExtensions => Preferences.getExtensions
  | .addExtension _ => Preferences.addExtension
  | .updateExtensionPrefs _ _ => Preferences.updateExtensionPrefs
  | .checkExtensionUpdates _ => Preferences.checkExtension
  | .updateExtension _ => Preferences.updateExtension
  | .toggleExtension _ _ => Preferences.toggleExtension
  | .removeExtension _ => Preferences.removeExtension

theorem mem_handlers (op : Operation) : (op.path, op.handler) ∈ Preferences.handlers := by
  cases op <;> simp [Preferences.handlers, path, handler]

/-- The routes of the host lead each operation to its handler. -/
theorem handler?_path (op : Operation) : Preferences.routes.handler? op.path = some op.handler := by
  have hmem := op.mem_handlers
  generalize op.path = path at hmem
  generalize op.handler = handler at hmem
  exact Preferences.handler?_of_mem (path, handler) hmem

/-- A record of an operation arrives as it was sent. -/
theorem recordOf_args (c : Codec) {pairs : List (String × Json)} (hne : pairs ≠ []) :
    Preferences.recordOf (c.received (recordArgs c.encoding (Json.ofMembers pairs))) =
      Preferences.recordOf (recordArgs .b64Json (Json.ofMembers pairs)) := by
  have hordered := Members.ordered_ofList pairs
  rw [Json.ofMembers, Preferences.recordOf_received c hordered (Members.ofList_ne_nil hne)]
  show _ = Preferences.recordOf (.named (Members.ofList pairs))
  rw [Preferences.recordOf, Members.ofList_of_ordered hordered]

/-- **The handler of an operation does the same in every layout.** -/
theorem handler_received (op : Operation) (c : Codec) :
    op.handler (c.received (op.args c.encoding)) = op.handler (op.args .b64Json) := by
  -- handlers ask for one key, for two, or for a record as a whole
  have one : ∀ (k : String) (v : Json), (c.received (.named [(k, v)])).find? k 0 = (Args.named [(k, v)]).find? k 0 :=
    fun k v => c.find?_received_eq (by simp) rfl
  have two : ∀ (k l : String) (v w : Json), k ≠ l →
      (c.received (.named [(k, v), (l, w)])).find? k 0 = (Args.named [(k, v), (l, w)]).find? k 0 ∧
      (c.received (.named [(k, v), (l, w)])).find? l 1 = (Args.named [(k, v), (l, w)]).find? l 1 := by
    intro k l v w hne
    have hnodup : ([(k, v), (l, w)].map (·.1)).Nodup := by simpa using hne
    exact ⟨c.find?_received_eq hnodup rfl, c.find?_received_eq hnodup rfl⟩
  cases op with
  | getAll | openExtensionsDir | getShortcuts | getExtensions => rfl
  | set property v =>
    obtain ⟨hproperty, hvalue⟩ := two "property" "value" (.string property) v (by decide)
    simp only [handler, args, Preferences.setAny, Preferences.requiredText, Preferences.required, hproperty, hvalue]
  | setAutostart enabled =>
    obtain ⟨hproperty, hvalue⟩ := two "property" "value" (.string autostartProperty) (.bool enabled) (by decide)
    simp only [handler, args, Preferences.setAny, Preferences.requiredText, Preferences.required, hproperty, hvalue]
  | setHotkey s => simp only [handler, args, Preferences.setHotkey, Preferences.requiredText, one]
  | openWebUrl url => simp only [handler, args, Preferences.openWebUrl, Preferences.requiredText, one]
  | addShortcut draft =>
    have hrecord : Preferences.recordOf (c.received (recordArgs c.encoding draft.toJson)) = _ :=
      recordOf_args c (List.cons_ne_nil _ _)
    simp only [handler, args, Preferences.addShortcut, hrecord]
    rfl
  | updateShortcut shortcut =>
    have hrecord : Preferences.recordOf (c.received (recordArgs c.encoding shortcut.toJson)) = _ :=
      recordOf_args c (List.cons_ne_nil _ _)
    simp only [handler, args, Preferences.updateShortcut, hrecord]
    rfl
  | removeShortcut id => simp only [handler, args, Preferences.removeShortcut, Preferences.requiredText, one]
  | addExtension url => simp only [handler, args, Preferences.addExtension, Preferences.requiredText, one]
  | updateExtensionPrefs id data =>
    obtain ⟨hid, hdata⟩ := two "id" "data" (.string id) data (by decide)
    simp only [handler, args, Preferences.updateExtensionPrefs, Preferences.requiredText, Preferences.required, hid,
      hdata]
  | checkExtensionUpdates id => simp only [handler, args, Preferences.checkExtension, Preferences.requiredText, one]
  | updateExtension id => simp only [handler, args, Preferences.updateExtension, Preferences.requiredText, one]
  | toggleExtension id enabled =>
    obtain ⟨hid, henabled⟩ := two "id" "enabled" (.string id) (.bool enabled) (by decide)
    simp only [handler, args, Preferences.toggleExtension, Preferences.requiredText, Preferences.required, hid,
      henabled]
  | removeExtension id => simp only [handler, args, Preferences.removeExtension, Preferences.requiredText, one]

end Operation

end Hostlink
