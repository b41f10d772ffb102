import Hostlink.Proofs.Lists
import Hostlink.Proofs.Router.Timing

/-!
# Where a push goes

A push is for one handler, which its form and its event name, and it brings that handler one settlement. Nobody
else notices: neither those who wait under other names, nor those who take the name of the handler before its
settlement comes.

* `Push.Means` — whom a push is for and what it brings, as its form tells; `Router.means_iff` — that is one
  name and one settlement for each push;
* `Router.Session.Reached` — the sessions that routing, the owners of inboxes, and others at the table of
  handlers can lead to;
* `Handlers.without` — handlers of which one is not there; `Session.outcome_without` — **nobody else notices**;
* `Session.push_routed` — **a push takes out the handler that it is for, and settles it alone**.
-/

namespace Hostlink

namespace Push

/-! ## What a push means -/

/-- Its event is one of those that name their handler, and it does. -/
def Names (p : Push) (name : String) : Prop :=
  (p.event = hotkeyCaptured ∨ p.event = fileSelect) ∧ p.data.get? "name" = some (.string name)

/-- A key combination as a value. -/
def capture (value display : String) : Json := .object [("displayValue", .string display), ("value", .string value)]

/-- Whom a push is for, and what it settles that handler with. -/
inductive Means (p : Push) : String → Settlement → Prop
  | hotkey {name value : String} (hevent : p.event = hotkeyCaptured)
      (hname : p.data.get? "name" = some (.string name))
      (hvalue : p.data.get? "value" = some (.string value)) (hne : value ≠ "") :
      Means p name (.ok (capture value ((text? p.data "displayValue").getD "")))
  | noHotkey {name : String} (hevent : p.event = hotkeyCaptured)
      (hname : p.data.get? "name" = some (.string name))
      (hnone : ∀ value, p.data.get? "value" = some (.string value) → value = "") :
      Means p name (.error (.dismissed name))
  | file {name path : String} (hevent : p.event = fileSelect)
      (hname : p.data.get? "name" = some (.string name))
      (hpath : p.data.get? "path" = some (.string path)) (hne : path ≠ "") : Means p name (.ok (.string path))
  | noFile {name : String} (hevent : p.event = fileSelect)
      (hname : p.data.get? "name" = some (.string name))
      (hnone : ∀ path, p.data.get? "path" = some (.string path) → path = "") :
      Means p name (.error (.dismissed name))
  /-- Any other push is for the handler that has the name of its event. -/
  | pair {value display : String} (hother : ∀ name, ¬ p.Names name)
      (hvalue : p.data.get? "value" = some (.string value)) (htrue : (Json.string value).isTruthy)
      (hdisplay : p.data.get? "displayValue" = some (.string display)) : Means p p.event (.ok (capture value display))
  | plain {value : Json} (hother : ∀ name, ¬ p.Names name)
      (hvalue : p.data.get? "value" = some value) (htrue : value.isTruthy)
      (hplain : ∀ text display, value = .string text → p.data.get? "displayValue" ≠ some (.string display)) :
      Means p p.event (.ok value)
  | nothing (hother : ∀ name, ¬ p.Names name)
      (hnone : ∀ value, p.data.get? "value" = some value → value.isTruthy = false) :
      Means p p.event (.error (.dismissed p.event))

theorem text?_eq_some {data : Json} {key text : String} :
    text? data key = some text ↔ data.get? key = some (.string text) := by
  rw [text?, Option.bind_eq_some_iff]
  constructor
  · rintro ⟨v, hv, htext⟩
    cases v with
    | string s => rw [hv, Option.some.inj htext]
    | _ => cases htext
  · exact fun h => ⟨_, h, rfl⟩

theorem text?_eq_none {data : Json} {key : String} :
    text? data key = none ↔ ∀ text, data.get? key ≠ some (.string text) := by
  rw [Option.eq_none_iff_forall_ne_some]
  exact forall_congr' fun text => not_congr text?_eq_some

theorem nonEmpty?_eq_some {data : Json} {key text : String} :
    nonEmpty? data key = some text ↔ data.get? key = some (.string text) ∧ text ≠ "" := by
  rw [nonEmpty?, Option.filter_eq_some_iff, text?_eq_some]
  simp

theorem nonEmpty?_eq_none {data : Json} {key : String} :
    nonEmpty? data key = none ↔ ∀ text, data.get? key = some (.string text) → text = "" := by
  rw [Option.eq_none_iff_forall_ne_some]
  refine forall_congr' fun text => ?_
  rw [Ne, nonEmpty?_eq_some]
  exact not_and_not_right

theorem toJson_hotkey (value display : String) : (Hotkey.mk value display).toJson = capture value display := by
  have hlt : "displayValue" < "value" := by decide
  simp [Hotkey.toJson, Json.ofMembers, Json.Members.ofList, Json.Members.insert, capture, hlt]

end Push

namespace Router

open Push (text? text?_eq_some text?_eq_none nonEmpty?_eq_some nonEmpty?_eq_none hotkeyCaptured fileSelect)

variable {p : Push} {name : String}

theorem addressee_hotkey (hevent : p.event = hotkeyCaptured) (hname : p.data.get? "name" = some (.string name)) :
    addressee p = (name, (Push.nonEmpty? p.data "value").map fun value =>
      Push.capture value ((text? p.data "displayValue").getD "")) := by
  rw [addressee, Push.classify, text?_eq_some.mpr hname]
  simp only [if_pos hevent, Push.toJson_hotkey]

theorem addressee_file (hevent : p.event = fileSelect) (hname : p.data.get? "name" = some (.string name)) :
    addressee p = (name, (Push.nonEmpty? p.data "path").map .string) := by
  have hne : p.event ≠ hotkeyCaptured := by
    rw [hevent]
    decide
  rw [addressee, Push.classify, text?_eq_some.mpr hname]
  simp only [if_neg hne, if_pos hevent]

theorem addressee_other (hother : ∀ name, ¬ p.Names name) : addressee p = (p.event, Push.legacyValue p.data) := by
  rw [addressee, Push.classify]
  cases hname : text? p.data "name" with
  | none => rfl
  | some name =>
    have hneither := not_or.mp fun hevent => hother name ⟨hevent, text?_eq_some.mp hname⟩
    simp only [if_neg hneither.1, if_neg hneither.2]

/-- What is found under `value` may be no text, or not be shown. -/
theorem legacyValue_of_plain {value : Json} (hvalue : p.data.get? "value" = some value) (htrue : value.isTruthy)
    (hplain : ∀ text display, value = .string text → p.data.get? "displayValue" ≠ some (.string display)) :
    Push.legacyValue p.data = some value := by
  rw [Push.legacyValue, hvalue, Option.filter_some_pos htrue, Option.map_some]
  cases value with
  | string text =>
    rw [text?_eq_none.mpr fun display => hplain text display rfl]
  | _ => rfl

theorem legacyValue_of_pair {value display : String} (hvalue : p.data.get? "value" = some (.string value))
    (htrue : (Json.string value).isTruthy) (hdisplay : p.data.get? "displayValue" = some (.string display)) :
    Push.legacyValue p.data = some (Push.capture value display) := by
  rw [Push.legacyValue, hvalue, Option.filter_some_pos htrue, Option.map_some, text?_eq_some.mpr hdisplay,
    ← Push.toJson_hotkey]

theorem legacyValue_of_nothing (hnone : ∀ value, p.data.get? "value" = some value → value.isTruthy = false) :
    Push.legacyValue p.data = none := by
  rw [Push.legacyValue, Option.map_eq_none_iff, Option.filter_eq_none_iff]
  intro value hvalue
  simp [hnone value hvalue]

/-- Every push means something. -/
theorem means_addressee (p : Push) : p.Means (addressee p).1 (settlementOf (addressee p).1 (addressee p).2) := by
  by_cases hnames : ∃ name, p.Names name
  · obtain ⟨name, hevent | hevent, hname⟩ := hnames
    · rw [addressee_hotkey hevent hname]
      cases hvalue : Push.nonEmpty? p.data "value" with
      -- an empty text counts as none, for hotkeys as for files
      | none => exact .noHotkey hevent hname (nonEmpty?_eq_none.mp hvalue)
      | some value => exact .hotkey hevent hname (nonEmpty?_eq_some.mp hvalue).1 (nonEmpty?_eq_some.mp hvalue).2
    · rw [addressee_file hevent hname]
      cases hpath : Push.nonEmpty? p.data "path" with
      | none => exact .noFile hevent hname (nonEmpty?_eq_none.mp hpath)
      | some path => exact .file hevent hname (nonEmpty?_eq_some.mp hpath).1 (nonEmpty?_eq_some.mp hpath).2
  · -- the older formats are left, and there the display counts only beside a text
    have hother : ∀ name, ¬ p.Names name := fun name hname => hnames ⟨name, hname⟩
    rw [addressee_other hother]
    by_cases hvalue : ∃ value, p.data.get? "value" = some value ∧ value.isTruthy
    · obtain ⟨value, hvalue, htrue⟩ := hvalue
      by_cases hpair : ∃ text display, value = .string text ∧ p.data.get? "displayValue" = some (.string display)
      · obtain ⟨text, display, rfl, hdisplay⟩ := hpair
        rw [legacyValue_of_pair hvalue htrue hdisplay]
        exact .pair hother hvalue htrue hdisplay
      · have hplain : ∀ text display, value = .string text →
            p.data.get? "displayValue" ≠ some (.string display) :=
          fun text display htext hdisplay => hpair ⟨text, display, htext, hdisplay⟩
        rw [legacyValue_of_plain hvalue htrue hplain]
        exact .plain hother hvalue htrue hplain
    · have hnone : ∀ value, p.data.get? "value" = some value → value.isTruthy = false :=
        fun value hfound => Bool.eq_false_iff.mpr fun htrue => hvalue ⟨value, hfound, htrue⟩
      rw [legacyValue_of_nothing hnone]
      exact .nothing hother hnone

/-- **A push means one thing**: it is for its addressee, and brings what that is settled with. -/
theorem means_iff {v : Settlement} :
    p.Means name v ↔ name = (addressee p).1 ∧ v = settlementOf (addressee p).1 (addressee p).2 := by
  constructor
  · intro h
    cases h with
    | hotkey hevent hname hvalue hne =>
      rw [addressee_hotkey hevent hname, nonEmpty?_eq_some.mpr ⟨hvalue, hne⟩]
      exact ⟨rfl, rfl⟩
    | noHotkey hevent hname hnone =>
      rw [addressee_hotkey hevent hname, nonEmpty?_eq_none.mpr hnone]
      exact ⟨rfl, rfl⟩
    | file hevent hname hpath hne =>
      rw [addressee_file hevent hname, nonEmpty?_eq_some.mpr ⟨hpath, hne⟩]
      exact ⟨rfl, rfl⟩
    | noFile hevent hname hnone =>
      rw [addressee_file hevent hname, nonEmpty?_eq_none.mpr hnone]
      exact ⟨rfl, rfl⟩
    | pair hother hvalue htrue hdisplay =>
      rw [addressee_other hother, legacyValue_of_pair hvalue htrue hdisplay]
      exact ⟨rfl, rfl⟩
    | plain hother hvalue htrue hplain =>
      rw [addressee_other hother, legacyValue_of_plain hvalue htrue hplain]
      exact ⟨rfl, rfl⟩
    | nothing hother hnone =>
      rw [addressee_other hother, legacyValue_of_nothing hnone]
      exact ⟨rfl, rfl⟩
  · -- the other way, every push means something, so the reading it has is the one that is given
    rintro ⟨rfl, rfl⟩
    exact means_addressee p

end Router

/-! ## Handlers of which one is not there -/

namespace Handlers

/-- The same handlers, but for that of a token. -/
def without (h : Handlers) (gone : Option Nat) : Handlers :=
  { h with waiting := h.waiting.filter fun x => some x.token ≠ gone }

variable {h : Handlers} {gone : Option Nat}

theorem mem_without {x : Handler} : x ∈ (h.without gone).waiting ↔ x ∈ h.waiting ∧ some x.token ≠ gone := by
  simp [without]

theorem without_none (h : Handlers) : h.without none = h := by
  have hall : h.waiting.filter (fun x => some x.token ≠ none) = h.waiting :=
    List.filter_eq_self.mpr fun x _ => by simp
  rw [without, hall]

theorem without_erase (h : Handlers) (gone : Option Nat) (name : String) :
    (h.without gone).erase name = (h.erase name).without gone := by
  simp only [without, erase, List.filter_filter, Bool.and_comm]

/-- A token that was given out is not given out again. -/
theorem without_register (hlt : ∀ n ∈ gone, n < h.count) (name : String) :
    ((h.without gone).register name).2.2 = ((h.register name).2.2).without gone := by
  have hnew : some h.count ≠ gone := fun heq => Nat.lt_irrefl _ (hlt h.count heq.symm)
  have hwaiting : ((h.register name).2.2.without gone).waiting =
      ((h.erase name).without gone).waiting ++ [⟨name, h.count⟩] := by
    simp [register, take, without, hnew]
  show (⟨h.count + 1, ((h.without gone).erase name).waiting ++ [⟨name, h.count⟩]⟩ : Handlers) = _
  rw [without_erase, ← hwaiting]
  rfl

theorem Sound.without (hs : h.Sound) (gone : Option Nat) : (h.without gone).Sound :=
  ⟨fun x hx => hs.token_lt x (mem_without.mp hx).1, hs.ordered.filter _, hs.apart.filter _⟩

/-- Whoever is there is found as before. -/
theorem find?_without (hs : h.Sound) (name : String) {x : Handler} :
    (h.without gone).find? name = some x ↔ h.find? name = some x ∧ some x.token ≠ gone := by
  rw [(hs.without gone).find?_eq_some_iff, hs.find?_eq_some_iff, mem_without]
  exact and_right_comm

/-- The handler of a name stands between those of other names. -/
theorem Sound.split (hs : h.Sound) {name : String} {x : Handler} (hx : h.find? name = some x) :
    ∃ front back, h.waiting = front ++ x :: back ∧ h.erase name = { h with waiting := front ++ back } := by
  obtain ⟨hmem, rfl⟩ := find?_eq_some hx
  obtain ⟨front, back, hsplit, herase, -⟩ := split_of_keys (List.pairwise_map.mpr hs.apart) hmem
  exact ⟨front, back, hsplit, congrArg (Handlers.mk h.count) herase⟩

/-- To take out the handler of a name is to leave out that of its token. -/
theorem Sound.erase_eq_without (hs : h.Sound) {name : String} {x : Handler} (hx : h.find? name = some x) :
    h.erase name = h.without (some x.token) := by
  obtain ⟨hmem, rfl⟩ := find?_eq_some hx
  have hsame : h.waiting.filter (·.name ≠ x.name) = h.waiting.filter fun y => some y.token ≠ some x.token := by
    refine List.filter_congr fun y hy => decide_eq_decide.mpr (not_congr ⟨fun hname => ?_, fun htoken => ?_⟩)
    · rw [hs.eq_of_name hy hmem hname]
    · rw [hs.eq_of_token hy hmem (Option.some.inj htoken)]
  rw [Handlers.erase, hsame]
  rfl

end Handlers

namespace Router

/-- What an operation makes of handlers, it makes of them when one is not there. -/
theorem Op.onHandlers_without {h : Handlers} {gone : Option Nat} (hlt : ∀ n ∈ gone, n < h.count) (op : Op) :
    op.onHandlers (h.without gone) = (op.onHandlers h).without gone := by
  cases op with
  | register name => exact Handlers.without_register hlt name
  | dispatch p => exact Handlers.without_erase h gone _
  | _ => rfl

theorem Op.count_le_onHandlers (h : Handlers) (op : Op) : h.count ≤ (op.onHandlers h).count := by
  cases op with
  | register name => exact Nat.le_succ _
  | _ => exact Nat.le_refl _

/-- Who is there is told the same when another is not. -/
theorem Op.tells_without {h : Handlers} (hs : h.Sound) {gone : Option Nat} {n : Nat} (hn : some n ≠ gone) (op : Op)
    (box : Inbox) : op.tells (h.without gone) n box = op.tells h n box := by
  have hfind : ∀ name, (h.without gone).find? name = some ⟨name, n⟩ ↔ h.find? name = some ⟨name, n⟩ :=
    fun name => (Handlers.find?_without hs name).trans (and_iff_left hn)
  cases op with
  | register name =>
    simp only [Op.tells, hfind]
    rfl
  | dispatch p => simp only [Op.tells, hfind]
  | _ => rfl

end Router

namespace Router.Session

/-! ## Sessions that can be reached -/

/-- What the operations of a router and the owners of inboxes can lead to, and others who take out handlers: they
settle them or drop them. -/
inductive Reached (timing : PushTiming) (runtime : Bool) : Session → Prop
  | new : Reached timing runtime (new timing runtime)
  | step {s : Session} (hs : Reached timing runtime s) (op : Op) : Reached timing runtime (s.step op).2
  | takeOut {s : Session} (hs : Reached timing runtime s) (name : String) :
      Reached timing runtime { s with router := { s.router with handlers := (s.router.handlers.take name).2 } }
  | send {s : Session} (hs : Reached timing runtime s) {n : Nat}
      (hout : ∀ x ∈ s.router.handlers.waiting, x.token ≠ n) (hlate : ∀ d ∈ s.deferred, d.token ≠ n) (v : Settlement) :
      Reached timing runtime { s with inboxes := s.inboxes.deliver n v }
  | hangUp {s : Session} (hs : Reached timing runtime s) {n : Nat}
      (hout : ∀ x ∈ s.router.handlers.waiting, x.token ≠ n) (hlate : ∀ d ∈ s.deferred, d.token ≠ n) :
      Reached timing runtime { s with inboxes := s.inboxes.hangUp n }

/-- Who waits has been told nothing, though its owner may have gone. -/
def Untold (s : Session) : Prop :=
  ∀ x ∈ s.router.handlers.waiting, s.inboxes.peek x.token = .waiting ∨ s.inboxes.peek x.token = .dropped

variable {s t : Session} {n : Nat}

/-- A push tells nobody but its handler. -/
theorem peek_dispatch_of_ne (p : Push)
    (hne : ∀ x, s.router.handlers.find? (addressee p).1 = some x → x.token ≠ n) :
    (s.step (.dispatch p)).2.inboxes.peek n = s.inboxes.peek n := by
  obtain ⟨r, -, hstep⟩ := step_dispatch s p
  rw [hstep]
  cases hx : s.router.handlers.find? (addressee p).1 with
  | none => rfl
  | some x =>
    dsimp only
    rcases settle_cases { s with router := r } ⟨x.token, settlementOf (addressee p).1 (addressee p).2⟩ with h | h
    · rw [h]
      exact (Inboxes.peek_deliver ..).trans (if_neg (hne x hx))
    · rw [h]

theorem Untold.step (hu : s.Untold) (hs : s.Sound) (op : Op) : (s.step op).2.Untold := by
  intro x hx
  rw [handlers_step] at hx
  cases op with
  | register name =>
    rw [peek_register hs, Op.tells]
    rcases List.mem_append.mp hx with hx | hx
    · -- an older one, whose place was not taken
      obtain ⟨hx, hname⟩ := (Handlers.mem_erase _ _).mp hx
      rw [if_neg (Nat.ne_of_lt (hs.handlers.token_lt x hx)), if_neg]
      · exact hu x hx
      · intro hfind
        obtain ⟨hmem, -⟩ := Handlers.find?_eq_some hfind
        exact hname (congrArg Handler.name (hs.handlers.eq_of_token hx hmem rfl))
    · obtain rfl := List.mem_singleton.mp hx
      have hdropped : s.inboxes.peek s.router.handlers.count = .dropped :=
        Inboxes.peek_of_length_le (Nat.le_of_eq hs.length_eq)
      rw [if_pos rfl, hdropped]
      exact .inl rfl
  | dispatch p =>
    obtain ⟨hx, hname⟩ := (Handlers.mem_erase _ _).mp hx
    rw [peek_dispatch_of_ne p fun y hy htoken => ?_]
    · exact hu x hx
    · obtain ⟨hmem, hyname⟩ := Handlers.find?_eq_some hy
      exact hname (hs.handlers.eq_of_token hx hmem htoken.symm ▸ hyname)
  | tick =>
    have hsame : (s.step .tick).2.inboxes.peek x.token = s.inboxes.peek x.token :=
      Delivery.peek_makeAll_of_ne (hs.apart x hx)
    rw [hsame]
    exact hu x hx
  | read m =>
    have hread : (s.step (.read m)).2.inboxes.peek x.token = _ := Inboxes.peek_read ..
    rw [hread]
    rcases hu x hx with hbox | hbox <;> rw [hbox] <;> simp [Inbox.afterRead]
  | drop m =>
    have hdrop : (s.step (.drop m)).2.inboxes.peek x.token = _ := Inboxes.peek_drop ..
    rw [hdrop]
    split
    · exact .inr rfl
    · exact hu x hx
  | _ => exact hu x hx

theorem Reached.sound_untold {timing : PushTiming} {runtime : Bool} (hs : Reached timing runtime s) :
    s.Sound ∧ s.Untold := by
  induction hs with
  | new => exact ⟨sound_new timing runtime, fun x hx => absurd hx List.not_mem_nil⟩
  | step _ op ih => exact ⟨ih.1.step op, ih.2.step ih.1 op⟩
  | takeOut _ name ih => exact ⟨ih.1.takeOut rfl, fun x hx => ih.2 x ((Handlers.mem_erase _ _).mp hx).1⟩
  | send _ hout hlate v ih =>
    refine ⟨⟨ih.1.handlers, (Inboxes.length_deliver ..).trans ih.1.length_eq, ih.1.late_lt, ih.1.apart⟩,
      fun x hx => ?_⟩
    rw [Inboxes.peek_deliver, if_neg (hout x hx).symm]
    exact ih.2 x hx
  | hangUp _ hout hlate ih =>
    refine ⟨⟨ih.1.handlers, (Inboxes.length_hangUp ..).trans ih.1.length_eq, ih.1.late_lt, ih.1.apart⟩,
      fun x hx => ?_⟩
    rw [Inboxes.peek_hangUp, if_neg (hout x hx).symm]
    exact ih.2 x hx

/-! ## What owners receive later -/

theorem Sound.run (hs : s.Sound) (ops : List Op) : (s.run ops).Sound := by
  induction ops using List.reverseRecOn with
  | nil => exact hs
  | append_singleton ops op ih =>
    rw [run_concat]
    exact ih.step op

/-- What has arrived, or is on its way, is what its owner receives, whatever happens later. -/
theorem outcome_of_arrived (hs : s.Sound) {v : Settlement} (harrived : s.arrived.peek n = .holds v) {later : List Op}
    (hdrop : .drop n ∉ later) : s.outcome n later = .holds v := by
  induction later using List.reverseRecOn with
  | nil =>
    rw [outcome_eq]
    exact harrived
  | append_singleton later op ih =>
    have hop : op ≠ .drop n := fun heq => hdrop (by simp [heq])
    rw [outcome_concat (hs.run later) hop, ih fun hmem => hdrop (List.mem_append_left _ hmem), tells_holds]

/-- Handlers of which one is not there stay the same but for that one. -/
theorem handlers_run_without {gone : Option Nat} (hw : s.router.handlers = t.router.handlers.without gone)
    (hlt : ∀ m ∈ gone, m < t.router.handlers.count) (ops : List Op) :
    (s.run ops).router.handlers = (t.run ops).router.handlers.without gone ∧
      ∀ m ∈ gone, m < (t.run ops).router.handlers.count := by
  induction ops using List.reverseRecOn with
  | nil => exact ⟨hw, hlt⟩
  | append_singleton ops op ih =>
    obtain ⟨hhandlers, hcount⟩ := ih
    rw [run_concat, run_concat, handlers_step, handlers_step, hhandlers]
    exact ⟨op.onHandlers_without hcount, fun m hm => Nat.lt_of_lt_of_le (hcount m hm) (op.count_le_onHandlers _)⟩

/-- **Nobody else notices** that a handler is not there, whoever registers under its name later. -/
theorem outcome_without (hs : s.Sound) (ht : t.Sound) {gone : Option Nat}
    (hw : s.router.handlers = t.router.handlers.without gone) (hlt : ∀ m ∈ gone, m < t.router.handlers.count)
    (hn : some n ≠ gone) (harrived : s.arrived.peek n = t.arrived.peek n) {later : List Op}
    (hdrop : .drop n ∉ later) : s.outcome n later = t.outcome n later := by
  induction later using List.reverseRecOn with
  | nil =>
    rw [outcome_eq, outcome_eq]
    exact harrived
  | append_singleton later op ih =>
    have hop : op ≠ .drop n := fun heq => hdrop (by simp [heq])
    have hbefore := ih fun hmem => hdrop (List.mem_append_left _ hmem)
    obtain ⟨hhandlers, -⟩ := handlers_run_without hw hlt later
    rw [outcome_concat (hs.run later) hop, outcome_concat (ht.run later) hop, hbefore, hhandlers,
      op.tells_without (ht.run later).handlers hn]

theorem outcome_dispatch (s : Session) (n : Nat) (p : Push) (later : List Op) :
    s.outcome n (.dispatch p :: later) = (s.step (.dispatch p)).2.outcome n later := rfl

/-! ## A push -/

/-- Who is not the handler of a push receives what it would without the push. -/
theorem outcome_other (hs : s.Sound) (p : Push)
    (hne : ∀ x, s.router.handlers.find? (addressee p).1 = some x → x.token ≠ n) {later : List Op}
    (hdrop : .drop n ∉ later) : s.outcome n (.dispatch p :: later) = s.outcome n later := by
  have harrived : (s.step (.dispatch p)).2.arrived.peek n = s.arrived.peek n := by
    rw [arrived_dispatch hs, Op.tells, if_neg fun hfind => hne _ hfind rfl]
  have hhandlers := handlers_step s (.dispatch p)
  rw [outcome_dispatch]
  cases hx : s.router.handlers.find? (addressee p).1 with
  | none =>
    rw [Op.onHandlers, Handlers.erase_of_find?_eq_none hx, ← Handlers.without_none s.router.handlers] at hhandlers
    exact outcome_without (hs.dispatch p) hs hhandlers (fun _ hm => by cases hm) (by simp) harrived hdrop
  | some x =>
    rw [Op.onHandlers, hs.handlers.erase_eq_without hx] at hhandlers
    refine outcome_without (hs.dispatch p) hs hhandlers (fun m hm => ?_) (fun heq => ?_) harrived hdrop
    · rw [← Option.some.inj hm]
      exact hs.handlers.token_lt x (Handlers.find?_eq_some hx).1
    · exact hne x hx (Option.some.inj heq).symm

/-- The handler of a push receives what the push brings, if its owner is there. -/
theorem outcome_own (hs : s.Sound) (hu : s.Untold) (p : Push) {x : Handler}
    (hx : s.router.handlers.find? (addressee p).1 = some x) (hheld : s.inboxes.peek x.token ≠ .dropped)
    {later : List Op} (hdrop : .drop x.token ∉ later) :
    s.outcome x.token (.dispatch p :: later) = .holds (settlementOf (addressee p).1 (addressee p).2) := by
  obtain ⟨hmem, hname⟩ := Handlers.find?_eq_some hx
  have hwaiting : s.arrived.peek x.token = .waiting :=
    (arrived_of_ne (hs.apart x hmem)).trans ((hu x hmem).resolve_right hheld)
  have harrived : (s.step (.dispatch p)).2.arrived.peek x.token =
      .holds (settlementOf (addressee p).1 (addressee p).2) := by
    have hself : s.router.handlers.find? (addressee p).1 = some ⟨(addressee p).1, x.token⟩ := by rw [hx, ← hname]
    rw [arrived_dispatch hs, Op.tells, if_pos hself, hwaiting]
    rfl
  exact outcome_of_arrived (hs.dispatch p) harrived hdrop

/-- **A push takes out the handler that it is for, and settles it alone.** Every push is for one name and brings
one settlement. If nobody waits under that name, all handlers stay, and all owners receive what they would without
the push. Else the handler of the name goes, and no other; the push answers the name; the owner of that handler
receives the settlement if it is still there, and all others, those who register under the name later among them,
receive what they would without the push. -/
theorem push_routed {timing : PushTiming} {runtime : Bool} {s : Session} (hs : Reached timing runtime s) (p : Push) :
    ∃ name v, (∀ name' v', p.Means name' v' ↔ name' = name ∧ v' = v) ∧
      (((∀ x ∈ s.router.handlers.waiting, x.name ≠ name) ∧
          (s.step (.dispatch p)).1 = .handler none ∧
          (s.step (.dispatch p)).2.router.handlers = s.router.handlers ∧
          ∀ n later, .drop n ∉ later → s.outcome n (.dispatch p :: later) = s.outcome n later) ∨
        ∃ x front back, x.name = name ∧ x.token < s.router.handlers.count ∧
          s.router.handlers.waiting = front ++ x :: back ∧
          (s.step (.dispatch p)).1 = .handler (some name) ∧
          (s.step (.dispatch p)).2.router.handlers = { s.router.handlers with waiting := front ++ back } ∧
          (∀ later, s.inboxes.peek x.token ≠ .dropped → .drop x.token ∉ later →
            s.outcome x.token (.dispatch p :: later) = .holds v) ∧
          ∀ n later, n ≠ x.token → .drop n ∉ later →
            s.outcome n (.dispatch p :: later) = s.outcome n later) := by
  obtain ⟨hsound, huntold⟩ := hs.sound_untold
  have hanswer := answer_dispatch s p
  have hhandlers := handlers_step s (.dispatch p)
  refine ⟨_, _, fun _ _ => means_iff, ?_⟩
  cases hx : s.router.handlers.find? (addressee p).1 with
  | none =>
    rw [hx] at hanswer
    rw [Op.onHandlers, Handlers.erase_of_find?_eq_none hx] at hhandlers
    -- nobody is taken out, so that no outcome can be another
    exact .inl ⟨Handlers.find?_eq_none.mp hx, hanswer, hhandlers,
      fun n later hdrop => outcome_other hsound p (fun x hfind => by rw [hx] at hfind; cases hfind) hdrop⟩
  | some x =>
    obtain ⟨hmem, hname⟩ := Handlers.find?_eq_some hx
    obtain ⟨front, back, hsplit, herase⟩ := hsound.handlers.split hx
    rw [hx] at hanswer
    rw [Op.onHandlers, herase] at hhandlers
    refine .inr ⟨x, front, back, hname, hsound.handlers.token_lt x hmem, hsplit, hanswer, hhandlers,
      fun later hheld hdrop => outcome_own hsound huntold p hx hheld hdrop, fun n later hn hdrop => ?_⟩
    -- whoever is taken out is the only one with his token
    refine outcome_other hsound p (fun y hy htoken => hn ?_) hdrop
    rw [hx] at hy
    rw [Option.some.inj hy, htoken]

/-- A handler has the name of an event, and a push of that event is for another, whose name is taken before the
settlement comes. -/
theorem push_routed_name_taken_again :
    let s := (new .nextTick true).run [.register "file-select", .register "pick"]
    let p : Push := ⟨"file-select", Json.ofMembers [("name", .string "pick"), ("path", .string "/a")]⟩
    let later : List Op := [.register "pick", .tick]
    Reached .nextTick true s ∧ p.Means "pick" (.ok (.string "/a")) ∧
      (s.step (.dispatch p)).2.router.handlers.waiting = [⟨"file-select", 0⟩] ∧
      .drop 1 ∉ later ∧ s.outcome 1 (.dispatch p :: later) = .holds (.ok (.string "/a")) ∧
      .drop 2 ∉ later ∧ s.outcome 2 (.dispatch p :: later) = .waiting := by
  intro s p later
  have hs : Reached .nextTick true s := (Reached.new.step (.register "file-select")).step (.register "pick")
  have hmeans : p.Means "pick" (.ok (.string "/a")) := .file rfl rfl rfl (by decide)
  have hdrop : ∀ n, Op.drop n ∉ later := by simp [later]
  obtain ⟨name, v, hiff, hnobody | ⟨x, front, back, hname, -, hsplit, -, hafter, hown, hothers⟩⟩ := push_routed hs p
  · obtain ⟨rfl, -⟩ := (hiff _ _).mp hmeans
    exact absurd rfl (hnobody.1 ⟨"pick", 1⟩ (.tail _ (.head _)))
  · obtain ⟨rfl, rfl⟩ := (hiff _ _).mp hmeans
    have hx : x ∈ [⟨"file-select", 0⟩, ⟨"pick", 1⟩] := by
      rw [show [⟨"file-select", 0⟩, ⟨"pick", 1⟩] = front ++ x :: back from hsplit]
      simp
    obtain rfl | rfl : x = ⟨"file-select", 0⟩ ∨ x = ⟨"pick", 1⟩ := by simpa using hx
    · exact absurd hname (by decide)
    · exact ⟨hs, hmeans, rfl, hdrop 1, hown later (fun h => by cases h) (hdrop 1), hdrop 2,
        hothers 2 later (by decide) (hdrop 2)⟩

end Router.Session

end Hostlink
