import Hostlink.Config
import Hostlink.Push
import Hostlink.Records
import Hostlink.Proofs.Json.Record
import Mathlib.Data.List.Permutation

/-!
# Records stay what they are

A record that is read is written as an object and read again. What is missing is read as a default, and a default is
written as what is read as that default; so the record is the same. The settings also keep the members that nobody
knows.

* `Json.Format.Stable` — what is read of a value is read again of what it is written as;
* `Settings.member` — what a page's settings hold under a key, and `Settings.Sound`;
* `Settings.holds_member`, `Settings.holds_env` — a member is put where it is looked for;
* `Settings.members_kept`, `Settings.ofJson_toJson` — settings are lost neither way;
* `records_stable` — **records stay what they are, and no setting is lost**.
-/

namespace Hostlink

open Json (Format Record Members)

/-- What is read of a value is read again of the value that it is written as. -/
def Json.Format.Stable {α : Type} (f : Format α) (write : α → Json) : Prop :=
  ∀ v a, f.decode v = .ok a → f.decode (write a) = .ok a

theorem Json.Format.decode_eq_ok {α : Type} {f : Format α} {v : Json} {a : α} :
    f.decode v = .ok a ↔ f.ofJson v = .ok a := by
  rw [decode]
  cases f.ofJson v <;> simp

/-- What is written is read, whatever it is. -/
theorem Json.Format.Stable.of {α : Type} {f : Format α} {write : α → Json} (h : ∀ a, f.ofJson (write a) = .ok a) :
    f.Stable write :=
  fun _ a _ => decode_eq_ok.mpr (h a)

/-! ## Records of fields -/

-- What is written is an object of so many members, and is read by evaluation. A field that is written in two ways, or
-- left out, is one case for each.

theorem Env.ofJson_toJson (e : Env) : Env.record.ofJson e.toJson = .ok e := by
  cbv

theorem Shortcut.ofJson_toJson (r : Shortcut) : Shortcut.record.ofJson r.toJson = .ok r := by
  obtain ⟨id, name, keyword, cmd, icon, isDefaultSearch⟩ := r
  cases icon <;> cbv

theorem ShortcutDraft.ofJson_toJson (r : ShortcutDraft) : ShortcutDraft.record.ofJson r.toJson = .ok r := by
  obtain ⟨name, keyword, cmd, icon, isDefaultSearch⟩ := r
  cases icon <;> cbv

theorem Extension.ofJson_toJson (r : Extension) : Extension.record.ofJson r.toJson = .ok r := by
  obtain ⟨id, url, name, isEnabled, updatedAt, preferences⟩ := r
  cases updatedAt <;> cbv

theorem UpdateCheck.ofJson_toJson (r : UpdateCheck) : UpdateCheck.record.ofJson r.toJson = .ok r := by
  obtain ⟨hasUpdate, commit⟩ := r
  cases commit <;> cbv

theorem Hotkey.ofJson_toJson (h : Hotkey) : Hotkey.record.ofJson h.toJson = .ok h := by
  cbv

theorem Push.ofJson_toJson (p : Push) : Push.record.ofJson p.toJson = .ok p := by
  cbv

theorem Transport.ofJson_name (t : Transport) : Transport.format.ofJson (.string t.name) = .ok t := by
  cases t <;> rfl

theorem Encoding.ofJson_name (e : Encoding) : Encoding.format.ofJson (.string e.name) = .ok e := by
  cases e <;> rfl

theorem PushTiming.ofJson_name (p : PushTiming) : PushTiming.format.ofJson (.string p.name) = .ok p := by
  cases p <;> rfl

/-- The choices of a set-up are read by their names, and a limit only if there is one. -/
theorem Config.ofJson_toJson (c : Config) : Config.record.ofJson c.toJson = .ok c := by
  have htransport := c.transport.ofJson_name
  have hencoding := c.encoding.ofJson_name
  have htiming := c.pushTiming.ofJson_name
  obtain ⟨transport, encoding, timeout, stem, key, base, timing⟩ := c
  -- a limit is written only where there is one, so that the members differ
  cases timeout with
  | none =>
    have hobject : (Config.mk transport encoding none stem key base timing).toJson =
        .object [("baseUrl", .string base), ("callbackKey", .string key), ("callbackPrefix", .string stem),
          ("encoding", .string encoding.name), ("pushSettlement", .string timing.name),
          ("transport", .string transport.name)] := by
      cbv
    rw [hobject]
    show (List.foldlM record.putMember ⟨[], fetch⟩ _ >>= _) = _
    rw [Record.foldlM_field rfl (by decide) rfl, Record.foldlM_field rfl (by decide) rfl,
      Record.foldlM_field rfl (by decide) rfl, Record.foldlM_field rfl (by decide) hencoding,
      Record.foldlM_field rfl (by decide) htiming, Record.foldlM_field rfl (by decide) htransport]
    rfl
  | some ms =>
    have hobject : (Config.mk transport encoding (some ms) stem key base timing).toJson =
        .object [("baseUrl", .string base), ("callbackKey", .string key), ("callbackPrefix", .string stem),
          ("encoding", .string encoding.name), ("pushSettlement", .string timing.name), ("timeoutMs", Json.int ms),
          ("transport", .string transport.name)] := by
      cbv
    rw [hobject]
    show (List.foldlM record.putMember ⟨[], fetch⟩ _ >>= _) = _
    rw [Record.foldlM_field rfl (by decide) rfl, Record.foldlM_field rfl (by decide) rfl,
      Record.foldlM_field rfl (by decide) rfl, Record.foldlM_field rfl (by decide) hencoding,
      Record.foldlM_field rfl (by decide) htiming, Record.foldlM_field rfl (by decide) rfl,
      Record.foldlM_field rfl (by decide) htransport]
    rfl

/-! ## Settings -/

theorem Json.Format.text_eq_ok {v : Json} {s : String} (h : text.ofJson v = .ok s) : v = .string s := by
  cases v with
  | string s' => rw [Except.ok.inj h]
  | _ => cases h

theorem Json.Format.flag_eq_ok {v : Json} {b : Bool} (h : flag.ofJson v = .ok b) : v = .bool b := by
  cases v with
  | bool b' => rw [Except.ok.inj h]
  | _ => cases h

namespace Settings

/-- The members of the fields. -/
def known (r : Settings) : Members :=
  [("hotkey-show-app", .string r.hotkey), ("show-indicator-icon", .bool r.showIndicator),
    ("show-recent-apps", r.showRecentApps), ("clear-previous-query", .bool r.clearPreviousQuery),
    ("theme-name", .string r.theme), ("blacklisted-desktop-dirs", .string r.blacklist),
    ("autostart-enabled", .bool r.autostart), ("env", r.env.toJson)]

/-- What the settings hold under a key. -/
def member (r : Settings) (key : String) : Option Json :=
  (Members.lookup key r.known).or (Members.lookup key r.extra)

/-- The members that nobody knows are in order, and none has the name of a field. -/
structure Sound (r : Settings) : Prop where
  ordered : r.extra.Ordered
  unknown : ∀ f ∈ record.fields, Members.lookup f.name r.extra = none

section

variable {x y r : Settings} {f : Json.Field Settings} {key : String} {v : Json}

/-! ### One member -/

/-- A field takes its member as it is; the facts on the host are the only ones that are taken apart. -/
theorem member_field (hf : f ∈ record.fields) (hread : f.ofJson v x = .ok y) (hkey : key ≠ "env") :
    y.member key = if key = f.name then some v else x.member key := by
  simp only [record, List.mem_cons, List.not_mem_nil, or_false] at hf
  rcases hf with rfl | rfl | rfl | rfl | rfl | rfl | rfl | rfl <;>
    obtain ⟨a, ha, rfl⟩ := Json.map_eq_ok hread
  · obtain rfl := Format.text_eq_ok ha
    by_cases h : key = "hotkey-show-app" <;> simp [member, known, Json.Field.withDefault, Members.lookup_cons, h]
  · obtain rfl := Format.flag_eq_ok ha
    by_cases h : key = "show-indicator-icon" <;> simp [member, known, Json.Field.withDefault, Members.lookup_cons, h]
  · obtain rfl := Except.ok.inj ha
    by_cases h : key = "show-recent-apps" <;> simp [member, known, Json.Field.withDefault, Members.lookup_cons, h]
  · obtain rfl := Format.flag_eq_ok ha
    by_cases h : key = "clear-previous-query" <;> simp [member, known, Json.Field.withDefault, Members.lookup_cons, h]
  · obtain rfl := Format.text_eq_ok ha
    by_cases h : key = "theme-name" <;> simp [member, known, Json.Field.withDefault, Members.lookup_cons, h]
  · obtain rfl := Format.text_eq_ok ha
    by_cases h : key = "blacklisted-desktop-dirs" <;> simp [member, known, Json.Field.withDefault, Members.lookup_cons, h]
  · obtain rfl := Format.flag_eq_ok ha
    by_cases h : key = "autostart-enabled" <;> simp [member, known, Json.Field.withDefault, Members.lookup_cons, h]
  · simp [member, known, Json.Field.withDefault, Members.lookup_cons, hkey]

theorem extra_field (hf : f ∈ record.fields) (hread : f.ofJson v x = .ok y) : y.extra = x.extra := by
  simp only [record, List.mem_cons, List.not_mem_nil, or_false] at hf
  rcases hf with rfl | rfl | rfl | rfl | rfl | rfl | rfl | rfl <;>
    · obtain ⟨a, -, rfl⟩ := Json.map_eq_ok hread
      rfl

theorem keys_known (r : Settings) : r.known.map (·.1) = record.fields.map (·.name) := rfl

/-- Another name is that of no field. -/
theorem lookup_known_eq_none : Members.lookup key r.known = none ↔ record.field? key = none := by
  rw [Members.lookup_eq_none_iff, keys_known, Record.field?, List.find?_eq_none, List.mem_map, not_exists]
  refine forall_congr' fun f => ?_
  rw [not_and, decide_eq_true_eq]

/-- A member of another name is kept under its key. -/
theorem member_extra (hnone : record.field? key = none) (k : String) :
    (record.putExtra key v x).member k = if k = key then some v else x.member k := by
  show (Members.lookup k x.known).or (Members.lookup k (x.extra.insert key v)) = _
  rw [Members.lookup_insert]
  by_cases hk : k = key
  · rw [if_pos hk, if_pos hk, hk, lookup_known_eq_none.mpr hnone, Option.none_or]
  · rw [if_neg hk, if_neg hk, member]

/-- **What is put under a key is found there**, as it was. -/
theorem holds_member (hkey : key ≠ "env") : record.Holds key (member · key) fun v => .ok (some v) := by
  constructor
  · intro d d' v h
    apply congrArg Except.ok
    rcases Record.putMember_cases h with ⟨f, hf, hread⟩ | ⟨hnone, heq⟩
    · obtain ⟨hmem, hname⟩ := Record.field?_name hf
      rw [member_field hmem hread hkey, if_pos hname.symm]
    · rw [heq, member_extra hnone, if_pos rfl]
  · intro d d' m hm h
    rcases Record.putMember_cases h with ⟨f, hf, hread⟩ | ⟨hnone, heq⟩
    · obtain ⟨hmem, hname⟩ := Record.field?_name hf
      rw [member_field hmem hread hkey, if_neg (hname.trans_ne hm).symm]
    · rw [heq, member_extra hnone, if_neg hm.symm]

/-- **The facts on the host are read of their member.** -/
theorem holds_env : record.Holds "env" env Env.record.ofJson := by
  refine Record.holds_field (f := Env.record.format) rfl (fun _ _ => rfl) ?_ fun _ _ _ => rfl
  intro g hg hne
  simp only [record, List.mem_cons, List.not_mem_nil, or_false] at hg
  rcases hg with rfl | rfl | rfl | rfl | rfl | rfl | rfl | rfl
  case inr.inr.inr.inr.inr.inr.inr => exact absurd rfl hne
  all_goals exact Json.Field.keeps_withDefault fun _ _ => rfl

/-! ### All members -/

/-- Settings are read of an object only, and none of its members has to be there. -/
theorem ofJson_cases (hread : record.ofJson v = .ok r) :
    ∃ ms d, v = .object ms ∧ ms.foldlM record.putMember record.draft = .ok d ∧ d.record = r := by
  cases v with
  | object ms =>
    have hmembers : (ms.foldlM record.putMember record.draft >>= record.complete) = .ok r := hread
    cases hfold : ms.foldlM record.putMember record.draft with
    | error =>
      rw [hfold] at hmembers
      cases hmembers
    | ok d =>
      rw [hfold] at hmembers
      exact ⟨ms, d, rfl, hfold, Except.ok.inj hmembers⟩
  | _ => cases hread

/-- Settings that are read keep what nobody knows in order, and apart from the fields. -/
theorem sound_of_ofJson (hread : record.ofJson v = .ok r) : r.Sound := by
  obtain ⟨ms, d, -, hfold, rfl⟩ := ofJson_cases hread
  have hblank : blank.Sound := ⟨List.Pairwise.nil, fun _ _ => rfl⟩
  refine Record.foldlM_keeps (P := Sound) ?_ hblank hfold
  intro d d' m hd hput
  rcases Record.putMember_cases hput with ⟨f, hf, hread⟩ | ⟨hnone, heq⟩
  · have hextra := extra_field (Record.field?_name hf).1 hread
    exact ⟨hextra ▸ hd.ordered, fun g hg => hextra ▸ hd.unknown g hg⟩
  · rw [heq]
    refine ⟨hd.ordered.insert _ _, fun g hg => ?_⟩
    have hne : g.name ≠ m.1 := by simpa using List.find?_eq_none.mp hnone g hg
    show Members.lookup g.name (d.record.extra.insert m.1 m.2) = none
    rw [Members.lookup_insert, if_neg hne, hd.unknown g hg]

/-- The keys of settings are those of their fields and those of other names. -/
theorem nodup_members (hr : r.Sound) : ((r.known ++ r.extra).map (·.1)).Nodup := by
  rw [List.map_append, keys_known, List.nodup_append]
  refine ⟨by decide, hr.ordered.nodup_keys, ?_⟩
  rintro _ hknown key hextra rfl
  obtain ⟨f, hf, rfl⟩ := List.mem_map.mp hknown
  exact Members.lookup_eq_none_iff.mp (hr.unknown f hf) hextra

/-- What is written under a key is what the settings hold there. -/
theorem get?_toJson (hr : r.Sound) (key : String) : r.toJson.get? key = r.member key := by
  show Members.lookup key (Members.ofList (r.known ++ r.extra)) = _
  rw [Members.lookup_ofList_of_nodup (nodup_members hr), Members.lookup_append, member]

/-- **No setting is lost**: what stands under a key comes back under it. -/
theorem members_kept (hv : v.Canonical) (hread : record.ofJson v = .ok r) (hkey : key ≠ "env") {w : Json}
    (hw : v.get? key = some w) : r.toJson.get? key = some w := by
  rw [get?_toJson (sound_of_ofJson hread)]
  obtain ⟨ms, d, rfl, hfold, rfl⟩ := ofJson_cases hread
  have hkept := ((holds_member hkey).foldlM hv.1.nodup_keys hfold).1 w hw
  exact (Except.ok.inj hkept).symm

/-! ### Read again -/

/-- Settings are told apart by the facts on the host, and by what they hold under other keys. -/
theorem Sound.ext (hx : x.Sound) (hy : y.Sound) (henv : x.env = y.env)
    (hmember : ∀ key, key ≠ "env" → x.member key = y.member key) : x = y := by
  have hhotkey : x.hotkey = y.hotkey := Json.string.inj (Option.some.inj (hmember "hotkey-show-app" (by decide)))
  have hindicator : x.showIndicator = y.showIndicator :=
    Json.bool.inj (Option.some.inj (hmember "show-indicator-icon" (by decide)))
  have hrecent : x.showRecentApps = y.showRecentApps := Option.some.inj (hmember "show-recent-apps" (by decide))
  have hclear : x.clearPreviousQuery = y.clearPreviousQuery :=
    Json.bool.inj (Option.some.inj (hmember "clear-previous-query" (by decide)))
  have htheme : x.theme = y.theme := Json.string.inj (Option.some.inj (hmember "theme-name" (by decide)))
  have hblacklist : x.blacklist = y.blacklist :=
    Json.string.inj (Option.some.inj (hmember "blacklisted-desktop-dirs" (by decide)))
  have hautostart : x.autostart = y.autostart :=
    Json.bool.inj (Option.some.inj (hmember "autostart-enabled" (by decide)))
  -- what stands under a key that is no field is found in the rest only
  have hextra : x.extra = y.extra := by
    refine hx.ordered.ext hy.ordered fun key => ?_
    cases hfield : record.field? key with
    | some f =>
      obtain ⟨hf, rfl⟩ := Record.field?_name hfield
      rw [hx.unknown f hf, hy.unknown f hf]
    | none =>
      have hne : key ≠ "env" := by
        rintro rfl
        cases hfield
      have h := hmember key hne
      rwa [member, member, lookup_known_eq_none.mpr hfield, lookup_known_eq_none.mpr hfield, Option.none_or,
        Option.none_or] at h
  cases x
  cases y
  simp only [mk.injEq]
  exact ⟨hhotkey, hindicator, hrecent, hclear, htheme, hblacklist, hautostart, henv, hextra⟩

/-- Each member that is written is read. -/
theorem read_member (hr : r.Sound) {m : String × Json} (hm : m ∈ Members.ofList (r.known ++ r.extra))
    (hf : record.field? m.1 = some f) (x : Settings) : ∃ y, f.ofJson m.2 x = .ok y := by
  rcases List.mem_append.mp (Members.mem_of_mem_ofList hm) with hm | hm
  · simp only [known, List.mem_cons, List.not_mem_nil, or_false] at hm
    rcases hm with rfl | rfl | rfl | rfl | rfl | rfl | rfl | rfl <;> obtain rfl := Option.some.inj hf
    case inr.inr.inr.inr.inr.inr.inr =>
      show ∃ y, _ <$> Env.record.ofJson r.env.toJson = .ok y
      rw [Env.ofJson_toJson]
      exact ⟨_, rfl⟩
    all_goals exact ⟨_, rfl⟩
  · obtain ⟨hmem, hname⟩ := Record.field?_name hf
    have hnone := Members.lookup_eq_none_iff.mp (hr.unknown f hmem)
    exact absurd (List.mem_map_of_mem hm) (hname ▸ hnone)

/-- **Settings that are written are read again**, if what nobody knows is in order. -/
theorem ofJson_toJson (hr : r.Sound) : record.ofJson r.toJson = .ok r := by
  have hnodup := (Members.ordered_ofList (r.known ++ r.extra)).nodup_keys
  obtain ⟨d, hfold⟩ := Record.foldlM_ok (r := record) hnodup (d := record.draft) (fun _ _ => List.not_mem_nil)
    fun m hm f hf x => read_member hr hm hf x
  have hread : record.ofJson r.toJson = .ok d.record := by
    show ((Members.ofList (r.known ++ r.extra)).foldlM record.putMember record.draft >>= record.complete) = _
    rw [hfold]
    rfl
  have hlookup : ∀ key, Members.lookup key (Members.ofList (r.known ++ r.extra)) = r.member key := get?_toJson hr
  have henv : d.record.env = r.env := by
    have hput := (holds_env.foldlM hnodup hfold).1 r.env.toJson (hlookup "env")
    rw [Env.ofJson_toJson] at hput
    exact (Except.ok.inj hput).symm
  rw [hread]
  refine congrArg Except.ok ((sound_of_ofJson hread).ext hr henv fun key hkey => ?_)
  obtain ⟨hput, hleft⟩ := (holds_member hkey).foldlM hnodup hfold
  rw [hlookup] at hput hleft
  cases hmember : r.member key with
  | some w => exact (Except.ok.inj (hput w hmember)).symm
  | none =>
    have hknown := (Option.or_eq_none_iff.mp hmember).1
    rw [hleft hmember]
    show (Members.lookup key blank.known).or none = none
    rw [lookup_known_eq_none.mpr (lookup_known_eq_none.mp hknown), Option.none_or]

end

end Settings

/-! ## All records -/

/-- **Records stay what they are, and no setting is lost.** Whatever value a record is read of, the record is read again
of what it is written as. And whatever stands in a value that settings are read of, under any key but that of the facts
on the host, stands there again when they are written. -/
theorem records_stable :
    (Settings.record.format.Stable Settings.toJson ∧ Env.record.format.Stable Env.toJson ∧
      Shortcut.record.format.Stable Shortcut.toJson ∧ ShortcutDraft.record.format.Stable ShortcutDraft.toJson ∧
      Extension.record.format.Stable Extension.toJson ∧ UpdateCheck.record.format.Stable UpdateCheck.toJson ∧
      Hotkey.record.format.Stable Hotkey.toJson ∧ Push.record.format.Stable Push.toJson ∧
      Config.format.Stable Config.toJson) ∧
    ∀ v r, v.Canonical → Settings.record.format.decode v = .ok r →
      ∀ key ≠ "env", ∀ w, v.get? key = some w → r.toJson.get? key = some w := by
  have hsettings : Settings.record.format.Stable Settings.toJson := by
    intro v r hread
    apply Format.decode_eq_ok.mpr
    exact Settings.ofJson_toJson (Settings.sound_of_ofJson (Format.decode_eq_ok.mp hread))
  refine ⟨⟨hsettings, .of Env.ofJson_toJson, .of Shortcut.ofJson_toJson,
    .of ShortcutDraft.ofJson_toJson, .of Extension.ofJson_toJson, .of UpdateCheck.ofJson_toJson,
    .of Hotkey.ofJson_toJson, .of Push.ofJson_toJson, .of Config.ofJson_toJson⟩, ?_⟩
  intro v r hv hread key hkey w hw
  exact Settings.members_kept hv (Format.decode_eq_ok.mp hread) hkey hw

/-- Settings with a member that nobody knows, and a set-up whose transport is written the long way. -/
theorem records_stable_unknown :
    let v : Json := .object [("env", .object [("os", .string "linux")]), ("theme-name", .string "dark"), ("zoom", .null)]
    let r : Settings := { Settings.blank with theme := "dark", extra := [("zoom", .null)] }
    let w : Json := .object [("timeoutMs", .null), ("transport", .object [("scriptTag", .null)])]
    let c : Config := { Config.fetch with transport := .scriptTag }
    (v.Canonical ∧ Settings.record.format.decode v = .ok r ∧ Settings.record.format.decode r.toJson = .ok r ∧
      r.toJson.get? "zoom" = some .null) ∧
    Config.format.decode w = .ok c ∧ Config.format.decode c.toJson = .ok c := by
  intro v r w c
  have hv : v.Canonical := ⟨by decide, ⟨by decide, trivial, trivial⟩, trivial, trivial, trivial⟩
  have hread : Settings.record.format.decode v = .ok r := rfl
  have hconfig : Config.format.decode w = .ok c := rfl
  obtain ⟨⟨hsettings, -, -, -, -, -, -, -, hconfigs⟩, hkept⟩ := records_stable
  exact ⟨⟨hv, hread, hsettings v r hread, hkept v r hv hread "zoom" (by decide) .null rfl⟩, hconfig,
    hconfigs w c hconfig⟩

end Hostlink
