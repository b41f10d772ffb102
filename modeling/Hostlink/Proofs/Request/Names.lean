import Hostlink.Proofs.Request.Layouts

/-!
# The name of a request beside its arguments

In a layout of pairs the name of a request is one more pair, under a key that the set-up chooses. The key of
an argument is compared with it as it was given, and so it may become that key by the mark of its value.

* `Codec.Shadowed` — an argument that arrives under the key of the request's name;
* `Codec.decode_kept` — such an argument is taken for a name, and all others are read back;
* `Codec.Complete` — all requests arrive with their names and with all their arguments;
* `Codec.arguments_counted` — **which arguments are lost, and which set-ups lose any**.
-/

namespace Hostlink

open Request

namespace Request

@[simp] theorem size_namedArgs (pairs : List (String × Json)) : (namedArgs pairs).size = pairs.length := by
  unfold namedArgs
  split
  · next h => rw [h]; rfl
  · exact List.length_map ..

end Request

namespace Codec

variable {c : Codec} {args : Args} {path id url : String}

/-- A value that is no text, and whose key with the mark behind it is the key of the request's name. -/
def Shadowed (c : Codec) (p : String × Json) : Prop :=
  p.2.asString? = none ∧ p.1 ++ "_b64json" = c.callbackKey

instance (p : String × Json) : Decidable (c.Shadowed p) := inferInstanceAs (Decidable (_ ∧ _))

/-- An argument arrives under the key of the request's name by its mark only, for that key is not free. -/
theorem wireKey_eq_iff {p : String × Json} (hkey : p.1 ≠ c.callbackKey) :
    wireKey p.1 p.2 = c.callbackKey ↔ c.Shadowed p := by
  obtain ⟨key, v⟩ := p
  cases v with
  | string s => exact ⟨fun h => absurd h hkey, fun h => (by cases h.1)⟩
  | _ => exact ⟨fun h => ⟨rfl, h⟩, fun h => h.2⟩

/-- The arguments whose keys stay free are read back, and so is the name of the request. -/
theorem decode_kept (henc : c.encoding = .b64Json) (hbase : c.baseUrl = "prefs://") (hp : Url.PlainPath path)
    (hv : ∀ v ∈ args.values, v.Portable 127) (he : c.encode path args id = .ok url) :
    c.decode url = .ok ⟨path, namedArgs (c.kept args), some id⟩ := by
  obtain ⟨q, hq, rfl⟩ := encode_eq_ok he
  obtain ⟨hcarried, h⟩ := decodePairs_kept henc hv hq path
  rw [decode, splitUrl_url hbase hp hcarried, henc]
  exact h

/-- What is written of arguments counts as many as there are. -/
theorem size_eq (henc : c.encoding = .b64Json) (he : c.encode path args id = .ok url) :
    args.size = args.pairs.length := by
  obtain ⟨q, hq, -⟩ := encode_eq_ok he
  rw [Args.size, (pairsQuery_ok henc hq).1, List.length_map]

/-- The arguments that are kept. -/
theorem kept_eq_filter (henc : c.encoding = .b64Json) (he : c.encode path args id = .ok url) :
    c.kept args = args.pairs.filter fun p => ¬ c.Shadowed p := by
  obtain ⟨q, hq, -⟩ := encode_eq_ok he
  have hkeys := (pairsQuery_ok henc hq).2.1
  exact List.filter_congr fun p hp => decide_eq_decide.mpr (not_congr (wireKey_eq_iff (hkeys p hp).1))

/-- Every argument is kept exactly if none arrives under the key of the request's name. -/
theorem length_kept_iff (henc : c.encoding = .b64Json) (he : c.encode path args id = .ok url) :
    (c.kept args).length = args.size ↔ ∀ p ∈ args.pairs, ¬ c.Shadowed p := by
  rw [size_eq henc he, kept_eq_filter henc he, List.length_filter_eq_length_iff]
  exact forall₂_congr fun _ _ => decide_eq_true_iff

/-- All requests arrive with their names, and with as many arguments as were sent. -/
def Complete (c : Codec) : Prop :=
  ∀ path args id url, Url.PlainPath path → (∀ v ∈ args.values, v.Portable 127) → c.encode path args id = .ok url →
    ∃ read, c.decode url = .ok read ∧ read.callback = some id ∧ read.args.size = args.size

/-- Only an argument with a free key of its own can arrive under the key of the request's name. -/
theorem complete_of_unmarked (henc : c.encoding = .b64Json) (hbase : c.baseUrl = "prefs://")
    (hstem : ¬ ∃ key, isMarked key = false ∧ c.callbackKey = key ++ "_b64json") : c.Complete := by
  intro path args id url hp hv he
  obtain ⟨q, hq, -⟩ := encode_eq_ok he
  refine ⟨_, decode_kept henc hbase hp hv he, rfl, ?_⟩
  rw [size_namedArgs]
  refine (length_kept_iff henc he).mpr fun p hmem hshadowed => hstem ⟨p.1, ?_, hshadowed.2.symm⟩
  exact ((pairsQuery_ok henc hq).2.1 p hmem).2

/-- One truth value under a free key is lost if that key with the mark is the key of the request's name. -/
theorem not_complete_of_marked (henc : c.encoding = .b64Json) (hbase : c.baseUrl = "prefs://") {key : String}
    (hmark : isMarked key = false) (hkey : c.callbackKey = key ++ "_b64json") : ¬ c.Complete := by
  intro hcomplete
  let args : Args := .named [(key, .bool true)]
  have hne : key ≠ c.callbackKey := by
    intro h
    have hmarked := isMarked_append key
    rw [show key ++ b64Mark = key from (hkey.symm.trans h.symm), hmark] at hmarked
    cases hmarked
  have haccepts : c.Accepts args := by
    rw [Accepts, henc]
    exact ⟨⟨fun _ => Args.noConfusion, fun p hp => List.mem_singleton.mp hp ▸ hne⟩,
      fun p hp => List.mem_singleton.mp hp ▸ hmark⟩
  have hv : ∀ v ∈ args.values, v.Portable 127 := fun v hv => by
    obtain rfl : v = .bool true := List.mem_singleton.mp hv
    exact ⟨trivial, trivial, by decide⟩
  have hp : Url.PlainPath "/set" := by decide
  obtain ⟨url, he⟩ := (@encode_ok_iff c args "/set" "1").mpr haccepts
  obtain ⟨read, hread, -, hsize⟩ := hcomplete "/set" args "1" url hp hv he
  rw [decode_kept henc hbase hp hv he] at hread
  obtain rfl := Except.ok.inj hread
  rw [size_namedArgs, length_kept_iff henc he] at hsize
  exact hsize (key, .bool true) List.mem_cons_self ⟨rfl, hkey.symm⟩

/-- **Which arguments are lost.** A request always arrives with its name. An argument is lost exactly if it is no
text and its key, with the mark behind it, is the key of that name. So a set-up loses arguments exactly if the key
it has for names is a free key with the mark behind it, and the check of set-ups does not look at that. -/
theorem arguments_counted {config : Config} (henc : config.encoding = .b64Json)
    (hbase : config.baseUrl = "prefs://") :
    (∀ path args id url, Url.PlainPath path → (∀ v ∈ args.values, v.Portable 127) →
      config.codec.encode path args id = .ok url →
        ∃ read, config.codec.decode url = .ok read ∧ read.path = path ∧ read.callback = some id ∧
          (read.args.pairs = args.pairs.filter fun p => ¬ config.codec.Shadowed p) ∧
          (read.args.size = args.size ↔ ∀ p ∈ args.pairs, ¬ config.codec.Shadowed p)) ∧
    (config.codec.Complete ↔ ¬ ∃ key, isMarked key = false ∧ config.callbackKey = key ++ "_b64json") ∧
    (config.validate = .ok () ↔ config.callbackStem ≠ "" ∧ config.callbackKey ≠ "") := by
  refine ⟨fun path args id url hp hv he => ?_, ⟨?_, complete_of_unmarked (c := config.codec) henc hbase⟩, ?_⟩
  · refine ⟨_, decode_kept henc hbase hp hv he, rfl, rfl, ?_, ?_⟩
    · rw [pairs_namedArgs]
      exact kept_eq_filter henc he
    · rw [size_namedArgs]
      exact length_kept_iff henc he
  · rintro hcomplete ⟨key, hmark, hkey⟩
    exact not_complete_of_marked henc hbase hmark hkey hcomplete
  · -- the check looks at the transport, the stem and the key, and at no more of the key than whether it is empty
    have hcarries : ¬ (config.transport = .scriptTag ∧ config.encoding = .argsArray) := by
      rw [henc]
      simp
    rw [Config.validate, if_neg hcarries]
    split
    · next h => simp [h]
    · next hstem => split <;> simp_all

/-- Two arguments, of which the number arrives and the truth value does not. -/
theorem arguments_counted_two :
    let config : Config := { Config.fetch with encoding := .b64Json, callbackKey := "on_b64json" }
    let args : Args := .named [("n", .number (.int 1)), ("on", .bool true)]
    ∃ url read, config.codec.encode "/set" args "7" = .ok url ∧ config.codec.decode url = .ok read ∧
      read.callback = some "7" ∧ read.args.pairs = [("n", .number (.int 1))] := by
  intro config args
  have haccepts : config.codec.Accepts args :=
    ⟨⟨fun _ => Args.noConfusion, by decide⟩, by decide⟩
  obtain ⟨url, he⟩ := (@encode_ok_iff config.codec args "/set" "7").mpr haccepts
  have hv : ∀ v ∈ args.values, v.Portable 127 := by
    intro v hv
    rcases List.mem_cons.mp hv with rfl | hv
    · exact ⟨⟨by decide, by decide⟩, trivial, by decide⟩
    · obtain rfl : v = .bool true := List.mem_singleton.mp hv
      exact ⟨trivial, trivial, by decide⟩
  have hplain : Url.PlainPath "/set" := by decide
  obtain ⟨read, hread, -, hname, hpairs, -⟩ :=
    (@arguments_counted config rfl rfl).1 "/set" args "7" url hplain hv he
  have hfilter : (args.pairs.filter fun p => ¬ config.codec.Shadowed p) = [("n", .number (.int 1))] := by decide
  exact ⟨url, read, he, hread, hname, hpairs.trans hfilter⟩

/-- A set-up that no check refuses, and a request whose only argument is lost. -/
theorem truth_value_lost :
    let config : Config := { Config.fetch with encoding := .b64Json, callbackKey := "value_b64json" }
    config.validate = .ok () ∧
      config.codec.encode "/set" (.named [("value", .bool true)]) "__jp1" =
        .ok "prefs:///set?value_b64json=dHJ1ZQ%3D%3D&value_b64json=__jp1" ∧
      config.codec.decode "prefs:///set?value_b64json=dHJ1ZQ%3D%3D&value_b64json=__jp1" =
        .ok ⟨"/set", .none, some "__jp1"⟩ :=
  ⟨rfl, rfl, rfl⟩

end Codec

end Hostlink
