import Hostlink.Host
import Hostlink.Proofs.HostError
import Hostlink.Proofs.Json.Shape

/-!
# Answers come through

An answer of a host settles a request in one way, whether it is handed over by a callback or travels as
the body of a fetch.

* `Reply.decode_encode_ok`, `Reply.decode_encode_error` — the body of a fetch is read back;
* `Reply.settle_failure`, `Reply.decode_encode_failure` — any error but the empty text settles as an error, also
  where it is not read back;
* `HostAnswer.settlement`, `Host.settlementOf_eq` — **an answer settles what it says**.
-/

namespace Hostlink

/-- An error that comes through JSON: it can be made, and its value is carried and counts as an error. -/
structure HostError.Portable (e : HostError) : Prop where
  built : e.Built
  integral : e.toJson.Integral
  depth_le : e.toJson.depth ≤ 126
  truthy : e.toJson.isTruthy = true

theorem HostError.Portable.toJson {e : HostError} (he : e.Portable) : e.toJson.Portable 126 :=
  ⟨he.integral, canonical_toJson he.built.sound, he.depth_le⟩

namespace Reply

/-- An error that counts is found again. -/
theorem settle_error {e : HostError} (he : e.Portable) (data : Json) :
    settle data (some e.toJson) = .error (.host e) := by
  rw [settle, if_pos he.truthy, HostError.ofJson_toJson he.built.sound]

/-- A body of items is read back. -/
theorem decode_array {items : List Json} (h : ∀ v ∈ items, v.Portable 126) :
    decode (Utf8.encode (Json.array items).render) = settleItems items := by
  rw [decode, Json.parse_render (Json.portable_array h)]

theorem decode_encode_ok {v : Json} (hv : v.Portable 126) : decode (encode (.ok v)) = .ok v := by
  rw [encode, body, decode_array (List.forall_mem_singleton.mpr hv)]
  rfl

theorem decode_encode_error {e : HostError} (he : e.Portable) :
    decode (encode (.error e)) = .error (.host e) := by
  have hnull : Json.null.Portable 126 := ⟨trivial, trivial, Nat.zero_le _⟩
  rw [encode, body, decode_array, settleItems, settle_error he]
  intro v hv
  rcases List.mem_cons.mp hv with rfl | hv
  · exact hnull
  · rw [List.mem_singleton.mp hv]
    exact he.toJson

end Reply

/-! ## Errors that do not come through -/

/-- Of all errors, the empty text alone does not count. -/
theorem HostError.isTruthy_toJson {e : HostError} : e.toJson.isTruthy = true ↔ e ≠ .text "" := by
  cases e with
  | text s => simp [toJson, Json.isTruthy]
  | structured r => exact ⟨fun _ h => (by cases h), fun _ => rfl⟩

namespace Reply

theorem settle_failure {e : HostError} (he : e ≠ .text "") (data : Json) :
    settle data (some e.toJson) = .error (.host (.ofJson e.toJson)) := by
  rw [settle, if_pos (HostError.isTruthy_toJson.mpr he)]

/-- The body of an error never settles as a value. Its members may be lost on the way, but an object is
written where the error stands. -/
theorem decode_encode_failure {e : HostError} (he : e ≠ .text "") : ∃ x, decode (encode (.error e)) = .error x := by
  cases e with
  | text s =>
    have hportable : (HostError.text s).Portable :=
      ⟨.ofJson (.string s) trivial, trivial, Nat.zero_le _, HostError.isTruthy_toJson.mpr he⟩
    exact ⟨_, decode_encode_error hportable⟩
  | structured r =>
    rw [encode, body, HostError.toJson, decode]
    cases hparse : Json.parse (Utf8.encode (Json.array [.null, .object r.members]).render) with
    | error fault => exact ⟨_, rfl⟩
    | ok v =>
      obtain ⟨ms, rest, rfl⟩ := Json.shape_of_parse hparse
      -- an object counts as an error, and further items are one too many
      cases rest with
      | nil => exact ⟨_, rfl⟩
      | cons w rest => exact ⟨_, rfl⟩

/-- The body of the empty text settles as `null`. -/
theorem decode_encode_blank : decode (encode (.error (.text ""))) = .ok .null := by
  have hitems : ∀ v ∈ [Json.null, .string ""], v.Portable 126 := by
    intro v hv
    rcases List.mem_cons.mp hv with rfl | hv
    · exact ⟨trivial, trivial, Nat.zero_le _⟩
    · rw [List.mem_singleton.mp hv]
      exact Json.portable_string 126 ""
  rw [encode, body, HostError.toJson, decode_array hitems]
  rfl

end Reply

namespace HostAnswer

/-- What an answer says. -/
def settlement : HostAnswer → Settlement
  | .routed (.ok v) => .ok v
  | .routed (.error e) => .error (.host e)
  | .unknownResource path => .error (.unknownResource path)

/-- An answer that comes through JSON. -/
def Portable : HostAnswer → Prop
  | .routed (.ok v) => v.Portable 126
  | .routed (.error e) => e.Portable
  | .unknownResource _ => True

end HostAnswer

namespace Host

/-- A callback hands over what an answer says. -/
theorem settlementOf_eq {a : HostAnswer} (ha : a.Portable) : settlementOf a = a.settlement := by
  rcases a with (e | v) | path
  · exact Reply.settle_error ha _
  · rfl
  · rfl

end Host

end Hostlink
