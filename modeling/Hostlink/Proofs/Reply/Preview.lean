import Hostlink.Proofs.Text.Boundary
import Hostlink.Reply

/-!
# Previews

A log shows the start of a body. A body that is too long is cut between two characters, so up to three octets of
the room may be left.

* `Reply.preview?_of_le`, `Reply.preview?_of_lt` — a body that is shown whole, and one that is cut;
* `Reply.preview_longest` — **as much is shown as there is room for**.
-/

namespace Hostlink.Reply

theorem length_encode (s : String) : (Utf8.encode s).length = s.utf8ByteSize := rfl

/-- A body for which there is room is shown whole. -/
theorem preview?_of_le {s : String} (h : s.utf8ByteSize ≤ previewSize) : preview? s = some (s, s.utf8ByteSize) := by
  rw [← length_encode] at h ⊢
  rw [preview?, if_neg (Nat.not_lt.mpr h)]

/-- A longer body is cut behind the longest start for which there is room. -/
theorem preview?_of_lt {s : String} (h : previewSize < s.utf8ByteSize) : ∃ start rest, s = start ++ rest ∧
    preview? s = some (start, s.utf8ByteSize) ∧ start.utf8ByteSize ≤ previewSize ∧
    previewSize ≤ start.utf8ByteSize + 3 ∧
    ∀ p q, s = p ++ q → p.utf8ByteSize ≤ previewSize → p.utf8ByteSize ≤ start.utf8ByteSize := by
  have hsize : ∀ t : String, t.utf8ByteSize = (Utf8.octets t.toList).length := by
    intro t
    rw [← length_encode, Utf8.encode_eq]
  rw [hsize] at h
  obtain ⟨front, back, hsplit, hplace, hroom, hleft, hlongest⟩ := Utf8.goBack?_octets (Nat.le_of_lt h)
  have hfront : (String.ofList front).utf8ByteSize = (Utf8.octets front).length := by
    rw [hsize, String.toList_ofList]
  have htake : (Utf8.octets s.toList).take (Utf8.octets front).length = Utf8.octets front := by
    rw [hsplit, Utf8.octets_append, List.take_left]
  refine ⟨String.ofList front, String.ofList back, ?_, ?_, hfront ▸ hroom, hfront ▸ hleft, ?_⟩
  · rw [← String.ofList_append, ← hsplit, String.ofList_toList]
  · rw [hsize, preview?, Utf8.encode_eq, if_pos h, hplace]
    show ((Utf8.decode ((Utf8.octets s.toList).take (Utf8.octets front).length)).toOption.bind _) = _
    rw [htake, Utf8.decode_octets]
    rfl
  · intro p q hpq hp
    rw [hfront, hsize]
    refine hlongest p.toList q.toList ?_ (hsize p ▸ hp)
    rw [hpq, String.toList_append]

/-- **As much of a body is shown as there is room for.** The way back to a place where it may be cut always ends, and
what is shown is the longest start of the body with at most 200 octets: the whole body, or at least 197 octets of it.
Beside it stands the size of the whole body. -/
theorem preview_longest (s : String) : ∃ start rest, s = start ++ rest ∧
    preview? s = some (start, s.utf8ByteSize) ∧ preview s = (start, s.utf8ByteSize) ∧ start.utf8ByteSize ≤ 200 ∧
    (∀ p q, s = p ++ q → p.utf8ByteSize ≤ 200 → p.utf8ByteSize ≤ start.utf8ByteSize) ∧
    (start = s ∨ 197 ≤ start.utf8ByteSize) := by
  by_cases h : s.utf8ByteSize ≤ previewSize
  · have hshown := preview?_of_le h
    refine ⟨s, "", (String.append_empty).symm, hshown, by rw [preview, hshown, Option.getD_some], h, ?_, .inl rfl⟩
    intro p q hpq _
    rw [hpq, String.utf8ByteSize_append]
    omega
  · obtain ⟨start, rest, hsplit, hshown, hroom, hleft, hlongest⟩ := preview?_of_lt (Nat.lt_of_not_le h)
    have hsize : previewSize = 200 := rfl
    refine ⟨start, rest, hsplit, hshown, by rw [preview, hshown, Option.getD_some], hroom, hlongest, .inr ?_⟩
    omega

end Hostlink.Reply
