import DeviceClient.Proofs.Payload.Acceptance
import DeviceClient.Proofs.Payload.Capacity

namespace DeviceClient

namespace Payload

open Decoding (maxDepth)

/-- What is read is no larger than what it is read from. -/
theorem size_le_of_decode {bs : List UInt8} {p : Payload} (h : decode bs = .ok p) :
    p.size ≤ bs.length := by
  rcases decode_eq_ok_iff.mp h with ⟨rfl, rfl⟩ | ⟨hform, -⟩
  · exact Nat.le_refl _
  · exact Nat.le_of_lt hform.size_lt

/-- What is read has no fault, is the form that it would be read back in, and nests no deeper than is
allowed. -/
theorem sound_of_decode {bs : List UInt8} {p : Payload} (h : decode bs = .ok p) :
    p.fault? = none ∧ p.normal = p ∧ p.height ≤ maxDepth := by
  rcases decode_eq_ok_iff.mp h with ⟨rfl, rfl⟩ | ⟨-, hsound⟩
  · exact ⟨rfl, rfl, by decide⟩
  · exact hsound

/-- A payload that has been decoded is well formed, holds no empty array of objects and nests no
deeper than 16 levels. Every buffer that its bytes fit into takes it, and from these bytes the payload
is decoded again. (No string is too long for its head then: the input has fewer than `2 ^ 64` bytes.) -/
theorem decode_canonical (bs : List UInt8) (p : Payload) (h : decode bs = .ok p) :
    (p.WellFormed ∧ p.Unambiguous ∧ p.height ≤ 16) ∧
    (∀ (capacity : Nat) (held : List UInt8), p.encode.length ≤ capacity →
      Buffer.encodePayload ⟨capacity, held⟩ p = (⟨capacity, p.encode⟩, .ok p.encode.length)) ∧
    (bs.length < 2 ^ 64 → decode p.encode = .ok p) := by
  obtain ⟨hfault, hnormal, hheight⟩ := sound_of_decode h
  refine ⟨⟨wellFormed_of_fault? hfault, unambiguous_of_normal_eq hnormal, hheight⟩, ?_, ?_⟩
  · intro capacity held hfits
    have hexact := Buffer.exact_encodePayload ⟨capacity, held⟩ hfault
    exact hexact.eq_taken hfits
  · intro hlength
    have hsize := Nat.lt_of_le_of_lt (size_le_of_decode h) hlength
    rw [decode_encode_of_size hfault hsize, if_pos hheight, hnormal]

/-- An array with a null in front of an object, and a number in half a double, are written again
without the null and with all the bytes of the double. -/
theorem decode_canonical_lamp :
    decode [0xa2, 0x61, 0x61, 0x82, 0xf6, 0xa0, 0x61, 0x62, 0xf9, 0x3c, 0x00] =
        .ok (.object [("a", .objects [[]]), ("b", .double (.ofHalf 0x3c00))]) ∧
      decode (Payload.encode (.object [("a", .objects [[]]), ("b", .double (.ofHalf 0x3c00))])) =
        .ok (.object [("a", .objects [[]]), ("b", .double (.ofHalf 0x3c00))]) := by
  have h : decode [0xa2, 0x61, 0x61, 0x82, 0xf6, 0xa0, 0x61, 0x62, 0xf9, 0x3c, 0x00] =
      .ok (.object [("a", .objects [[]]), ("b", .double (.ofHalf 0x3c00))]) := by
    rfl
  exact ⟨h, (decode_canonical _ _ h).2.2 (by decide)⟩

end Payload

end DeviceClient
