import DeviceClient.Proofs.Payload.Buffer

namespace DeviceClient

namespace Buffer

/-- The write that is refused ends beyond the capacity, and within what is offered. -/
theorem le_of_offer_eq_error {capacity held required : Nat} {ws : List Write}
    (h : offer capacity held ws = .error required) :
    capacity < required ∧ required ≤ held + ws.flatten.length := by
  induction ws generalizing held with
  | nil => cases h
  | cons w ws ih =>
    rw [offer] at h
    rw [List.flatten_cons, List.length_append, ← Nat.add_assoc]
    split_ifs at h with hfits
    · exact ih h
    · cases h
      omega

end Buffer

namespace ObjectEncoder

/-- An encoding into a buffer of some capacity after so many bytes have been offered to it. -/
inductive Offered (capacity : Nat) (bs : List UInt8) : ObjectEncoder → Prop
  | taken (hfits : bs.length ≤ capacity) : Offered capacity bs ⟨⟨capacity, bs⟩, none⟩
  | refused {required : Nat} (hover : capacity < required) (hle : required ≤ bs.length) :
      Offered capacity bs ⟨.empty capacity, some (.bufferOverflow capacity required)⟩

namespace Offered

variable {capacity : Nat} {bs : List UInt8} {e : ObjectEncoder}

/-- What has been refused is refused with more bytes after it. -/
theorem append_of_failure (h : Offered capacity bs e) (hfailure : e.failure ≠ none)
    (more : List UInt8) : Offered capacity (bs ++ more) e := by
  cases h with
  | taken hfits => exact absurd rfl hfailure
  | refused hover hle => exact .refused hover (by rw [List.length_append]; omega)

theorem append (h : Offered capacity bs e) (ws : List Write) :
    Offered capacity (bs ++ ws.flatten) (e.append ws) := by
  cases h with
  | taken hfits =>
    simp only [ObjectEncoder.append, Buffer.append]
    cases hoffer : Buffer.offer capacity bs.length ws with
    | ok n =>
      have hall := (Buffer.offer_eq_ok_iff hfits).mp hoffer
      exact .taken (by rw [List.length_append]; exact hall.1)
    | error required =>
      obtain ⟨hover, hle⟩ := Buffer.le_of_offer_eq_error hoffer
      exact .refused hover (by rwa [List.length_append])
  | refused hover hle =>
    exact append_of_failure (.refused hover hle) (Option.some_ne_none _) ws.flatten

theorem start (b : Buffer) : Offered b.capacity [Cbor.indefinite Cbor.mapItem] (.start b) := by
  have hempty : Offered b.capacity [] ⟨b.reset, none⟩ := .taken (Nat.zero_le _)
  exact hempty.append [Encoding.openObject]

/-- A property without a fault is offered as it is written. -/
theorem set (h : Offered capacity bs e) {p : String × Value}
    (hfault : p.1.isEmpty = false ∧ p.2.fault? = none) :
    Offered capacity (bs ++ Value.encodeProperty p) (e.set p.1 p.2) := by
  obtain ⟨name, v⟩ := p
  obtain ⟨hname, hvalue⟩ := hfault
  have hset : e.set name v = e.append (Value.writesOfProperty (name, v)) := by
    simp [ObjectEncoder.set, setWrites, hname, hvalue, Value.writesOfProperty]
  rw [hset]
  exact h.append _

theorem setAll (h : Offered capacity bs e) {r : Representation}
    (hfault : Value.faultOfProperties? r = none) :
    Offered capacity (bs ++ r.flatMap Value.encodeProperty) (e.setAll r) := by
  induction r generalizing bs e with
  | nil => simpa [ObjectEncoder.setAll] using h
  | cons p r ih =>
    obtain ⟨hp, hr⟩ := List.forall_mem_cons.mp (Value.faultOfProperties?_eq_none_iff.mp hfault)
    have hone := h.set hp
    rw [ObjectEncoder.setAll, List.flatMap_cons, ← List.append_assoc]
    split_ifs with hfailed
    · exact hone.append_of_failure (Option.isSome_iff_ne_none.mp hfailed) _
    · exact ih hone (Value.faultOfProperties?_eq_none_iff.mpr hr)

end Offered

end ObjectEncoder

namespace Buffer

/-- What comes of offering so many bytes to a buffer of some capacity: it holds them all, or it is
empty and tells how many bytes some of them would have needed. -/
inductive Exact (capacity : Nat) (bs : List UInt8) : Buffer × Except EncodingError Nat → Prop
  | taken (hfits : bs.length ≤ capacity) : Exact capacity bs (⟨capacity, bs⟩, .ok bs.length)
  | refused {required : Nat} (hover : capacity < required) (hle : required ≤ bs.length) :
      Exact capacity bs (empty capacity, .error (.bufferOverflow capacity required))

theorem Exact.eq_taken {capacity : Nat} {bs : List UInt8} {outcome : Buffer × Except EncodingError Nat}
    (h : Exact capacity bs outcome) (hfits : bs.length ≤ capacity) :
    outcome = (⟨capacity, bs⟩, .ok bs.length) := by
  cases h with
  | taken _ => rfl
  | refused hover hle => exact absurd hfits (Nat.not_le.mpr (Nat.lt_of_lt_of_le hover hle))

theorem exact_finish {capacity : Nat} {bs : List UInt8} {e : ObjectEncoder}
    (h : e.Offered capacity bs) : Exact capacity (bs ++ [Cbor.stopByte]) e.finish := by
  have hclosed := h.append [Encoding.close]
  rw [ObjectEncoder.finish]
  generalize e.append [Encoding.close] = closed at hclosed
  cases hclosed with
  | taken hfits => exact .taken hfits
  | refused hover hle => exact .refused hover hle

theorem exact_encode (b : Buffer) {r : Representation}
    (hfault : Value.faultOfProperties? r = none) :
    Exact b.capacity (Value.object r).encode (b.encode r) := by
  rw [Value.encode_object]
  exact exact_finish ((ObjectEncoder.Offered.start b).setAll hfault)

theorem exact_encodePayload (b : Buffer) {p : Payload} (hfault : p.fault? = none) :
    Exact b.capacity p.encode (b.encodePayload p) := by
  cases p with
  | object root => exact exact_encode b hfault
  | objects roots =>
    change Value.faultOfObjects? roots = none at hfault
    simp only [encodePayload, hfault, append]
    cases hoffer : offer b.reset.capacity b.reset.content.length (Value.writes (.objects roots)) with
    | ok n =>
      obtain ⟨hfits, -⟩ := (offer_eq_ok_iff (Nat.zero_le _)).mp hoffer
      rw [Nat.zero_add] at hfits
      exact .taken hfits
    | error required =>
      obtain ⟨hover, hle⟩ := le_of_offer_eq_error hoffer
      rw [reset, List.length_nil, Nat.zero_add] at hle
      exact .refused hover hle

/-- A well-formed payload is accepted exactly where its bytes fit, and then the buffer holds these
bytes and no others. Where they do not fit, the buffer is empty afterwards, and the number of bytes
that it reports is beyond the capacity and no more than the payload has. So a buffer of more capacity,
whatever it has held, accepts what a smaller one accepts, with the same bytes. -/
theorem encodePayload_exact (p : Payload) (hp : p.WellFormed) (capacity : Nat)
    (held : List UInt8) :
    (p.encode.length ≤ capacity →
      encodePayload ⟨capacity, held⟩ p = (⟨capacity, p.encode⟩, .ok p.encode.length)) ∧
    (capacity < p.encode.length → ∃ required, capacity < required ∧ required ≤ p.encode.length ∧
      encodePayload ⟨capacity, held⟩ p =
        (empty capacity, .error (.bufferOverflow capacity required))) ∧
    ∀ more, capacity ≤ more → ∀ b n, encodePayload ⟨capacity, held⟩ p = (b, .ok n) →
      ∀ other, encodePayload ⟨more, other⟩ p = (⟨more, b.content⟩, .ok n) := by
  have htaken : ∀ {capacity : Nat} (held : List UInt8), p.encode.length ≤ capacity →
      encodePayload ⟨capacity, held⟩ p = (⟨capacity, p.encode⟩, .ok p.encode.length) := by
    intro capacity held hfits
    have hexact := exact_encodePayload ⟨capacity, held⟩ hp.fault?_eq_none
    generalize encodePayload ⟨capacity, held⟩ p = outcome at hexact
    cases hexact with
    | taken _ => rfl
    | refused hover hle => exact absurd hfits (Nat.not_le.mpr (Nat.lt_of_lt_of_le hover hle))
  have hexact := exact_encodePayload ⟨capacity, held⟩ hp.fault?_eq_none
  refine ⟨htaken held, fun hshort => ?_, fun more hmore b n h other => ?_⟩
  · generalize encodePayload ⟨capacity, held⟩ p = outcome at hexact
    cases hexact with
    | taken hfits => exact absurd hfits (Nat.not_le.mpr hshort)
    | refused hover hle => exact ⟨_, hover, hle, rfl⟩
  · rw [h] at hexact
    cases hexact with
    | taken hfits => exact htaken other (Nat.le_trans hfits hmore)

/-- A member with a name and an array takes twelve bytes. One byte less refuses the last write. -/
theorem encodePayload_exact_lamp :
    Payload.WellFormed (.objects [[("on", .bool true), ("l", .array [])]]) ∧
    encodePayload ⟨12, [0]⟩ (.objects [[("on", .bool true), ("l", .array [])]]) =
      (⟨12, Payload.encode (.objects [[("on", .bool true), ("l", .array [])]])⟩, .ok 12) ∧
    ∃ required, 11 < required ∧ required ≤ 12 ∧
      encodePayload ⟨11, [0]⟩ (.objects [[("on", .bool true), ("l", .array [])]]) =
        (empty 11, .error (.bufferOverflow 11 required)) := by
  have hp : Payload.WellFormed (.objects [[("on", .bool true), ("l", .array [])]]) := by
    refine .objects fun m hm => ?_
    obtain rfl := List.mem_singleton.mp hm
    refine .object (by decide) fun p hp => ?_
    simp only [List.mem_cons, List.not_mem_nil, or_false] at hp
    rcases hp with rfl | rfl
    · exact .bool true
    · exact .array nofun nofun
  exact ⟨hp, (encodePayload_exact _ hp 12 [0]).1 (by decide +kernel),
    (encodePayload_exact _ hp 11 [0]).2.1 (by decide +kernel)⟩

end Buffer

end DeviceClient
