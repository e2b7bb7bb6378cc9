import Mathlib.Tactic.ByContra
import Mathlib.Tactic.SplitIfs
import DeviceClient.Payload.Buffer
import DeviceClient.Proofs.Payload.RoundTrip

namespace DeviceClient

namespace Buffer

/-- Writes are taken as long as they fit. -/
theorem offer_eq_ok_iff {capacity held n : Nat} (hheld : held ≤ capacity) {ws : List Write} :
    offer capacity held ws = .ok n ↔
      held + ws.flatten.length ≤ capacity ∧ n = held + ws.flatten.length := by
  induction ws generalizing held with
  | nil => simp [offer, hheld, eq_comm]
  | cons w ws ih =>
    rw [offer, List.flatten_cons, List.length_append, ← Nat.add_assoc]
    split_ifs with hw
    · exact ih hw
    · simp
      omega

theorem eq_of_append {b b' : Buffer} {ws : List Write} (hheld : b.content.length ≤ b.capacity)
    (h : b.append ws = (b', none)) :
    b' = ⟨b.capacity, b.content ++ ws.flatten⟩ ∧ b'.content.length ≤ b'.capacity := by
  unfold append at h
  cases hoffer : offer b.capacity b.content.length ws with
  | error required => simp [hoffer] at h
  | ok n =>
    obtain ⟨hfits, -⟩ := (offer_eq_ok_iff hheld).mp hoffer
    rw [hoffer] at h
    cases h
    exact ⟨rfl, by simpa using hfits⟩

/-- A buffer never holds more than its capacity. -/
theorem length_append_le {b : Buffer} (hheld : b.content.length ≤ b.capacity) (ws : List Write) :
    (b.append ws).1.content.length ≤ (b.append ws).1.capacity := by
  cases hfailure : (b.append ws).2 with
  | none => exact (eq_of_append hheld (Prod.ext rfl hfailure)).2
  | some error =>
    unfold append at hfailure ⊢
    cases hoffer : offer b.capacity b.content.length ws with
    | error required => simp [reset]
    | ok n => simp [hoffer] at hfailure

end Buffer

namespace ObjectEncoder

theorem failure_fail_ne_none (e : ObjectEncoder) (error : EncodingError) :
    (e.fail error).failure ≠ none := by
  simp [fail]

/-- A failure stays. -/
theorem accepted_of_append {e : ObjectEncoder} {ws : List Write}
    (h : (e.append ws).failure = none) :
    e.failure = none ∧ e.buffer.append ws = ((e.append ws).buffer, none) := by
  unfold append at h ⊢
  cases hfailure : e.failure with
  | some error => simp [hfailure] at h
  | none =>
    rw [hfailure] at h
    exact ⟨rfl, Prod.ext rfl h⟩

/-- A property is added only to an encoding that has not failed, and only without a fault. -/
theorem accepted_of_set {e : ObjectEncoder} {name : String} {v : Value}
    (h : (e.set name v).failure = none) :
    e.failure = none ∧ name.isEmpty = false ∧ v.fault? = none ∧
      e.buffer.append (Encoding.text name ++ v.writes) = ((e.set name v).buffer, none) := by
  have hset : (e.set name v).failure = none → v.fault? = none ∧ name.isEmpty = false := by
    intro h
    obtain ⟨hbefore, -⟩ := accepted_of_append h
    cases hname : name.isEmpty with
    | true =>
      rw [hname, if_pos rfl] at hbefore
      exact absurd hbefore (failure_fail_ne_none _ _)
    | false =>
      cases hfault : v.fault? with
      | none => exact ⟨rfl, rfl⟩
      | some error =>
        simp only [hname, hfault, Bool.false_eq_true, if_false] at hbefore
        exact absurd hbefore (failure_fail_ne_none _ _)
  obtain ⟨hfault, hname⟩ := hset h
  have heq : e.set name v = e.append (Encoding.text name ++ v.writes) := by
    simp [set, setWrites, hfault, hname]
  rw [heq] at h ⊢
  obtain ⟨hfailure, happend⟩ := accepted_of_append h
  exact ⟨hfailure, hname, hfault, happend⟩

/-- Properties are added in order, and all of them or not at all. -/
theorem accepted_of_setAll {e : ObjectEncoder} {r : Representation}
    (hheld : e.buffer.content.length ≤ e.buffer.capacity) (h : (e.setAll r).failure = none) :
    e.failure = none ∧ Value.faultOfProperties? r = none ∧
      (e.setAll r).buffer =
        ⟨e.buffer.capacity, e.buffer.content ++ (Value.writesOfProperties r).flatten⟩ ∧
      (e.setAll r).buffer.content.length ≤ (e.setAll r).buffer.capacity := by
  induction r generalizing e with
  | nil => exact ⟨h, rfl, by simp [setAll, Value.writesOfProperties], hheld⟩
  | cons p r ih =>
    obtain ⟨name, v⟩ := p
    rw [setAll] at h ⊢
    have hone : (e.set name v).failure = none := by
      by_contra hfailed
      have hsome : (e.set name v).failure.isSome = true := by
        simpa [Option.isSome_iff_ne_none] using hfailed
      rw [if_pos hsome] at h
      exact hfailed h
    have hgo : ¬(e.set name v).failure.isSome = true := by simp [hone]
    rw [if_neg hgo] at h ⊢
    obtain ⟨hfailure, hname, hfault, happend⟩ := accepted_of_set hone
    obtain ⟨hbuffer, hfits⟩ := Buffer.eq_of_append hheld happend
    obtain ⟨-, hrest, hall, hfitsAll⟩ := ih hfits h
    refine ⟨hfailure, ?_, ?_, hfitsAll⟩
    · simp [Value.faultOfProperties?, Value.faultOfProperty?, hname, hfault, hrest]
    · rw [hall, hbuffer]
      simp [Value.writesOfProperties, Value.writesOfProperty]

theorem accepted_of_finish {e : ObjectEncoder} {b : Buffer} {n : Nat}
    (h : e.finish = (b, .ok n)) :
    e.failure = none ∧ e.buffer.append [Encoding.close] = (b, none) := by
  simp only [finish] at h
  split at h
  · cases h
  · rename_i hfailure
    cases h
    exact accepted_of_append hfailure

end ObjectEncoder

namespace Buffer

theorem accepted_of_encode {b b' : Buffer} {r : Representation} {n : Nat}
    (h : b.encode r = (b', .ok n)) :
    r.fault? = none ∧ b' = ⟨b.capacity, r.encode⟩ ∧ b'.content.length ≤ b'.capacity := by
  have hreset : b.reset.content.length ≤ b.reset.capacity := Nat.zero_le _
  have hstart : (ObjectEncoder.start b).buffer.content.length ≤
      (ObjectEncoder.start b).buffer.capacity := length_append_le hreset _
  -- The three stages are taken from the last to the first: each is accepted because the next one is.
  obtain ⟨hall, hclose⟩ := ObjectEncoder.accepted_of_finish h
  obtain ⟨hfirst, hfault, hbuffer, hheld⟩ := ObjectEncoder.accepted_of_setAll hstart hall
  obtain ⟨-, hopen⟩ := ObjectEncoder.accepted_of_append hfirst
  obtain ⟨hopened, -⟩ := eq_of_append hreset hopen
  obtain ⟨hclosed, hfits⟩ := eq_of_append hheld hclose
  refine ⟨hfault, ?_, hfits⟩
  have hstarted : (ObjectEncoder.start b).buffer = ⟨b.capacity, [Cbor.indefinite Cbor.mapItem]⟩ :=
    hopened
  rw [hclosed, hbuffer, hstarted]
  simp [Representation.encode, Value.writes, Encoding.openObject]

/-- What an accepted payload leaves in the buffer. -/
theorem accepted_of_encodePayload {b b' : Buffer} {p : Payload} {n : Nat}
    (h : b.encodePayload p = (b', .ok n)) :
    p.fault? = none ∧ b' = ⟨b.capacity, p.encode⟩ ∧ b'.content.length ≤ b'.capacity := by
  cases p with
  | object root => exact accepted_of_encode h
  | objects roots =>
    rw [encodePayload] at h
    cases hfault : Value.faultOfObjects? roots with
    | some error =>
      rw [hfault] at h
      cases h
    | none =>
      simp only [hfault] at h
      split at h
      · cases h
      · rename_i happend
        cases h
        obtain ⟨hbuffer, hfits⟩ := eq_of_append (b := b.reset) (Nat.zero_le _) happend
        exact ⟨hfault, hbuffer, hfits⟩

/-- An object that a buffer accepts fits into it, so its length is a machine word. -/
theorem encodable_of_encode {capacity : UInt64} {held : List UInt8} {r : Representation}
    {b : Buffer} {n : Nat} (h : encode ⟨capacity.toNat, held⟩ r = (b, .ok n)) :
    r.fault? = none ∧ b.content = r.encode ∧ r.encode.length < 2 ^ 64 := by
  obtain ⟨hfault, rfl, hfits⟩ := accepted_of_encode h
  exact ⟨hfault, rfl, Nat.lt_of_le_of_lt hfits capacity.toNat_lt⟩

/-- A payload that a buffer accepts is decoded from the content of the buffer. It comes back with
empty arrays of values in place of empty arrays of objects, or is refused when more than 16
containers are nested in one another. -/
theorem decode_of_encodePayload (capacity : UInt64) (held : List UInt8) (p : Payload) (b : Buffer)
    (n : Nat) (h : Buffer.encodePayload ⟨capacity.toNat, held⟩ p = (b, .ok n)) :
    Payload.decode b.content = if p.height ≤ 16 then .ok p.normal else .error .tooDeep := by
  obtain ⟨hfault, rfl, hfits⟩ := accepted_of_encodePayload h
  have hlength : p.encode.length < 2 ^ 64 := Nat.lt_of_le_of_lt hfits capacity.toNat_lt
  exact Payload.decode_encode hfault hlength

/-- An empty array of objects, and the least integer, in a buffer that has held other bytes. -/
theorem decode_of_encodePayload_lamp :
    Buffer.encodePayload ⟨(64 : UInt64).toNat, [0]⟩
        (.objects [[("a", .objects []), ("b", .int Int64.minValue)]]) =
      (⟨64, Payload.encode (.objects [[("a", .objects []), ("b", .int Int64.minValue)]])⟩,
        .ok 19) ∧
    Payload.decode (Payload.encode (.objects [[("a", .objects []), ("b", .int Int64.minValue)]])) =
      .ok (.objects [[("a", .array []), ("b", .int Int64.minValue)]]) := by
  have h : Buffer.encodePayload ⟨(64 : UInt64).toNat, [0]⟩
        (.objects [[("a", .objects []), ("b", .int Int64.minValue)]]) =
      (⟨64, Payload.encode (.objects [[("a", .objects []), ("b", .int Int64.minValue)]])⟩,
        .ok 19) := by
    rfl
  exact ⟨h, decode_of_encodePayload 64 [0] _ _ _ h⟩

end Buffer

end DeviceClient
