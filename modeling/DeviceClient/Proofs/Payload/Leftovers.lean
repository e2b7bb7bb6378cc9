import DeviceClient.Proofs.Payload.Buffer

namespace DeviceClient

namespace ObjectEncoder

/-- Adds properties one after the other, also after one has failed. -/
def offerAll (e : ObjectEncoder) (r : Representation) : ObjectEncoder :=
  r.foldl (fun e p => e.set p.1 p.2) e

/-- The encoding is into a buffer of the capacity, and has emptied it if it has failed. -/
structure Tidy (capacity : Nat) (e : ObjectEncoder) : Prop where
  capacity : e.buffer.capacity = capacity
  emptied : e.failure ≠ none → e.buffer.content = []

namespace Tidy

variable {capacity : Nat} {e : ObjectEncoder}

theorem fail (h : e.Tidy capacity) (error : EncodingError) : (e.fail error).Tidy capacity where
  capacity := h.capacity
  emptied := fun _ => rfl

theorem append (h : e.Tidy capacity) (ws : List Write) : (e.append ws).Tidy capacity := by
  unfold ObjectEncoder.append
  cases hfailure : e.failure with
  | some error => exact h
  | none =>
    unfold Buffer.append
    cases Buffer.offer e.buffer.capacity e.buffer.content.length ws with
    | ok n => exact ⟨h.capacity, fun hne => absurd rfl hne⟩
    | error required => exact ⟨h.capacity, fun _ => rfl⟩

theorem start (b : Buffer) : (ObjectEncoder.start b).Tidy b.capacity := by
  apply append
  exact ⟨rfl, fun hne => absurd rfl hne⟩

theorem set (h : e.Tidy capacity) (name : String) (v : Value) : (e.set name v).Tidy capacity := by
  unfold ObjectEncoder.set setWrites
  cases v.fault? with
  | none =>
    simp only
    split_ifs
    · exact (h.fail _).append _
    · exact h.append _
  | some error =>
    simp only
    split_ifs
    · exact ((h.fail _).fail _).append _
    · exact (h.fail _).append _

theorem setAll (h : e.Tidy capacity) (r : Representation) : (e.setAll r).Tidy capacity := by
  induction r generalizing e with
  | nil => exact h
  | cons p r ih =>
    rw [ObjectEncoder.setAll]
    split_ifs
    · exact h.set p.1 p.2
    · exact ih (h.set p.1 p.2)

theorem offerAll (h : e.Tidy capacity) (r : Representation) : (e.offerAll r).Tidy capacity := by
  induction r generalizing e with
  | nil => exact h
  | cons p r ih => exact ih (h.set p.1 p.2)

theorem capacity_finish (h : e.Tidy capacity) : e.finish.1.capacity = capacity := by
  unfold finish
  simp only
  split <;> exact (h.append _).capacity

theorem eq_empty_of_finish (h : e.Tidy capacity) {b : Buffer} {error : EncodingError}
    (herror : e.finish = (b, .error error)) : b = Buffer.empty capacity := by
  have hclosed := h.append [Encoding.close]
  unfold finish at herror
  simp only at herror
  split at herror
  · rename_i hfailure
    cases herror
    have hcontent := hclosed.emptied (by simp [hfailure])
    rw [Buffer.empty, ← hclosed.capacity, ← hcontent]
  · cases herror

end Tidy

end ObjectEncoder

/-- Whether the payload is an array at the root with the fault in it. -/
def Payload.IsFaultyArray (p : Payload) (error : EncodingError) : Prop :=
  ∃ roots, p = .objects roots ∧ Value.faultOfObjects? roots = some error

namespace Buffer

/-- Something that a buffer is used for. -/
inductive Use where
  | encode (r : Representation)
  | encodePayload (p : Payload)
  | reset
  /-- The encoding of an object property by property, which may be given up before it is closed. -/
  | object (properties : Representation) (closed : Bool)

def use (b : Buffer) : Use → Buffer
  | .encode r => (b.encode r).1
  | .encodePayload p => (b.encodePayload p).1
  | .reset => b.reset
  | .object properties closed =>
    let e := (ObjectEncoder.start b).offerAll properties
    if closed then e.finish.1 else e.buffer

/-- The buffer after it has been used in turn. -/
def reused (capacity : Nat) (uses : List Use) : Buffer := uses.foldl use (empty capacity)

theorem capacity_encode (b : Buffer) (r : Representation) : (b.encode r).1.capacity = b.capacity :=
  ((ObjectEncoder.Tidy.start b).setAll r).capacity_finish

/-- However the encoding of an object fails, the buffer is empty afterwards. -/
theorem eq_empty_of_encode {b b' : Buffer} {r : Representation} {error : EncodingError}
    (h : b.encode r = (b', .error error)) : b' = empty b.capacity :=
  ((ObjectEncoder.Tidy.start b).setAll r).eq_empty_of_finish h

theorem capacity_encodePayload (b : Buffer) (p : Payload) :
    (b.encodePayload p).1.capacity = b.capacity := by
  cases p with
  | object root => exact b.capacity_encode root
  | objects roots =>
    rw [encodePayload]
    cases Value.faultOfObjects? roots with
    | some error => rfl
    | none =>
      simp only [append]
      cases offer b.reset.capacity b.reset.content.length (Value.objects roots).writes <;> rfl

/-- A payload that is refused leaves the buffer either as it was or empty. -/
theorem refused_cases {b b' : Buffer} {p : Payload} {error : EncodingError}
    (h : b.encodePayload p = (b', .error error)) :
    p.IsFaultyArray error ∧ b' = b ∨
      (∀ fault, ¬p.IsFaultyArray fault) ∧ b' = empty b.capacity := by
  cases p with
  | object root =>
    refine .inr ⟨fun fault hfaulty => ?_, eq_empty_of_encode h⟩
    obtain ⟨roots, hroots, -⟩ := hfaulty
    cases hroots
  | objects roots =>
    rw [encodePayload] at h
    cases hfault : Value.faultOfObjects? roots with
    | some fault =>
      rw [hfault] at h
      cases h
      exact .inl ⟨⟨roots, rfl, hfault⟩, rfl⟩
    | none =>
      refine .inr ⟨fun fault hfaulty => ?_, ?_⟩
      · obtain ⟨_, hroots, hsome⟩ := hfaulty
        cases hroots
        rw [hfault] at hsome
        cases hsome
      · simp only [hfault, append] at h
        cases hoffer : offer b.reset.capacity b.reset.content.length (Value.objects roots).writes with
        | ok n => simp [hoffer] at h
        | error required =>
          rw [hoffer] at h
          cases h
          rfl

theorem capacity_use (b : Buffer) (u : Use) : (b.use u).capacity = b.capacity := by
  cases u with
  | encode r => exact b.capacity_encode r
  | encodePayload p => exact b.capacity_encodePayload p
  | reset => rfl
  | object properties closed =>
    have htidy := (ObjectEncoder.Tidy.start b).offerAll properties
    cases closed with
    | true => exact htidy.capacity_finish
    | false => exact htidy.capacity

theorem capacity_foldl_use (b : Buffer) (uses : List Use) :
    (uses.foldl use b).capacity = b.capacity := by
  induction uses generalizing b with
  | nil => rfl
  | cons u uses ih => exact (ih (b.use u)).trans (b.capacity_use u)

/-- A buffer that has been used in any way is empty after the encoding of an object has failed. After
the encoding of a payload has failed, it is empty exactly when it was empty before or the payload is
not an array with a fault in it; otherwise it holds what it held before. -/
theorem empty_after_failure_iff (capacity : Nat) (uses : List Use) :
    (∀ r b error, (reused capacity uses).encode r = (b, .error error) → b = empty capacity) ∧
    ∀ p b error, (reused capacity uses).encodePayload p = (b, .error error) →
      (b = empty capacity ↔
        reused capacity uses = empty capacity ∨ ¬p.IsFaultyArray error) ∧
      (p.IsFaultyArray error → b = reused capacity uses) := by
  have hcapacity : (reused capacity uses).capacity = capacity := capacity_foldl_use _ uses
  constructor
  · intro r b error h
    rw [eq_empty_of_encode h, hcapacity]
  · intro p b error h
    rcases refused_cases h with ⟨hfaulty, rfl⟩ | ⟨hsound, rfl⟩
    · exact ⟨⟨.inl, fun hor => hor.resolve_right fun hnot => hnot hfaulty⟩, fun _ => rfl⟩
    · rw [hcapacity]
      exact ⟨⟨fun _ => .inr (hsound error), fun _ => rfl⟩, fun hfaulty => absurd hfaulty (hsound error)⟩

/-- A text that is too long and a name that is empty, in a buffer that holds an object. -/
theorem empty_after_failure_iff_lamp :
    (reused 8 [.encode [("a", .bool true)]]).content = [0xbf, 0x61, 0x61, 0xf5, 0xff] ∧
      (∃ b error, (reused 8 [.encode [("a", .bool true)]]).encode [("a", .text "kitchen")] =
        (b, .error error) ∧ b = empty 8) ∧
      ∃ b error, (reused 8 [.encode [("a", .bool true)]]).encodePayload
          (.objects [[("", .bool true)]]) = (b, .error error) ∧ b ≠ empty 8 := by
  have hlong : (reused 8 [.encode [("a", .bool true)]]).encode [("a", .text "kitchen")] =
      (empty 8, .error (.bufferOverflow 8 11)) := by
    rfl
  have hname :
      (reused 8 [.encode [("a", .bool true)]]).encodePayload (.objects [[("", .bool true)]]) =
        (⟨8, [0xbf, 0x61, 0x61, 0xf5, 0xff]⟩, .error .emptyName) := by
    rfl
  have hfaulty : Payload.IsFaultyArray (.objects [[("", .bool true)]]) .emptyName := ⟨_, rfl, rfl⟩
  obtain ⟨hobject, hpayload⟩ := empty_after_failure_iff 8 [.encode [("a", .bool true)]]
  refine ⟨rfl, ⟨_, _, hlong, hobject _ _ _ hlong⟩, ⟨_, _, hname, fun hempty => ?_⟩⟩
  rcases (hpayload _ _ _ hname).1.mp hempty with hbefore | hnot
  · exact absurd hbefore (by decide +kernel)
  · exact hnot hfaulty

/-- The name of a property in an array at the root is empty, and the bytes of the object before can
still be read. -/
theorem content_after_faulty_array :
    (reused 64 [.encode [("a", .bool true)]]).encodePayload (.objects [[("", .bool true)]]) =
        (⟨64, [0xbf, 0x61, 0x61, 0xf5, 0xff]⟩, .error .emptyName) ∧
      (⟨64, [0xbf, 0x61, 0x61, 0xf5, 0xff]⟩ : Buffer) ≠ empty 64 := by
  exact ⟨by rfl, by decide⟩

end Buffer

end DeviceClient
