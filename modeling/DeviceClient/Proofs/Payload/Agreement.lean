import DeviceClient.Proofs.Payload.Buffer
import DeviceClient.Proofs.Value.Equality

namespace DeviceClient

theorem Double.agrees_self (x : Double) : x.agrees x = !x.isNaN := by
  simp [agrees]

namespace Value

mutual

/-- Every double in the value is a number. -/
def isNumeric : Value → Bool
  | .double x => !x.isNaN
  | .array values => isNumericValues values
  | .object properties => isNumericProperties properties
  | .objects members => isNumericObjects members
  | _ => true
termination_by structural v => v

def isNumericValues : List Value → Bool
  | [] => true
  | v :: vs => isNumeric v && isNumericValues vs
termination_by structural vs => vs

def isNumericProperty : String × Value → Bool
  | (_, v) => isNumeric v
termination_by structural p => p

def isNumericProperties : List (String × Value) → Bool
  | [] => true
  | p :: ps => isNumericProperty p && isNumericProperties ps
termination_by structural ps => ps

def isNumericObjects : List (List (String × Value)) → Bool
  | [] => true
  | o :: os => isNumericProperties o && isNumericObjects os
termination_by structural os => os

end

theorem isNumericValues_iff {vs : List Value} :
    isNumericValues vs = true ↔ ∀ v ∈ vs, v.isNumeric = true := by
  induction vs with
  | nil => simp [isNumericValues]
  | cons v vs ih => rw [isNumericValues, Bool.and_eq_true, ih, List.forall_mem_cons]

theorem isNumericProperties_iff {ps : List (String × Value)} :
    isNumericProperties ps = true ↔ ∀ p ∈ ps, p.2.isNumeric = true := by
  induction ps with
  | nil => simp [isNumericProperties]
  | cons p ps ih =>
    obtain ⟨name, v⟩ := p
    rw [isNumericProperties, isNumericProperty, Bool.and_eq_true, ih, List.forall_mem_cons]

theorem isNumericObjects_iff {os : List (List (String × Value))} :
    isNumericObjects os = true ↔ ∀ o ∈ os, isNumericProperties o = true := by
  induction os with
  | nil => simp [isNumericObjects]
  | cons o os ih => rw [isNumericObjects, Bool.and_eq_true, ih, List.forall_mem_cons]

/-- A double that is not NaN is a number. -/
theorem Proper.isNumeric {v : Value} (h : v.Proper) : v.isNumeric = true := by
  have hobject {ps : List (String × Value)} (ih : ∀ p ∈ ps, p.2.Proper → p.2.isNumeric = true)
      (hps : (Value.object ps).Proper) : isNumericProperties ps = true := by
    cases hps with
    | object hps => exact isNumericProperties_iff.mpr fun p hp => ih p hp (hps p hp)
  induction v using Value.induction with
  | int n => rfl
  | bool b => rfl
  | double x =>
    cases h with
    | double hx => exact (Bool.and_eq_true _ _ ▸ hx).1
  | text s => rfl
  | bytes bs => rfl
  | array values ih =>
    cases h with
    | array hvalues => exact isNumericValues_iff.mpr fun v hv => ih v hv (hvalues v hv)
  | object properties ih => exact hobject ih h
  | objects members ih =>
    cases h with
    | objects hmembers =>
      exact isNumericObjects_iff.mpr fun m hm => hobject (ih m hm) (hmembers m hm)

/-- The normal form is equal to the value exactly when all its doubles are numbers. -/
def AgreesNormal (v : Value) : Prop := v.normal.agrees v = v.isNumeric

theorem agreesValues_normal {vs : List Value} (h : ∀ v ∈ vs, v.AgreesNormal) :
    agreesValues (normalValues vs) vs = isNumericValues vs := by
  induction vs with
  | nil => rfl
  | cons v vs ih =>
    obtain ⟨hv, hvs⟩ := List.forall_mem_cons.mp h
    rw [normalValues, agreesValues, isNumericValues, ih hvs, hv]

theorem agreesProperties_normal {ps : List (String × Value)} (h : ∀ p ∈ ps, p.2.AgreesNormal) :
    agreesProperties (normalProperties ps) ps = isNumericProperties ps := by
  induction ps with
  | nil => rfl
  | cons p ps ih =>
    obtain ⟨name, v⟩ := p
    obtain ⟨hv, hps⟩ := List.forall_mem_cons.mp h
    rw [normalProperties, agreesProperties, isNumericProperties, ih hps, normalProperty,
      agreesProperty, isNumericProperty, beq_self_eq_true, Bool.true_and, hv]

theorem agreesObjects_normal {os : List (List (String × Value))}
    (h : ∀ o ∈ os, ∀ p ∈ o, p.2.AgreesNormal) :
    agreesObjects (normalObjects os) os = isNumericObjects os := by
  induction os with
  | nil => rfl
  | cons o os ih =>
    obtain ⟨ho, hos⟩ := List.forall_mem_cons.mp h
    rw [normalObjects, agreesObjects, isNumericObjects, ih hos, agreesProperties_normal ho]

theorem agreesNormal (v : Value) : v.AgreesNormal := by
  induction v using Value.induction with
  | int n => simp [AgreesNormal, normal, agrees, isNumeric]
  | bool b => simp [AgreesNormal, normal, agrees, isNumeric]
  | double x => exact Double.agrees_self x
  | text s => simp [AgreesNormal, normal, agrees, isNumeric]
  | bytes bs => simp [AgreesNormal, normal, agrees, isNumeric]
  | array values ih => exact agreesValues_normal ih
  | object properties ih => exact agreesProperties_normal ih
  | objects members ih =>
    cases members with
    | nil => rfl
    | cons o os => exact agreesObjects_normal ih

end Value

namespace Payload

/-- Every double in the payload is a number. -/
def isNumeric : Payload → Bool
  | .object root => Value.isNumericProperties root
  | .objects roots => Value.isNumericObjects roots

theorem agrees_normal (p : Payload) : p.normal.agrees p = p.isNumeric := by
  cases p with
  | object root => exact Value.agreesProperties_normal fun p _ => p.2.agreesNormal
  | objects roots => exact Value.agreesObjects_normal fun o _ p _ => p.2.agreesNormal

end Payload

namespace Buffer

/-- A payload that a buffer accepts comes back equal exactly when no more than 16 containers are
nested in one another and every double is a number. Depth is the only reason for which it is not
read at all. -/
theorem decode_agrees_iff (capacity : UInt64) (held : List UInt8) (p : Payload) (b : Buffer)
    (n : Nat) (h : Buffer.encodePayload ⟨capacity.toNat, held⟩ p = (b, .ok n)) :
    ((∃ q, Payload.decode b.content = .ok q ∧ q.agrees p = true) ↔
      p.height ≤ 16 ∧ p.isNumeric = true) ∧
    ∀ error, Payload.decode b.content = .error error ↔ error = .tooDeep ∧ 16 < p.height := by
  obtain ⟨hfault, rfl, hfits⟩ := accepted_of_encodePayload h
  have hlength : p.encode.length < 2 ^ 64 := Nat.lt_of_le_of_lt hfits capacity.toNat_lt
  have hdecode : Payload.decode p.encode =
      if p.height ≤ 16 then .ok p.normal else .error .tooDeep :=
    Payload.decode_encode hfault hlength
  rw [hdecode]
  by_cases hheight : p.height ≤ 16
  · rw [if_pos hheight, ← Payload.agrees_normal]
    refine ⟨⟨?_, fun hp => ⟨p.normal, rfl, hp.2⟩⟩, fun error => ⟨nofun, fun he => ?_⟩⟩
    · rintro ⟨q, hq, hagrees⟩
      cases hq
      exact ⟨hheight, hagrees⟩
    · exact absurd he.2 (Nat.not_lt.mpr hheight)
  · rw [if_neg hheight]
    refine ⟨⟨nofun, fun hp => absurd hp.1 hheight⟩, fun error => ⟨fun he => ?_, fun he => ?_⟩⟩
    · cases he
      exact ⟨rfl, Nat.lt_of_not_le hheight⟩
    · rw [he.1]

/-- A member with an empty array of objects and a negative zero. -/
def switchedOff : Payload := .objects [[("a", .objects []), ("b", .double (.ofParts true 0 0))]]

theorem decode_agrees_iff_switchedOff :
    Buffer.encodePayload ⟨(64 : UInt64).toNat, [0]⟩ switchedOff =
        (⟨64, switchedOff.encode⟩, .ok 19) ∧
      ∃ q, Payload.decode switchedOff.encode = .ok q ∧ q.agrees switchedOff = true := by
  have h : Buffer.encodePayload ⟨(64 : UInt64).toNat, [0]⟩ switchedOff =
      (⟨64, switchedOff.encode⟩, .ok 19) := by
    rfl
  exact ⟨h, (decode_agrees_iff 64 [0] _ _ _ h).1.mpr (by decide +kernel)⟩

/-- One object inside the other, and a number in the innermost. -/
def nest : Nat → Value
  | 0 => .int 1
  | n + 1 => .object [("a", nest n)]

/-- The buffer accepts 17 objects that are nested in one another, but they cannot be read back. -/
theorem decode_nest :
    Buffer.encodePayload ⟨(100 : UInt64).toNat, []⟩ (.object [("a", nest 16)]) =
      (⟨100, Payload.encode (.object [("a", nest 16)])⟩, .ok 69) ∧
    Payload.isNumeric (.object [("a", nest 16)]) = true ∧
    Payload.decode (Payload.encode (.object [("a", nest 16)])) = .error .tooDeep := by
  have hheight : ¬Payload.height (.object [("a", nest 16)]) ≤ Decoding.maxDepth := by decide +kernel
  have hdecode := Payload.decode_encode (p := .object [("a", nest 16)]) rfl (by decide +kernel)
  rw [if_neg hheight] at hdecode
  exact ⟨by rfl, by rfl, hdecode⟩

end Buffer

end DeviceClient
