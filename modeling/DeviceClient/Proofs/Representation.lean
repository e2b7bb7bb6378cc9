import DeviceClient.Proofs.Payload.Agreement
import DeviceClient.Proofs.Value.Equality

namespace DeviceClient

namespace Representation

open Value (Alike)

/-- In equal objects a name means equal values, or nothing in both of them. -/
theorem get?_cases {a b : Representation} (h : a.agrees b = true) (name : String) :
    a.get? name = none ∧ b.get? name = none ∨
      ∃ v w, a.get? name = some v ∧ b.get? name = some w ∧ Alike v w := by
  have hproperties := Value.agreesProperties_iff.mp h
  clear h
  unfold get?
  induction hproperties with
  | nil => exact .inl ⟨rfl, rfl⟩
  | @cons p q ps qs hpq _ ih =>
    obtain ⟨m, v⟩ := p
    obtain ⟨n, w⟩ := q
    obtain ⟨hnames, hvalues⟩ := hpq
    dsimp only at hnames hvalues
    subst hnames
    rw [List.lookup_cons, List.lookup_cons]
    cases name == m with
    | true => exact .inr ⟨v, w, rfl, rfl, Value.alike_of_agrees hvalues⟩
    | false => exact ih

/-- What the getters that ask for a value of one kind, or for an array of objects, answer to a name is
absent on both sides or equal on both sides. -/
structure SameAnswers (a b : Representation) (name : String) : Prop where
  int : a.getInt? name = b.getInt? name
  bool : a.getBool? name = b.getBool? name
  double : Option.Rel (fun x y => x.agrees y = true) (a.getDouble? name) (b.getDouble? name)
  text : a.getText? name = b.getText? name
  bytes : a.getBytes? name = b.getBytes? name
  object : Option.Rel (fun o m => agrees o m = true) (a.getObject? name) (b.getObject? name)
  objects : Option.Rel (fun os ms => Value.agreesObjects os ms = true) (a.getObjects? name)
    (b.getObjects? name)

/-- What the getter of arrays of values answers to a name is absent on both sides or equal. -/
def SameArray (a b : Representation) (name : String) : Prop :=
  Option.Rel (fun vs ws => Value.agreesValues vs ws = true) (a.getArray? name) (b.getArray? name)

/-- One is an empty array of values and the other an empty array of objects. -/
inductive EmptyOfTwoKinds : Option Value → Option Value → Prop
  | values : EmptyOfTwoKinds (some (.array [])) (some (.objects []))
  | objects : EmptyOfTwoKinds (some (.objects [])) (some (.array []))

theorem filterMap_text_eq {vs ws : List Value} (h : Value.agreesValues vs ws = true) :
    (vs.filterMap fun
      | .text s => some s
      | _ => none) = ws.filterMap fun
      | .text s => some s
      | _ => none := by
  have hvalues := Value.agreesValues_iff.mp h
  clear h
  induction hvalues with
  | nil => rfl
  | cons hvw _ ih =>
    cases Value.alike_of_agrees hvw with
    | text s => exact congrArg (List.cons s) ih
    | _ => exact ih

section

variable {a b : Representation} (h : a.agrees b = true) (name : String)

include h

theorem sameAnswers_of_agrees : SameAnswers a b name := by
  rcases get?_cases h name with ⟨ha, hb⟩ | ⟨v, w, ha, hb, halike⟩
  · constructor
    case int => simp only [getInt?, ha, hb]
    case bool => simp only [getBool?, ha, hb]
    case double => simpa only [getDouble?, ha, hb] using .none
    case text => simp only [getText?, ha, hb]
    case bytes => simp only [getBytes?, ha, hb]
    case object => simpa only [getObject?, ha, hb] using .none
    case objects => simpa only [getObjects?, ha, hb] using .none
  · constructor
    case int =>
      simp only [getInt?, ha, hb]
      cases halike <;> rfl
    case bool =>
      simp only [getBool?, ha, hb]
      cases halike <;> rfl
    case double =>
      simp only [getDouble?, ha, hb]
      cases halike with
      | double hxy => exact .some hxy
      | _ => exact .none
    case text =>
      simp only [getText?, ha, hb]
      cases halike <;> rfl
    case bytes =>
      simp only [getBytes?, ha, hb]
      cases halike <;> rfl
    case object =>
      simp only [getObject?, ha, hb]
      cases halike with
      | object hproperties => exact .some hproperties
      | _ => exact .none
    case objects =>
      simp only [getObjects?, ha, hb]
      cases halike with
      | @array vs ws hvalues =>
        -- Only an empty array of values is an array of objects too.
        cases vs with
        | nil =>
          cases ws with
          | nil => exact .some rfl
          | cons w ws => cases hvalues
        | cons v vs =>
          cases ws with
          | nil => cases hvalues
          | cons w ws => exact .none
      | objects hmembers => exact .some hmembers
      | emptyArray => exact .some rfl
      | emptyObjects => exact .some rfl
      | _ => exact .none

theorem sameArray_iff : SameArray a b name ↔ ¬EmptyOfTwoKinds (a.get? name) (b.get? name) := by
  unfold SameArray
  rcases get?_cases h name with ⟨ha, hb⟩ | ⟨v, w, ha, hb, halike⟩
  · simp only [getArray?, ha, hb]
    exact ⟨fun _ => nofun, fun _ => .none⟩
  · simp only [getArray?, ha, hb]
    cases halike with
    | array hvalues => exact ⟨fun _ => nofun, fun _ => .some hvalues⟩
    | emptyArray => exact ⟨nofun, fun hne => absurd .values hne⟩
    | emptyObjects => exact ⟨nofun, fun hne => absurd .objects hne⟩
    | _ => exact ⟨fun _ => nofun, fun _ => .none⟩

theorem getTexts?_eq_iff :
    a.getTexts? name = b.getTexts? name ↔ ¬EmptyOfTwoKinds (a.get? name) (b.get? name) := by
  rw [← sameArray_iff h name]
  unfold SameArray getTexts?
  rcases get?_cases h name with ⟨ha, hb⟩ | ⟨v, w, ha, hb, halike⟩
  · simp only [getArray?, ha, hb]
    exact ⟨fun _ => .none, fun _ => trivial⟩
  · simp only [getArray?, ha, hb]
    cases halike with
    | array hvalues =>
      exact ⟨fun _ => .some hvalues, fun _ => congrArg some (filterMap_text_eq hvalues)⟩
    | emptyArray => exact ⟨nofun, nofun⟩
    | emptyObjects => exact ⟨nofun, nofun⟩
    | _ => exact ⟨fun _ => .none, fun _ => rfl⟩

end

theorem get?_normalProperties (r : Representation) (name : String) :
    get? (Value.normalProperties r) name = (r.get? name).map Value.normal := by
  unfold get?
  induction r with
  | nil => rfl
  | cons p r ih =>
    obtain ⟨n, v⟩ := p
    rw [Value.normalProperties, Value.normalProperty, List.lookup_cons, List.lookup_cons]
    cases name == n with
    | true => rfl
    | false => exact ih

theorem emptyOfTwoKinds_normal_iff {v : Option Value} :
    EmptyOfTwoKinds (v.map Value.normal) v ↔ v = some (.objects []) := by
  constructor
  · intro h
    generalize hw : v.map Value.normal = w at h
    cases h with
    | values => rfl
    | objects => cases hw
  · rintro rfl
    exact .values

/-- What is read back of an object that a buffer has accepted is its normal form. -/
theorem eq_normal_of_decodeObject {capacity : UInt64} {held : List UInt8} {r q : Representation}
    {b : Buffer} {n : Nat} (hencode : Buffer.encode ⟨capacity.toNat, held⟩ r = (b, .ok n))
    (hdecode : Payload.decodeObject b.content = .ok q) : q = Value.normalProperties r := by
  obtain ⟨hfault, hbytes, hlength⟩ := Buffer.encodable_of_encode hencode
  have hread : Payload.decode r.encode =
      if (Payload.object r).height ≤ Decoding.maxDepth then
        .ok (.object (Value.normalProperties r))
      else .error .tooDeep := Payload.decode_encode (p := .object r) hfault hlength
  simp only [Payload.decodeObject, hbytes, hread] at hdecode
  split_ifs at hdecode
  · cases hdecode
    rfl
  · cases hdecode

/-- In equal objects, all getters give equal answers to a name, or none on both sides, but for the
getters of arrays of values and of their texts: these do exactly when the name does not mean an empty
array of values in one object and an empty array of objects in the other. So an object whose doubles
are numbers, and that is encoded and decoded, keeps all answers but those of these two getters where
it has an empty array of objects. -/
theorem getters_agree_iff (name : String) :
    (∀ a b : Representation, a.agrees b = true →
      SameAnswers a b name ∧
      (SameArray a b name ↔ ¬EmptyOfTwoKinds (a.get? name) (b.get? name)) ∧
      (a.getTexts? name = b.getTexts? name ↔ ¬EmptyOfTwoKinds (a.get? name) (b.get? name))) ∧
    ∀ (r q : Representation) (capacity : UInt64) (held : List UInt8) (b : Buffer) (n : Nat),
      Value.isNumericProperties r = true →
      Buffer.encode ⟨capacity.toNat, held⟩ r = (b, .ok n) →
      Payload.decodeObject b.content = .ok q →
        SameAnswers q r name ∧
        (SameArray q r name ↔ r.get? name ≠ some (.objects [])) ∧
        (q.getTexts? name = r.getTexts? name ↔ r.get? name ≠ some (.objects [])) := by
  refine ⟨fun a b h => ?_, fun r q capacity held b n hnumeric hencode hdecode => ?_⟩
  · exact ⟨sameAnswers_of_agrees h name, sameArray_iff h name, getTexts?_eq_iff h name⟩
  · obtain rfl := eq_normal_of_decodeObject hencode hdecode
    have hagrees : agrees (Value.normalProperties r) r = true :=
      (Value.agreesProperties_normal fun p _ => p.2.agreesNormal).trans hnumeric
    have hempty : EmptyOfTwoKinds (get? (Value.normalProperties r) name) (r.get? name) ↔
        r.get? name = some (.objects []) := by
      rw [get?_normalProperties, emptyOfTwoKinds_normal_iff]
    have harray := sameArray_iff hagrees name
    have htexts := getTexts?_eq_iff hagrees name
    rw [hempty] at harray htexts
    exact ⟨sameAnswers_of_agrees hagrees name, harray, htexts⟩

/-- A name that means an empty array of objects first and a number after it, and a text beside an empty
array inside an array. -/
theorem getters_agree_iff_lamp :
    agrees [("l", .objects []), ("l", .int 1)] [("l", .array []), ("l", .int 1)] = true ∧
      SameAnswers [("l", .objects []), ("l", .int 1)] [("l", .array []), ("l", .int 1)] "l" ∧
      Buffer.encode ⟨(16 : UInt64).toNat, [0]⟩ [("l", .array [.objects [], .text "on"])] =
        (⟨16, [0xbf, 0x61, 0x6c, 0x9f, 0x9f, 0xff, 0x62, 0x6f, 0x6e, 0xff, 0xff]⟩, .ok 11) ∧
      Payload.decodeObject
          [0xbf, 0x61, 0x6c, 0x9f, 0x9f, 0xff, 0x62, 0x6f, 0x6e, 0xff, 0xff] =
        .ok [("l", .array [.array [], .text "on"])] ∧
      SameArray [("l", .array [.array [], .text "on"])] [("l", .array [.objects [], .text "on"])]
        "l" := by
  have hagrees :
      agrees [("l", .objects []), ("l", .int 1)] [("l", .array []), ("l", .int 1)] = true := by
    rfl
  have hencode :
      Buffer.encode ⟨(16 : UInt64).toNat, [0]⟩ [("l", .array [.objects [], .text "on"])] =
        (⟨16, [0xbf, 0x61, 0x6c, 0x9f, 0x9f, 0xff, 0x62, 0x6f, 0x6e, 0xff, 0xff]⟩, .ok 11) := by
    rfl
  have hdecode : Payload.decodeObject
      [0xbf, 0x61, 0x6c, 0x9f, 0x9f, 0xff, 0x62, 0x6f, 0x6e, 0xff, 0xff] =
        .ok [("l", .array [.array [], .text "on"])] := by
    rfl
  obtain ⟨hequal, hread⟩ := getters_agree_iff "l"
  have hback := hread [("l", .array [.objects [], .text "on"])] _ 16 [0] _ 11 rfl hencode hdecode
  exact ⟨hagrees, (hequal _ _ hagrees).1, hencode, hdecode, hback.2.1.mpr nofun⟩

/-- Two objects that are equal. The array is there in one and absent in the other, and so are its texts,
while the array of objects is there in both. -/
theorem getArray?_empty_of_two_kinds :
    agrees [("l", .array [])] [("l", .objects [])] = true ∧
      getArray? [("l", .array [])] "l" = some [] ∧ getArray? [("l", .objects [])] "l" = none ∧
      getTexts? [("l", .array [])] "l" = some [] ∧ getTexts? [("l", .objects [])] "l" = none ∧
      getObjects? [("l", .array [])] "l" = some [] ∧
      getObjects? [("l", .objects [])] "l" = some [] := by
  exact ⟨rfl, rfl, rfl, rfl, rfl, rfl, rfl⟩

end Representation

end DeviceClient
