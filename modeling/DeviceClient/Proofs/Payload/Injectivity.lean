import DeviceClient.Proofs.Payload.Buffer
import DeviceClient.Proofs.Value.Equality

namespace DeviceClient

namespace Value

theorem encode_normalProperties {ps : List (String × Value)}
    (h : ∀ p ∈ ps, p.2.normal.encode = p.2.encode) :
    (object (normalProperties ps)).encode = (object ps).encode := by
  have hproperty : ∀ p ∈ ps, encodeProperty (p.1, p.2.normal) = encodeProperty p := by
    intro p hp
    rw [encodeProperty_eq, encodeProperty_eq, h p hp]
  rw [encode_object, encode_object, normalProperties_eq_map, List.flatMap_map,
    List.flatMap_congr hproperty]

theorem encode_normal (v : Value) : v.normal.encode = v.encode := by
  induction v using Value.induction with
  | int n => rfl
  | bool b => rfl
  | double x => rfl
  | text s => rfl
  | bytes bs => rfl
  | array values ih =>
    rw [normal, encode_array, encode_array, normalValues_eq_map, List.flatMap_map,
      List.flatMap_congr ih]
  | object properties ih => exact encode_normalProperties ih
  | objects members ih =>
    cases members with
    | nil => rfl
    | cons o os =>
      have hmember : ∀ m ∈ o :: os, (object (normalProperties m)).encode = (object m).encode :=
        fun m hm => encode_normalProperties (ih m hm)
      have hnormal : (objects (o :: os)).normal = objects ((o :: os).map normalProperties) := by
        rw [normal, List.isEmpty_cons, normalObjects_eq_map]
        rfl
      rw [hnormal, encode_objects, encode_objects, List.flatMap_map, List.flatMap_congr hmember]

/-- With enough levels left, the normal form of a value is read from its bytes. -/
theorem readValue_encode {v : Value} (hfault : v.fault? = none) (hsize : v.size < 2 ^ 64)
    {levels : Nat} (hheight : v.height ≤ levels) :
    Decoding.readValue (Decoding.containers levels) v.encode = .ok (some v.normal, []) := by
  have hform := v.encodesToForm hfault hsize
  have hread := (hform.readFrom nofun hfault).2 levels []
  rw [List.append_nil] at hread
  exact hread.trans (if_pos hheight)

theorem encode_eq_iff {v w : Value} (hv : v.fault? = none) (hw : w.fault? = none)
    (hvlength : v.encode.length < 2 ^ 64) (hwlength : w.encode.length < 2 ^ 64) :
    v.encode = w.encode ↔ v.normal = w.normal := by
  constructor
  · intro hencode
    have hvsize : v.size < 2 ^ 64 := Nat.lt_trans v.size_lt_length_encode hvlength
    have hwsize : w.size < 2 ^ 64 := Nat.lt_trans w.size_lt_length_encode hwlength
    -- One reader, with levels enough for both, reads both normal forms from the same bytes.
    have hfirst := readValue_encode hv hvsize (Nat.le_max_left v.height w.height)
    have hsecond := readValue_encode hw hwsize (Nat.le_max_right v.height w.height)
    rw [hencode, hsecond] at hfirst
    obtain ⟨hvalues, -⟩ := Prod.mk.inj (Except.ok.inj hfirst)
    exact (Option.some.inj hvalues).symm
  · intro hnormal
    rw [← v.encode_normal, hnormal, w.encode_normal]

/-- Equality is an equivalence on values without NaN and negative zeros. -/
theorem equivalence_agrees :
    Equivalence fun a b : {v : Value // v.Proper} => a.1.agrees b.1 = true where
  refl a := (agrees_iff_normal_eq a.2 a.2).mpr rfl
  symm {a b} hab := by
    have hnormal := (agrees_iff_normal_eq a.2 b.2).mp hab
    exact (agrees_iff_normal_eq b.2 a.2).mpr hnormal.symm
  trans {a b c} hab hbc := by
    have hfirst := (agrees_iff_normal_eq a.2 b.2).mp hab
    have hsecond := (agrees_iff_normal_eq b.2 c.2).mp hbc
    exact (agrees_iff_normal_eq a.2 c.2).mpr (hfirst.trans hsecond)

end Value

namespace Buffer

/-- Values that can be encoded have the same bytes exactly when they differ at most in empty arrays of
values for empty arrays of objects; and without NaN and negative zeros exactly when they are equal. The
same holds of the objects that two buffers have accepted and of what these then hold. So equality is
an equivalence there. (No encoding has `2 ^ 64` bytes or more.) -/
theorem agrees_iff_same_bytes :
    (∀ v w : Value, v.WellFormed → w.WellFormed → v.encode.length < 2 ^ 64 →
      w.encode.length < 2 ^ 64 →
      (v.encode = w.encode ↔ v.normal = w.normal) ∧
      (v.Proper → w.Proper → (v.agrees w = true ↔ v.encode = w.encode))) ∧
    (∀ (r s : Representation) (capacity capacity' : UInt64) (held held' : List UInt8)
      (b b' : Buffer) (n n' : Nat),
      encode ⟨capacity.toNat, held⟩ r = (b, .ok n) →
      encode ⟨capacity'.toNat, held'⟩ s = (b', .ok n') →
      (b.content = b'.content ↔ Value.normalProperties r = Value.normalProperties s) ∧
      ((Value.object r).Proper → (Value.object s).Proper →
        (r.agrees s = true ↔ b.content = b'.content))) ∧
    Equivalence fun a b : {v : Value // v.Proper} => a.1.agrees b.1 = true := by
  refine ⟨?_, ?_, Value.equivalence_agrees⟩
  · intro v w hv hw hvlength hwlength
    have hbytes := Value.encode_eq_iff hv.fault?_eq_none hw.fault?_eq_none hvlength hwlength
    refine ⟨hbytes, fun hvproper hwproper => ?_⟩
    rw [hbytes]
    exact Value.agrees_iff_normal_eq hvproper hwproper
  · intro r s capacity capacity' held held' b b' n n' hr hs
    obtain ⟨hrfault, hrbytes, hrlength⟩ := encodable_of_encode hr
    obtain ⟨hsfault, hsbytes, hslength⟩ := encodable_of_encode hs
    have hbytes : r.encode = s.encode ↔ (Value.object r).normal = (Value.object s).normal :=
      Value.encode_eq_iff hrfault hsfault hrlength hslength
    rw [Value.normal, Value.normal, Value.object.injEq] at hbytes
    rw [hrbytes, hsbytes]
    refine ⟨hbytes, fun hrproper hsproper => ?_⟩
    have hagrees := Value.agrees_iff_normal_eq hrproper hsproper
    rw [Value.normal, Value.normal, Value.object.injEq, ← hbytes] at hagrees
    exact hagrees

/-- Nested empty arrays of the two kinds, and a number that is told by its sign. -/
theorem agrees_iff_same_bytes_lamp :
    (Value.array [.objects [], .double (.ofParts true 1023 0)]).encode =
        (Value.array [.array [], .double (.ofParts true 1023 0)]).encode ∧
      (Value.array [.objects [], .double (.ofParts true 1023 0)]).agrees
        (.array [.array [], .double (.ofParts true 1023 0)]) = true ∧
      encode ⟨(8 : UInt64).toNat, [0]⟩ [("a", .objects [])] =
        (⟨8, [0xbf, 0x61, 0x61, 0x9f, 0xff, 0xff]⟩, .ok 6) ∧
      encode ⟨(6 : UInt64).toNat, []⟩ [("a", .array [])] =
        (⟨6, [0xbf, 0x61, 0x61, 0x9f, 0xff, 0xff]⟩, .ok 6) ∧
      Representation.agrees [("a", .objects [])] [("a", .array [])] = true := by
  have hwell {v : Value} (hobject : v.isObject = false) (hv : v.WellFormed) :
      (Value.array [v, .double (.ofParts true 1023 0)]).WellFormed :=
    .array (by simpa using ⟨hobject, rfl⟩) (by simpa using ⟨hv, .double _⟩)
  have hproper {v : Value} (hv : v.Proper) :
      (Value.array [v, .double (.ofParts true 1023 0)]).Proper :=
    .array (by simpa using ⟨hv, .double (by decide)⟩)
  have hvalues := agrees_iff_same_bytes.1
    (.array [.objects [], .double (.ofParts true 1023 0)])
    (.array [.array [], .double (.ofParts true 1023 0)])
    (hwell rfl (.objects nofun)) (hwell rfl (.array nofun nofun)) (by decide +kernel)
    (by decide +kernel)
  have hsame := hvalues.1.mpr rfl
  have hobjects : encode ⟨(8 : UInt64).toNat, [0]⟩ [("a", .objects [])] =
      (⟨8, [0xbf, 0x61, 0x61, 0x9f, 0xff, 0xff]⟩, .ok 6) := by
    rfl
  have harray : encode ⟨(6 : UInt64).toNat, []⟩ [("a", .array [])] =
      (⟨6, [0xbf, 0x61, 0x61, 0x9f, 0xff, 0xff]⟩, .ok 6) := by
    rfl
  have hagrees := (agrees_iff_same_bytes.2.1 _ _ 8 6 _ _ _ _ _ _ hobjects harray).2
    (.object (by simpa using .objects nofun)) (.object (by simpa using .array nofun))
  exact ⟨hsame, (hvalues.2 (hproper (.objects nofun)) (hproper (.array nofun))).mpr hsame, hobjects,
    harray, hagrees.mpr rfl⟩

end Buffer

end DeviceClient
