import DeviceClient.Payload.Encoding
import DeviceClient.Proofs.Payload.Size

namespace DeviceClient

namespace Cbor

theorem headForm_writes {major argument : Nat} (hmajor : major < 8) (hargument : argument < 2 ^ 64) :
    HeadForm ⟨major, argument⟩ (Head.writes ⟨major, argument⟩).flatten := by
  have hwide {k : Nat} (hk : k < 4) (hlt : argument < 256 ^ 2 ^ k) :
      HeadForm ⟨major, argument⟩
        (UInt8.ofNat (32 * major + (24 + k)) :: BigEndian.encode (2 ^ k) argument) := by
    have hform := HeadForm.wide hmajor hk (BigEndian.length_encode (2 ^ k) argument)
    rwa [BigEndian.decode_encode hlt] at hform
  unfold Head.writes
  split_ifs with h24 h8 h16 h32
  · exact .short hmajor h24
  · simpa using hwide (show 0 < 4 by decide) h8
  · simpa using hwide (show 1 < 4 by decide) h16
  · simpa using hwide (show 2 < 4 by decide) h32
  · simpa using hwide (show 3 < 4 by decide) hargument

theorem definiteForm_writes {major : Nat} {piece : List UInt8} (hmajor : major < 8)
    (hlength : piece.length < 2 ^ 64) :
    DefiniteForm major piece (Head.writes ⟨major, piece.length⟩ ++ [piece]).flatten := by
  rw [List.flatten_concat]
  exact .intro (headForm_writes hmajor hlength)

end Cbor

namespace Encoding

open Cbor

theorem textForm_text {s : String} (hlength : (Utf8.encode s).length < 2 ^ 64) :
    TextForm s (text s).flatten := by
  have hform : StringForm textString ([s].map Utf8.encode) (text s).flatten :=
    .definite (definiteForm_writes (by decide) hlength)
  have htext := TextForm.intro hform
  rwa [show String.join [s] = s by simp [String.join]] at htext

theorem bytesForm_bytes {bs : List UInt8} (hlength : bs.length < 2 ^ 64) :
    BytesForm bs (bytes bs).flatten := by
  have hform : StringForm byteString [bs] (bytes bs).flatten :=
    .definite (definiteForm_writes (by decide) hlength)
  have hbytes := BytesForm.intro hform
  rwa [List.flatten_singleton] at hbytes

theorem intForm_int (n : Int64) : IntForm n.toInt (int n).flatten := by
  have hlow := n.le_toInt
  have hhigh := n.toInt_lt
  unfold int
  cases hn : n.toInt with
  | ofNat k =>
    have hk : (k : Int) < 2 ^ 63 := by rwa [hn] at hhigh
    exact .nonneg (headForm_writes (by decide) (by omega))
  | negSucc k => exact .neg (headForm_writes (by decide) (by omega))

theorem doubleForm_double (x : Double) : DoubleForm x (double x).flatten := by
  have hform := DoubleForm.double (BigEndian.length_encode 8 x.bits.toNat)
  rw [BigEndian.decode_encode x.bits.toNat_lt, UInt64.ofNat_toNat] at hform
  simpa [double] using hform

theorem boolForm_bool (b : Bool) : BoolForm b (bool b) := by
  cases b with
  | false => exact .no
  | true => exact .yes

end Encoding

namespace Value

/-- The encoding of a value without a fault is a form of it, in which every item has a value. -/
def EncodesToForm (v : Value) : Prop :=
  v.fault? = none → v.size < 2 ^ 64 → v.Form (fun _ => False) v.encode

theorem encodesToForm_array {vs : List Value} (hvs : ∀ v ∈ vs, v.EncodesToForm) :
    EncodesToForm (.array vs) := by
  intro hfault hsize
  have hall := faultOfValues?_eq_none_iff.mp hfault
  rw [encode_array]
  have hvalue (v : Value) (t : List UInt8) (hv : (some v, t) ∈ vs.map fun v => (some v, v.encode)) :
      v.Form (fun _ => False) t := by
    obtain ⟨w, hw, heq⟩ := List.mem_map.mp hv
    cases heq
    exact hvs v hw (hall v hw).2 (Nat.lt_trans (size_lt_sizeOfValues hw) hsize)
  have hform := Form.array _ hvalue (by simp) .indefinite
  simpa [List.filterMap_map, Function.comp_def, List.flatMap_def] using hform

/-- A property as it is encoded. -/
def written (p : String × Value) : WrittenProperty :=
  ⟨p.1, some p.2, (Encoding.text p.1).flatten, p.2.encode⟩

theorem encodesToForm_object {ps : List (String × Value)} (hps : ∀ p ∈ ps, p.2.EncodesToForm) :
    EncodesToForm (.object ps) := by
  intro hfault hsize
  have hall := faultOfProperties?_eq_none_iff.mp hfault
  rw [encode_object]
  have hname : ∀ w ∈ ps.map written, w.name ≠ "" ∧ Cbor.TextForm w.name w.nameBytes := by
    refine List.forall_mem_map.mpr fun p hp => ⟨by simpa [written] using (hall p hp).1, ?_⟩
    exact Encoding.textForm_text (Nat.lt_trans (size_lt_sizeOfProperties hp).1 hsize)
  have hvalue : ∀ w ∈ ps.map written, ∀ v, w.value = some v →
      v.Form (fun _ => False) w.valueBytes := by
    refine List.forall_mem_map.mpr fun p hp v hv => ?_
    cases hv
    exact hps p hp (hall p hp).2 (Nat.lt_trans (size_lt_sizeOfProperties hp).2 hsize)
  have hpassed : ∀ w ∈ ps.map written, w.value = none → False :=
    List.forall_mem_map.mpr fun p _ => nofun
  have hform := Form.object _ hname hvalue hpassed .indefinite
  have hproperties : (ps.map written).filterMap WrittenProperty.property? = ps := by
    simp [List.filterMap_map, Function.comp_def, written, WrittenProperty.property?]
  have hbytes : (ps.map written).map WrittenProperty.bytes = ps.map encodeProperty := by
    rw [List.map_map]
    exact List.map_congr_left fun p _ => (encodeProperty_eq p).symm
  rw [hproperties, hbytes] at hform
  rwa [List.flatMap_def]

theorem encodesToForm_objects {os : List (List (String × Value))}
    (hos : ∀ o ∈ os, ∀ p ∈ o, p.2.EncodesToForm) : EncodesToForm (.objects os) := by
  intro hfault hsize
  have hall := faultOfObjects?_eq_none_iff.mp hfault
  rw [encode_objects]
  have hvalue (o : List (String × Value)) (t : List UInt8)
      (ho : (some o, t) ∈ os.map fun o => (some o, (Value.object o).encode)) :
      (Value.object o).Form (fun _ => False) t := by
    obtain ⟨m, hm, heq⟩ := List.mem_map.mp ho
    cases heq
    exact encodesToForm_object (hos o hm) (hall o hm) (Nat.lt_trans (size_lt_sizeOfObjects hm) hsize)
  have hform := Form.objects _ hvalue (by simp) .indefinite
  simpa [List.filterMap_map, Function.comp_def, List.flatMap_def] using hform

theorem encodesToForm (v : Value) : v.EncodesToForm := by
  induction v using Value.induction with
  | int n => exact fun _ _ => .int (Encoding.intForm_int n)
  | bool b => exact fun _ _ => .bool (by simpa [encode, writes] using Encoding.boolForm_bool b)
  | double x => exact fun _ _ => .double (Encoding.doubleForm_double x)
  | text s => exact fun _ hsize => .text (Encoding.textForm_text hsize)
  | bytes bs => exact fun _ hsize => .bytes (Encoding.bytesForm_bytes hsize)
  | array values ih => exact encodesToForm_array ih
  | object properties ih => exact encodesToForm_object ih
  | objects members ih => exact encodesToForm_objects ih

end Value

namespace Payload

theorem form_encode {p : Payload} (hfault : p.fault? = none) (hsize : p.size < 2 ^ 64) :
    p.Form (fun _ => False) p.encode := by
  cases p with
  | object root => exact .object ((Value.object root).encodesToForm hfault hsize)
  | objects roots =>
    have hall := Value.faultOfObjects?_eq_none_iff.mp hfault
    have hencode : (Payload.objects roots).encode = (Value.objects roots).encode := rfl
    rw [hencode, Value.encode_objects]
    have hvalue : ∀ m ∈ roots.map fun o => (o, (Value.object o).encode),
        (Value.object m.1).Form (fun _ => False) m.2 := by
      refine List.forall_mem_map.mpr fun o ho => ?_
      exact (Value.object o).encodesToForm (hall o ho)
        (Nat.lt_trans (Value.size_lt_sizeOfObjects ho) hsize)
    have hform := Form.objects _ hvalue .indefinite
    simpa [Function.comp_def, List.flatMap_def] using hform

/-- The encoding of a payload without a fault is decoded to its normal form or refused for its
depth. -/
theorem decode_encode_of_size {p : Payload} (hfault : p.fault? = none) (hsize : p.size < 2 ^ 64) :
    decode p.encode = if p.height ≤ Decoding.maxDepth then .ok p.normal else .error .tooDeep :=
  decode_form nofun (form_encode hfault hsize) hfault

theorem decode_encode {p : Payload} (hfault : p.fault? = none)
    (hlength : p.encode.length < 2 ^ 64) :
    decode p.encode = if p.height ≤ Decoding.maxDepth then .ok p.normal else .error .tooDeep :=
  decode_encode_of_size hfault (Nat.lt_trans p.size_lt_length_encode hlength)

end Payload

end DeviceClient
