import Mathlib.Algebra.GroupWithZero.Nat
import DeviceClient.Proofs.Payload.Form

namespace DeviceClient

namespace Utf8

theorem encode_join (texts : List String) :
    encode (String.join texts) = texts.flatMap encode := by
  induction texts with
  | nil => rfl
  | cons t texts ih =>
    rw [List.flatMap_cons, ← ih]
    simp [encode]

end Utf8

namespace Cbor

theorem HeadForm.length_pos {h : Head} {s : List UInt8} (hform : HeadForm h s) : 0 < s.length := by
  cases hform <;> exact Nat.zero_lt_succ _

theorem DefiniteForm.length_lt {major : Nat} {piece s : List UInt8}
    (h : DefiniteForm major piece s) : piece.length < s.length := by
  obtain ⟨hhead⟩ := h
  have hpos := hhead.length_pos
  rw [List.length_append]
  omega

theorem StringForm.length_lt {major : Nat} {pieces : List (List UInt8)} {s : List UInt8}
    (h : StringForm major pieces s) : pieces.flatten.length < s.length := by
  cases h with
  | definite h =>
    rw [List.flatten_singleton]
    exact h.length_lt
  | indefinite chunks h =>
    have hle : (chunks.map Prod.fst).flatten.length ≤ (chunks.flatMap Prod.snd).length := by
      induction chunks with
      | nil => exact Nat.le_refl _
      | cons c chunks ih =>
        obtain ⟨hc, hchunks⟩ := List.forall_mem_cons.mp h
        have hlt := hc.length_lt
        have hrest := ih hchunks
        rw [List.map_cons, List.flatten_cons, List.flatMap_cons, List.length_append,
          List.length_append]
        omega
    rw [List.length_cons, List.length_append]
    omega

theorem TextForm.length_lt {t : String} {s : List UInt8} (h : TextForm t s) :
    (Utf8.encode t).length < s.length := by
  obtain ⟨h⟩ := h
  have hlt := h.length_lt
  rwa [← List.flatMap_def, ← Utf8.encode_join] at hlt

theorem BytesForm.length_lt {content s : List UInt8} (h : BytesForm content s) :
    content.length < s.length := by
  obtain ⟨h⟩ := h
  exact h.length_lt

theorem ContainerForm.length_lt {major : Nat} {entries : List (List UInt8)} {s : List UInt8}
    (h : ContainerForm major entries s) : entries.flatten.length < s.length := by
  cases h with
  | definite hhead =>
    have hpos := hhead.length_pos
    rw [List.length_append]
    omega
  | indefinite =>
    rw [List.length_cons, List.length_append]
    omega

theorem Head.length_writes_pos (h : Head) : 0 < h.writes.flatten.length := by
  unfold Head.writes
  split_ifs <;> exact Nat.zero_lt_succ _

end Cbor

namespace Value

mutual

/-- The number of properties and elements in the value, and of bytes in its names and strings. -/
def size : Value → Nat
  | .text s => (Utf8.encode s).length
  | .bytes bs => bs.length
  | .array values => sizeOfValues values
  | .object properties => sizeOfProperties properties
  | .objects members => sizeOfObjects members
  | _ => 0
termination_by structural v => v

def sizeOfValues : List Value → Nat
  | [] => 0
  | v :: vs => size v + 1 + sizeOfValues vs
termination_by structural vs => vs

def sizeOfProperty : String × Value → Nat
  | (name, v) => (Utf8.encode name).length + size v + 1
termination_by structural p => p

def sizeOfProperties : List (String × Value) → Nat
  | [] => 0
  | p :: ps => sizeOfProperty p + sizeOfProperties ps
termination_by structural ps => ps

def sizeOfObjects : List (List (String × Value)) → Nat
  | [] => 0
  | o :: os => sizeOfProperties o + 1 + sizeOfObjects os
termination_by structural os => os

end

theorem sizeOfValues_eq_sum (vs : List Value) :
    sizeOfValues vs = (vs.map fun v => v.size + 1).sum := by
  induction vs with
  | nil => rfl
  | cons v vs ih => rw [sizeOfValues, ih, List.map_cons, List.sum_cons]

theorem sizeOfProperties_eq_sum (ps : List (String × Value)) :
    sizeOfProperties ps = (ps.map sizeOfProperty).sum := by
  induction ps with
  | nil => rfl
  | cons p ps ih => rw [sizeOfProperties, ih, List.map_cons, List.sum_cons]

theorem sizeOfObjects_eq_sum (os : List (List (String × Value))) :
    sizeOfObjects os = (os.map fun o => sizeOfProperties o + 1).sum := by
  induction os with
  | nil => rfl
  | cons o os ih => rw [sizeOfObjects, ih, List.map_cons, List.sum_cons]

theorem size_lt_sizeOfValues {vs : List Value} {v : Value} (h : v ∈ vs) :
    v.size < sizeOfValues vs := by
  induction vs with
  | nil => cases h
  | cons w vs ih =>
    rw [sizeOfValues]
    rcases List.mem_cons.mp h with rfl | h
    · omega
    · have hlt := ih h
      omega

theorem size_lt_sizeOfProperties {ps : List (String × Value)} {p : String × Value} (h : p ∈ ps) :
    (Utf8.encode p.1).length < sizeOfProperties ps ∧ p.2.size < sizeOfProperties ps := by
  induction ps with
  | nil => cases h
  | cons q ps ih =>
    obtain ⟨name, v⟩ := q
    rw [sizeOfProperties, sizeOfProperty]
    rcases List.mem_cons.mp h with rfl | h
    · dsimp only
      omega
    · have hlt := ih h
      omega

theorem size_lt_sizeOfObjects {os : List (List (String × Value))} {o : List (String × Value)}
    (h : o ∈ os) : (Value.object o).size < sizeOfObjects os := by
  rw [size]
  induction os with
  | nil => cases h
  | cons o' os ih =>
    rw [sizeOfObjects]
    rcases List.mem_cons.mp h with rfl | h
    · omega
    · have hlt := ih h
      omega

/-- Entries are no longer than the bytes that they are written as, when each of them is not. -/
theorem sum_filterMap_le {β γ : Type} {items : List β} {value : β → Option γ} {weight : γ → Nat}
    {write : β → List UInt8}
    (h : ∀ b ∈ items, ∀ c, value b = some c → weight c ≤ (write b).length) :
    ((items.filterMap value).map weight).sum ≤ (items.map write).flatten.length := by
  induction items with
  | nil => exact Nat.le_refl _
  | cons b items ih =>
    obtain ⟨hb, hitems⟩ := List.forall_mem_cons.mp h
    have hrest := ih hitems
    rw [List.map_cons, List.flatten_cons, List.length_append]
    cases hc : value b with
    | none =>
      rw [List.filterMap_cons_none hc]
      omega
    | some c =>
      have hle := hb c hc
      rw [List.filterMap_cons_some hc, List.map_cons, List.sum_cons]
      omega

theorem sum_map_le {β : Type} {items : List β} {weight : β → Nat} {write : β → List UInt8}
    (h : ∀ b ∈ items, weight b ≤ (write b).length) :
    (items.map weight).sum ≤ (items.flatMap write).length := by
  have hle : ((items.filterMap some).map weight).sum ≤ (items.map write).flatten.length :=
    sum_filterMap_le fun b hb c hc => Option.some.inj hc ▸ h b hb
  rwa [List.filterMap_some, ← List.flatMap_def] at hle

/-- A value is smaller than any of its forms is long. -/
theorem Form.size_lt {passed : List UInt8 → Prop} {v : Value} {s : List UInt8}
    (h : v.Form passed s) : v.size < s.length := by
  have hpos {v : Value} {s : List UInt8} (h : v.Form passed s) : 0 < s.length := by
    refine List.length_pos_iff.mpr ?_
    rintro rfl
    cases h.kind? []
  induction h with
  | int h => exact hpos (.int h)
  | bool h => exact hpos (.bool h)
  | double h => exact hpos (.double h)
  | text h => exact h.length_lt
  | bytes h => exact h.length_lt
  | array elements hvalue hnone hform ih =>
    have hle : ∀ e ∈ elements, ∀ v, e.1 = some v → v.size + 1 ≤ e.2.length :=
      fun e he v hv => ih v e.2 (hv ▸ he)
    rw [size, sizeOfValues_eq_sum]
    exact Nat.lt_of_le_of_lt (sum_filterMap_le hle) hform.length_lt
  | object entries hname hvalue hnone hform ih =>
    have hle : ∀ p ∈ entries, ∀ q, p.property? = some q → sizeOfProperty q ≤ p.bytes.length := by
      intro p hp q hq
      obtain ⟨v, hv, rfl⟩ := Option.map_eq_some_iff.mp hq
      have hnameLength := (hname p hp).2.length_lt
      have hvalueLength := ih p hp v hv
      rw [sizeOfProperty, WrittenProperty.bytes, List.length_append]
      omega
    rw [size, sizeOfProperties_eq_sum]
    exact Nat.lt_of_le_of_lt (sum_filterMap_le hle) hform.length_lt
  | objects elements hvalue hnone hform ih =>
    have hle : ∀ e ∈ elements, ∀ m, e.1 = some m → sizeOfProperties m + 1 ≤ e.2.length :=
      fun e he m hm => ih m e.2 (hm ▸ he)
    rw [size, sizeOfObjects_eq_sum]
    exact Nat.lt_of_le_of_lt (sum_filterMap_le hle) hform.length_lt

theorem length_text_lt (s : String) : (Utf8.encode s).length < (Encoding.text s).flatten.length := by
  have hpos := Cbor.Head.length_writes_pos ⟨Cbor.textString, (Utf8.encode s).length⟩
  rw [Encoding.text, List.flatten_concat, List.length_append]
  omega

theorem sizeOfProperty_le {p : String × Value} (h : p.2.size < p.2.encode.length) :
    sizeOfProperty p ≤ (encodeProperty p).length := by
  obtain ⟨name, v⟩ := p
  have hname := length_text_lt name
  rw [sizeOfProperty, encodeProperty_eq, List.length_append]
  dsimp only at h ⊢
  omega

theorem sizeOfProperties_lt {ps : List (String × Value)}
    (h : ∀ p ∈ ps, p.2.size < p.2.encode.length) :
    sizeOfProperties ps < (Value.object ps).encode.length := by
  have hle : (ps.map sizeOfProperty).sum ≤ (ps.flatMap encodeProperty).length :=
    sum_map_le fun p hp => sizeOfProperty_le (h p hp)
  rw [sizeOfProperties_eq_sum, encode_object, List.length_cons, List.length_append]
  exact Nat.lt_succ_of_le (Nat.le_trans hle (Nat.le_add_right _ _))

/-- A value is smaller than its encoding is long. -/
theorem size_lt_length_encode (v : Value) : v.size < v.encode.length := by
  induction v using Value.induction with
  | int n =>
    rw [encode, writes, Encoding.int]
    cases n.toInt <;> exact Cbor.Head.length_writes_pos _
  | bool b => exact Nat.zero_lt_one
  | double x => exact Nat.zero_lt_succ _
  | text s => exact length_text_lt s
  | bytes bs =>
    have hpos := Cbor.Head.length_writes_pos ⟨Cbor.byteString, bs.length⟩
    rw [size, encode, writes, Encoding.bytes, List.flatten_concat, List.length_append]
    omega
  | array values ih =>
    have hle := sum_map_le ih
    rw [size, sizeOfValues_eq_sum, encode_array, List.length_cons, List.length_append]
    exact Nat.lt_succ_of_le (Nat.le_trans hle (Nat.le_add_right _ _))
  | object properties ih => exact sizeOfProperties_lt ih
  | objects members ih =>
    have hle : (members.map fun o => sizeOfProperties o + 1).sum ≤
        (members.flatMap fun o => (Value.object o).encode).length :=
      sum_map_le fun o ho => sizeOfProperties_lt (ih o ho)
    rw [size, sizeOfObjects_eq_sum, encode_objects, List.length_cons, List.length_append]
    exact Nat.lt_succ_of_le (Nat.le_trans hle (Nat.le_add_right _ _))

end Value

namespace Payload

/-- The number of properties and elements in the payload, and of bytes in its names and strings. -/
def size : Payload → Nat
  | .object root => Value.sizeOfProperties root
  | .objects roots => Value.sizeOfObjects roots

theorem Form.size_lt {passed : List UInt8 → Prop} {p : Payload} {s : List UInt8}
    (h : p.Form passed s) : p.size < s.length := by
  cases h with
  | object h => exact h.size_lt
  | objects members h hform =>
    have hle : (members.map fun m => Value.sizeOfProperties m.1 + 1).sum ≤
        (members.flatMap Prod.snd).length := Value.sum_map_le fun m hm => (h m hm).size_lt
    have hlt := hform.length_lt
    rw [size, Value.sizeOfObjects_eq_sum, List.map_map]
    rw [← List.flatMap_def] at hlt
    exact Nat.lt_of_le_of_lt hle hlt

theorem size_lt_length_encode (p : Payload) : p.size < p.encode.length := by
  cases p with
  | object root => exact (Value.object root).size_lt_length_encode
  | objects roots => exact (Value.objects roots).size_lt_length_encode

end Payload

end DeviceClient
