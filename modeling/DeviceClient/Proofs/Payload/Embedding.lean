import Mathlib.Data.List.Basic
import DeviceClient.Proofs.Payload.Capacity

namespace DeviceClient

namespace Value

/-- The object is the value or is nested in it, at any depth. -/
inductive Holds (r : Representation) : Value → Prop
  | here : Holds r (.object r)
  | element {values : List Value} {v : Value} (hv : v ∈ values) (h : Holds r v) :
      Holds r (.array values)
  | property {properties : List (String × Value)} {p : String × Value} (hp : p ∈ properties)
      (h : Holds r p.2) : Holds r (.object properties)
  | member {members : List (List (String × Value))} {m : List (String × Value)}
      (hm : m ∈ members) (h : Holds r (.object m)) : Holds r (.objects members)

/-- The bytes of an entry stand in those of its container. -/
theorem infix_of_entry {α : Type} {entries : List α} {a : α} (ha : a ∈ entries)
    {write : α → List UInt8} {bs : List UInt8} (h : bs <:+: write a) (first last : UInt8) :
    bs <:+: first :: (entries.flatMap write ++ [last]) := by
  have hentry : write a <:+: entries.flatMap write := by
    rw [List.flatMap_def]
    exact List.infix_of_mem_flatten (List.mem_map_of_mem ha)
  have hentries := List.prefix_append (entries.flatMap write) [last]
  have hcontainer := List.suffix_cons first (entries.flatMap write ++ [last])
  exact ((h.trans hentry).trans hentries.isInfix).trans hcontainer.isInfix

variable {r : Representation} {v : Value}

theorem Holds.infix (h : Holds r v) : r.encode <:+: v.encode := by
  induction h with
  | here => exact List.infix_rfl
  | element hv _ ih =>
    rw [encode_array]
    exact infix_of_entry hv ih _ _
  | @property properties p hp _ ih =>
    have hproperty : r.encode <:+: encodeProperty p := by
      rw [encodeProperty_eq]
      exact ih.trans (List.suffix_append _ _).isInfix
    rw [encode_object]
    exact infix_of_entry hp hproperty _ _
  | member hm _ ih =>
    rw [encode_objects]
    exact infix_of_entry hm ih _ _

theorem Holds.fault?_eq_none (h : Holds r v) (hfault : v.fault? = none) : r.fault? = none := by
  induction h with
  | here => exact hfault
  | element hv _ ih => exact ih (faultOfValues?_eq_none_iff.mp hfault _ hv).2
  | property hp _ ih => exact ih (faultOfProperties?_eq_none_iff.mp hfault _ hp).2
  | member hm _ ih => exact ih (faultOfObjects?_eq_none_iff.mp hfault _ hm)

end Value

namespace Payload

/-- The object is in the payload, at any depth. -/
def Holds (r : Representation) : Payload → Prop
  | .object root => Value.Holds r (.object root)
  | .objects roots => Value.Holds r (.objects roots)

theorem Holds.infix {r : Representation} {p : Payload} (h : Holds r p) :
    r.encode <:+: p.encode := by
  cases p with
  | object root => exact Value.Holds.infix h
  | objects roots => exact Value.Holds.infix h

theorem Holds.fault?_eq_none {r : Representation} {p : Payload} (h : Holds r p)
    (hfault : p.fault? = none) : r.fault? = none := by
  cases p with
  | object root => exact Value.Holds.fault?_eq_none h hfault
  | objects roots => exact Value.Holds.fault?_eq_none h hfault

end Payload

namespace Buffer

theorem encodePayload_of_fits (b : Buffer) {p : Payload} (hfault : p.fault? = none)
    (hfits : p.encode.length ≤ b.capacity) :
    b.encodePayload p = (⟨b.capacity, p.encode⟩, .ok p.encode.length) :=
  (exact_encodePayload b hfault).eq_taken hfits

theorem encode_of_fits (b : Buffer) {r : Representation} (hfault : r.fault? = none)
    (hfits : r.encode.length ≤ b.capacity) :
    b.encode r = (⟨b.capacity, r.encode⟩, .ok r.encode.length) :=
  b.encodePayload_of_fits (p := .object r) hfault hfits

/-- An object in a payload that one buffer accepts is accepted by every buffer of that capacity, and
its bytes stand in those of the payload. -/
theorem encode_of_holds {capacity n : Nat} {held : List UInt8} {p : Payload} {b : Buffer}
    (h : encodePayload ⟨capacity, held⟩ p = (b, .ok n)) {r : Representation} (hr : p.Holds r)
    (other : List UInt8) :
    encode ⟨capacity, other⟩ r = (⟨capacity, r.encode⟩, .ok r.encode.length) ∧
      r.encode <:+: b.content := by
  obtain ⟨hfault, rfl, hfits⟩ := accepted_of_encodePayload h
  have hinfix := hr.infix
  have hlength := Nat.le_trans hinfix.length_le hfits
  exact ⟨encode_of_fits ⟨capacity, other⟩ (hr.fault?_eq_none hfault) hlength, hinfix⟩

/-- What the buffer holds once it has been given the object. -/
def contentOf (b : Buffer) (r : Representation) : List UInt8 := (b.encode r).1.content

theorem contentOf_eq {b b' : Buffer} {r : Representation} {n : Nat}
    (h : b.encode r = (b', .ok n)) : b.contentOf r = r.encode := by
  obtain ⟨-, rfl, -⟩ := accepted_of_encode h
  rw [contentOf, h]

/-- The bytes of an array of objects, when a buffer accepts each of them. -/
theorem encode_objects_eq {b : Buffer} {rs : List Representation}
    (h : ∀ r ∈ rs, ∃ b' n, b.encode r = (b', .ok n)) :
    (Value.objects rs).encode = 0x9f :: (rs.flatMap b.contentOf ++ [0xff]) := by
  have hmember : ∀ r ∈ rs, (Value.object r).encode = b.contentOf r := by
    intro r hr
    obtain ⟨b', n, haccepted⟩ := h r hr
    exact (contentOf_eq haccepted).symm
  rw [Value.encode_objects, List.flatMap_congr hmember]
  rfl

/-- An object in a payload that a buffer accepts is accepted as the root. -/
theorem accepted_of_holds {capacity n : Nat} {held : List UInt8} {p : Payload} {b : Buffer}
    (h : encodePayload ⟨capacity, held⟩ p = (b, .ok n)) (other : List UInt8) {r : Representation}
    (hr : p.Holds r) : ∃ b' m, encode ⟨capacity, other⟩ r = (b', .ok m) :=
  ⟨_, _, (encode_of_holds h hr other).1⟩

theorem content_of_objects {capacity n : Nat} {held : List UInt8} {roots : List Representation}
    {b : Buffer} (h : encodePayload ⟨capacity, held⟩ (.objects roots) = (b, .ok n))
    (other : List UInt8) :
    b.content = 0x9f :: (roots.flatMap (contentOf ⟨capacity, other⟩) ++ [0xff]) := by
  have hbytes := encode_objects_eq fun r hr =>
    accepted_of_holds h other (Value.Holds.member hr .here)
  obtain ⟨-, rfl, -⟩ := accepted_of_encodePayload h
  exact hbytes

theorem content_of_object {capacity n : Nat} {held : List UInt8} {root : Representation}
    {b : Buffer} (h : encode ⟨capacity, held⟩ root = (b, .ok n)) :
    b.content = 0xbf ::
      (root.flatMap (fun p => (Encoding.text p.1).flatten ++ p.2.encode) ++ [0xff]) := by
  have hproperty : Value.encodeProperty = fun p => (Encoding.text p.1).flatten ++ p.2.encode :=
    funext Value.encodeProperty_eq
  obtain ⟨-, rfl, -⟩ := accepted_of_encode h
  rw [← hproperty]
  exact Value.encode_object root

/-- The bytes of a property of an object that a buffer accepts. -/
theorem encode_property_eq {capacity n : Nat} {held : List UInt8} {root : Representation}
    {b : Buffer} (h : encode ⟨capacity, held⟩ root = (b, .ok n)) (other : List UInt8)
    {p : String × Value} (hp : p ∈ root) :
    (∀ r, p.2 = .object r → p.2.encode = contentOf ⟨capacity, other⟩ r) ∧
      ∀ rs, p.2 = .objects rs →
        p.2.encode = 0x9f :: (rs.flatMap (contentOf ⟨capacity, other⟩) ++ [0xff]) := by
  obtain ⟨name, v⟩ := p
  have haccepted {r : Representation} (hr : Value.Holds r v) :
      ∃ b' m, encode ⟨capacity, other⟩ r = (b', .ok m) := by
    have hpayload : encodePayload ⟨capacity, held⟩ (.object root) = (b, .ok n) := h
    exact accepted_of_holds hpayload other (Value.Holds.property hp hr)
  constructor
  · rintro r rfl
    obtain ⟨b', m, hr⟩ := haccepted .here
    exact (contentOf_eq hr).symm
  · rintro rs rfl
    exact encode_objects_eq fun r hr => haccepted (.member hr .here)

/-- In a buffer that is large enough, an array at the root is accepted exactly when each of its objects
is accepted as the root. Its bytes are then those of the objects, in order, between the bytes that
open and close an array. An object has the same bytes as the value of a property and as a member of
an array of objects that is one; and wherever an object stands in a payload that is accepted, at any
depth, it is accepted as the root too, and its bytes stand in those of the payload. -/
theorem array_root_agrees (capacity : Nat) (held other : List UInt8) :
    (∀ roots : List Representation, (Payload.objects roots).encode.length ≤ capacity →
      ((∃ b n, encodePayload ⟨capacity, held⟩ (.objects roots) = (b, .ok n)) ↔
        ∀ r ∈ roots, ∃ b n, encode ⟨capacity, other⟩ r = (b, .ok n))) ∧
    (∀ (roots : List Representation) (b : Buffer) (n : Nat),
      encodePayload ⟨capacity, held⟩ (.objects roots) = (b, .ok n) →
        b.content = 0x9f :: (roots.flatMap (contentOf ⟨capacity, other⟩) ++ [0xff])) ∧
    (∀ (root : Representation) (b : Buffer) (n : Nat),
      encode ⟨capacity, held⟩ root = (b, .ok n) →
        b.content = 0xbf ::
          (root.flatMap (fun p => (Encoding.text p.1).flatten ++ p.2.encode) ++ [0xff]) ∧
        ∀ p ∈ root,
          (∀ r, p.2 = .object r → p.2.encode = contentOf ⟨capacity, other⟩ r) ∧
          ∀ rs, p.2 = .objects rs →
            p.2.encode = 0x9f :: (rs.flatMap (contentOf ⟨capacity, other⟩) ++ [0xff])) ∧
    ∀ (p : Payload) (b : Buffer) (n : Nat), encodePayload ⟨capacity, held⟩ p = (b, .ok n) →
      ∀ r, p.Holds r → ∃ b' m, encode ⟨capacity, other⟩ r = (b', .ok m) ∧
        b'.content <:+: b.content := by
  refine ⟨fun roots hlarge => ⟨?_, fun hroots => ?_⟩, fun roots b n h => content_of_objects h other,
    fun root b n h => ⟨content_of_object h, fun p hp => encode_property_eq h other hp⟩,
    fun p b n h r hr => ?_⟩
  · -- An object of the array is shorter than the array, so it fits as well.
    rintro ⟨b, n, h⟩ r hr
    exact accepted_of_holds h other (Value.Holds.member hr .here)
  · have hfault : (Payload.objects roots).fault? = none := by
      refine Value.faultOfObjects?_eq_none_iff.mpr fun r hr => ?_
      obtain ⟨b, n, h⟩ := hroots r hr
      exact (accepted_of_encode h).1
    exact ⟨_, _, encodePayload_of_fits ⟨capacity, held⟩ hfault hlarge⟩
  · obtain ⟨haccepted, hinfix⟩ := encode_of_holds h hr other
    exact ⟨_, _, haccepted, hinfix⟩

/-- A switch alone, in an array at the root with an empty object, and in an array of objects inside an
array. -/
theorem array_root_agrees_switch :
    (Payload.objects [[("on", .bool true)], []]).encode.length ≤ 16 ∧
      encodePayload ⟨16, [0]⟩ (.objects [[("on", .bool true)], []]) =
        (⟨16, [0x9f, 0xbf, 0x62, 0x6f, 0x6e, 0xf5, 0xff, 0xbf, 0xff, 0xff]⟩, .ok 10) ∧
      (∃ b n, encode ⟨16, []⟩ [("on", .bool true)] = (b, .ok n)) ∧
      encodePayload ⟨16, [0]⟩ (.object [("l", .array [.objects [[("on", .bool true)]]])]) =
        (⟨16, [0xbf, 0x61, 0x6c, 0x9f, 0x9f, 0xbf, 0x62, 0x6f, 0x6e, 0xf5, 0xff, 0xff, 0xff, 0xff]⟩,
          .ok 14) ∧
      ∃ b n, encode ⟨16, []⟩ [("on", .bool true)] = (b, .ok n) ∧ b.content <:+:
        [0xbf, 0x61, 0x6c, 0x9f, 0x9f, 0xbf, 0x62, 0x6f, 0x6e, 0xf5, 0xff, 0xff, 0xff, 0xff] := by
  have hlarge : (Payload.objects [[("on", .bool true)], []]).encode.length ≤ 16 := by
    decide +kernel
  have harray : encodePayload ⟨16, [0]⟩ (.objects [[("on", .bool true)], []]) =
      (⟨16, [0x9f, 0xbf, 0x62, 0x6f, 0x6e, 0xf5, 0xff, 0xbf, 0xff, 0xff]⟩, .ok 10) := by
    rfl
  have hnested : encodePayload ⟨16, [0]⟩ (.object [("l", .array [.objects [[("on", .bool true)]]])]) =
      (⟨16, [0xbf, 0x61, 0x6c, 0x9f, 0x9f, 0xbf, 0x62, 0x6f, 0x6e, 0xf5, 0xff, 0xff, 0xff, 0xff]⟩,
        .ok 14) := by
    rfl
  obtain ⟨hroots, -, -, hplaces⟩ := array_root_agrees 16 [0] []
  have hholds : (Payload.object [("l", .array [.objects [[("on", .bool true)]]])]).Holds
      [("on", .bool true)] :=
    .property List.mem_cons_self (.element List.mem_cons_self (.member List.mem_cons_self .here))
  exact ⟨hlarge, harray, (hroots _ hlarge).mp ⟨_, _, harray⟩ _ List.mem_cons_self, hnested,
    hplaces _ _ _ hnested _ hholds⟩

end Buffer

end DeviceClient
