import DeviceClient.Payload.Encoding

namespace DeviceClient

namespace Value

section

variable {P : Value → Prop} (int : ∀ n, P (.int n)) (bool : ∀ b, P (.bool b))
  (double : ∀ x, P (.double x)) (text : ∀ s, P (.text s)) (bytes : ∀ bs, P (.bytes bs))
  (array : ∀ values, (∀ v ∈ values, P v) → P (.array values))
  (object : ∀ properties, (∀ p ∈ properties, P p.2) → P (.object properties))
  (objects : ∀ members, (∀ m ∈ members, ∀ p ∈ m, P p.2) → P (.objects members))

include int bool double text bytes array object objects

/-- Induction over values, with the hypothesis for every value that a container holds directly. -/
@[elab_as_elim]
theorem induction (v : Value) : P v :=
  @Value.rec P (fun values => ∀ v ∈ values, P v) (fun properties => ∀ p ∈ properties, P p.2)
    (fun members => ∀ m ∈ members, ∀ p ∈ m, P p.2) (fun p => P p.2)
    int bool double text bytes array object objects
    (fun _ hv => absurd hv List.not_mem_nil)
    (fun _ _ hv hvs => List.forall_mem_cons.mpr ⟨hv, hvs⟩)
    (fun _ hp => absurd hp List.not_mem_nil)
    (fun _ _ hp hps => List.forall_mem_cons.mpr ⟨hp, hps⟩)
    (fun _ hm => absurd hm List.not_mem_nil)
    (fun _ _ hm hms => List.forall_mem_cons.mpr ⟨hm, hms⟩)
    (fun _ _ hv => hv) v

end

mutual

/-- The number of containers that are nested in one another. Each object and each array counts. -/
def height : Value → Nat
  | .array values => heightOfValues values + 1
  | .object properties => heightOfProperties properties + 1
  | .objects members => heightOfObjects members + 1
  | _ => 0
termination_by structural v => v

def heightOfValues : List Value → Nat
  | [] => 0
  | v :: vs => max (height v) (heightOfValues vs)
termination_by structural vs => vs

def heightOfProperty : String × Value → Nat
  | (_, v) => height v
termination_by structural p => p

def heightOfProperties : List (String × Value) → Nat
  | [] => 0
  | p :: ps => max (heightOfProperty p) (heightOfProperties ps)
termination_by structural ps => ps

def heightOfObjects : List (List (String × Value)) → Nat
  | [] => 0
  | o :: os => max (heightOfProperties o + 1) (heightOfObjects os)
termination_by structural os => os

end

theorem heightOfValues_le_iff {vs : List Value} {n : Nat} :
    heightOfValues vs ≤ n ↔ ∀ v ∈ vs, v.height ≤ n := by
  induction vs with
  | nil => simp [heightOfValues]
  | cons v vs ih => rw [heightOfValues, Nat.max_le, ih, List.forall_mem_cons]

theorem heightOfProperties_le_iff {ps : List (String × Value)} {n : Nat} :
    heightOfProperties ps ≤ n ↔ ∀ p ∈ ps, p.2.height ≤ n := by
  induction ps with
  | nil => simp [heightOfProperties]
  | cons p ps ih =>
    obtain ⟨name, v⟩ := p
    rw [heightOfProperties, heightOfProperty, Nat.max_le, ih, List.forall_mem_cons]

theorem heightOfObjects_le_iff {os : List (List (String × Value))} {n : Nat} :
    heightOfObjects os ≤ n ↔ ∀ o ∈ os, heightOfProperties o + 1 ≤ n := by
  induction os with
  | nil => simp [heightOfObjects]
  | cons o os ih => rw [heightOfObjects, Nat.max_le, ih, List.forall_mem_cons]

mutual

/-- The value with empty arrays of values in place of empty arrays of objects. -/
def normal : Value → Value
  | .array values => .array (normalValues values)
  | .object properties => .object (normalProperties properties)
  | .objects members =>
    if members.isEmpty then .array [] else .objects (normalObjects members)
  | v => v
termination_by structural v => v

def normalValues : List Value → List Value
  | [] => []
  | v :: vs => normal v :: normalValues vs
termination_by structural vs => vs

def normalProperty : String × Value → String × Value
  | (name, v) => (name, normal v)
termination_by structural p => p

def normalProperties : List (String × Value) → List (String × Value)
  | [] => []
  | p :: ps => normalProperty p :: normalProperties ps
termination_by structural ps => ps

def normalObjects : List (List (String × Value)) → List (List (String × Value))
  | [] => []
  | o :: os => normalProperties o :: normalObjects os
termination_by structural os => os

end

theorem normalValues_eq_map (vs : List Value) : normalValues vs = vs.map normal := by
  induction vs with
  | nil => rfl
  | cons v vs ih => rw [normalValues, ih, List.map_cons]

theorem normalProperties_eq_map (ps : List (String × Value)) :
    normalProperties ps = ps.map fun p => (p.1, p.2.normal) := by
  induction ps with
  | nil => rfl
  | cons p ps ih =>
    obtain ⟨name, v⟩ := p
    rw [normalProperties, normalProperty, ih, List.map_cons]

theorem normalObjects_eq_map (os : List (List (String × Value))) :
    normalObjects os = os.map normalProperties := by
  induction os with
  | nil => rfl
  | cons o os ih => rw [normalObjects, ih, List.map_cons]

theorem isObject_normal (v : Value) : v.normal.isObject = v.isObject := by
  cases v with
  | objects members => cases members <;> rfl
  | _ => rfl

/-- The bytes of a value. -/
def encode (v : Value) : List UInt8 := v.writes.flatten

def encodeProperty (p : String × Value) : List UInt8 := (writesOfProperty p).flatten

theorem flatten_writesOfValues (vs : List Value) :
    (writesOfValues vs).flatten = vs.flatMap encode := by
  induction vs with
  | nil => rfl
  | cons v vs ih => rw [writesOfValues, List.flatten_append, ih, List.flatMap_cons, encode]

theorem flatten_writesOfProperties (ps : List (String × Value)) :
    (writesOfProperties ps).flatten = ps.flatMap encodeProperty := by
  induction ps with
  | nil => rfl
  | cons p ps ih =>
    rw [writesOfProperties, List.flatten_append, ih, List.flatMap_cons, encodeProperty]

theorem encodeProperty_eq (p : String × Value) :
    encodeProperty p = (Encoding.text p.1).flatten ++ p.2.encode := by
  rw [encodeProperty, writesOfProperty, List.flatten_append, encode]

theorem encode_array (vs : List Value) :
    (Value.array vs).encode = Cbor.indefinite Cbor.arrayItem :: (vs.flatMap encode ++
      [Cbor.stopByte]) := by
  simp [encode, writes, flatten_writesOfValues, Encoding.openArray, Encoding.close]

theorem encode_object (ps : List (String × Value)) :
    (Value.object ps).encode = Cbor.indefinite Cbor.mapItem :: (ps.flatMap encodeProperty ++
      [Cbor.stopByte]) := by
  simp [encode, writes, flatten_writesOfProperties, Encoding.openObject, Encoding.close]

theorem flatten_writesOfObjects (os : List (List (String × Value))) :
    (writesOfObjects os).flatten = os.flatMap fun o => (Value.object o).encode := by
  induction os with
  | nil => rfl
  | cons o os ih =>
    simp [writesOfObjects, ih, encode_object, flatten_writesOfProperties, Encoding.openObject,
      Encoding.close]

theorem encode_objects (os : List (List (String × Value))) :
    (Value.objects os).encode = Cbor.indefinite Cbor.arrayItem ::
      (os.flatMap (fun o => (Value.object o).encode) ++ [Cbor.stopByte]) := by
  simp [encode, writes, flatten_writesOfObjects, Encoding.openArray, Encoding.close]

theorem faultOfValues?_eq_none_iff {vs : List Value} :
    faultOfValues? vs = none ↔ ∀ v ∈ vs, v.isObject = false ∧ v.fault? = none := by
  induction vs with
  | nil => simp [faultOfValues?]
  | cons v vs ih =>
    rw [faultOfValues?, List.forall_mem_cons, ← ih]
    cases v.isObject <;> simp [Option.or_eq_none_iff]

theorem faultOfProperties?_eq_none_iff {ps : List (String × Value)} :
    faultOfProperties? ps = none ↔ ∀ p ∈ ps, p.1.isEmpty = false ∧ p.2.fault? = none := by
  induction ps with
  | nil => simp [faultOfProperties?]
  | cons p ps ih =>
    rw [faultOfProperties?, List.forall_mem_cons, ← ih, Option.or_eq_none_iff, faultOfProperty?]
    cases p.1.isEmpty <;> simp

theorem faultOfObjects?_eq_none_iff {os : List (List (String × Value))} :
    faultOfObjects? os = none ↔ ∀ o ∈ os, faultOfProperties? o = none := by
  induction os with
  | nil => simp [faultOfObjects?]
  | cons o os ih => rw [faultOfObjects?, Option.or_eq_none_iff, ih, List.forall_mem_cons]

/-- No name is empty and no array of values holds an object, at any depth. -/
inductive WellFormed : Value → Prop
  | int (n : Int64) : WellFormed (.int n)
  | bool (b : Bool) : WellFormed (.bool b)
  | double (x : Double) : WellFormed (.double x)
  | text (s : String) : WellFormed (.text s)
  | bytes (bs : List UInt8) : WellFormed (.bytes bs)
  | array {values : List Value} (hvalues : ∀ v ∈ values, v.isObject = false)
      (h : ∀ v ∈ values, WellFormed v) : WellFormed (.array values)
  | object {properties : List (String × Value)} (hnames : ∀ p ∈ properties, p.1 ≠ "")
      (h : ∀ p ∈ properties, WellFormed p.2) : WellFormed (.object properties)
  | objects {members : List (List (String × Value))}
      (h : ∀ m ∈ members, WellFormed (.object m)) : WellFormed (.objects members)

theorem faultOfProperties?_eq_none {ps : List (String × Value)} (h : (object ps).WellFormed)
    (ih : ∀ p ∈ ps, p.2.WellFormed → p.2.fault? = none) : faultOfProperties? ps = none := by
  cases h with
  | object hnames h =>
    refine faultOfProperties?_eq_none_iff.mpr fun p hp => ⟨?_, ih p hp (h p hp)⟩
    simpa using hnames p hp

/-- A well-formed value has no fault. -/
theorem WellFormed.fault?_eq_none {v : Value} (h : v.WellFormed) : v.fault? = none := by
  induction v using Value.induction with
  | int n => rfl
  | bool b => rfl
  | double x => rfl
  | text s => rfl
  | bytes bs => rfl
  | array values ih =>
    cases h with
    | array hvalues h =>
      exact faultOfValues?_eq_none_iff.mpr fun v hv => ⟨hvalues v hv, ih v hv (h v hv)⟩
  | object properties ih => exact faultOfProperties?_eq_none h ih
  | objects members ih =>
    cases h with
    | objects h =>
      exact faultOfObjects?_eq_none_iff.mpr fun m hm => faultOfProperties?_eq_none (h m hm) (ih m hm)

theorem wellFormed_object {ps : List (String × Value)} (h : faultOfProperties? ps = none)
    (ih : ∀ p ∈ ps, p.2.fault? = none → p.2.WellFormed) : (object ps).WellFormed := by
  have hall := faultOfProperties?_eq_none_iff.mp h
  exact .object (fun p hp => by simpa using (hall p hp).1) fun p hp => ih p hp (hall p hp).2

/-- A value without a fault is well formed. -/
theorem wellFormed_of_fault? {v : Value} (h : v.fault? = none) : v.WellFormed := by
  induction v using Value.induction with
  | int n => exact .int n
  | bool b => exact .bool b
  | double x => exact .double x
  | text s => exact .text s
  | bytes bs => exact .bytes bs
  | array values ih =>
    have hall := faultOfValues?_eq_none_iff.mp h
    exact .array (fun v hv => (hall v hv).1) fun v hv => ih v hv (hall v hv).2
  | object properties ih => exact wellFormed_object h ih
  | objects members ih =>
    have hall := faultOfObjects?_eq_none_iff.mp h
    exact .objects fun m hm => wellFormed_object (hall m hm) (ih m hm)

/-- No array of objects is empty, at any depth. -/
inductive Unambiguous : Value → Prop
  | int (n : Int64) : Unambiguous (.int n)
  | bool (b : Bool) : Unambiguous (.bool b)
  | double (x : Double) : Unambiguous (.double x)
  | text (s : String) : Unambiguous (.text s)
  | bytes (bs : List UInt8) : Unambiguous (.bytes bs)
  | array {values : List Value} (h : ∀ v ∈ values, Unambiguous v) : Unambiguous (.array values)
  | object {properties : List (String × Value)} (h : ∀ p ∈ properties, Unambiguous p.2) :
      Unambiguous (.object properties)
  | objects {members : List (List (String × Value))} (hne : members ≠ [])
      (h : ∀ m ∈ members, Unambiguous (.object m)) : Unambiguous (.objects members)

theorem normalProperties_eq_self {ps : List (String × Value)} (h : (object ps).Unambiguous)
    (ih : ∀ p ∈ ps, p.2.Unambiguous → p.2.normal = p.2) : normalProperties ps = ps := by
  cases h with
  | object h =>
    rw [normalProperties_eq_map, List.map_congr_left (g := id), List.map_id]
    intro p hp
    rw [ih p hp (h p hp)]
    rfl

/-- A value without empty arrays of objects is in the form that is read back. -/
theorem Unambiguous.normal_eq {v : Value} (h : v.Unambiguous) : v.normal = v := by
  induction v using Value.induction with
  | int n => rfl
  | bool b => rfl
  | double x => rfl
  | text s => rfl
  | bytes bs => rfl
  | array values ih =>
    cases h with
    | array h =>
      rw [normal, normalValues_eq_map, List.map_congr_left (g := id), List.map_id]
      exact fun v hv => ih v hv (h v hv)
  | object properties ih => rw [normal, normalProperties_eq_self h ih]
  | objects members ih =>
    cases h with
    | objects hne h =>
      have hempty : members.isEmpty = false := by simpa using hne
      rw [normal, hempty, normalObjects_eq_map, List.map_congr_left (g := id), List.map_id]
      · rfl
      · exact fun m hm => normalProperties_eq_self (h m hm) (ih m hm)

/-- The normal form of an array of objects tells the objects, if it leaves each of them as it is. -/
theorem normal_objects_inj {ms ns : List (List (String × Value))}
    (hms : ∀ m ∈ ms, (object m).Unambiguous) (hns : ∀ n ∈ ns, (object n).Unambiguous)
    (h : (objects ms).normal = (objects ns).normal) : ms = ns := by
  cases ms with
  | nil =>
    cases ns with
    | nil => rfl
    | cons n ns => cases h
  | cons m ms =>
    cases ns with
    | nil => cases h
    | cons n ns =>
      rw [(Unambiguous.objects (List.cons_ne_nil m ms) hms).normal_eq,
        (Unambiguous.objects (List.cons_ne_nil n ns) hns).normal_eq] at h
      exact objects.inj h

theorem unambiguous_object {ps : List (String × Value)} (h : normalProperties ps = ps)
    (ih : ∀ p ∈ ps, p.2.normal = p.2 → p.2.Unambiguous) : (object ps).Unambiguous := by
  rw [normalProperties_eq_map] at h
  have hall := List.map_inj_left.mp (h.trans (List.map_id ps).symm)
  exact .object fun p hp => ih p hp (congrArg Prod.snd (hall p hp))

/-- A value in the form that is read back has no empty array of objects. -/
theorem unambiguous_of_normal_eq {v : Value} (h : v.normal = v) : v.Unambiguous := by
  induction v using Value.induction with
  | int n => exact .int n
  | bool b => exact .bool b
  | double x => exact .double x
  | text s => exact .text s
  | bytes bs => exact .bytes bs
  | array values ih =>
    rw [normal, normalValues_eq_map] at h
    have hall := List.map_inj_left.mp ((Value.array.inj h).trans (List.map_id values).symm)
    exact .array fun v hv => ih v hv (hall v hv)
  | object properties ih => exact unambiguous_object (Value.object.inj h) ih
  | objects members ih =>
    rw [normal] at h
    split at h
    · cases h
    · rename_i hne
      rw [normalObjects_eq_map] at h
      have hall := List.map_inj_left.mp ((Value.objects.inj h).trans (List.map_id members).symm)
      exact .objects (fun hnil => hne (List.isEmpty_iff.mpr hnil))
        fun m hm => unambiguous_object (hall m hm) (ih m hm)

end Value

namespace Payload

/-- No name is empty and no array of values holds an object, at any depth. -/
def WellFormed : Payload → Prop
  | .object root => (Value.object root).WellFormed
  | .objects roots => (Value.objects roots).WellFormed

theorem WellFormed.fault?_eq_none {p : Payload} (h : p.WellFormed) : p.fault? = none := by
  cases p with
  | object root => exact Value.WellFormed.fault?_eq_none h
  | objects roots => exact Value.WellFormed.fault?_eq_none h

theorem wellFormed_of_fault? {p : Payload} (h : p.fault? = none) : p.WellFormed := by
  cases p with
  | object root => exact Value.wellFormed_of_fault? h
  | objects roots => exact Value.wellFormed_of_fault? h

/-- No array of objects among the values is empty, at any depth. -/
def Unambiguous (p : Payload) : Prop := ∀ r ∈ p.roots, (Value.object r).Unambiguous

def height : Payload → Nat
  | .object root => Value.heightOfProperties root + 1
  | .objects roots => Value.heightOfObjects roots + 1

/-- The payload with every value in the form that is read back. An array at the root stays an array
of objects. -/
def normal : Payload → Payload
  | .object root => .object (Value.normalProperties root)
  | .objects roots => .objects (Value.normalObjects roots)

theorem Unambiguous.normal_eq {p : Payload} (h : p.Unambiguous) : p.normal = p := by
  have hroot : ∀ r ∈ p.roots, Value.normalProperties r = r :=
    fun r hr => Value.object.inj (h r hr).normal_eq
  cases p with
  | object root => rw [normal, hroot root List.mem_cons_self]
  | objects roots =>
    rw [normal, Value.normalObjects_eq_map]
    exact congrArg objects ((List.map_congr_left hroot).trans (List.map_id roots))

theorem unambiguous_of_normal_eq {p : Payload} (h : p.normal = p) : p.Unambiguous := by
  have hobject {r : Representation} (hr : Value.normalProperties r = r) :
      (Value.object r).Unambiguous :=
    Value.unambiguous_of_normal_eq (congrArg Value.object hr)
  cases p with
  | object root => exact List.forall_mem_singleton.mpr (hobject (Payload.object.inj h))
  | objects roots =>
    rw [normal, Value.normalObjects_eq_map] at h
    have hall := List.map_inj_left.mp ((Payload.objects.inj h).trans (List.map_id roots).symm)
    exact fun r hr => hobject (hall r hr)

end Payload

end DeviceClient
