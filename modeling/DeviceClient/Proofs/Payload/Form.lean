import DeviceClient.Payload.Decoding
import DeviceClient.Proofs.Cbor.Item
import DeviceClient.Proofs.Value

namespace DeviceClient

/-- A property as it is written. A property without a value is passed over. -/
structure WrittenProperty where
  name : String
  value : Option Value
  nameBytes : List UInt8
  valueBytes : List UInt8

namespace WrittenProperty

def bytes (p : WrittenProperty) : List UInt8 := p.nameBytes ++ p.valueBytes

def property? (p : WrittenProperty) : Option (String × Value) := p.value.map (p.name, ·)

end WrittenProperty

namespace Value

/-- The forms of a value. Items without a value are strewn in as the predicate allows. -/
inductive Form (passed : List UInt8 → Prop) : Value → List UInt8 → Prop
  | int {n : Int64} {s : List UInt8} (h : Cbor.IntForm n.toInt s) : Form passed (.int n) s
  | bool {b : Bool} {s : List UInt8} (h : Cbor.BoolForm b s) : Form passed (.bool b) s
  | double {x : Double} {s : List UInt8} (h : Cbor.DoubleForm x s) : Form passed (.double x) s
  | text {t : String} {s : List UInt8} (h : Cbor.TextForm t s) : Form passed (.text t) s
  | bytes {content s : List UInt8} (h : Cbor.BytesForm content s) : Form passed (.bytes content) s
  | array (elements : List (Option Value × List UInt8)) {s : List UInt8}
      (hvalue : ∀ v t, (some v, t) ∈ elements → Form passed v t)
      (hpassed : ∀ t, (none, t) ∈ elements → passed t)
      (hform : Cbor.ContainerForm Cbor.arrayItem (elements.map Prod.snd) s) :
      Form passed (.array (elements.filterMap Prod.fst)) s
  | object (entries : List WrittenProperty) {s : List UInt8}
      (hname : ∀ p ∈ entries, p.name ≠ "" ∧ Cbor.TextForm p.name p.nameBytes)
      (hvalue : ∀ p ∈ entries, ∀ v, p.value = some v → Form passed v p.valueBytes)
      (hpassed : ∀ p ∈ entries, p.value = none → passed p.valueBytes)
      (hform : Cbor.ContainerForm Cbor.mapItem (entries.map WrittenProperty.bytes) s) :
      Form passed (.object (entries.filterMap WrittenProperty.property?)) s
  | objects (elements : List (Option (List (String × Value)) × List UInt8)) {s : List UInt8}
      (hvalue : ∀ m t, (some m, t) ∈ elements → Form passed (.object m) t)
      (hpassed : ∀ t, (none, t) ∈ elements → passed t)
      (hform : Cbor.ContainerForm Cbor.arrayItem (elements.map Prod.snd) s) :
      Form passed (.objects (elements.filterMap Prod.fst)) s

/-- The kind of the item that a value is written as. -/
def kind : Value → Cbor.Kind
  | .int _ => .integer
  | .bool _ => .bool
  | .double _ => .float
  | .text _ => .text
  | .bytes _ => .bytes
  | .array _ | .objects _ => .array
  | .object _ => .map

theorem kind_ne_stop (v : Value) : v.kind ≠ .stop := by
  cases v <;> simp [kind]

theorem Form.kind? {passed : List UInt8 → Prop} {v : Value} {s : List UInt8}
    (h : v.Form passed s) (rest : List UInt8) : Cbor.kind? (s ++ rest) = some v.kind := by
  cases h with
  | int h => exact h.kind? rest
  | bool h => exact h.kind? rest
  | double h => exact h.kind? rest
  | text h => exact h.kind? rest
  | bytes h => exact h.kind? rest
  | array elements hvalue hpassed hform => exact hform.kind?_array rest
  | object entries hname hvalue hpassed hform => exact hform.kind?_map rest
  | objects elements hvalue hpassed hform => exact hform.kind?_array rest

end Value

namespace Decoding

abbrev Containers := ContainersIn (Except DecodeError)

abbrev containers : Nat → Containers := containersIn (Except DecodeError)

abbrev readPayload : Reader Payload := readPayloadIn (Except DecodeError)

@[simp] theorem object_containers_zero (bs : List UInt8) :
    (containers 0).object bs = .error .tooDeep := rfl

@[simp] theorem array_containers_zero (bs : List UInt8) :
    (containers 0).array bs = .error .tooDeep := rfl

theorem object_containers_succ (levels : Nat) :
    (containers (levels + 1)).object = readObject (containers levels) := rfl

theorem array_containers_succ (levels : Nat) :
    (containers (levels + 1)).array = readArray (containers levels) := rfl

@[simp] theorem require_some {α : Type} (a : α) : (require (some a) : Except DecodeError α) = .ok a :=
  rfl

@[simp] theorem ok_bind {ε α β : Type} (a : α) (f : α → Except ε β) : (Except.ok a >>= f) = f a :=
  rfl

/-- Where the steps are not kept, telling about what is read makes no difference. -/
theorem logging_eq {α : Type} (before : Step) (after : List UInt8 → Step) (read : Reader α) :
    logging before after read = read := by
  funext bs
  rw [logging]
  cases read bs <;> rfl

@[simp] theorem enclose_eq {α : Type} (container : Reader α) : enclose container = container :=
  logging_eq _ _ container

theorem readNext_eq {α : Type} (entry : Reader α) (go : Reader (List α)) (bs : List UInt8) :
    readNext entry go bs = (do
      let (a, bs) ← entry bs
      let (as, bs) ← go bs
      return (a :: as, bs)) := by
  rw [readNext, visit, logging_eq]

theorem readUntilStop_succ {α : Type} {entry : Reader α} {bs : List UInt8} {k : Cbor.Kind}
    (hk : Cbor.kind? bs = some k) (hstop : k ≠ .stop) (rounds : Nat) :
    readUntilStop entry (rounds + 1) bs = (do
      let (a, bs) ← entry bs
      let (as, bs) ← readUntilStop entry rounds bs
      return (a :: as, bs)) := by
  rw [readUntilStop, kind, hk, ← readNext_eq]
  cases k with
  | stop => exact absurd rfl hstop
  | _ => rfl

section

variable {α β : Type} {entry : Reader α} {write : β → List UInt8} {value : β → α}
  {fits : β → Prop} [DecidablePred fits] {items : List β}

/-- Reads a number of entries, when each is read or refused for its depth. -/
theorem readExactly_entries
    (hentry : ∀ b ∈ items, ∀ rest, entry (write b ++ rest) =
      if fits b then .ok (value b, rest) else .error .tooDeep)
    (rest : List UInt8) :
    readExactly entry items.length (items.flatMap write ++ rest) =
      if ∀ b ∈ items, fits b then .ok (items.map value, rest) else .error .tooDeep := by
  induction items with
  | nil => rfl
  | cons b items ih =>
    have hb := hentry b List.mem_cons_self (items.flatMap write ++ rest)
    have hitems := ih fun b hmem => hentry b (List.mem_cons_of_mem _ hmem)
    rw [List.flatMap_cons, List.append_assoc, List.length_cons, readExactly, readNext_eq, hb]
    by_cases hfits : fits b
    · rw [if_pos hfits]
      simp only [ok_bind, hitems, List.forall_mem_cons, hfits, true_and]
      split_ifs <;> rfl
    · rw [if_neg hfits, if_neg (fun hall => hfits (hall b List.mem_cons_self))]
      rfl

/-- Reads entries up to a stop byte, when each is read or refused for its depth. -/
theorem readUntilStop_entries
    (hkind : ∀ b ∈ items, ∀ rest, ∃ k, k ≠ .stop ∧ Cbor.kind? (write b ++ rest) = some k)
    (hentry : ∀ b ∈ items, ∀ rest, entry (write b ++ rest) =
      if fits b then .ok (value b, rest) else .error .tooDeep)
    (rest : List UInt8) {rounds : Nat} (hrounds : items.length < rounds) :
    readUntilStop entry rounds (items.flatMap write ++ Cbor.stopByte :: rest) =
      if ∀ b ∈ items, fits b then .ok (items.map value, rest) else .error .tooDeep := by
  induction items generalizing rounds with
  | nil =>
    obtain ⟨rounds, rfl⟩ := Nat.exists_eq_add_one.mpr hrounds
    rfl
  | cons b items ih =>
    obtain ⟨rounds, rfl⟩ := Nat.exists_eq_add_one.mpr (Nat.zero_lt_of_lt hrounds)
    rw [List.length_cons, Nat.add_lt_add_iff_right] at hrounds
    obtain ⟨k, hstop, hk⟩ := hkind b List.mem_cons_self
      (items.flatMap write ++ Cbor.stopByte :: rest)
    have hb := hentry b List.mem_cons_self (items.flatMap write ++ Cbor.stopByte :: rest)
    have hitems := ih (fun b hmem => hkind b (List.mem_cons_of_mem _ hmem))
      (fun b hmem => hentry b (List.mem_cons_of_mem _ hmem)) hrounds
    rw [List.flatMap_cons, List.append_assoc, readUntilStop_succ hk hstop, hb]
    by_cases hfits : fits b
    · rw [if_pos hfits]
      simp only [ok_bind, hitems, List.forall_mem_cons, hfits, true_and]
      split_ifs <;> rfl
    · rw [if_neg hfits, if_neg (fun hall => hfits (hall b List.mem_cons_self))]
      rfl

/-- Both forms of a container lead to its entries. -/
theorem readEntries_form
    (hkind : ∀ b ∈ items, ∀ rest, ∃ k, k ≠ .stop ∧ Cbor.kind? (write b ++ rest) = some k)
    (hentry : ∀ b ∈ items, ∀ rest, entry (write b ++ rest) =
      if fits b then .ok (value b, rest) else .error .tooDeep)
    {major : Nat} {s : List UInt8} (hform : Cbor.ContainerForm major (items.map write) s)
    (rest : List UInt8) :
    readEntries major entry (s ++ rest) =
      if ∀ b ∈ items, fits b then .ok (items.map value, rest) else .error .tooDeep := by
  cases hform with
  | definite hhead =>
    have hread := readExactly_entries hentry rest
    rw [List.length_map] at hhead
    rw [List.append_assoc, ← List.flatMap_def]
    simpa [readEntries, readCounted, hhead.readCount] using hread
  | indefinite =>
    have hne : ∀ s ∈ items.map write, s ≠ [] := by
      intro s hs hnil
      obtain ⟨b, hb, rfl⟩ := List.mem_map.mp hs
      obtain ⟨k, -, hk⟩ := hkind b hb []
      rw [hnil] at hk
      cases hk
    have hrounds : items.length < (items.flatMap write ++ Cbor.stopByte :: rest).length + 1 := by
      have hle := Cbor.length_le_flatten hne
      rw [List.length_map] at hle
      rw [List.length_append, List.flatMap_def, List.length_cons]
      omega
    have hread := readUntilStop_entries hkind hentry rest hrounds
    rw [← List.flatMap_def]
    simpa [readEntries, readCounted, Cbor.readCount] using hread

end

/-- Whether an item of the kind has no value. -/
def isPassed : Cbor.Kind → Bool
  | .null | .undefined | .tag | .simple => true
  | _ => false

/-- Whatever follows them, the bytes are passed over as an item without a value. -/
def PassedOver (s : List UInt8) : Prop :=
  ∀ rest, Cbor.Skip.skip (s ++ rest) = some rest ∧
    ∃ k, Cbor.kind? (s ++ rest) = some k ∧ isPassed k = true

namespace PassedOver

variable {s : List UInt8} (h : PassedOver s) (rest : List UInt8)

include h

theorem kind? : ∃ k, k ≠ .stop ∧ Cbor.kind? (s ++ rest) = some k := by
  obtain ⟨-, k, hk, hpassed⟩ := h rest
  refine ⟨k, fun hstop => ?_, hk⟩
  rw [hstop] at hpassed
  cases hpassed

theorem readValue (inner : Containers) : readValue inner (s ++ rest) = .ok (none, rest) := by
  obtain ⟨hskip, k, hk, hpassed⟩ := h rest
  simp only [Decoding.readValue, kind, hk, require_some, ok_bind, hskip]
  cases k with
  | null | undefined | tag | simple => rfl
  | _ => cases hpassed

end PassedOver

theorem passedOver_blank {s : List UInt8} (h : Cbor.BlankForm s) : PassedOver s := by
  intro rest
  refine ⟨h.item.skip (by cases h <;> decide) rest, ?_⟩
  cases h with
  | null => exact ⟨.null, rfl, rfl⟩
  | undefined => exact ⟨.undefined, rfl, rfl⟩

end Decoding

namespace Value

open Decoding (ok_bind)

/-- What becomes of the bytes of an item, which may have a value: it is read in its normal form, or
refused for its depth. -/
def ReadFrom (v : Option Value) (s : List UInt8) : Prop :=
  (∀ rest, ∃ k, k ≠ .stop ∧ Cbor.kind? (s ++ rest) = some k) ∧ ∀ levels rest,
    Decoding.readValue (Decoding.containers levels) (s ++ rest) =
      if v.elim 0 height ≤ levels then .ok (v.map normal, rest) else .error .tooDeep

theorem readFrom_some {v : Value} {s : List UInt8}
    (hkind : ∀ rest, Cbor.kind? (s ++ rest) = some v.kind)
    (hread : ∀ levels rest, Decoding.readValue (Decoding.containers levels) (s ++ rest) =
      if v.height ≤ levels then .ok (some v.normal, rest) else .error .tooDeep) :
    ReadFrom (some v) s :=
  ⟨fun rest => ⟨v.kind, v.kind_ne_stop, hkind rest⟩, hread⟩

theorem readFrom_none {s : List UInt8} (h : Decoding.PassedOver s) : ReadFrom none s :=
  ⟨h.kind?, fun levels rest => by simp [h.readValue]⟩

section

variable {passed : List UInt8 → Prop} {s : List UInt8}

theorem readFrom_int {n : Int64} (h : Cbor.IntForm n.toInt s) : ReadFrom (some (.int n)) s := by
  refine readFrom_some h.kind? fun levels rest => ?_
  have hrange : -2 ^ 63 ≤ n.toInt ∧ n.toInt < 2 ^ 63 := ⟨n.le_toInt, n.toInt_lt⟩
  simp only [Decoding.readValue, Decoding.kind, h.kind?, Decoding.require_some, Decoding.ok_bind,
    Decoding.readInt, h.read, if_pos hrange, Int64.ofInt_toInt]
  simp [height, normal, pure, Except.pure]

theorem readFrom_bool {b : Bool} (h : Cbor.BoolForm b s) : ReadFrom (some (.bool b)) s := by
  refine readFrom_some h.kind? fun levels rest => ?_
  simp only [Decoding.readValue, Decoding.kind, h.kind?, Decoding.require_some, Decoding.ok_bind,
    h.read]
  simp [height, normal, pure, Except.pure]

theorem readFrom_double {x : Double} (h : Cbor.DoubleForm x s) :
    ReadFrom (some (.double x)) s := by
  refine readFrom_some h.kind? fun levels rest => ?_
  simp only [Decoding.readValue, Decoding.kind, h.kind?, Decoding.require_some, Decoding.ok_bind,
    h.read]
  simp [height, normal, pure, Except.pure]

theorem readFrom_text {t : String} (h : Cbor.TextForm t s) : ReadFrom (some (.text t)) s := by
  refine readFrom_some h.kind? fun levels rest => ?_
  simp only [Decoding.readValue, Decoding.kind, h.kind?, Decoding.require_some, Decoding.ok_bind,
    h.read]
  simp [height, normal, pure, Except.pure]

theorem readFrom_bytes {content : List UInt8} (h : Cbor.BytesForm content s) :
    ReadFrom (some (.bytes content)) s := by
  refine readFrom_some h.kind? fun levels rest => ?_
  simp only [Decoding.readValue, Decoding.kind, h.kind?, Decoding.require_some, Decoding.ok_bind,
    h.read]
  simp [height, normal, pure, Except.pure]

end

theorem forall_elim_height_le {β : Type} {items : List β} {element : β → Option Value}
    {levels : Nat} :
    (∀ b ∈ items, (element b).elim 0 height ≤ levels) ↔
      ∀ v ∈ items.filterMap element, v.height ≤ levels := by
  simp only [List.mem_filterMap]
  constructor
  · rintro h v ⟨b, hb, hv⟩
    simpa [hv] using h b hb
  · intro h b hb
    cases hv : element b with
    | none => exact Nat.zero_le _
    | some v => exact h v ⟨b, hb, hv⟩

/-- An array is read from its elements, which tell what array it is. -/
theorem array_form {β : Type} {write : β → List UInt8} {element : β → Option Value}
    {items : List β} (hall : ∀ b ∈ items, ReadFrom (element b) (write b)) {s : List UInt8}
    (hform : Cbor.ContainerForm Cbor.arrayItem (items.map write) s) {v : Value}
    (harray : Decoding.arrayOf? ((items.filterMap element).map normal) = some v) (levels : Nat)
    (rest : List UInt8) :
    (Decoding.containers (levels + 1)).array (s ++ rest) =
      if ∀ w ∈ items.filterMap element, w.height ≤ levels then .ok (v, rest)
      else .error .tooDeep := by
  have hread := Decoding.readEntries_form (fun b hb => (hall b hb).1)
    (fun b hb => (hall b hb).2 levels) hform rest
  have hvalues : (items.map fun b => (element b).map normal).filterMap id =
      (items.filterMap element).map normal := by
    rw [List.filterMap_map, List.map_filterMap]
    rfl
  simp only [Decoding.array_containers_succ, Decoding.readArray, hread, forall_elim_height_le]
  split_ifs
  · simp only [ok_bind, hvalues, harray]
    rfl
  · rfl

/-- A value whose item is an array is read as its array is. -/
theorem readFrom_of_array {v : Value} (hkind : v.kind = .array) {entries : List (List UInt8)}
    {s : List UInt8} (hform : Cbor.ContainerForm Cbor.arrayItem entries s)
    (harray : ∀ levels rest, (Decoding.containers levels).array (s ++ rest) =
      if v.height ≤ levels then .ok (v.normal, rest) else .error .tooDeep) :
    ReadFrom (some v) s := by
  refine readFrom_some (hkind ▸ hform.kind?_array) fun levels rest => ?_
  simp only [Decoding.readValue, Decoding.kind, hform.kind?_array, Decoding.require_some,
    Decoding.ok_bind, harray]
  split_ifs <;> rfl

theorem arrayOf?_values {vs : List Value} (hvs : ∀ v ∈ vs, v.isObject = false) :
    Decoding.arrayOf? vs = some (.array vs) := by
  have hnone : vs.filterMap Decoding.properties? = [] := by
    rw [List.filterMap_eq_nil_iff]
    intro v hv
    have hobject := hvs v hv
    cases v with
    | object properties => cases hobject
    | _ => rfl
  rw [Decoding.arrayOf?, hnone]

theorem arrayOf?_objects (os : List (List (String × Value))) :
    Decoding.arrayOf? (os.map .object) = some (if os.isEmpty then .array [] else .objects os) := by
  have hall : (os.map Value.object).filterMap Decoding.properties? = os := by
    simp [List.filterMap_map, Function.comp_def, Decoding.properties?]
  rw [Decoding.arrayOf?, hall]
  cases os <;> simp

theorem readFrom_array {elements : List (Option Value × List UInt8)} {s : List UInt8}
    (hall : ∀ e ∈ elements, ReadFrom e.1 e.2)
    (hvalues : ∀ v ∈ elements.filterMap Prod.fst, v.isObject = false)
    (hform : Cbor.ContainerForm Cbor.arrayItem (elements.map Prod.snd) s) :
    ReadFrom (some (.array (elements.filterMap Prod.fst))) s := by
  refine readFrom_of_array rfl hform fun levels rest => ?_
  cases levels with
  | zero => simp [height]
  | succ levels =>
    have hobject : ∀ v ∈ (elements.filterMap Prod.fst).map normal, v.isObject = false := by
      intro v hv
      obtain ⟨w, hw, rfl⟩ := List.mem_map.mp hv
      rw [isObject_normal]
      exact hvalues w hw
    rw [array_form hall hform (arrayOf?_values hobject)]
    simp only [height, Nat.add_le_add_iff_right, heightOfValues_le_iff, normal,
      normalValues_eq_map]

theorem readFrom_objects {elements : List (Option (List (String × Value)) × List UInt8)}
    {s : List UInt8} (hall : ∀ e ∈ elements, ReadFrom (e.1.map .object) e.2)
    (hform : Cbor.ContainerForm Cbor.arrayItem (elements.map Prod.snd) s) :
    ReadFrom (some (.objects (elements.filterMap Prod.fst))) s := by
  refine readFrom_of_array rfl hform fun levels rest => ?_
  cases levels with
  | zero => simp [height]
  | succ levels =>
    have hmembers : elements.filterMap (fun e => e.1.map Value.object) =
        (elements.filterMap Prod.fst).map .object := by
      rw [List.map_filterMap]
    have harray := arrayOf?_objects ((elements.filterMap Prod.fst).map normalProperties)
    have hnormal : (elements.filterMap Prod.fst).map (normal ∘ .object) =
        ((elements.filterMap Prod.fst).map normalProperties).map .object := by
      rw [List.map_map]
      rfl
    rw [array_form hall hform (by rw [hmembers, List.map_map, hnormal, harray])]
    simp only [hmembers, List.forall_mem_map, height, Nat.add_le_add_iff_right,
      heightOfObjects_le_iff, normal, normalObjects_eq_map, List.isEmpty_map]

theorem readProperty_form {p : WrittenProperty} (hname : p.name ≠ "")
    (hnameForm : Cbor.TextForm p.name p.nameBytes) (hvalue : ReadFrom p.value p.valueBytes)
    (levels : Nat) (rest : List UInt8) :
    Decoding.readProperty (Decoding.containers levels) (p.bytes ++ rest) =
      if p.value.elim 0 height ≤ levels then .ok ((p.value.map normal).map (p.name, ·), rest)
      else .error .tooDeep := by
  rw [WrittenProperty.bytes, List.append_assoc]
  have hempty : p.name.isEmpty = false := by simpa using hname
  simp only [Decoding.readProperty, Decoding.kind, hnameForm.kind?, Decoding.require_some,
    Decoding.ok_bind, hnameForm.read, hempty, Bool.false_eq_true, if_false, hvalue.2 levels rest]
  split_ifs <;> rfl

theorem object_form {entries : List WrittenProperty}
    (hname : ∀ p ∈ entries, p.name ≠ "" ∧ Cbor.TextForm p.name p.nameBytes)
    (hvalue : ∀ p ∈ entries, ReadFrom p.value p.valueBytes) {s : List UInt8}
    (hform : Cbor.ContainerForm Cbor.mapItem (entries.map WrittenProperty.bytes) s) (levels : Nat)
    (rest : List UInt8) :
    (Decoding.containers levels).object (s ++ rest) =
      if (Value.object (entries.filterMap WrittenProperty.property?)).height ≤ levels then
        .ok (normalProperties (entries.filterMap WrittenProperty.property?), rest)
      else .error .tooDeep := by
  cases levels with
  | zero => simp [height]
  | succ levels =>
    have hkind : ∀ p ∈ entries, ∀ rest, ∃ k, k ≠ .stop ∧
        Cbor.kind? (p.bytes ++ rest) = some k := by
      intro p hp rest
      rw [WrittenProperty.bytes, List.append_assoc]
      exact ⟨.text, by decide, (hname p hp).2.kind? _⟩
    have hread := Decoding.readEntries_form hkind (fun p hp =>
      readProperty_form (hname p hp).1 (hname p hp).2 (hvalue p hp) levels) hform rest
    have hproperties : (entries.map fun p => (p.value.map normal).map (p.name, ·)).filterMap id =
        normalProperties (entries.filterMap WrittenProperty.property?) := by
      rw [normalProperties_eq_map, List.filterMap_map, List.map_filterMap]
      congr 1
      funext p
      cases hv : p.value <;> simp [WrittenProperty.property?, hv]
    have hheight : (∀ p ∈ entries, p.value.elim 0 height ≤ levels) ↔
        heightOfProperties (entries.filterMap WrittenProperty.property?) ≤ levels := by
      rw [forall_elim_height_le, heightOfProperties_le_iff]
      constructor
      · intro h q hq
        obtain ⟨p, hp, hproperty⟩ := List.mem_filterMap.mp hq
        obtain ⟨v, hv, rfl⟩ := Option.map_eq_some_iff.mp hproperty
        exact h v (List.mem_filterMap.mpr ⟨p, hp, hv⟩)
      · intro h v hv
        obtain ⟨p, hp, hvalue⟩ := List.mem_filterMap.mp hv
        exact h (p.name, v) (List.mem_filterMap.mpr ⟨p, hp, by
          rw [WrittenProperty.property?, hvalue]
          rfl⟩)
    simp only [Decoding.object_containers_succ, Decoding.readObject, hread, height,
      Nat.add_le_add_iff_right, hheight]
    split_ifs
    · simp only [ok_bind, hproperties]
      rfl
    · rfl

theorem readFrom_object {entries : List WrittenProperty}
    (hname : ∀ p ∈ entries, p.name ≠ "" ∧ Cbor.TextForm p.name p.nameBytes)
    (hvalue : ∀ p ∈ entries, ReadFrom p.value p.valueBytes) {s : List UInt8}
    (hform : Cbor.ContainerForm Cbor.mapItem (entries.map WrittenProperty.bytes) s) :
    ReadFrom (some (.object (entries.filterMap WrittenProperty.property?))) s := by
  refine readFrom_some hform.kind?_map fun levels rest => ?_
  simp only [Decoding.readValue, Decoding.kind, hform.kind?_map, Decoding.require_some,
    Decoding.ok_bind, object_form hname hvalue hform]
  split_ifs <;> rfl

/-- Whatever form a value without a fault is written in, it is read in its normal form or refused for
its depth. -/
theorem Form.readFrom {passed : List UInt8 → Prop}
    (hpassed : ∀ s, passed s → Decoding.PassedOver s) {v : Value} {s : List UInt8}
    (h : v.Form passed s) (hfault : v.fault? = none) : ReadFrom (some v) s := by
  induction h with
  | int h => exact readFrom_int h
  | bool h => exact readFrom_bool h
  | double h => exact readFrom_double h
  | text h => exact readFrom_text h
  | bytes h => exact readFrom_bytes h
  | array elements hvalue hnone hform ih =>
    have hall := faultOfValues?_eq_none_iff.mp hfault
    have hmem : ∀ v t, (some v, t) ∈ elements → v ∈ elements.filterMap Prod.fst :=
      fun v t hv => List.mem_filterMap.mpr ⟨(some v, t), hv, rfl⟩
    refine readFrom_array (fun e he => ?_) (fun v hv => (hall v hv).1) hform
    rcases e with ⟨_ | v, t⟩
    · exact readFrom_none (hpassed t (hnone t he))
    · exact ih v t he (hall v (hmem v t he)).2
  | object entries hname hvalue hnone hform ih =>
    have hall := faultOfProperties?_eq_none_iff.mp hfault
    refine readFrom_object hname (fun p hp => ?_) hform
    cases hv : p.value with
    | none => exact readFrom_none (hpassed _ (hnone p hp hv))
    | some v =>
      have hmem : (p.name, v) ∈ entries.filterMap WrittenProperty.property? :=
        List.mem_filterMap.mpr ⟨p, hp, by rw [WrittenProperty.property?, hv]; rfl⟩
      exact ih p hp v hv (hall _ hmem).2
  | objects elements hvalue hnone hform ih =>
    have hall := faultOfObjects?_eq_none_iff.mp hfault
    refine readFrom_objects (fun e he => ?_) hform
    rcases e with ⟨_ | m, t⟩
    · exact readFrom_none (hpassed t (hnone t he))
    · exact ih m t he (hall m (List.mem_filterMap.mpr ⟨(some m, t), he, rfl⟩))

/-- An object is read as the value is that it is. -/
theorem Form.read_object {passed : List UInt8 → Prop}
    (hpassed : ∀ s, passed s → Decoding.PassedOver s) {ps : List (String × Value)}
    {s : List UInt8} (h : (Value.object ps).Form passed s) (hfault : faultOfProperties? ps = none)
    (levels : Nat) (rest : List UInt8) :
    (Decoding.containers levels).object (s ++ rest) =
      if (Value.object ps).height ≤ levels then .ok (normalProperties ps, rest) else .error .tooDeep := by
  have hread : Decoding.readValue (Decoding.containers levels) (s ++ rest) =
      if (Value.object ps).height ≤ levels then
        .ok (some (Value.object (normalProperties ps)), rest)
      else .error .tooDeep := (h.readFrom hpassed hfault).2 levels rest
  simp only [Decoding.readValue, Decoding.kind, h.kind?, kind, Decoding.require_some,
    ok_bind] at hread
  cases hobject : (Decoding.containers levels).object (s ++ rest) with
  | error e =>
    rw [hobject] at hread
    split_ifs at hread ⊢ with hfits
    · cases hread
    · cases hread
      rfl
  | ok r =>
    obtain ⟨properties, rest'⟩ := r
    rw [hobject] at hread
    split_ifs at hread ⊢ with hfits
    · cases hread
      rfl
    · cases hread

end Value

namespace Payload

open Decoding

/-- The forms of a payload. No item without a value is strewn in among the objects of an array at the
root. -/
inductive Form (passed : List UInt8 → Prop) : Payload → List UInt8 → Prop
  | object {root : Representation} {s : List UInt8} (h : (Value.object root).Form passed s) :
      Form passed (.object root) s
  | objects (members : List (Representation × List UInt8)) {s : List UInt8}
      (h : ∀ m ∈ members, (Value.object m.1).Form passed m.2)
      (hform : Cbor.ContainerForm Cbor.arrayItem (members.map Prod.snd) s) :
      Form passed (.objects (members.map Prod.fst)) s

theorem decode_of_ne_nil {bs : List UInt8} (hne : bs ≠ []) :
    decode bs = (do
      let (p, rest) ← readPayload bs
      if rest.isEmpty then return p else .error .malformed) := by
  cases bs with
  | nil => exact absurd rfl hne
  | cons b bs => rfl

section

variable {passed : List UInt8 → Prop} (hpassed : ∀ s, passed s → PassedOver s)

include hpassed

theorem readRoot_form {root : Representation} {s : List UInt8}
    (h : (Value.object root).Form passed s) (hfault : Value.faultOfProperties? root = none)
    (levels : Nat) (rest : List UInt8) :
    readRoot (containers levels) (s ++ rest) =
      if (Value.object root).height ≤ levels then .ok (Value.normalProperties root, rest)
      else .error .tooDeep := by
  simp only [readRoot, kind, h.kind?, Value.kind, require_some, ok_bind,
    h.read_object hpassed hfault]

theorem readPayload_form {p : Payload} {s : List UInt8} (h : p.Form passed s)
    (hfault : p.fault? = none) (rest : List UInt8) :
    readPayload (s ++ rest) =
      if p.height ≤ maxDepth then .ok (p.normal, rest) else .error .tooDeep := by
  cases h with
  | @object root _ h =>
    have hobject := h.read_object hpassed hfault maxDepth rest
    simp only [readPayloadIn, kind, h.kind?, Value.kind, require_some, ok_bind, hobject]
    change _ = if (Value.object root).height ≤ maxDepth then _ else _
    split_ifs <;> rfl
  | objects members h hform =>
    have hall := Value.faultOfObjects?_eq_none_iff.mp hfault
    have hread := readEntries_form (fun m hm rest => ⟨.map, by decide, (h m hm).kind? rest⟩)
      (fun m hm => readRoot_form hpassed (h m hm) (hall _ (List.mem_map_of_mem hm)) (maxDepth - 1))
      hform rest
    have hheight : (Payload.objects (members.map Prod.fst)).height ≤ maxDepth ↔
        ∀ m ∈ members, (Value.object m.1).height ≤ maxDepth - 1 := by
      rw [height, maxDepth, Nat.add_le_add_iff_right, Value.heightOfObjects_le_iff,
        List.forall_mem_map]
      rfl
    simp only [readPayloadIn, kind, hform.kind?_array, require_some, ok_bind, hread, hheight, normal,
      Value.normalObjects_eq_map, List.map_map]
    split_ifs <;> rfl

/-- Whatever form a payload without a fault is written in, it is decoded to its normal form or
refused for its depth. -/
theorem decode_form {p : Payload} {s : List UInt8} (h : p.Form passed s)
    (hfault : p.fault? = none) :
    decode s = if p.height ≤ maxDepth then .ok p.normal else .error .tooDeep := by
  have hread := readPayload_form hpassed h hfault []
  rw [List.append_nil] at hread
  have hne : s ≠ [] := by
    rintro rfl
    rw [show readPayload [] = .error .malformed from rfl] at hread
    split_ifs at hread
    cases hread
  rw [decode_of_ne_nil hne, hread]
  split_ifs <;> rfl

end

/-- What is decoded does not depend on the form that a payload is written in, nor on the items null
and undefined that are strewn in. -/
theorem decode_of_form {p : Payload} {s : List UInt8} (hwell : p.WellFormed)
    (hunambiguous : p.Unambiguous) (hheight : p.height ≤ 16) (h : p.Form Cbor.BlankForm s) :
    decode s = .ok p := by
  rw [decode_form (fun _ => passedOver_blank) h hwell.fault?_eq_none,
    if_pos (show p.height ≤ maxDepth from hheight), hunambiguous.normal_eq]

/-- A name in two pieces, a count and a number in longer heads than they need, and a null and an
undefined item. -/
theorem decode_of_form_lamp :
    decode [0xbf, 0x7f, 0x62, 0x6c, 0x61, 0x62, 0x6d, 0x70, 0xff, 0x98, 0x03, 0xf5, 0xf6, 0x18,
      0x07, 0x61, 0x78, 0xf7, 0xff] = .ok (.object [("lamp", .array [.bool true, .int 7])]) := by
  have hname : Cbor.TextForm "lamp" [0x7f, 0x62, 0x6c, 0x61, 0x62, 0x6d, 0x70, 0xff] :=
    @Cbor.TextForm.intro ["la", "mp"] _ (.indefinite [([0x6c, 0x61], [0x62, 0x6c, 0x61]),
      ([0x6d, 0x70], [0x62, 0x6d, 0x70])] (by
        simp only [List.forall_mem_cons]
        exact ⟨.intro (.short (by decide) (by decide)), .intro (.short (by decide) (by decide)),
          nofun⟩))
  have hextra : Cbor.TextForm "x" [0x61, 0x78] :=
    @Cbor.TextForm.intro ["x"] _ (.definite (.intro (.short (by decide) (by decide))))
  have hseven : Cbor.IntForm (7 : Int64).toInt [0x18, 0x07] :=
    .nonneg (@Cbor.HeadForm.wide Cbor.unsigned 0 [0x07] (by decide) (by decide) rfl)
  have hcount : Cbor.ContainerForm Cbor.arrayItem [[0xf5], [0xf6], [0x18, 0x07]]
      ([0x98, 0x03] ++ [0xf5, 0xf6, 0x18, 0x07]) :=
    .definite (@Cbor.HeadForm.wide Cbor.arrayItem 0 [0x03] (by decide) (by decide) rfl)
  have harray : (Value.array [.bool true, .int 7]).Form Cbor.BlankForm
      [0x98, 0x03, 0xf5, 0xf6, 0x18, 0x07] :=
    .array [(some (.bool true), [0xf5]), (none, [0xf6]), (some (.int 7), [0x18, 0x07])]
      (by
        simp only [List.mem_cons, Prod.mk.injEq, Option.some.injEq, reduceCtorEq, false_and,
          List.not_mem_nil, or_false, false_or]
        rintro v t (⟨rfl, rfl⟩ | ⟨rfl, rfl⟩)
        · exact .bool .yes
        · exact .int hseven)
      (by simpa using .null) hcount
  have hroot : (Value.object [("lamp", .array [.bool true, .int 7])]).Form Cbor.BlankForm _ :=
    .object [⟨"lamp", some (.array [.bool true, .int 7]),
      [0x7f, 0x62, 0x6c, 0x61, 0x62, 0x6d, 0x70, 0xff], [0x98, 0x03, 0xf5, 0xf6, 0x18, 0x07]⟩,
      ⟨"x", none, [0x61, 0x78], [0xf7]⟩] (by simp [hname, hextra]) (by simpa using harray)
      (by simpa using .undefined) .indefinite
  have hwell : (Value.object [("lamp", .array [.bool true, .int 7])]).WellFormed :=
    .object (by simp) (by simpa using .array (by simp [Value.isObject]) (by
      simpa using ⟨.bool true, .int 7⟩))
  have hunambiguous : (Value.object [("lamp", .array [.bool true, .int 7])]).Unambiguous :=
    .object (by simpa using .array (by simpa using ⟨.bool true, .int 7⟩))
  exact decode_of_form hwell (by simpa [Unambiguous, roots] using hunambiguous) (by decide)
    (.object hroot)

end Payload

end DeviceClient
