import Mathlib.Tactic.IntervalCases
import DeviceClient.Proofs.Payload.Acceptance

namespace DeviceClient

namespace Decoding

open Value (ItemForm PropertyForm)

/-- A well-formed item that is passed over. -/
def PassedItem (s : List UInt8) : Prop := PassedOver s ∧ Cbor.Item s

/-- Reading a value takes the bytes off the front of the input, all of them and no more. -/
def ReadsWhole (s : List UInt8) : Prop :=
  ∀ levels rest v rest', readValue (containers levels) (s ++ rest) = .ok (v, rest') →
    rest' = rest ∧ ItemForm PassedItem v s

theorem readsWhole_of_readFrom {s : List UInt8} {v : Option Value} (h : Value.ReadFrom v s)
    (hform : ItemForm PassedItem (v.map Value.normal) s) : ReadsWhole s := by
  intro levels rest w rest' hw
  rw [h.2] at hw
  split_ifs at hw
  cases hw
  exact ⟨rfl, hform⟩

theorem readsWhole_passed {s : List UInt8} (h : Cbor.Item s) (hlength : s.length < 2 ^ 63)
    {k : Cbor.Kind} (hkind : ∀ rest, Cbor.kind? (s ++ rest) = some k) (hk : isPassed k = true) :
    ReadsWhole s := by
  have hpassed : PassedOver s := fun rest => ⟨h.skip hlength rest, k, hkind rest, hk⟩
  exact readsWhole_of_readFrom (Value.readFrom_none hpassed) (.passed ⟨hpassed, h⟩)

theorem readsWhole_int {n : Int} {s : List UInt8} (h : Cbor.IntForm n s) : ReadsWhole s := by
  by_cases hrange : -2 ^ 63 ≤ n ∧ n < 2 ^ 63
  · rw [← Int64.toInt_ofInt_of_le hrange.1 hrange.2] at h
    exact readsWhole_of_readFrom (Value.readFrom_int h) (.value (.int h) rfl)
  · intro levels rest v rest' hv
    simp only [readValue, kind, h.kind?, require_some, ok_bind, readInt, h.read,
      if_neg hrange] at hv
    cases hv

theorem readsWhole_simple {n : Nat} {s : List UInt8}
    (h : Cbor.HeadForm ⟨Cbor.simpleItem, n⟩ s) (hitem : Cbor.Item s) (hlength : s.length < 2 ^ 63) :
    ReadsWhole s := by
  cases h with
  | short hmajor hargument =>
    have hcases : n < 20 ∨ n = 20 ∨ n = 21 ∨ n = 22 ∨ n = 23 := by omega
    rcases hcases with hsimple | rfl | rfl | rfl | rfl
    · have hkind (rest : List UInt8) :
          Cbor.kind? ([UInt8.ofNat (32 * Cbor.simpleItem + n)] ++ rest) = some .simple := by
        have hfirst := Cbor.toNat_first hmajor (Nat.lt_trans hargument (by decide))
        rw [List.singleton_append, Cbor.kind?_cons rest (by rw [hfirst, Cbor.simpleItem]; omega),
          (by decide : ∀ n < 20, Cbor.Kind.ofByte (UInt8.ofNat (32 * Cbor.simpleItem + n)) = .simple)
            n hsimple]
      exact readsWhole_passed hitem hlength hkind rfl
    · exact readsWhole_of_readFrom (Value.readFrom_bool .no) (.value (.bool .no) rfl)
    · exact readsWhole_of_readFrom (Value.readFrom_bool .yes) (.value (.bool .yes) rfl)
    · exact readsWhole_passed hitem hlength (k := .null) (fun _ => rfl) rfl
    · exact readsWhole_passed hitem hlength (k := .undefined) (fun _ => rfl) rfl
  | @wide _ k ns hmajor hk hns =>
    interval_cases k
    · exact readsWhole_passed hitem hlength (k := .simple) (fun _ => rfl) rfl
    · have hform : Cbor.DoubleForm _ (0xf9 :: ns) := .half hns
      exact readsWhole_of_readFrom (Value.readFrom_double hform) (.value (.double hform) rfl)
    · have hform : Cbor.DoubleForm _ (0xfa :: ns) := .single hns
      exact readsWhole_of_readFrom (Value.readFrom_double hform) (.value (.double hform) rfl)
    · have hform : Cbor.DoubleForm _ (0xfb :: ns) := .double hns
      exact readsWhole_of_readFrom (Value.readFrom_double hform) (.value (.double hform) rfl)

section

variable {α β : Type} {entry : Reader α} {write : β → List UInt8} {value : β → α} {P : β → Prop}
  {items : List (List UInt8)}
  (hentry : ∀ i ∈ items, ∀ rest a rest', entry (i ++ rest) = .ok (a, rest') →
    rest' = rest ∧ ∃ b, P b ∧ a = value b ∧ i = write b)

include hentry

theorem readExactly_items {rest rest' : List UInt8} {as : List α}
    (h : readExactly entry items.length (items.flatten ++ rest) = .ok (as, rest')) :
    rest' = rest ∧
      ∃ bs : List β, (∀ b ∈ bs, P b) ∧ as = bs.map value ∧ items = bs.map write := by
  induction items generalizing as with
  | nil =>
    cases h
    exact ⟨rfl, [], by simp, rfl, rfl⟩
  | cons i items ih =>
    obtain ⟨hi, hitems⟩ := List.forall_mem_cons.mp hentry
    rw [List.flatten_cons, List.append_assoc, List.length_cons, readExactly, readNext_eq] at h
    obtain ⟨⟨a, r⟩, ha, h⟩ := bind_eq_ok_iff.mp h
    obtain ⟨⟨as', r'⟩, has, heq⟩ := bind_eq_ok_iff.mp h
    cases heq
    obtain ⟨rfl, b, hb, rfl, rfl⟩ := hi _ _ _ ha
    obtain ⟨rfl, bs, hbs, rfl, rfl⟩ := ih hitems has
    exact ⟨rfl, b :: bs, List.forall_mem_cons.mpr ⟨hb, hbs⟩, rfl, rfl⟩

variable (hkind : ∀ i ∈ items, ∀ rest, ∃ k, k ≠ .stop ∧ Cbor.kind? (i ++ rest) = some k)

include hkind

theorem readUntilStop_items {rounds : Nat} {rest rest' : List UInt8} {as : List α}
    (h : readUntilStop entry rounds (items.flatten ++ Cbor.stopByte :: rest) = .ok (as, rest')) :
    rest' = rest ∧
      ∃ bs : List β, (∀ b ∈ bs, P b) ∧ as = bs.map value ∧ items = bs.map write := by
  induction items generalizing rounds as with
  | nil =>
    cases rounds with
    | zero => cases h
    | succ rounds =>
      cases h
      exact ⟨rfl, [], by simp, rfl, rfl⟩
  | cons i items ih =>
    obtain ⟨hi, hitems⟩ := List.forall_mem_cons.mp hentry
    obtain ⟨hki, hkinds⟩ := List.forall_mem_cons.mp hkind
    cases rounds with
    | zero => cases h
    | succ rounds =>
      rw [List.flatten_cons, List.append_assoc] at h
      obtain ⟨k, hstop, hk⟩ := hki (items.flatten ++ Cbor.stopByte :: rest)
      rw [readUntilStop_succ hk hstop] at h
      obtain ⟨⟨a, r⟩, ha, h⟩ := bind_eq_ok_iff.mp h
      obtain ⟨⟨as', r'⟩, has, heq⟩ := bind_eq_ok_iff.mp h
      cases heq
      obtain ⟨rfl, b, hb, rfl, rfl⟩ := hi _ _ _ ha
      obtain ⟨rfl, bs, hbs, rfl, rfl⟩ := ih hitems hkinds has
      exact ⟨rfl, b :: bs, List.forall_mem_cons.mpr ⟨hb, hbs⟩, rfl, rfl⟩

/-- From the form of a container its entries are read, and no byte after them. -/
theorem readEntries_items {major : Nat} {s rest rest' : List UInt8} {as : List α}
    (hform : Cbor.ContainerForm major items s)
    (h : readEntries major entry (s ++ rest) = .ok (as, rest')) :
    rest' = rest ∧
      ∃ bs : List β, (∀ b ∈ bs, P b) ∧ as = bs.map value ∧ items = bs.map write := by
  cases hform with
  | definite hhead =>
    rw [List.append_assoc] at h
    simp only [readEntries, enclose_eq, hhead.readCount, require_some, ok_bind] at h
    exact readExactly_items hentry h
  | indefinite =>
    rw [List.cons_append, List.append_assoc] at h
    simp only [readEntries, enclose_eq, Cbor.readCount_indefinite, require_some, ok_bind] at h
    exact readUntilStop_items hentry hkind h

end

theorem readsWhole_array {items : List (List UInt8)} {s : List UInt8}
    (hitem : ∀ i ∈ items, Cbor.Item i) (hitems : ∀ i ∈ items, ReadsWhole i)
    (hform : Cbor.ContainerForm Cbor.arrayItem items s) : ReadsWhole s := by
  intro levels rest v rest' h
  simp only [readValue, kind, hform.kind?_array, require_some, ok_bind] at h
  obtain ⟨⟨w, r⟩, hw, heq⟩ := bind_eq_ok_iff.mp h
  cases heq
  cases levels with
  | zero => cases hw
  | succ levels =>
    have hentry : ∀ i ∈ items, ∀ rest a rest',
        readValue (containers levels) (i ++ rest) = .ok (a, rest') → rest' = rest ∧
          ∃ e : Option Value × List UInt8, ItemForm PassedItem e.1 e.2 ∧ a = e.1 ∧ i = e.2 := by
      intro i hi rest a rest' ha
      obtain ⟨hrest, hai⟩ := hitems i hi levels rest a rest' ha
      exact ⟨hrest, (a, i), hai, rfl, rfl⟩
    obtain ⟨⟨as, r⟩, has, hw⟩ := bind_eq_ok_iff.mp hw
    obtain ⟨w', harray, heq⟩ := bind_eq_ok_iff.mp hw
    cases heq
    obtain ⟨rfl, es, hes, rfl, rfl⟩ :=
      readEntries_items hentry (fun i hi => (hitem i hi).kind?) hform has
    rw [List.filterMap_map] at harray
    exact ⟨rfl, .of_arrayOf? hes hform (require_eq_ok_iff.mp harray)⟩

theorem readsWhole_property {key item : List UInt8} (hkey : ReadsWhole key)
    (hitem : ReadsWhole item) {levels : Nat} {rest rest' : List UInt8}
    {a : Option (String × Value)}
    (h : readProperty (containers levels) (key ++ item ++ rest) = .ok (a, rest')) :
    rest' = rest ∧
      ∃ p, PropertyForm PassedItem p ∧ a = p.property? ∧ key ++ item = p.bytes := by
  rw [List.append_assoc] at h
  obtain ⟨k, hkind, hread⟩ := bind_eq_ok_iff.mp h
  clear h
  cases k with
  | text =>
    obtain ⟨⟨name, r⟩, hname, hread⟩ := bind_eq_ok_iff.mp hread
    dsimp only at hread
    split_ifs at hread with hempty
    obtain ⟨⟨v, r'⟩, hv, heq⟩ := bind_eq_ok_iff.mp hread
    cases heq
    -- The key is an item, and what is read from it as a value is the name.
    have hvalue : readValue (containers levels) (key ++ (item ++ rest)) =
        .ok (some (.text name), r) := by
      rw [readValue, hkind, ok_bind]
      simp only [hname, ok_bind]
      rfl
    obtain ⟨rfl, hform⟩ := hkey _ _ _ _ hvalue
    obtain ⟨rfl, hitemForm⟩ := hitem _ _ _ _ hv
    cases hform.of_some.1 with
    | text hform =>
      exact ⟨rfl, ⟨name, v, key, item⟩, ⟨by simpa using hempty, hform, hitemForm⟩, rfl, rfl⟩
  | _ => cases hread

theorem readsWhole_map {entries : List (List UInt8 × List UInt8)} {s : List UInt8}
    (hitem : ∀ e ∈ entries, Cbor.Item e.1) (hkey : ∀ e ∈ entries, ReadsWhole e.1)
    (hvalue : ∀ e ∈ entries, ReadsWhole e.2)
    (hform : Cbor.ContainerForm Cbor.mapItem (entries.map fun e => e.1 ++ e.2) s) :
    ReadsWhole s := by
  intro levels rest v rest' h
  simp only [readValue, kind, hform.kind?_map, require_some, ok_bind] at h
  obtain ⟨⟨ps, r⟩, hps, heq⟩ := bind_eq_ok_iff.mp h
  cases heq
  cases levels with
  | zero => cases hps
  | succ levels =>
    obtain ⟨⟨as, r⟩, has, heq⟩ := bind_eq_ok_iff.mp hps
    cases heq
    have hkind : ∀ i ∈ entries.map fun e => e.1 ++ e.2, ∀ rest, ∃ k, k ≠ .stop ∧
        Cbor.kind? (i ++ rest) = some k := by
      refine List.forall_mem_map.mpr fun e he rest => ?_
      rw [List.append_assoc]
      exact (hitem e he).kind? _
    obtain ⟨rfl, ws, hws, rfl, hbytes⟩ := readEntries_items
      (List.forall_mem_map.mpr fun e he _ _ _ => readsWhole_property (hkey e he) (hvalue e he))
      hkind hform has
    rw [hbytes] at hform
    refine ⟨rfl, ?_⟩
    rw [List.filterMap_map]
    exact .of_properties hws hform

/-- A value is read from the whole of a well-formed item and from nothing after it. -/
theorem readsWhole_of_item {s : List UInt8} (h : Cbor.Item s) (hlength : s.length < 2 ^ 63) :
    ReadsWhole s := by
  induction h with
  | int h => exact readsWhole_int h
  | bytes h => exact readsWhole_of_readFrom (Value.readFrom_bytes h) (.value (.bytes h) rfl)
  | text h => exact readsWhole_of_readFrom (Value.readFrom_text h) (.value (.text h) rfl)
  | array items h hform ih =>
    exact readsWhole_array h
      (fun i hi => ih i hi (Nat.lt_of_le_of_lt (hform.length_le hi) hlength)) hform
  | map entries hkey hvalue hform ihkey ihvalue =>
    have hentry : ∀ e ∈ entries, e.1.length < 2 ^ 63 ∧ e.2.length < 2 ^ 63 := by
      intro e he
      have hle := hform.length_le (List.mem_map_of_mem he)
      rw [List.length_append] at hle
      omega
    exact readsWhole_map hkey (fun e he => ihkey e he (hentry e he).1)
      (fun e he => ihvalue e he (hentry e he).2) hform
  | @tag n head s hhead h ih =>
    refine readsWhole_passed (.tag hhead h) hlength (k := .tag) (fun rest => ?_) rfl
    rw [List.append_assoc]
    exact hhead.kind? (by decide) _
  | simple h hsecond => exact readsWhole_simple h (.simple h hsecond) hlength

theorem object_of_item {s rest rest' : List UInt8} {levels : Nat} {ps : Representation}
    (hs : Cbor.Item s) (hlength : s.length < 2 ^ 63) (hkind : Cbor.kind? (s ++ rest) = some .map)
    (h : (containers levels).object (s ++ rest) = .ok (ps, rest')) :
    rest' = rest ∧ (Value.object ps).Form PassedItem s := by
  have hvalue : readValue (containers levels) (s ++ rest) = .ok (some (.object ps), rest') := by
    simp only [readValue, kind, hkind, require_some, ok_bind, h]
    rfl
  obtain ⟨hrest, hform⟩ := readsWhole_of_item hs hlength _ _ _ _ hvalue
  exact ⟨hrest, hform.of_some.1⟩

theorem readRoot_of_item {s rest rest' : List UInt8} {levels : Nat} {root : Representation}
    (hs : Cbor.Item s) (hlength : s.length < 2 ^ 63)
    (h : readRoot (containers levels) (s ++ rest) = .ok (root, rest')) :
    rest' = rest ∧ (Value.object root).Form PassedItem s := by
  obtain ⟨k, hkind, h⟩ := bind_eq_ok_iff.mp h
  rw [kind, require_eq_ok_iff] at hkind
  cases k with
  | map => exact object_of_item hs hlength hkind h
  | _ => cases h

end Decoding

namespace Value

variable {passed : List UInt8 → Prop}

/-- A form is a well-formed item when all that is passed over in it is. -/
theorem Form.item (hpassed : ∀ s, passed s → Cbor.Item s) {v : Value} {s : List UInt8}
    (h : v.Form passed s) : Cbor.Item s := by
  induction h with
  | int h => exact .int h
  | bool h => exact h.item
  | double h => exact h.item
  | text h => exact .text h
  | bytes h => exact .bytes h
  | array elements hvalue hnone hform ih =>
    refine .array _ (List.forall_mem_map.mpr fun e he => ?_) hform
    rcases e with ⟨_ | v, t⟩
    · exact hpassed t (hnone t he)
    · exact ih v t he
  | object entries hname hvalue hnone hform ih =>
    refine .map (entries.map fun p => (p.nameBytes, p.valueBytes)) ?_ ?_ ?_
    · exact List.forall_mem_map.mpr fun p hp => .text (hname p hp).2
    · refine List.forall_mem_map.mpr fun p hp => ?_
      cases hv : p.value with
      | none => exact hpassed _ (hnone p hp hv)
      | some v => exact ih p hp v hv
    · rw [List.map_map]
      exact hform
  | objects elements hvalue hnone hform ih =>
    refine .array _ (List.forall_mem_map.mpr fun e he => ?_) hform
    rcases e with ⟨_ | m, t⟩
    · exact hpassed t (hnone t he)
    · exact ih m t he

end Value

namespace Payload

open Decoding

theorem Form.item {passed : List UInt8 → Prop} (hpassed : ∀ s, passed s → Cbor.Item s)
    {p : Payload} {s : List UInt8} (h : p.Form passed s) : Cbor.Item s := by
  cases h with
  | object h => exact h.item hpassed
  | objects members h hform =>
    exact .array _ (List.forall_mem_map.mpr fun m hm => (h m hm).item hpassed) hform

theorem form_of_item {bs : List UInt8} {p : Payload} (hitem : Cbor.Item bs)
    (hlength : bs.length < 2 ^ 63) (h : decode bs = .ok p) : p.Form PassedItem bs := by
  have hread := readPayload_of_decode hitem.ne_nil h
  obtain ⟨k, hkind, hread⟩ := bind_eq_ok_iff.mp hread
  rw [kind, require_eq_ok_iff] at hkind
  cases k with
  | map =>
    obtain ⟨⟨root, r⟩, hroot, heq⟩ := bind_eq_ok_iff.mp hread
    cases heq
    rw [← List.append_nil bs] at hkind hroot
    exact .object (object_of_item hitem hlength hkind hroot).2
  | array =>
    obtain ⟨⟨roots, r⟩, hroots, heq⟩ := bind_eq_ok_iff.mp hread
    cases heq
    rw [← List.append_nil bs] at hkind hroots
    obtain ⟨items, hitems, hform⟩ := hitem.exists_items hkind
    have hentry : ∀ i ∈ items, ∀ rest root rest',
        readRoot (containers (maxDepth - 1)) (i ++ rest) = .ok (root, rest') → rest' = rest ∧
          ∃ m : Representation × List UInt8, (Value.object m.1).Form PassedItem m.2 ∧
            root = m.1 ∧ i = m.2 := by
      intro i hi rest root rest' hroot
      obtain ⟨hrest, hmember⟩ := readRoot_of_item (hitems i hi)
        (Nat.lt_of_le_of_lt (hform.length_le hi) hlength) hroot
      exact ⟨hrest, (root, i), hmember, rfl, rfl⟩
    obtain ⟨-, members, hmembers, rfl, rfl⟩ :=
      readEntries_items hentry (fun i hi => (hitems i hi).kind?) hform hroots
    exact .objects members hmembers hform
  | _ => cases hread

/-- The input that is decoded, unless it is empty, is a form of a payload without a fault that is read
back as it is and nests no deeper than is allowed: but for the items that are passed over it is well
formed. It is one well-formed item exactly when they are. -/
theorem decode_eq_ok_iff_form (bs : List UInt8) (p : Payload) :
    (decode bs = .ok p ↔ bs = [] ∧ p = .object [] ∨
      p.Form PassedOver bs ∧ p.fault? = none ∧ p.normal = p ∧ p.height ≤ 16) ∧
    (decode bs = .ok p → bs ≠ [] → bs.length < 2 ^ 63 →
      (Cbor.Item bs ↔ p.Form PassedItem bs)) :=
  ⟨decode_eq_ok_iff, fun h _ hlength => ⟨fun hitem => form_of_item hitem hlength h,
    fun hform => hform.item fun _ hs => hs.2⟩⟩

/-- A tag with an item after it is passed over. -/
theorem decode_eq_ok_iff_form_tagged :
    decode [0xbf, 0x61, 0x61, 0xc0, 0x01, 0xff] = .ok (.object []) ∧
      Cbor.Item [0xbf, 0x61, 0x61, 0xc0, 0x01, 0xff] ∧
      Form PassedItem (.object []) [0xbf, 0x61, 0x61, 0xc0, 0x01, 0xff] := by
  have hdecode : decode [0xbf, 0x61, 0x61, 0xc0, 0x01, 0xff] = .ok (.object []) := by
    rfl
  have hkey : Cbor.Item [0x61, 0x61] :=
    .text (@Cbor.TextForm.intro ["a"] _ (.definite (.intro (.short (by decide) (by decide)))))
  have hone : Cbor.Item [0x01] :=
    .int (.nonneg (show Cbor.HeadForm ⟨Cbor.unsigned, 1⟩ _ from .short (by decide) (by decide)))
  have htagged : Cbor.Item ([0xc0] ++ [0x01]) :=
    .tag (show Cbor.HeadForm ⟨Cbor.tagItem, 0⟩ _ from .short (by decide) (by decide)) hone
  have hitem : Cbor.Item [0xbf, 0x61, 0x61, 0xc0, 0x01, 0xff] :=
    .map [([0x61, 0x61], [0xc0, 0x01])] (by simpa using hkey) (by simpa using htagged) .indefinite
  exact ⟨hdecode, hitem,
    ((decode_eq_ok_iff_form _ _).2 hdecode (by decide) (by decide)).mp hitem⟩

/-- So is a tag with a stop byte after it, and the stop byte of the object is the one after that. -/
theorem decode_stop_in_tag :
    decode [0xbf, 0x61, 0x61, 0xc0, 0xff, 0xff] = .ok (.object []) ∧
      ¬Cbor.Item [0xbf, 0x61, 0x61, 0xc0, 0xff, 0xff] := by
  refine ⟨rfl, fun hitem => ?_⟩
  have hskip := hitem.skip (by decide) []
  revert hskip
  decide

end Payload

end DeviceClient
