import Mathlib.Data.List.Basic
import DeviceClient.Proofs.Payload.Form

namespace DeviceClient

namespace Decoding

theorem bind_eq_ok_iff {ε α β : Type} {x : Except ε α} {f : α → Except ε β} {b : β} :
    (x >>= f) = .ok b ↔ ∃ a, x = .ok a ∧ f a = .ok b := by
  cases x with
  | error e => simp [bind, Except.bind]
  | ok a => simp

theorem require_eq_ok_iff {α : Type} {o : Option α} {a : α} :
    (require o : Except DecodeError α) = .ok a ↔ o = some a := by
  cases o with
  | none => simp [require, Reading.fail]
  | some b => simp

theorem exists_passedOver {bs rest : List UInt8} {k : Cbor.Kind} (hkind : Cbor.kind? bs = some k)
    (hk : isPassed k = true) (hskip : Cbor.Skip.skip bs = some rest) :
    ∃ s, PassedOver s ∧ bs = s ++ rest := by
  obtain ⟨s, p', hgoes, hdone, rfl⟩ := Cbor.Skip.skip_eq_some_iff.mp hskip
  have hne : s ≠ [] := by
    rintro rfl
    rw [hgoes.eq_of_nil] at hdone
    cases hdone
  have hwhole : Cbor.kind? s = some k := by
    refine Cbor.kind?_of_append hne hkind ?_
    rintro rfl
    cases hk
  exact ⟨s, fun rest' => ⟨Cbor.Skip.skip_eq_some_iff.mpr ⟨s, p', hgoes, hdone, rfl⟩, k,
    Cbor.kind?_append hwhole rest', hk⟩, rfl⟩

section

variable {α β : Type} {entry : Reader α} {write : β → List UInt8} {value : β → α} {P : β → Prop}
  (hentry : ∀ bs a rest, entry bs = .ok (a, rest) → ∃ b, P b ∧ a = value b ∧ bs = write b ++ rest)

include hentry

theorem readExactly_eq_ok {n : Nat} {bs rest : List UInt8} {as : List α}
    (h : readExactly entry n bs = .ok (as, rest)) :
    ∃ items : List β, (∀ b ∈ items, P b) ∧ as = items.map value ∧ items.length = n ∧
      bs = items.flatMap write ++ rest := by
  induction n generalizing bs as with
  | zero =>
    cases h
    exact ⟨[], by simp, rfl, rfl, rfl⟩
  | succ n ih =>
    rw [readExactly, readNext_eq] at h
    obtain ⟨⟨a, bs'⟩, ha, h⟩ := bind_eq_ok_iff.mp h
    obtain ⟨⟨as', bs''⟩, has, heq⟩ := bind_eq_ok_iff.mp h
    cases heq
    obtain ⟨b, hb, rfl, rfl⟩ := hentry _ _ _ ha
    obtain ⟨items, hitems, rfl, rfl, rfl⟩ := ih has
    exact ⟨b :: items, List.forall_mem_cons.mpr ⟨hb, hitems⟩, rfl, rfl, by simp⟩

theorem readUntilStop_eq_ok {rounds : Nat} {bs rest : List UInt8} {as : List α}
    (h : readUntilStop entry rounds bs = .ok (as, rest)) :
    ∃ items : List β, (∀ b ∈ items, P b) ∧ as = items.map value ∧
      bs = items.flatMap write ++ Cbor.stopByte :: rest := by
  induction rounds generalizing bs as with
  | zero => cases h
  | succ rounds ih =>
    cases hkind : Cbor.kind? bs with
    | none =>
      rw [readUntilStop, kind, hkind] at h
      cases h
    | some k =>
      by_cases hk : k = .stop
      · subst hk
        rw [readUntilStop, kind, hkind] at h
        cases h
        exact ⟨[], by simp, rfl, Cbor.kind?_eq_stop hkind⟩
      · rw [readUntilStop_succ hkind hk] at h
        obtain ⟨⟨a, bs'⟩, ha, h⟩ := bind_eq_ok_iff.mp h
        obtain ⟨⟨as', bs''⟩, has, heq⟩ := bind_eq_ok_iff.mp h
        cases heq
        obtain ⟨b, hb, rfl, rfl⟩ := hentry _ _ _ ha
        obtain ⟨items, hitems, rfl, rfl⟩ := ih has
        exact ⟨b :: items, List.forall_mem_cons.mpr ⟨hb, hitems⟩, rfl, by simp⟩

theorem readEntries_eq_ok {major : Nat} {bs rest : List UInt8} {as : List α}
    (h : readEntries major entry bs = .ok (as, rest)) :
    ∃ (items : List β) (s : List UInt8), (∀ b ∈ items, P b) ∧ as = items.map value ∧
      Cbor.ContainerForm major (items.map write) s ∧ bs = s ++ rest := by
  rw [readEntries, enclose_eq] at h
  obtain ⟨⟨count, bs'⟩, hcount, hread⟩ := bind_eq_ok_iff.mp h
  clear h
  rcases Cbor.readCount_eq_some (require_eq_ok_iff.mp hcount) with
    ⟨rfl, rfl⟩ | ⟨n, head, rfl, hhead, rfl⟩
  · obtain ⟨items, hitems, rfl, rfl⟩ := readUntilStop_eq_ok hentry hread
    exact ⟨items, _, hitems, rfl, .indefinite, by simp [List.flatMap_def]⟩
  · obtain ⟨items, hitems, rfl, rfl, rfl⟩ := readExactly_eq_ok hentry hread
    refine ⟨items, _, hitems, rfl, .definite (by rwa [List.length_map]), ?_⟩
    rw [List.flatMap_def, List.append_assoc]

end

theorem readItems_eq_ok {α : Type} {entry : Reader α} {form : α → List UInt8 → Prop}
    (hentry : ∀ bs a rest, entry bs = .ok (a, rest) → ∃ s, form a s ∧ bs = s ++ rest)
    {major : Nat} {bs rest : List UInt8} {as : List α}
    (h : readEntries major entry bs = .ok (as, rest)) :
    ∃ (items : List (α × List UInt8)) (s : List UInt8), (∀ e ∈ items, form e.1 e.2) ∧
      as = items.map Prod.fst ∧ Cbor.ContainerForm major (items.map Prod.snd) s ∧
      bs = s ++ rest := by
  have hpair (bs : List UInt8) (a : α) (rest : List UInt8) (ha : entry bs = .ok (a, rest)) :
      ∃ e : α × List UInt8, form e.1 e.2 ∧ a = e.1 ∧ bs = e.2 ++ rest := by
    obtain ⟨s, hs, heq⟩ := hentry bs a rest ha
    exact ⟨(a, s), hs, rfl, heq⟩
  exact readEntries_eq_ok hpair h

end Decoding

namespace Value

theorem eq_object_of_properties? {v : Value} {ps : List (String × Value)}
    (h : Decoding.properties? v = some ps) : v = .object ps := by
  cases v with
  | object properties => exact congrArg Value.object (Option.some.inj h)
  | _ => cases h

/-- An array is made of values none of which is an object, or of objects alone. -/
theorem arrayOf?_eq_some {values : List Value} {v : Value} (h : Decoding.arrayOf? values = some v) :
    (v = .array values ∧ ∀ w ∈ values, w.isObject = false) ∨
      ∃ members, v = .objects members ∧ values = members.map .object := by
  unfold Decoding.arrayOf? at h
  split at h
  next hnone =>
    cases h
    rw [List.filterMap_eq_nil_iff] at hnone
    refine .inl ⟨rfl, fun w hw => ?_⟩
    cases w with
    | object properties => cases hnone _ hw
    | _ => rfl
  next =>
    split_ifs at h with hlength
    cases h
    have hobject := List.filterMap_length_eq_length.mp hlength
    refine .inr ⟨_, rfl, ?_⟩
    rw [List.map_filterMap]
    refine ((List.filterMap_congr fun w hw => ?_).trans List.filterMap_some).symm
    obtain ⟨ps, hps⟩ := Option.isSome_iff_exists.mp (hobject w hw)
    rw [hps, eq_object_of_properties? hps]
    rfl

/-- The forms of an item that has no value or a value without a fault. -/
inductive ItemForm (passed : List UInt8 → Prop) : Option Value → List UInt8 → Prop
  | passed {s : List UInt8} (h : passed s) : ItemForm passed none s
  | value {v : Value} {s : List UInt8} (h : v.Form passed s) (hfault : v.fault? = none) :
      ItemForm passed (some v) s

/-- The forms of a name and the item after it. -/
structure PropertyForm (passed : List UInt8 → Prop) (p : WrittenProperty) : Prop where
  name_ne : p.name ≠ ""
  name : Cbor.TextForm p.name p.nameBytes
  value : ItemForm passed p.value p.valueBytes

namespace ItemForm

variable {passed : List UInt8 → Prop} {s : List UInt8}

theorem of_none (h : ItemForm passed none s) : passed s := by
  cases h with
  | passed h => exact h

theorem of_some {v : Value} (h : ItemForm passed (some v) s) :
    v.Form passed s ∧ v.fault? = none := by
  cases h with
  | value h hfault => exact ⟨h, hfault⟩

theorem of_properties {entries : List WrittenProperty}
    (hall : ∀ p ∈ entries, PropertyForm passed p)
    (hform : Cbor.ContainerForm Cbor.mapItem (entries.map WrittenProperty.bytes) s) :
    ItemForm passed (some (.object (entries.filterMap WrittenProperty.property?))) s := by
  have hvalue (p : WrittenProperty) (hp : p ∈ entries) (v : Value) (hv : p.value = some v) :
      v.Form passed p.valueBytes ∧ v.fault? = none := of_some (hv ▸ (hall p hp).value)
  refine .value (.object entries (fun p hp => ⟨(hall p hp).name_ne, (hall p hp).name⟩)
    (fun p hp v hv => (hvalue p hp v hv).1)
    (fun p hp hnone => of_none (hnone ▸ (hall p hp).value)) hform) ?_
  refine faultOfProperties?_eq_none_iff.mpr fun q hq => ?_
  obtain ⟨p, hp, hproperty⟩ := List.mem_filterMap.mp hq
  obtain ⟨v, hv, rfl⟩ := Option.map_eq_some_iff.mp hproperty
  exact ⟨by simpa using (hall p hp).name_ne, (hvalue p hp v hv).2⟩

theorem of_arrayOf? {items : List (Option Value × List UInt8)}
    (hall : ∀ e ∈ items, ItemForm passed e.1 e.2)
    (hform : Cbor.ContainerForm Cbor.arrayItem (items.map Prod.snd) s) {v : Value}
    (harray : Decoding.arrayOf? (items.filterMap Prod.fst) = some v) :
    ItemForm passed (some v) s := by
  have hvalue (v : Value) (hv : v ∈ items.filterMap Prod.fst) :
      ∃ t, (some v, t) ∈ items ∧ v.Form passed t ∧ v.fault? = none := by
    obtain ⟨⟨w, t⟩, hmem, rfl⟩ := List.mem_filterMap.mp hv
    exact ⟨t, hmem, of_some (hall _ hmem)⟩
  rcases arrayOf?_eq_some harray with ⟨rfl, hvalues⟩ | ⟨members, rfl, hmembers⟩
  · refine .value (.array items (fun v t hmem => (of_some (hall _ hmem)).1)
      (fun t hmem => of_none (hall _ hmem)) hform) ?_
    refine faultOfValues?_eq_none_iff.mpr fun v hv => ⟨hvalues v hv, ?_⟩
    obtain ⟨t, -, -, hfault⟩ := hvalue v hv
    exact hfault
  · have hmember (e : Option (List (String × Value)) × List UInt8)
        (he : e ∈ items.map fun e => (e.1.bind Decoding.properties?, e.2)) :
        ItemForm passed (e.1.map .object) e.2 := by
      obtain ⟨⟨v, t⟩, hmem, rfl⟩ := List.mem_map.mp he
      cases v with
      | none => exact hall _ hmem
      | some v =>
        have hobject : v ∈ members.map .object := by
          rw [← hmembers]
          exact List.mem_filterMap.mpr ⟨_, hmem, rfl⟩
        obtain ⟨m, -, rfl⟩ := List.mem_map.mp hobject
        exact hall _ hmem
    have hobjects := Form.objects (items.map fun e => (e.1.bind Decoding.properties?, e.2))
      (fun m t hmem => (of_some (hmember (some m, t) hmem)).1)
      (fun t hmem => of_none (hmember (none, t) hmem))
      (by simpa [Function.comp_def] using hform)
    have hread : (items.map fun e => (e.1.bind Decoding.properties?, e.2)).filterMap Prod.fst =
        members := by
      have hproperties := congrArg (List.filterMap Decoding.properties?) hmembers
      simpa [List.filterMap_map, List.filterMap_filterMap, Function.comp_def,
        Decoding.properties?] using hproperties
    rw [hread] at hobjects
    refine .value hobjects (faultOfObjects?_eq_none_iff.mpr fun m hm => ?_)
    obtain ⟨t, -, -, hfault⟩ := hvalue (.object m) (hmembers ▸ List.mem_map_of_mem hm)
    exact hfault

end ItemForm

end Value

namespace Decoding

/-- What is read has one of its forms. -/
structure Containers.ReadForms (c : Containers) : Prop where
  object : ∀ {bs ps rest}, c.object bs = .ok (ps, rest) →
    ∃ s, Value.ItemForm PassedOver (some (.object ps)) s ∧ bs = s ++ rest
  array : ∀ {bs v rest}, c.array bs = .ok (v, rest) →
    ∃ s, Value.ItemForm PassedOver (some v) s ∧ bs = s ++ rest

open Value in
/-- Reading a value that holds no others takes a form of it off the front. -/
theorem readScalar_eq_ok {α : Type} {read : List UInt8 → Option (α × List UInt8)}
    {make : α → Value} {bs rest : List UInt8} {v : Option Value}
    (hread : ∀ {a rest}, read bs = some (a, rest) →
      ∃ s, (make a).Form PassedOver s ∧ bs = s ++ rest)
    (hfault : ∀ a, (make a).fault? = none) (h : (do
      let (a, bs) ← require (read bs)
      return (some (make a), bs) : Except DecodeError _) = .ok (v, rest)) :
    ∃ s, ItemForm PassedOver v s ∧ bs = s ++ rest := by
  obtain ⟨⟨a, bs'⟩, ha, heq⟩ := bind_eq_ok_iff.mp h
  cases heq
  obtain ⟨s, hform, rfl⟩ := hread (require_eq_ok_iff.mp ha)
  exact ⟨s, .value hform (hfault a), rfl⟩

open Value in
theorem readPassed_eq_ok {bs rest : List UInt8} {k : Cbor.Kind} (hkind : Cbor.kind? bs = some k)
    (hk : isPassed k = true) {v : Option Value}
    (h : (require ((Cbor.Skip.skip bs).map fun rest => (none, rest)) : Except DecodeError _) =
      .ok (v, rest)) :
    ∃ s, ItemForm PassedOver v s ∧ bs = s ++ rest := by
  obtain ⟨bs', hskip, heq⟩ := Option.map_eq_some_iff.mp (require_eq_ok_iff.mp h)
  cases heq
  obtain ⟨s, hs, rfl⟩ := exists_passedOver hkind hk hskip
  exact ⟨s, .passed hs, rfl⟩

open Value in
theorem readValue_eq_ok {inner : Containers} (hinner : inner.ReadForms) {bs rest : List UInt8}
    {v : Option Value} (h : readValue inner bs = .ok (v, rest)) :
    ∃ s, ItemForm PassedOver v s ∧ bs = s ++ rest := by
  obtain ⟨k, hkind, hread⟩ := bind_eq_ok_iff.mp h
  clear h
  rw [kind, require_eq_ok_iff] at hkind
  cases k with
  | bool =>
    refine readScalar_eq_ok (fun hb => ?_) (fun _ => rfl) hread
    obtain ⟨s, hform, heq⟩ := Cbor.readBool_eq_some_iff.mp hb
    exact ⟨s, .bool hform, heq⟩
  | integer =>
    obtain ⟨⟨w, bs'⟩, hw, heq⟩ := bind_eq_ok_iff.mp hread
    cases heq
    obtain ⟨⟨n, bs''⟩, hn, hint⟩ := bind_eq_ok_iff.mp hw
    dsimp only at hint
    split_ifs at hint with hrange
    cases hint
    obtain ⟨s, hform, rfl⟩ := Cbor.readInt_eq_some_iff.mp (require_eq_ok_iff.mp hn)
    rw [← Int64.toInt_ofInt_of_le hrange.1 hrange.2] at hform
    exact ⟨s, .value (.int hform) rfl, rfl⟩
  | float =>
    refine readScalar_eq_ok (fun hx => ?_) (fun _ => rfl) hread
    obtain ⟨s, hform, heq⟩ := Cbor.readDouble_eq_some_iff.mp hx
    exact ⟨s, .double hform, heq⟩
  | text =>
    refine readScalar_eq_ok (fun ht => ?_) (fun _ => rfl) hread
    obtain ⟨s, hform, heq⟩ := Cbor.readText_eq_some_iff.mp ht
    exact ⟨s, .text hform, heq⟩
  | bytes =>
    refine readScalar_eq_ok (fun hcontent => ?_) (fun _ => rfl) hread
    obtain ⟨s, hform, heq⟩ := Cbor.readBytes_eq_some_iff.mp hcontent
    exact ⟨s, .bytes hform, heq⟩
  | map =>
    obtain ⟨⟨ps, bs'⟩, hps, heq⟩ := bind_eq_ok_iff.mp hread
    cases heq
    exact hinner.object hps
  | array =>
    obtain ⟨⟨w, bs'⟩, hw, heq⟩ := bind_eq_ok_iff.mp hread
    cases heq
    exact hinner.array hw
  | null | undefined | tag | simple => exact readPassed_eq_ok hkind rfl hread
  | stop | unknown => cases hread

theorem readProperty_eq_ok {inner : Containers} (hinner : inner.ReadForms) {bs rest : List UInt8}
    {a : Option (String × Value)} (h : readProperty inner bs = .ok (a, rest)) :
    ∃ p, Value.PropertyForm PassedOver p ∧ a = p.property? ∧ bs = p.bytes ++ rest := by
  obtain ⟨k, hkind, hread⟩ := bind_eq_ok_iff.mp h
  clear h
  cases k with
  | text =>
    obtain ⟨⟨name, bs'⟩, hname, hread⟩ := bind_eq_ok_iff.mp hread
    dsimp only at hread
    split_ifs at hread with hempty
    obtain ⟨⟨v, bs''⟩, hv, heq⟩ := bind_eq_ok_iff.mp hread
    cases heq
    obtain ⟨nameBytes, hform, rfl⟩ := Cbor.readText_eq_some_iff.mp (require_eq_ok_iff.mp hname)
    obtain ⟨valueBytes, hvalue, rfl⟩ := readValue_eq_ok hinner hv
    exact ⟨⟨name, v, nameBytes, valueBytes⟩, ⟨by simpa using hempty, hform, hvalue⟩, rfl, by
      rw [WrittenProperty.bytes, List.append_assoc]⟩
  | _ => cases hread

theorem readObject_eq_ok {inner : Containers} (hinner : inner.ReadForms) {bs rest : List UInt8}
    {ps : Representation} (h : readObject inner bs = .ok (ps, rest)) :
    ∃ s, Value.ItemForm PassedOver (some (.object ps)) s ∧ bs = s ++ rest := by
  obtain ⟨⟨as, bs'⟩, has, heq⟩ := bind_eq_ok_iff.mp h
  cases heq
  obtain ⟨entries, s, hentries, rfl, hform, rfl⟩ :=
    readEntries_eq_ok (fun _ _ _ => readProperty_eq_ok hinner) has
  refine ⟨s, ?_, rfl⟩
  rw [List.filterMap_map]
  exact .of_properties hentries hform

theorem readArray_eq_ok {inner : Containers} (hinner : inner.ReadForms) {bs rest : List UInt8}
    {v : Value} (h : readArray inner bs = .ok (v, rest)) :
    ∃ s, Value.ItemForm PassedOver (some v) s ∧ bs = s ++ rest := by
  obtain ⟨⟨as, bs'⟩, has, h⟩ := bind_eq_ok_iff.mp h
  obtain ⟨w, harray, heq⟩ := bind_eq_ok_iff.mp h
  cases heq
  obtain ⟨items, s, hitems, rfl, hform, rfl⟩ :=
    readItems_eq_ok (fun _ _ _ => readValue_eq_ok hinner) has
  refine ⟨s, ?_, rfl⟩
  rw [List.filterMap_map] at harray
  exact .of_arrayOf? hitems hform (require_eq_ok_iff.mp harray)

theorem containers_readForms (levels : Nat) : (containers levels).ReadForms := by
  induction levels with
  | zero => exact ⟨nofun, nofun⟩
  | succ levels ih => exact ⟨readObject_eq_ok ih, readArray_eq_ok ih⟩

theorem readRoot_eq_ok {levels : Nat} {bs rest : List UInt8} {root : Representation}
    (h : readRoot (containers levels) bs = .ok (root, rest)) :
    ∃ s, Value.ItemForm PassedOver (some (.object root)) s ∧ bs = s ++ rest := by
  obtain ⟨k, hkind, hread⟩ := bind_eq_ok_iff.mp h
  cases k with
  | map => exact (containers_readForms levels).object hread
  | _ => cases hread

theorem readPayload_eq_ok {bs rest : List UInt8} {p : Payload}
    (h : readPayload bs = .ok (p, rest)) :
    ∃ s, p.Form PassedOver s ∧ p.fault? = none ∧ bs = s ++ rest := by
  obtain ⟨k, hkind, hread⟩ := bind_eq_ok_iff.mp h
  clear h
  cases k with
  | map =>
    obtain ⟨⟨root, bs'⟩, hroot, heq⟩ := bind_eq_ok_iff.mp hread
    cases heq
    obtain ⟨s, hitem, rfl⟩ := (containers_readForms maxDepth).object hroot
    obtain ⟨hform, hfault⟩ := hitem.of_some
    exact ⟨s, .object hform, hfault, rfl⟩
  | array =>
    obtain ⟨⟨roots, bs'⟩, hroots, heq⟩ := bind_eq_ok_iff.mp hread
    cases heq
    obtain ⟨members, s, hmembers, rfl, hform, rfl⟩ :=
      readItems_eq_ok (fun _ _ _ => readRoot_eq_ok) hroots
    refine ⟨s, .objects members (fun m hm => (hmembers m hm).of_some.1) hform, ?_, rfl⟩
    exact Value.faultOfObjects?_eq_none_iff.mpr
      (List.forall_mem_map.mpr fun m hm => (hmembers m hm).of_some.2)
  | _ => cases hread

end Decoding

namespace Payload

open Decoding

theorem readPayload_of_decode {bs : List UInt8} {p : Payload} (hne : bs ≠ [])
    (h : decode bs = .ok p) : readPayload bs = .ok (p, []) := by
  rw [decode_of_ne_nil hne] at h
  obtain ⟨⟨q, rest⟩, hread, h⟩ := bind_eq_ok_iff.mp h
  cases rest with
  | nil =>
    cases h
    exact hread
  | cons b rest => cases h

theorem form_of_decode {bs : List UInt8} {p : Payload} (hne : bs ≠ []) (h : decode bs = .ok p) :
    p.Form PassedOver bs ∧ p.fault? = none := by
  obtain ⟨s, hform, hfault, hs⟩ := readPayload_eq_ok (readPayload_of_decode hne h)
  rw [List.append_nil] at hs
  exact ⟨hs ▸ hform, hfault⟩

/-- The input that is decoded and the payload that it is decoded to: it is a form of a payload without
a fault that is read back as it is and nests no deeper than is allowed. -/
theorem decode_eq_ok_iff {bs : List UInt8} {p : Payload} :
    decode bs = .ok p ↔ bs = [] ∧ p = .object [] ∨
      p.Form PassedOver bs ∧ p.fault? = none ∧ p.normal = p ∧ p.height ≤ maxDepth := by
  constructor
  · intro h
    by_cases hne : bs = []
    · subst hne
      cases h
      exact .inl ⟨rfl, rfl⟩
    · obtain ⟨hform, hfault⟩ := form_of_decode hne h
      rw [decode_form (fun _ => id) hform hfault] at h
      split_ifs at h with hheight
      exact .inr ⟨hform, hfault, Except.ok.inj h, hheight⟩
  · rintro (⟨rfl, rfl⟩ | ⟨hform, hfault, hnormal, hheight⟩)
    · rfl
    · rw [decode_form (fun _ => id) hform hfault, if_pos hheight, hnormal]

end Payload

end DeviceClient
