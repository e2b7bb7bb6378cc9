import DeviceClient.Cbor.Skip
import DeviceClient.Proofs.Cbor.Form

namespace DeviceClient.Cbor

/-- The well-formed items. -/
inductive Item : List UInt8 → Prop
  | int {n : Int} {s : List UInt8} (h : IntForm n s) : Item s
  | bytes {content s : List UInt8} (h : BytesForm content s) : Item s
  | text {t : String} {s : List UInt8} (h : TextForm t s) : Item s
  | array (items : List (List UInt8)) {s : List UInt8} (h : ∀ i ∈ items, Item i)
      (hform : ContainerForm arrayItem items s) : Item s
  | map (entries : List (List UInt8 × List UInt8)) {s : List UInt8}
      (hkey : ∀ e ∈ entries, Item e.1) (hvalue : ∀ e ∈ entries, Item e.2)
      (hform : ContainerForm mapItem (entries.map fun e => e.1 ++ e.2) s) : Item s
  | tag {n : Nat} {head s : List UInt8} (hhead : HeadForm ⟨tagItem, n⟩ head) (h : Item s) :
      Item (head ++ s)
  /-- A simple value or a floating point number. Of the simple values, only those from 32 on take a
  second byte. -/
  | simple {n : Nat} {s : List UInt8} (h : HeadForm ⟨simpleItem, n⟩ s)
      (hsecond : s.length = 2 → 32 ≤ n) : Item s

/-- No item begins with a stop byte. -/
theorem Item.kind? {s : List UInt8} (h : Item s) (rest : List UInt8) :
    ∃ k, k ≠ .stop ∧ Cbor.kind? (s ++ rest) = some k := by
  cases h with
  | int h => exact ⟨.integer, by decide, h.kind? rest⟩
  | bytes h => exact ⟨.bytes, by decide, h.kind? rest⟩
  | text h => exact ⟨.text, by decide, h.kind? rest⟩
  | array items h hform => exact ⟨.array, by decide, hform.kind?_array rest⟩
  | map entries hkey hvalue hform => exact ⟨.map, by decide, hform.kind?_map rest⟩
  | tag hhead h =>
    rw [List.append_assoc]
    exact ⟨.tag, by decide, hhead.kind? (by decide) _⟩
  | simple h hsecond =>
    obtain ⟨info, hinfo, hkind⟩ := h.exists_kind? rest
    exact ⟨_, (by decide : ∀ info < 28, Kind.ofByte (UInt8.ofNat (32 * simpleItem + info)) ≠ .stop)
      info hinfo, hkind⟩

theorem BoolForm.item {b : Bool} {s : List UInt8} (h : BoolForm b s) : Item s := by
  cases h with
  | no => exact .simple (show HeadForm ⟨simpleItem, 20⟩ _ from .short (by decide) (by decide)) nofun
  | yes => exact .simple (show HeadForm ⟨simpleItem, 21⟩ _ from .short (by decide) (by decide)) nofun

theorem DoubleForm.item {x : Double} {s : List UInt8} (h : DoubleForm x s) : Item s := by
  have hwide {k : Nat} {ns : List UInt8} (hk : 0 < k ∧ k < 4) (hns : ns.length = 2 ^ k) :
      Item (UInt8.ofNat (32 * simpleItem + (24 + k)) :: ns) := by
    refine .simple (.wide (by decide) hk.2 hns) fun hsecond => ?_
    have hpow : 2 ^ 1 ≤ 2 ^ k := Nat.pow_le_pow_right (by decide) hk.1
    rw [List.length_cons, hns] at hsecond
    omega
  cases h with
  | half hns => exact hwide (show 0 < 1 ∧ 1 < 4 by decide) hns
  | single hns => exact hwide (show 0 < 2 ∧ 2 < 4 by decide) hns
  | double hns => exact hwide (show 0 < 3 ∧ 3 < 4 by decide) hns

theorem BlankForm.item {s : List UInt8} (h : BlankForm s) : Item s := by
  cases h with
  | null => exact .simple (show HeadForm ⟨simpleItem, 22⟩ _ from .short (by decide) (by decide)) nofun
  | undefined =>
    exact .simple (show HeadForm ⟨simpleItem, 23⟩ _ from .short (by decide) (by decide)) nofun

theorem Item.ne_nil {s : List UInt8} (h : Item s) : s ≠ [] := by
  rintro rfl
  obtain ⟨k, -, hk⟩ := h.kind? []
  cases hk

/-- An item of the kind of an array is one. -/
theorem Item.exists_items {s : List UInt8} (h : Item s) {rest : List UInt8}
    (hkind : Cbor.kind? (s ++ rest) = some .array) :
    ∃ items : List (List UInt8), (∀ i ∈ items, Item i) ∧ ContainerForm arrayItem items s := by
  cases h with
  | int h => cases (h.kind? rest).symm.trans hkind
  | bytes h => cases (h.kind? rest).symm.trans hkind
  | text h => cases (h.kind? rest).symm.trans hkind
  | array items h hform => exact ⟨items, h, hform⟩
  | map entries hkey hvalue hform => cases (hform.kind?_map rest).symm.trans hkind
  | @tag n head s hhead h =>
    have htag : Cbor.kind? (head ++ (s ++ rest)) = some .tag := hhead.kind? (by decide) _
    rw [List.append_assoc, htag] at hkind
    cases hkind
  | simple h hsecond =>
    obtain ⟨info, hinfo, hfirst⟩ := h.exists_kind? rest
    exact absurd (Option.some.inj (hfirst.symm.trans hkind)) ((by decide :
      ∀ info < 28, Kind.ofByte (UInt8.ofNat (32 * simpleItem + info)) ≠ .array) info hinfo)

namespace Skip

/-- The forms of a part of the walk. -/
inductive PartForm : Part → List UInt8 → Prop
  | stop : PartForm .stop [stopByte]
  | bytes {content s : List UInt8} (h : BytesForm content s) : PartForm .leaf s
  | text {t : String} {s : List UInt8} (h : TextForm t s) : PartForm .leaf s
  | array {n : Nat} {s : List UInt8} (h : HeadForm ⟨arrayItem, n⟩ s) : PartForm (.counted n) s
  | map {n : Nat} {s : List UInt8} (h : HeadForm ⟨mapItem, n⟩ s) :
      PartForm (.counted (saturate (2 * n))) s
  | unbounded {major : Nat} (h : major = arrayItem ∨ major = mapItem) :
      PartForm .unbounded [indefinite major]
  | tag {n : Nat} {s : List UInt8} (h : HeadForm ⟨tagItem, n⟩ s) : PartForm .tag s
  | scalar {major n : Nat} {s : List UInt8} (h : HeadForm ⟨major, n⟩ s)
      (hmajor : major = unsigned ∨ major = negative ∨ major = simpleItem) : PartForm .leaf s

theorem PartForm.read {part : Part} {s : List UInt8} (h : PartForm part s) (rest : List UInt8) :
    readPart (s ++ rest) = some (part, rest) := by
  cases h with
  | stop => rfl
  | bytes h =>
    have hread := h.read rest
    obtain ⟨h⟩ := h
    obtain ⟨b, t, rfl, hdiv, hstop⟩ := h.exists_first (by decide)
    rw [List.cons_append] at hread ⊢
    simp +decide [readPart, hstop, hdiv, hread]
  | text h =>
    have hread := h.read rest
    obtain ⟨h⟩ := h
    obtain ⟨b, t, rfl, hdiv, hstop⟩ := h.exists_first (by decide)
    rw [List.cons_append] at hread ⊢
    simp +decide [readPart, hstop, hdiv, hread]
  | array h =>
    have hread := h.readCount rest
    obtain ⟨b, t, rfl, -, hstop⟩ := h.exists_first
    rw [List.cons_append] at hread ⊢
    simp +decide [readPart, hstop, h.first_div, hread]
  | map h =>
    have hread := h.readCount rest
    obtain ⟨b, t, rfl, -, hstop⟩ := h.exists_first
    rw [List.cons_append] at hread ⊢
    simp +decide [readPart, hstop, h.first_div, hread]
  | unbounded h =>
    rcases h with rfl | rfl <;> rfl
  | tag h =>
    have hread := h.read rest
    obtain ⟨b, t, rfl, -, hstop⟩ := h.exists_first
    rw [List.cons_append] at hread ⊢
    simp +decide [readPart, hstop, h.first_div, hread]
  | scalar h hmajor =>
    have hread := h.read rest
    obtain ⟨b, t, rfl, -, hstop⟩ := h.exists_first
    have hdiv := h.first_div
    rw [List.cons_append] at hread ⊢
    rcases hmajor with rfl | rfl | rfl <;>
      simp +decide [readPart, hstop, hdiv, hread]

theorem exists_partForm {bs rest : List UInt8} {part : Part}
    (h : readPart bs = some (part, rest)) : ∃ s, PartForm part s ∧ bs = s ++ rest := by
  cases bs with
  | nil => cases h
  | cons b bs =>
    simp only [readPart] at h
    split_ifs at h with hstop hbytes htext harray hmap htag
    · cases h
      exact ⟨_, .stop, by rw [hstop]; rfl⟩
    · obtain ⟨⟨content, r⟩, hread, heq⟩ := Option.bind_eq_some_iff.mp h
      cases heq
      obtain ⟨s, hform, hs⟩ := readBytes_eq_some_iff.mp hread
      exact ⟨s, .bytes hform, hs⟩
    · obtain ⟨⟨t, r⟩, hread, heq⟩ := Option.bind_eq_some_iff.mp h
      cases heq
      obtain ⟨s, hform, hs⟩ := readText_eq_some_iff.mp hread
      exact ⟨s, .text hform, hs⟩
    · obtain ⟨⟨count, r⟩, hread, heq⟩ := Option.bind_eq_some_iff.mp h
      cases heq
      rcases readCount_eq_some hread with ⟨rfl, hs⟩ | ⟨n, s, rfl, hform, hs⟩
      · exact ⟨_, .unbounded (.inl rfl), hs⟩
      · exact ⟨s, .array hform, hs⟩
    · obtain ⟨⟨count, r⟩, hread, heq⟩ := Option.bind_eq_some_iff.mp h
      cases heq
      rcases readCount_eq_some hread with ⟨rfl, hs⟩ | ⟨n, s, rfl, hform, hs⟩
      · exact ⟨_, .unbounded (.inr rfl), hs⟩
      · exact ⟨s, .map hform, hs⟩
    · obtain ⟨⟨⟨major, n⟩, r⟩, hread, heq⟩ := Option.bind_eq_some_iff.mp h
      cases heq
      obtain ⟨s, hform, hs⟩ := readHead_eq_some_iff.mp hread
      obtain rfl : major = tagItem := (major_of_readHead hread).trans htag
      exact ⟨s, .tag hform, hs⟩
    · obtain ⟨⟨⟨major, n⟩, r⟩, hread, heq⟩ := Option.bind_eq_some_iff.mp h
      cases heq
      obtain ⟨s, hform, hs⟩ := readHead_eq_some_iff.mp hread
      obtain rfl : major = b.toNat / 32 := major_of_readHead hread
      have hlt := hform.major_lt
      refine ⟨s, .scalar hform ?_, hs⟩
      simp only [byteString, textString, arrayItem, mapItem, tagItem, unsigned, negative,
        simpleItem] at *
      omega

theorem PartForm.ne_nil {part : Part} {s : List UInt8} (h : PartForm part s) : s ≠ [] := by
  rintro rfl
  cases h.read []

namespace Pending

/-- All that is to come as one stack of open containers. What is counted outside the stack is the
innermost: items of a container of definite length inside containers that stop bytes end. -/
def view : Pending → List (Option Nat)
  | ⟨0, stops, stack⟩ => List.replicate stops none ++ stack
  | ⟨items + 1, stops, stack⟩ => some items :: (List.replicate stops none ++ stack)

/-- Counting is either outside the stack or on the stack. -/
inductive Valid : Pending → Prop
  | outside (items stops : Nat) : Valid ⟨items, stops, []⟩
  | onStack (stack : List (Option Nat)) : Valid ⟨0, 0, stack⟩

/-- The number of items and stop bytes that are to come. -/
def weight : List (Option Nat) → Nat
  | [] => 0
  | none :: view => weight view + 1
  | some n :: view => weight view + (n + 1)

/-- Containers that the items complete one by one, and that are open before each of them. -/
def Takes : (items : Nat) → (before after : List (Option Nat)) → Prop
  | 0, before, after => before = after
  | items + 1, before, after => before ≠ [] ∧ Takes items (countOnStack before) after

@[simp] theorem countOnStack_none (view : List (Option Nat)) :
    countOnStack (none :: view) = none :: view := rfl

@[simp] theorem countOnStack_zero (view : List (Option Nat)) :
    countOnStack (some 0 :: view) = countOnStack view := rfl

@[simp] theorem countOnStack_succ (n : Nat) (view : List (Option Nat)) :
    countOnStack (some (n + 1) :: view) = some n :: view := rfl

@[simp] theorem countOnStack_replicate (n : Nat) :
    countOnStack (List.replicate n none) = List.replicate n none := by
  cases n <;> rfl

theorem weight_countOnStack_le (view : List (Option Nat)) :
    weight (countOnStack view) ≤ weight view := by
  induction view with
  | nil => exact Nat.le_refl _
  | cons frame view ih =>
    rcases frame with _ | _ | n
    · exact Nat.le_refl _
    · exact Nat.le_trans ih (Nat.le_add_right _ _)
    · simp [weight]

@[simp] theorem weight_replicate (n : Nat) : weight (List.replicate n none) = n := by
  induction n with
  | zero => rfl
  | succ n ih => rw [List.replicate_succ, weight, ih]

theorem weight_outside (items stops : Nat) : weight (view ⟨items, stops, []⟩) = items + stops := by
  cases items <;> simp [view, weight, Nat.add_comm]

theorem takes_none (items : Nat) (view : List (Option Nat)) :
    Takes items (none :: view) (none :: view) := by
  induction items with
  | zero => rfl
  | succ items ih => exact ⟨List.cons_ne_nil _ _, ih⟩

/-- A container that a stop byte ends takes any number of items. -/
theorem Takes.succ {items : Nat} {before view : List (Option Nat)}
    (h : Takes items before (none :: view)) : Takes (items + 1) before (none :: view) := by
  induction items generalizing before with
  | zero =>
    obtain rfl := h
    exact takes_none 1 view
  | succ items ih => exact ⟨h.1, ih h.2⟩

/-- Items inside complete as one item of the containers around them. -/
theorem takes_some (items n : Nat) (view : List (Option Nat)) :
    Takes (items + 1) (some (items + n) :: view) (countOnStack (some n :: view)) := by
  induction items with
  | zero =>
    refine ⟨List.cons_ne_nil _ _, ?_⟩
    rw [Nat.zero_add]
    rfl
  | succ items ih =>
    refine ⟨List.cons_ne_nil _ _, ?_⟩
    rwa [Nat.add_right_comm, countOnStack_succ]

theorem Valid.isDone_iff {p : Pending} (h : p.Valid) : p.isDone = true ↔ p.view = [] := by
  cases h with
  | outside items stops => cases items <;> cases stops <;> simp [isDone, atStack, view]
  | onStack stack => simp [isDone, atStack, view]

theorem Valid.after_leaf {p : Pending} (h : p.Valid) :
    (p.after .leaf).Valid ∧ (p.after .leaf).view = countOnStack p.view := by
  cases h with
  | outside items stops =>
    rcases items with _ | _ | items
    · cases stops with
      | zero => exact ⟨.onStack _, rfl⟩
      | succ stops => exact ⟨.outside 0 (stops + 1), by simp [after, note, count, atStack, view]⟩
    · exact ⟨.outside 0 stops, by simp [after, note, count, atStack, view]⟩
    · exact ⟨.outside (items + 1) stops, by simp [after, note, count, atStack, view]⟩
  | onStack stack => exact ⟨.onStack _, rfl⟩

theorem Valid.after_counted {p : Pending} (h : p.Valid) (hview : p.view ≠ []) {n : Nat}
    (hle : weight p.view + n ≤ ceiling) :
    (p.after (.counted n)).Valid ∧
      Takes n (p.after (.counted n)).view (countOnStack p.view) ∧
      weight (p.after (.counted n)).view ≤ weight p.view + n := by
  cases n with
  | zero =>
    obtain ⟨hvalid, heq⟩ := h.after_leaf
    exact ⟨hvalid, heq, heq ▸ weight_countOnStack_le p.view⟩
  | succ n =>
    cases h with
    | outside items stops =>
      rw [weight_outside] at hle ⊢
      have hafter : (⟨items, stops, []⟩ : Pending).after (.counted (n + 1)) =
          ⟨items + n, stops, []⟩ := by
        have hopen : ¬(items = 0 ∧ stops = 0) := by
          rintro ⟨rfl, rfl⟩
          exact hview rfl
        have hsaturate : saturate (items + (n + 1)) = items + n + 1 := Nat.min_eq_left (by omega)
        simp [after, note, atStack, hopen, hsaturate, count]
      rw [hafter, weight_outside]
      refine ⟨.outside _ _, ?_, by omega⟩
      cases items with
      | zero =>
        obtain ⟨stops, rfl⟩ : ∃ k, stops = k + 1 :=
          Nat.exists_eq_succ_of_ne_zero fun hzero => hview (by rw [hzero]; rfl)
        -- The containers around have no number of items that they wait for.
        cases n with
        | zero => exact takes_none 1 _
        | succ n =>
          rw [Nat.zero_add]
          exact (takes_some n 0 (List.replicate (stops + 1) none ++ [])).succ
      | succ items =>
        rw [show items + 1 + n = n + items + 1 by omega]
        exact takes_some n items _
    | onStack stack =>
      have hafter : (⟨0, 0, stack⟩ : Pending).after (.counted (n + 1)) =
          ⟨0, 0, some n :: stack⟩ := rfl
      rw [hafter]
      exact ⟨.onStack _, takes_some n 0 stack, by simp [view, weight, Nat.add_comm]⟩

theorem Valid.after_unbounded {p : Pending} (h : p.Valid) (hview : p.view ≠ [])
    (hle : weight p.view < ceiling) :
    (p.after .unbounded).Valid ∧ ∃ view, (p.after .unbounded).view = none :: view ∧
      countOnStack view = countOnStack p.view ∧ weight view ≤ weight p.view := by
  cases h with
  | outside items stops =>
    rw [weight_outside] at hle
    have hsaturate : saturate (stops + 1) = stops + 1 := Nat.min_eq_left (by omega)
    rcases items with _ | _ | items
    · obtain ⟨stops, rfl⟩ : ∃ k, stops = k + 1 :=
        Nat.exists_eq_succ_of_ne_zero fun hzero => hview (by rw [hzero]; rfl)
      have hafter : (⟨0, stops + 1, []⟩ : Pending).after .unbounded = ⟨0, stops + 2, []⟩ := by
        simp [after, note, hsaturate, count, atStack]
      rw [hafter]
      exact ⟨.outside _ _, _, rfl, rfl, Nat.le_refl _⟩
    · -- The container is the last item: what is around it counts as complete already.
      have hafter : (⟨1, stops, []⟩ : Pending).after .unbounded = ⟨0, stops + 1, []⟩ := by
        simp [after, note, hsaturate, count, atStack]
      rw [hafter]
      exact ⟨.outside _ _, List.replicate stops none ++ [], rfl, rfl, Nat.le_add_right _ _⟩
    · have hafter : (⟨items + 2, stops, []⟩ : Pending).after .unbounded =
          ⟨0, 0, none :: some (items + 1) :: (List.replicate stops none ++ [])⟩ := by
        have hmany : ¬items + 2 < 2 := by omega
        simp [after, note, hmany, count, atStack]
      rw [hafter]
      exact ⟨.onStack _, _, rfl, rfl, Nat.le_refl _⟩
  | onStack stack => exact ⟨.onStack _, stack, rfl, rfl, Nat.le_refl _⟩

theorem Valid.after_stop {p : Pending} (h : p.Valid) {view : List (Option Nat)}
    (hview : p.view = none :: view) :
    (p.after .stop).Valid ∧ (p.after .stop).view = countOnStack view := by
  cases h with
  | outside items stops =>
    obtain rfl : items = 0 := by
      cases items with
      | zero => rfl
      | succ items => cases hview
    obtain ⟨stops, rfl⟩ : ∃ k, stops = k + 1 :=
      Nat.exists_eq_succ_of_ne_zero fun hzero => by simp [hzero, Pending.view] at hview
    obtain rfl : List.replicate stops none = view := by
      simpa [Pending.view, List.replicate_succ] using hview
    rw [countOnStack_replicate]
    cases stops with
    | zero => exact ⟨.onStack _, rfl⟩
    | succ stops =>
      exact ⟨.outside 0 (stops + 1), by simp [after, note, count, atStack, Pending.view]⟩
  | onStack stack =>
    obtain rfl : stack = none :: view := hview
    exact ⟨.onStack _, rfl⟩

end Pending

/-- The walk from one state to another through the parts of some bytes. -/
inductive Goes : Pending → List UInt8 → Pending → Prop
  | stay (p : Pending) : Goes p [] p
  | step {p p' : Pending} {part : Part} {s t : List UInt8} (hopen : ¬p.isDone = true)
      (hpart : PartForm part s) (h : Goes (p.after part) t p') : Goes p (s ++ t) p'

namespace Goes

variable {p p' p'' : Pending} {s t : List UInt8}

theorem eq_of_nil (h : Goes p [] p') : p' = p := by
  generalize hs : ([] : List UInt8) = s at h
  cases h with
  | stay p => rfl
  | step hopen hpart h => exact absurd (List.append_eq_nil_iff.mp hs.symm).1 hpart.ne_nil

theorem append (h : Goes p s p') (h' : Goes p' t p'') : Goes p (s ++ t) p'' := by
  induction h with
  | stay p => exact h'
  | step hopen hpart h ih =>
    rw [List.append_assoc]
    exact .step hopen hpart (ih h')

theorem part {part : Part} (hopen : ¬p.isDone = true) (hpart : PartForm part s) :
    Goes p s (p.after part) := by
  have hgoes := step hopen hpart (stay _)
  rwa [List.append_nil] at hgoes

theorem walk (h : Goes p s p') (hdone : p'.isDone = true) {rounds : Nat}
    (hrounds : s.length ≤ rounds) (rest : List UInt8) :
    Skip.walk rounds p (s ++ rest) = some rest := by
  induction h generalizing rounds with
  | stay p => cases rounds <;> simp [Skip.walk, hdone]
  | @step p p' part s t hopen hpart h ih =>
    have hpos := List.length_pos_iff.mpr hpart.ne_nil
    rw [List.length_append] at hrounds
    obtain ⟨rounds, rfl⟩ : ∃ k, rounds = k + 1 := Nat.exists_eq_succ_of_ne_zero (by omega)
    rw [Skip.walk, if_neg hopen, List.append_assoc, hpart.read]
    exact ih hdone (by omega)

end Goes

theorem exists_goes {rounds : Nat} {p : Pending} {bs rest : List UInt8}
    (h : walk rounds p bs = some rest) :
    ∃ s p', Goes p s p' ∧ p'.isDone = true ∧ bs = s ++ rest := by
  induction rounds generalizing p bs with
  | zero =>
    rw [walk] at h
    split_ifs at h with hdone
    cases h
    exact ⟨[], p, .stay p, hdone, rfl⟩
  | succ rounds ih =>
    rw [walk] at h
    split_ifs at h with hdone
    · cases h
      exact ⟨[], p, .stay p, hdone, rfl⟩
    · obtain ⟨⟨part, r⟩, hread, hwalk⟩ := Option.bind_eq_some_iff.mp h
      obtain ⟨s, hpart, rfl⟩ := exists_partForm hread
      obtain ⟨t, p', hgoes, hdone', rfl⟩ := ih hwalk
      exact ⟨s ++ t, p', .step hdone hpart hgoes, hdone', by rw [List.append_assoc]⟩

theorem skip_eq_some_iff {bs rest : List UInt8} :
    skip bs = some rest ↔ ∃ s p', Goes .one s p' ∧ p'.isDone = true ∧ bs = s ++ rest := by
  constructor
  · exact exists_goes
  · rintro ⟨s, p', hgoes, hdone, rfl⟩
    exact hgoes.walk hdone (by rw [List.length_append]; omega) rest

open Pending

/-- From wherever the walk goes through the bytes, they count as one item of the innermost container
that is open, unless so much is to come that the counts run out. -/
def Passes (s : List UInt8) : Prop :=
  ∀ p : Pending, p.Valid → p.view ≠ [] → weight p.view + s.length ≤ ceiling →
    ∃ p', Goes p s p' ∧ p'.Valid ∧ p'.view = countOnStack p.view

theorem passes_leaf {s : List UInt8} (hpart : PartForm .leaf s) : Passes s := by
  intro p hvalid hview _
  exact ⟨_, .part (mt hvalid.isDone_iff.mp hview) hpart, hvalid.after_leaf⟩

theorem passes_tag {head s : List UInt8} (hpart : PartForm .tag head) (h : Passes s) :
    Passes (head ++ s) := by
  intro p hvalid hview hle
  rw [List.length_append] at hle
  obtain ⟨p', hgoes, hp'⟩ := h p hvalid hview (by omega)
  exact ⟨p', .step (mt hvalid.isDone_iff.mp hview) hpart hgoes, hp'⟩

theorem Passes.ne_nil {s : List UInt8} (h : Passes s) : s ≠ [] := by
  rintro rfl
  obtain ⟨p', hgoes, -, hview⟩ := h .one (.outside 1 0) (List.cons_ne_nil _ _) (by decide)
  rw [hgoes.eq_of_nil] at hview
  cases hview

/-- Items one after the other complete the containers that take them. -/
theorem exists_goes_items {items : List (List UInt8)} (hitems : ∀ i ∈ items, Passes i)
    {p : Pending} (hvalid : p.Valid) {view : List (Option Nat)}
    (htakes : Takes items.length p.view view)
    (hlt : weight p.view + items.flatten.length < ceiling + items.length) :
    ∃ p', Goes p items.flatten p' ∧ p'.Valid ∧ p'.view = view := by
  induction items generalizing p with
  | nil => exact ⟨p, .stay p, hvalid, htakes⟩
  | cons i items ih =>
    obtain ⟨hi, hitems⟩ := List.forall_mem_cons.mp hitems
    have hpos := List.length_pos_iff.mpr hi.ne_nil
    have hlength := length_le_flatten fun j hj => (hitems j hj).ne_nil
    rw [List.flatten_cons, List.length_append, List.length_cons] at hlt
    obtain ⟨p', hgoes, hvalid', hview⟩ := hi p hvalid htakes.1 (by omega)
    have hweight := weight_countOnStack_le p.view
    obtain ⟨p'', hgoes', hp''⟩ := ih hitems hvalid' (hview ▸ htakes.2) (by rw [hview]; omega)
    exact ⟨p'', hgoes.append hgoes', hp''⟩

theorem passes_definite {head : List UInt8} {items : List (List UInt8)}
    (hpart : items.length ≤ ceiling → PartForm (.counted items.length) head)
    (hitems : ∀ i ∈ items, Passes i) : Passes (head ++ items.flatten) := by
  intro p hvalid hview hle
  have hlength := length_le_flatten fun i hi => (hitems i hi).ne_nil
  rw [List.length_append] at hle
  have hpart := hpart (by omega)
  have hpos := List.length_pos_iff.mpr hpart.ne_nil
  obtain ⟨hvalid', htakes, hweight⟩ := hvalid.after_counted hview (n := items.length) (by omega)
  obtain ⟨p', hgoes, hp'⟩ := exists_goes_items hitems hvalid' htakes (by omega)
  exact ⟨p', .step (mt hvalid.isDone_iff.mp hview) hpart hgoes, hp'⟩

theorem passes_indefinite {first : UInt8} {items : List (List UInt8)}
    (hpart : PartForm .unbounded [first]) (hitems : ∀ i ∈ items, Passes i) :
    Passes (first :: (items.flatten ++ [stopByte])) := by
  intro p hvalid hne hle
  rw [List.length_cons, List.length_append, List.length_singleton] at hle
  obtain ⟨hvalid', view, hview, hcount, hweight⟩ := hvalid.after_unbounded hne (by omega)
  have htakes : Takes items.length (p.after .unbounded).view (none :: view) := by
    rw [hview]
    exact takes_none items.length view
  obtain ⟨p', hgoes, hvalid'', hview'⟩ :=
    exists_goes_items hitems hvalid' htakes (by rw [hview, weight]; omega)
  obtain ⟨hstopped, hview''⟩ := hvalid''.after_stop hview'
  have hopen : ¬p'.isDone = true := by simp [hvalid''.isDone_iff, hview']
  exact ⟨_, .step (mt hvalid.isDone_iff.mp hne) hpart (hgoes.append (.part hopen .stop)), hstopped,
    hview''.trans hcount⟩

/-- The keys and values of a map as one list of items. -/
def entryItems (entries : List (List UInt8 × List UInt8)) : List (List UInt8) :=
  entries.flatMap fun e => [e.1, e.2]

theorem length_entryItems (entries : List (List UInt8 × List UInt8)) :
    (entryItems entries).length = 2 * entries.length := by
  induction entries with
  | nil => rfl
  | cons e entries ih =>
    rw [entryItems, List.flatMap_cons, List.length_append, ← entryItems, ih, List.length_cons]
    exact (Nat.add_comm _ _)

theorem flatten_entryItems (entries : List (List UInt8 × List UInt8)) :
    (entryItems entries).flatten = (entries.map fun e => e.1 ++ e.2).flatten := by
  induction entries with
  | nil => rfl
  | cons e entries ih =>
    rw [entryItems, List.flatMap_cons, List.flatten_append, ← entryItems, ih, List.map_cons,
      List.flatten_cons]
    simp

theorem passes_map {entries : List (List UInt8 × List UInt8)} {s : List UInt8}
    (hkey : ∀ e ∈ entries, Passes e.1) (hvalue : ∀ e ∈ entries, Passes e.2)
    (hform : ContainerForm mapItem (entries.map fun e => e.1 ++ e.2) s) : Passes s := by
  have hitems : ∀ i ∈ entryItems entries, Passes i := by
    intro i hi
    obtain ⟨e, he, hi⟩ := List.mem_flatMap.mp hi
    rcases List.mem_cons.mp hi with rfl | hi
    · exact hkey e he
    · exact List.mem_singleton.mp hi ▸ hvalue e he
  cases hform with
  | definite hhead =>
    rw [List.length_map] at hhead
    rw [← flatten_entryItems]
    refine passes_definite (fun hle => ?_) hitems
    rw [length_entryItems] at hle ⊢
    rw [← show saturate (2 * entries.length) = 2 * entries.length from Nat.min_eq_left hle]
    exact .map hhead
  | indefinite =>
    rw [← flatten_entryItems]
    exact passes_indefinite (.unbounded (.inr rfl)) hitems

end Skip

open Skip in
theorem Item.passes {s : List UInt8} (h : Item s) : Passes s := by
  induction h with
  | int h =>
    cases h with
    | nonneg h => exact passes_leaf (.scalar h (.inl rfl))
    | neg h => exact passes_leaf (.scalar h (.inr (.inl rfl)))
  | bytes h => exact passes_leaf (.bytes h)
  | text h => exact passes_leaf (.text h)
  | array items h hform ih =>
    cases hform with
    | definite hhead => exact passes_definite (fun _ => .array hhead) ih
    | indefinite => exact passes_indefinite (.unbounded (.inl rfl)) ih
  | map entries hkey hvalue hform ihkey ihvalue => exact passes_map ihkey ihvalue hform
  | tag hhead h ih => exact passes_tag (.tag hhead) ih
  | simple h hsecond => exact passes_leaf (.scalar h (.inr (.inr rfl)))

/-- A well-formed item is passed over, and nothing after it. -/
theorem Item.skip {s : List UInt8} (h : Item s) (hlength : s.length < 2 ^ 63) (rest : List UInt8) :
    Skip.skip (s ++ rest) = some rest := by
  have hle : 1 + s.length ≤ Skip.ceiling := by
    rw [Skip.ceiling]
    omega
  obtain ⟨p', hgoes, hvalid, hview⟩ :=
    h.passes .one (.outside 1 0) (List.cons_ne_nil _ _) hle
  exact Skip.skip_eq_some_iff.mpr ⟨s, p', hgoes, hvalid.isDone_iff.mpr hview, rfl⟩

end DeviceClient.Cbor
