import Mathlib.Data.Set.List
import DeviceClient.Identity

namespace DeviceClient

namespace Utf8

theorem encode_inj {s t : String} (h : encode s = encode t) : s = t := by
  have hdecode := congrArg decode? h
  rw [decode?_encode, decode?_encode] at hdecode
  exact Option.some.inj hdecode

/-- A text of ASCII characters has one byte for each of them. -/
theorem encode_ofList {cs : List Char} (h : ∀ c ∈ cs, c.toNat < 128) :
    encode (String.ofList cs) = cs.map Char.toUInt8 := by
  have hbytes : (String.ofList cs).toUTF8 = (cs.map Char.toUInt8).toByteArray := by
    rw [String.toUTF8_eq_toByteArray, String.toByteArray_ofList]
    induction cs with
    | nil => rfl
    | cons c cs ih =>
      obtain ⟨hc, hcs⟩ := List.forall_mem_cons.mp h
      have hsize : c.utf8Size = 1 := by
        rw [Char.utf8Size_eq_one_iff, UInt32.le_iff_toNat_le]
        exact Nat.le_of_lt_succ hc
      rw [List.utf8Encode_cons, List.utf8Encode_singleton, String.utf8EncodeChar_eq_singleton hsize,
        ih hcs, ← List.toByteArray_append]
      rfl
  rw [encode, hbytes]
  exact List.toList_data_toByteArray

end Utf8

namespace Hex

/-- The byte of a digit in lower case. -/
def byte (n : Nibble) : UInt8 := (digit n).toUInt8

/-- Whether the byte is that of the digit, in lower or in upper case. -/
def IsByteOf (b : UInt8) (n : Nibble) : Prop :=
  b.toNat = (digit n).toNat ∨ b.toNat = (digit n).toUpper.toNat

theorem toNat_digit (n : Nibble) : (digit n).toNat = if n.val < 10 then 48 + n.val else 87 + n.val := by
  revert n; decide

theorem toNat_toUpper_digit (n : Nibble) :
    (digit n).toUpper.toNat = if n.val < 10 then 48 + n.val else 55 + n.val := by
  revert n; decide

theorem toNat_byte (n : Nibble) : (byte n).toNat = (digit n).toNat := by
  revert n; decide

theorem digit_lt (n : Nibble) : (digit n).toNat < 128 := by
  revert n; decide

theorem value?_eq_some_iff {code : Nat} {n : Nibble} :
    value? code = some n ↔ code = (digit n).toNat ∨ code = (digit n).toUpper.toNat := by
  have hn := n.isLt
  rw [toNat_digit, toNat_toUpper_digit]
  unfold value?
  split_ifs <;> simp [Fin.ext_iff] <;> omega

theorem isLowerDigit_iff {code : Nat} :
    isLowerDigit code = true ↔ ∃ n, code = (digit n).toNat := by
  simp only [isLowerDigit, Bool.or_eq_true, Bool.and_eq_true, decide_eq_true_eq]
  constructor
  · rintro (⟨hlow, hhigh⟩ | ⟨hlow, hhigh⟩)
    · refine ⟨⟨code - 48, by omega⟩, ?_⟩
      rw [toNat_digit, if_pos (by dsimp only; omega)]
      dsimp only
      omega
    · refine ⟨⟨code - 87, by omega⟩, ?_⟩
      rw [toNat_digit, if_neg (by dsimp only; omega)]
      dsimp only
      omega
  · rintro ⟨n, rfl⟩
    have hn := n.isLt
    rw [toNat_digit]
    split_ifs <;> omega

theorem toByte_inj {m n m' n' : Nibble} (h : toByte m n = toByte m' n') : m = m' ∧ n = n' := by
  have hval := congrArg UInt8.toNat h
  simp only [toByte, UInt8.toNat_ofNat'] at hval
  have hm := m.isLt
  have hn := n.isLt
  have hm' := m'.isLt
  have hn' := n'.isLt
  exact ⟨Fin.ext (by omega), Fin.ext (by omega)⟩

/-- Pairs of digits are told by their bytes. -/
theorem toBytes_inj {ds es : List Nibble} (heven : ds.length % 2 = 0)
    (hlength : ds.length = es.length) (h : toBytes ds = toBytes es) : ds = es := by
  induction ds using toBytes.induct generalizing es with
  | case1 high low ds ih =>
    obtain ⟨high', low', es, rfl⟩ : ∃ high' low' es', es = high' :: low' :: es' := by
      match es, hlength with
      | high' :: low' :: es', _ => exact ⟨high', low', es', rfl⟩
    obtain ⟨hbyte, hrest⟩ := List.cons.inj h
    obtain ⟨rfl, rfl⟩ := toByte_inj hbyte
    simp only [List.length_cons] at heven hlength
    rw [ih (by omega) (by omega) hrest]
  | case2 ds hds =>
    match ds, heven with
    | [], _ => exact (List.length_eq_zero_iff.mp hlength.symm).symm
    | high :: low :: ds, _ => exact absurd rfl (hds high low ds)

end Hex

/-- Groups of 8, 4, 4, 4 and 12 elements, with separators between them. -/
def grouped {α : Type} (sep : α) (xs : List α) : List α :=
  xs.take 8 ++ sep :: ((xs.drop 8).take 4 ++ sep :: ((xs.drop 12).take 4 ++
    sep :: ((xs.drop 16).take 4 ++ sep :: xs.drop 20)))

section

variable {α β : Type} {sep : α} {xs l : List α}

theorem map_grouped (f : α → β) : (grouped sep xs).map f = grouped (f sep) (xs.map f) := by
  simp [grouped]

theorem mem_grouped {x : α} (h : x ∈ grouped sep xs) : x = sep ∨ x ∈ xs := by
  simp only [grouped, List.mem_append, List.mem_cons] at h
  rcases h with h | h | h | h | h | h | h | h | h
  · exact .inr (List.mem_of_mem_take h)
  · exact .inl h
  · exact .inr (List.mem_of_mem_drop (List.mem_of_mem_take h))
  · exact .inl h
  · exact .inr (List.mem_of_mem_drop (List.mem_of_mem_take h))
  · exact .inl h
  · exact .inr (List.mem_of_mem_drop (List.mem_of_mem_take h))
  · exact .inl h
  · exact .inr (List.mem_of_mem_drop h)

theorem exists_cut {n : Nat} {x : α} (h : l[n]? = some x) :
    ∃ a r, a.length = n ∧ l = a ++ x :: r := by
  obtain ⟨hn, hx⟩ := List.getElem?_eq_some_iff.mp h
  refine ⟨l.take n, l.drop (n + 1), by simp; omega, ?_⟩
  rw [← hx, ← List.drop_eq_getElem_cons hn, List.take_append_drop]

theorem append_groups (xs : List α) :
    xs.take 8 ++ ((xs.drop 8).take 4 ++ ((xs.drop 12).take 4 ++
      ((xs.drop 16).take 4 ++ xs.drop 20))) = xs := by
  have hcut (n : Nat) : (xs.drop n).take 4 ++ xs.drop (n + 4) = xs.drop n := by
    rw [← List.drop_drop, List.take_append_drop]
  rw [hcut 16, hcut 12, hcut 8, List.take_append_drop]

theorem length_grouped (h : xs.length = 32) : (grouped sep xs).length = 36 := by
  simp [grouped, h]

/-- The separators are left out again. -/
theorem filter_grouped [BEq α] [LawfulBEq α] (h : sep ∉ xs) :
    (grouped sep xs).filter (· != sep) = xs := by
  have hself {ys : List α} (hys : ∀ y ∈ ys, y ∈ xs) : ys.filter (· != sep) = ys := by
    rw [List.filter_eq_self]
    intro y hy
    rw [bne_iff_ne]
    rintro rfl
    exact h (hys _ hy)
  have htake (n : Nat) : ((xs.drop n).take 4).filter (· != sep) = (xs.drop n).take 4 :=
    hself fun y hy => List.mem_of_mem_drop (List.mem_of_mem_take hy)
  simp only [grouped, List.filter_append, List.filter_cons, bne_self_eq_false, Bool.false_eq_true,
    if_false, htake, hself fun y hy => List.mem_of_mem_take hy,
    hself fun y hy => List.mem_of_mem_drop hy, append_groups]

/-- 36 elements with separators in their places are groups. -/
theorem exists_grouped (hlength : l.length = 36)
    (hsep : ∀ place ∈ DeviceId.hyphenPlaces, l[place]? = some sep) :
    ∃ xs, xs.length = 32 ∧ l = grouped sep xs := by
  have h₁ := hsep 8 (by decide)
  have h₂ := hsep 13 (by decide)
  have h₃ := hsep 18 (by decide)
  have h₄ := hsep 23 (by decide)
  obtain ⟨a, l, ha, rfl⟩ := exists_cut h₁
  rw [List.getElem?_append_right (by omega), ha, List.getElem?_cons_succ] at h₂ h₃ h₄
  obtain ⟨b, l, hb, rfl⟩ := exists_cut h₂
  rw [List.getElem?_append_right (by omega), hb, List.getElem?_cons_succ] at h₃ h₄
  obtain ⟨c, l, hc, rfl⟩ := exists_cut h₃
  rw [List.getElem?_append_right (by omega), hc, List.getElem?_cons_succ] at h₄
  obtain ⟨d, e, hd, rfl⟩ := exists_cut h₄
  refine ⟨a ++ (b ++ (c ++ (d ++ e))), ?_, ?_⟩
  · simp only [List.length_append, List.length_cons] at hlength ⊢
    omega
  · simp (disch := omega) [grouped, ha, hb, hc, List.drop_append, List.drop_of_length_le]

end

namespace DeviceId

/-- Whether bytes from some place on are those of a canonical text. -/
def fitsFrom (first : Nat) (bs : List UInt8) : Bool :=
  (bs.zipIdx first).all fun (b, place) =>
    if hyphenPlaces.contains place then b == hyphen else Hex.isLowerDigit b.toNat

theorem isCanonical_eq (t : String) :
    isCanonical t = ((Utf8.encode t).length == 36 && fitsFrom 0 (Utf8.encode t)) := rfl

theorem fitsFrom_cons (first : Nat) (b : UInt8) (bs : List UInt8) :
    fitsFrom first (b :: bs) =
      ((if hyphenPlaces.contains first then b == hyphen else Hex.isLowerDigit b.toNat) &&
        fitsFrom (first + 1) bs) := by
  rw [fitsFrom, List.zipIdx_cons, List.all_cons, fitsFrom]

theorem fitsFrom_append (first : Nat) (bs cs : List UInt8) :
    fitsFrom first (bs ++ cs) = (fitsFrom first bs && fitsFrom (first + bs.length) cs) := by
  rw [fitsFrom, List.zipIdx_append, List.all_append, fitsFrom, fitsFrom]

/-- Between the places of the hyphens there are digits. -/
theorem fitsFrom_group {first : Nat} {bs : List UInt8}
    (h : ∀ place ∈ hyphenPlaces, place < first ∨ first + bs.length ≤ place) :
    fitsFrom first bs = bs.all fun b => Hex.isLowerDigit b.toNat := by
  induction bs generalizing first with
  | nil => rfl
  | cons b bs ih =>
    rw [List.length_cons] at h
    have hfirst : hyphenPlaces.contains first = false := by
      rw [← Bool.not_eq_true, List.contains_iff_mem]
      intro hmem
      have hplace := h first hmem
      omega
    have htail : fitsFrom (first + 1) bs = bs.all fun b => Hex.isLowerDigit b.toNat := by
      refine ih fun place hmem => ?_
      have hplace := h place hmem
      have hne : place ≠ first := by
        rintro rfl
        rw [← List.contains_iff_mem, hfirst] at hmem
        cases hmem
      omega
    rw [fitsFrom_cons, hfirst, htail, List.all_cons]
    rfl

theorem fitsFrom_grouped {bs : List UInt8} (h : bs.length = 32) :
    fitsFrom 0 (grouped hyphen bs) = bs.all fun b => Hex.isLowerDigit b.toNat := by
  have h₁ : fitsFrom 0 (bs.take 8) = _ := fitsFrom_group (by simp [h, hyphenPlaces])
  have h₂ : fitsFrom 9 ((bs.drop 8).take 4) = _ := fitsFrom_group (by simp [h, hyphenPlaces])
  have h₃ : fitsFrom 14 ((bs.drop 12).take 4) = _ := fitsFrom_group (by simp [h, hyphenPlaces])
  have h₄ : fitsFrom 19 ((bs.drop 16).take 4) = _ := fitsFrom_group (by simp [h, hyphenPlaces])
  have h₅ : fitsFrom 24 (bs.drop 20) = _ := fitsFrom_group (by simp [h, hyphenPlaces])
  conv_rhs => rw [← append_groups bs]
  simp [grouped, fitsFrom_append, fitsFrom_cons, List.all_append, h, h₁, h₂, h₃, h₄, h₅,
    hyphenPlaces]

theorem getElem?_of_fitsFrom {bs : List UInt8} (h : fitsFrom 0 bs = true) {place : Nat}
    (hplace : place ∈ hyphenPlaces) (hlt : place < bs.length) : bs[place]? = some hyphen := by
  obtain ⟨b, hb⟩ := Option.ne_none_iff_exists'.mp fun hnone =>
    absurd (List.getElem?_eq_none_iff.mp hnone) (Nat.not_le_of_lt hlt)
  have hfits := List.all_eq_true.mp h (b, place) (List.mem_zipIdx_iff_getElem?.mpr hb)
  dsimp only at hfits
  rw [if_pos (List.contains_iff_mem.mpr hplace), beq_iff_eq] at hfits
  rw [hb, hfits]

/-- The canonical texts are 32 digits in groups, byte by byte. -/
theorem isCanonical_iff {t : String} : isCanonical t = true ↔
    ∃ ds : List Nibble, ds.length = 32 ∧ Utf8.encode t = grouped hyphen (ds.map Hex.byte) := by
  rw [isCanonical_eq, Bool.and_eq_true, beq_iff_eq]
  constructor
  · rintro ⟨hlength, hfits⟩
    have hsep : ∀ place ∈ hyphenPlaces, (Utf8.encode t)[place]? = some hyphen := by
      intro place hplace
      have hlast : ∀ place ∈ hyphenPlaces, place < 36 := by decide
      exact getElem?_of_fitsFrom hfits hplace (hlength ▸ hlast place hplace)
    obtain ⟨bs, hbs, ht⟩ := exists_grouped hlength hsep
    rw [ht, fitsFrom_grouped hbs, List.all_eq_true] at hfits
    have hdigits : bs ∈ Set.range (List.map Hex.byte) := by
      rw [Set.range_list_map]
      intro b hb
      obtain ⟨n, hn⟩ := Hex.isLowerDigit_iff.mp (hfits b hb)
      exact ⟨n, UInt8.toNat.inj ((Hex.toNat_byte n).trans hn.symm)⟩
    obtain ⟨ds, rfl⟩ := hdigits
    exact ⟨ds, by simpa using hbs, ht⟩
  · rintro ⟨ds, hds, ht⟩
    have hbytes : (ds.map Hex.byte).length = 32 := by rw [List.length_map, hds]
    rw [ht, fitsFrom_grouped hbytes, length_grouped hbytes]
    refine ⟨rfl, List.all_eq_true.mpr (List.forall_mem_map.mpr fun n _ => ?_)⟩
    exact Hex.isLowerDigit_iff.mpr ⟨n, Hex.toNat_byte n⟩

/-- The bytes of the text of an identity. -/
theorem encode_text (id : DeviceId) :
    Utf8.encode id.text = grouped hyphen (id.digits.map Hex.byte) := by
  have hascii : ∀ c ∈ hyphenate (id.digits.map Hex.digit), c.toNat < 128 := by
    intro c hc
    rcases mem_grouped (show c ∈ grouped '-' _ from hc) with rfl | hc
    · decide
    · obtain ⟨n, -, rfl⟩ := List.mem_map.mp hc
      exact Hex.digit_lt n
  rw [text, Utf8.encode_ofList hascii]
  have hmap : (grouped '-' (id.digits.map Hex.digit)).map Char.toUInt8 =
      grouped hyphen ((id.digits.map Hex.digit).map Char.toUInt8) := map_grouped Char.toUInt8
  exact hmap.trans (by rw [List.map_map]; rfl)

theorem isCanonical_text (id : DeviceId) : isCanonical id.text = true :=
  isCanonical_iff.mpr ⟨id.digits, id.length_digits, id.encode_text⟩

/-- The bytes of a text that stand for digits. -/
def digitBytes (t : String) : List UInt8 := (Utf8.encode t).filter (· != hyphen)

theorem parse_eq (t : String) : parse t = ofDigits ((digitBytes t).map digitOfByte) := rfl

theorem digitOfByte_byte (n : Nibble) : digitOfByte (Hex.byte n) = n := by
  rw [digitOfByte, Hex.toNat_byte, Hex.value?_digit, Option.getD_some]

theorem digitBytes_text (id : DeviceId) : digitBytes id.text = id.digits.map Hex.byte := by
  rw [digitBytes, encode_text, filter_grouped]
  intro hmem
  obtain ⟨n, -, hn⟩ := List.mem_map.mp hmem
  revert n
  decide

theorem parse_text (x : DeviceId) : parse x.text = x := by
  have hdigits : digitOfByte ∘ Hex.byte = id := funext digitOfByte_byte
  rw [parse_eq, digitBytes_text, List.map_map, hdigits, List.map_id, ofDigits_digits]

theorem text_inj {x y : DeviceId} (h : x.text = y.text) : x = y := by
  rw [← parse_text x, h, parse_text]

/-- A canonical text is the text of some identity. -/
theorem exists_text {t : String} (h : isCanonical t = true) : ∃ x : DeviceId, t = x.text := by
  obtain ⟨ds, hds, ht⟩ := isCanonical_iff.mp h
  exact ⟨⟨ds, hds⟩, Utf8.encode_inj (ht.trans (encode_text ⟨ds, hds⟩).symm)⟩

theorem text_parse_eq_iff {t : String} : (parse t).text = t ↔ isCanonical t = true := by
  constructor
  · intro h
    exact h ▸ isCanonical_text (parse t)
  · intro h
    obtain ⟨x, rfl⟩ := exists_text h
    rw [parse_text]

/-- What a text says about a digit: the byte at this place among those that are no hyphens is the
digit in either case. A byte that is no digit counts as zero, and so does a missing one. -/
inductive Spells (t : String) (place : Nat) : Nibble → Prop
  | digit {b : UInt8} {n : Nibble} (hb : (digitBytes t)[place]? = some b) (hn : Hex.IsByteOf b n) :
      Spells t place n
  | other {b : UInt8} (hb : (digitBytes t)[place]? = some b) (hn : ∀ n, ¬Hex.IsByteOf b n) :
      Spells t place 0
  | missing (h : (digitBytes t)[place]? = none) : Spells t place 0

theorem digitOfByte_eq {b : UInt8} {n : Nibble} (h : Hex.IsByteOf b n) : digitOfByte b = n := by
  rw [digitOfByte, Hex.value?_eq_some_iff.mpr h, Option.getD_some]

theorem digitOfByte_eq_zero {b : UInt8} (h : ∀ n, ¬Hex.IsByteOf b n) : digitOfByte b = 0 := by
  have hnone : Hex.value? b.toNat = none := by
    rw [Option.eq_none_iff_forall_ne_some]
    intro n hn
    exact h n (Hex.value?_eq_some_iff.mp hn)
  rw [digitOfByte, hnone, Option.getD_none]

theorem spells_iff {t : String} {place : Nat} {n : Nibble} :
    Spells t place n ↔ ((digitBytes t)[place]?.map digitOfByte).getD 0 = n := by
  constructor
  · intro h
    cases h with
    | digit hb hn => rw [hb, Option.map_some, Option.getD_some, digitOfByte_eq hn]
    | other hb hn => rw [hb, Option.map_some, Option.getD_some, digitOfByte_eq_zero hn]
    | missing h => rw [h, Option.map_none, Option.getD_none]
  · rintro rfl
    cases hb : (digitBytes t)[place]? with
    | none => exact .missing hb
    | some b =>
      by_cases hdigit : ∃ n, Hex.IsByteOf b n
      · obtain ⟨n, hn⟩ := hdigit
        rw [Option.map_some, Option.getD_some, digitOfByte_eq hn]
        exact .digit hb hn
      · have hother : ∀ n, ¬Hex.IsByteOf b n := fun n hn => hdigit ⟨n, hn⟩
        rw [Option.map_some, Option.getD_some, digitOfByte_eq_zero hother]
        exact .other hb hother

theorem getElem?_ofDigits (ds : List Nibble) {place : Nat} (h : place < 32) :
    (ofDigits ds).digits[place]? = some (ds[place]?.getD 0) := by
  rw [ofDigits, List.getElem?_take_of_lt h]
  by_cases hlt : place < ds.length
  · rw [List.getElem?_append_left hlt, List.getElem?_eq_getElem hlt, Option.getD_some]
  · have hle := Nat.le_of_not_lt hlt
    rw [List.getElem?_append_right hle, List.getElem?_replicate, if_pos (by omega),
      List.getElem?_eq_none hle, Option.getD_none]

/-- The digits of the identity that a text names are those that it spells. -/
theorem spells_iff_digits {t : String} {place : Nat} (h : place < 32) {n : Nibble} :
    Spells t place n ↔ (parse t).digits[place]? = some n := by
  rw [spells_iff, parse_eq, getElem?_ofDigits _ h, List.getElem?_map, Option.some_inj]

theorem parse_eq_iff {s t : String} :
    parse s = parse t ↔ ∀ place < 32, ∃ n, Spells s place n ∧ Spells t place n := by
  constructor
  · intro h place hplace
    have hlt : place < (parse t).digits.length := by rwa [length_digits]
    obtain ⟨n, hn⟩ : ∃ n, (parse t).digits[place]? = some n := ⟨_, List.getElem?_eq_getElem hlt⟩
    exact ⟨n, (spells_iff_digits hplace).mpr (h ▸ hn), (spells_iff_digits hplace).mpr hn⟩
  · intro h
    refine ext (List.ext_getElem? fun place => ?_)
    by_cases hplace : place < 32
    · obtain ⟨n, hs, ht⟩ := h place hplace
      rw [(spells_iff_digits hplace).mp hs, (spells_iff_digits hplace).mp ht]
    · rw [List.getElem?_eq_none, List.getElem?_eq_none] <;> rw [length_digits] <;> omega

theorem bytes_inj {x y : DeviceId} (h : x.bytes = y.bytes) : x = y :=
  ext (Hex.toBytes_inj (by rw [x.length_digits]) (by rw [x.length_digits, y.length_digits]) h)

/-- The text of an identity is canonical and names this identity. A text is that of the identity which
it names exactly when it is canonical, so every other text is told from it. Texts name the same
identity, the same 16 bytes, exactly when they spell the same 32 digits. -/
theorem text_forms :
    (∀ x : DeviceId, isCanonical x.text = true ∧ parse x.text = x) ∧
    (∀ t, (parse t).text = t ↔ isCanonical t = true) ∧
    ∀ s t, (parse s = parse t ↔ ∀ place < 32, ∃ n, Spells s place n ∧ Spells t place n) ∧
      ((parse s).bytes = (parse t).bytes ↔ parse s = parse t) :=
  ⟨fun x => ⟨isCanonical_text x, parse_text x⟩, fun _ => text_parse_eq_iff,
    fun _ _ => ⟨parse_eq_iff, bytes_inj, congrArg bytes⟩⟩

end DeviceId

end DeviceClient
