import Mathlib.Tactic.SplitIfs
import DeviceClient.Cbor.Scalar

namespace DeviceClient.Cbor

/-- As many bytes as there are items are enough to read them, since each has at least one. -/
theorem length_le_flatten {items : List (List UInt8)} (h : ∀ i ∈ items, i ≠ []) :
    items.length ≤ items.flatten.length := by
  induction items with
  | nil => exact Nat.zero_le _
  | cons i items ih =>
    obtain ⟨hi, hitems⟩ := List.forall_mem_cons.mp h
    have hpos := List.length_pos_iff.mpr hi
    have hle := ih hitems
    rw [List.length_cons, List.flatten_cons, List.length_append]
    omega

/-- The forms of a head. The argument is in the first byte, or in one, two, four or eight bytes after
it. -/
inductive HeadForm : Head → List UInt8 → Prop
  | short {major argument : Nat} (hmajor : major < 8) (hargument : argument < 24) :
      HeadForm ⟨major, argument⟩ [UInt8.ofNat (32 * major + argument)]
  | wide {major k : Nat} {ns : List UInt8} (hmajor : major < 8) (hk : k < 4)
      (hns : ns.length = 2 ^ k) :
      HeadForm ⟨major, BigEndian.decode ns⟩ (UInt8.ofNat (32 * major + (24 + k)) :: ns)

theorem toNat_first {major info : Nat} (hmajor : major < 8) (hinfo : info < 32) :
    (UInt8.ofNat (32 * major + info)).toNat = 32 * major + info := by
  rw [UInt8.toNat_ofNat']
  omega

theorem ofNat_first (b : UInt8) : UInt8.ofNat (32 * (b.toNat / 32) + b.toNat % 32) = b := by
  rw [Nat.div_add_mod, UInt8.ofNat_toNat]

theorem first_ne {major info : Nat} (hmajor : major < 8) (hinfo : info < 28) :
    UInt8.ofNat (32 * major + info) ≠ indefinite major ∧
      UInt8.ofNat (32 * major + info) ≠ stopByte := by
  have hfirst := toNat_first hmajor (Nat.lt_trans hinfo (by decide))
  constructor
  · intro heq
    have hnat := congrArg UInt8.toNat heq
    rw [hfirst, indefinite, toNat_first hmajor (by decide)] at hnat
    omega
  · intro heq
    have hnat := congrArg UInt8.toNat heq
    rw [hfirst, show stopByte.toNat = 255 from rfl] at hnat
    omega

/-- No head begins like an item of indefinite length or like a stop byte. -/
theorem HeadForm.exists_first {major n : Nat} {s : List UInt8} (h : HeadForm ⟨major, n⟩ s) :
    ∃ b t, s = b :: t ∧ b ≠ indefinite major ∧ b ≠ stopByte := by
  cases h with
  | short hmajor hargument => exact ⟨_, [], rfl, first_ne hmajor (by omega)⟩
  | wide hmajor hk hns => exact ⟨_, _, rfl, first_ne hmajor (by omega)⟩

theorem HeadForm.major_lt {major n : Nat} {s : List UInt8} (h : HeadForm ⟨major, n⟩ s) :
    major < 8 := by
  cases h <;> assumption

theorem HeadForm.first_div {major n : Nat} {b : UInt8} {t : List UInt8}
    (h : HeadForm ⟨major, n⟩ (b :: t)) : b.toNat / 32 = major := by
  cases h with
  | short hmajor hargument =>
    rw [toNat_first hmajor (by omega)]
    omega
  | wide hmajor hk hns =>
    rw [toNat_first hmajor (by omega)]
    omega

theorem splitBytes_append (bs rest : List UInt8) :
    splitBytes bs.length (bs ++ rest) = some (bs, rest) := by
  simp [splitBytes]

theorem splitBytes_eq_some_iff {n : Nat} {bs s rest : List UInt8} :
    splitBytes n bs = some (s, rest) ↔ s.length = n ∧ bs = s ++ rest := by
  constructor
  · intro h
    unfold splitBytes at h
    split_ifs at h with hle
    cases h
    exact ⟨List.length_take_of_le hle, (List.take_append_drop n bs).symm⟩
  · rintro ⟨rfl, rfl⟩
    exact splitBytes_append s rest

theorem readArgument_eq_some_iff {info n : Nat} {bs rest : List UInt8} :
    readArgument info bs = some (n, rest) ↔
      (info < 24 ∧ n = info ∧ bs = rest) ∨
      ∃ k ns, k < 4 ∧ info = 24 + k ∧ ns.length = 2 ^ k ∧ n = BigEndian.decode ns ∧
        bs = ns ++ rest := by
  constructor
  · intro h
    unfold readArgument at h
    split_ifs at h with hshort hwide
    · cases h
      exact .inl ⟨hshort, rfl, rfl⟩
    · obtain ⟨⟨ns, t⟩, hsplit, heq⟩ := Option.bind_eq_some_iff.mp h
      cases heq
      obtain ⟨hns, hbs⟩ := splitBytes_eq_some_iff.mp hsplit
      exact .inr ⟨info - 24, ns, by omega, by omega, hns, rfl, hbs⟩
  · rintro (⟨hshort, rfl, rfl⟩ | ⟨k, ns, hk, rfl, hns, rfl, rfl⟩)
    · simp [readArgument, hshort]
    · have hsplit := splitBytes_append ns rest
      have hlow : ¬24 + k < 24 := by omega
      have hhigh : 24 + k < 28 := by omega
      rw [hns] at hsplit
      simp [readArgument, hlow, hhigh, hsplit]

theorem readHead_first {major info n : Nat} {bs rest : List UInt8} (hmajor : major < 8)
    (hinfo : info < 28) (hargument : readArgument info bs = some (n, rest)) :
    readHead (UInt8.ofNat (32 * major + info) :: bs) = some (⟨major, n⟩, rest) := by
  have hmod : (32 * major + info) % 32 = info := by omega
  have hdiv : (32 * major + info) / 32 = major := by omega
  simp only [readHead, toNat_first hmajor (Nat.lt_trans hinfo (by decide)), hmod, hdiv, hargument,
    Option.bind_eq_bind, Option.bind_some]
  rfl

theorem HeadForm.read {h : Head} {s : List UInt8} (hform : HeadForm h s) (rest : List UInt8) :
    readHead (s ++ rest) = some (h, rest) := by
  cases hform with
  | short hmajor hargument =>
    exact readHead_first hmajor (by omega) (readArgument_eq_some_iff.mpr (.inl ⟨hargument, rfl, rfl⟩))
  | wide hmajor hk hns =>
    exact readHead_first hmajor (by omega)
      (readArgument_eq_some_iff.mpr (.inr ⟨_, _, hk, rfl, hns, rfl, rfl⟩))

theorem readHead_eq_some_iff {bs rest : List UInt8} {h : Head} :
    readHead bs = some (h, rest) ↔ ∃ s, HeadForm h s ∧ bs = s ++ rest := by
  constructor
  · intro hread
    cases bs with
    | nil => cases hread
    | cons b bs =>
      obtain ⟨⟨n, t⟩, hargument, heq⟩ := Option.bind_eq_some_iff.mp hread
      cases heq
      have hmajor : b.toNat / 32 < 8 := by have := b.toNat_lt; omega
      have hfirst := ofNat_first b
      rcases readArgument_eq_some_iff.mp hargument with
        ⟨hshort, rfl, rfl⟩ | ⟨k, ns, hk, hinfo, hns, rfl, rfl⟩
      · exact ⟨_, .short hmajor hshort, by rw [hfirst]; rfl⟩
      · exact ⟨_, .wide hmajor hk hns, by rw [← hinfo, hfirst]; rfl⟩
  · rintro ⟨s, hform, rfl⟩
    exact hform.read rest

theorem major_of_readHead {b : UInt8} {bs rest : List UInt8} {h : Head}
    (hread : readHead (b :: bs) = some (h, rest)) : h.major = b.toNat / 32 := by
  obtain ⟨⟨n, t⟩, -, heq⟩ := Option.bind_eq_some_iff.mp hread
  cases heq
  rfl

/-- The first byte of a head tells the kind of its item. -/
theorem HeadForm.exists_kind? {major n : Nat} {s : List UInt8} (hform : HeadForm ⟨major, n⟩ s)
    (rest : List UInt8) :
    ∃ info < 28, kind? (s ++ rest) = some (Kind.ofByte (UInt8.ofNat (32 * major + info))) := by
  cases hform with
  | short hmajor hargument =>
    have hfirst := toNat_first hmajor (Nat.lt_trans hargument (by decide))
    have hwhole : ¬(0x38 ≤ 32 * major + n ∧ 32 * major + n ≤ 0x3b ∧ rest.isEmpty) := by omega
    refine ⟨n, by omega, ?_⟩
    simp only [List.cons_append, List.nil_append, Cbor.kind?, hfirst, if_neg hwhole]
  | @wide _ k ns hmajor hk hns =>
    have hfirst := toNat_first hmajor (show 24 + k < 32 by omega)
    have hbytes : (ns ++ rest).isEmpty = false := by
      have hpos : 0 < ns.length := hns ▸ Nat.two_pow_pos k
      simp [List.ne_nil_of_length_pos hpos]
    refine ⟨24 + k, by omega, ?_⟩
    simp only [List.cons_append, Cbor.kind?, hfirst, hbytes, Bool.false_eq_true, and_false,
      if_false]

theorem HeadForm.kind? {major n : Nat} {s : List UInt8} (hform : HeadForm ⟨major, n⟩ s)
    {kind : Kind} (hkind : ∀ info < 28, Kind.ofByte (UInt8.ofNat (32 * major + info)) = kind)
    (rest : List UInt8) : kind? (s ++ rest) = some kind := by
  obtain ⟨info, hinfo, h⟩ := hform.exists_kind? rest
  rw [h, hkind info hinfo]

/-- The forms of a string of definite length. -/
inductive DefiniteForm (major : Nat) (piece : List UInt8) : List UInt8 → Prop
  | intro {head : List UInt8} (hhead : HeadForm ⟨major, piece.length⟩ head) :
      DefiniteForm major piece (head ++ piece)

/-- The forms of a string that is made of some pieces: of one piece as a string of definite length,
of any number of pieces between a first byte and a stop byte. -/
inductive StringForm (major : Nat) : List (List UInt8) → List UInt8 → Prop
  | definite {piece s : List UInt8} (h : DefiniteForm major piece s) : StringForm major [piece] s
  | indefinite (chunks : List (List UInt8 × List UInt8))
      (h : ∀ c ∈ chunks, DefiniteForm major c.1 c.2) :
      StringForm major (chunks.map Prod.fst)
        (Cbor.indefinite major :: (chunks.flatMap Prod.snd ++ [stopByte]))

/-- The forms of a text. Each piece of it is a text. -/
inductive TextForm : String → List UInt8 → Prop
  | intro {texts : List String} {s : List UInt8}
      (h : StringForm textString (texts.map Utf8.encode) s) : TextForm (String.join texts) s

inductive BytesForm : List UInt8 → List UInt8 → Prop
  | intro {pieces : List (List UInt8)} {s : List UInt8} (h : StringForm byteString pieces s) :
      BytesForm pieces.flatten s

theorem DefiniteForm.read {major : Nat} {piece s : List UInt8} (h : DefiniteForm major piece s)
    (rest : List UInt8) : readDefinite major (s ++ rest) = some (piece, rest) := by
  obtain ⟨hhead⟩ := h
  rw [List.append_assoc, readDefinite, hhead.read]
  simp [splitBytes_append]

theorem readDefinite_eq_some_iff {major : Nat} {bs piece rest : List UInt8} :
    readDefinite major bs = some (piece, rest) ↔
      ∃ s, DefiniteForm major piece s ∧ bs = s ++ rest := by
  constructor
  · intro h
    obtain ⟨⟨⟨m, n⟩, t⟩, hhead, hpiece⟩ := Option.bind_eq_some_iff.mp h
    obtain ⟨s, hform, rfl⟩ := readHead_eq_some_iff.mp hhead
    dsimp only at hpiece
    split_ifs at hpiece with hmajor
    obtain ⟨rfl, rfl⟩ := splitBytes_eq_some_iff.mp hpiece
    exact ⟨s ++ piece, .intro (hmajor ▸ hform), by rw [List.append_assoc]⟩
  · rintro ⟨s, hform, rfl⟩
    exact hform.read rest

theorem DefiniteForm.exists_first {major : Nat} {piece s : List UInt8}
    (h : DefiniteForm major piece s) :
    ∃ b t, s = b :: t ∧ b ≠ Cbor.indefinite major ∧ b ≠ stopByte := by
  obtain ⟨hhead⟩ := h
  obtain ⟨b, t, rfl, hfirst⟩ := hhead.exists_first
  exact ⟨b, t ++ piece, rfl, hfirst⟩

theorem readPieces_eq_some {major rounds : Nat} {bs rest : List UInt8}
    {pieces : List (List UInt8)} (h : readPieces major rounds bs = some (pieces, rest)) :
    ∃ chunks : List (List UInt8 × List UInt8), (∀ c ∈ chunks, DefiniteForm major c.1 c.2) ∧
      pieces = chunks.map Prod.fst ∧ bs = chunks.flatMap Prod.snd ++ stopByte :: rest := by
  induction rounds generalizing bs pieces with
  | zero => cases h
  | succ rounds ih =>
    cases bs with
    | nil => cases h
    | cons b bs =>
      rw [readPieces] at h
      split_ifs at h with hstop
      · cases h
        exact ⟨[], by simp, rfl, by simp [hstop]⟩
      · obtain ⟨⟨piece, t⟩, hpiece, h⟩ := Option.bind_eq_some_iff.mp h
        obtain ⟨⟨more, t'⟩, hmore, heq⟩ := Option.bind_eq_some_iff.mp h
        cases heq
        obtain ⟨s, hform, hs⟩ := readDefinite_eq_some_iff.mp hpiece
        obtain ⟨chunks, hchunks, rfl, rfl⟩ := ih hmore
        exact ⟨(piece, s) :: chunks, List.forall_mem_cons.mpr ⟨hform, hchunks⟩, rfl, by simp [hs]⟩

theorem readPieces_chunks {major : Nat} {chunks : List (List UInt8 × List UInt8)}
    (h : ∀ c ∈ chunks, DefiniteForm major c.1 c.2) (rest : List UInt8) {rounds : Nat}
    (hrounds : chunks.length < rounds) :
    readPieces major rounds (chunks.flatMap Prod.snd ++ stopByte :: rest) =
      some (chunks.map Prod.fst, rest) := by
  induction chunks generalizing rounds with
  | nil =>
    obtain ⟨rounds, rfl⟩ := Nat.exists_eq_add_one.mpr hrounds
    simp [readPieces]
  | cons c chunks ih =>
    obtain ⟨rounds, rfl⟩ := Nat.exists_eq_add_one.mpr (Nat.zero_lt_of_lt hrounds)
    rw [List.length_cons, Nat.add_lt_add_iff_right] at hrounds
    obtain ⟨hc, hchunks⟩ := List.forall_mem_cons.mp h
    obtain ⟨b, t, hs, -, hstop⟩ := hc.exists_first
    have hpiece := hc.read (chunks.flatMap Prod.snd ++ stopByte :: rest)
    rw [List.flatMap_cons, List.append_assoc]
    rw [hs, List.cons_append] at hpiece ⊢
    simp only [readPieces, hstop, if_false, hpiece, ih hchunks hrounds, Option.bind_eq_bind,
      Option.bind_some, List.map_cons]
    rfl

theorem StringForm.read {major : Nat} {pieces : List (List UInt8)} {s : List UInt8}
    (h : StringForm major pieces s) (rest : List UInt8) :
    readString major (s ++ rest) = some (pieces, rest) := by
  cases h with
  | definite h =>
    obtain ⟨b, t, rfl, hindefinite, -⟩ := h.exists_first
    have hpiece := h.read rest
    rw [List.cons_append] at hpiece ⊢
    rw [readString, if_neg hindefinite, hpiece]
    rfl
  | indefinite chunks h =>
    have hne : ∀ s ∈ chunks.map Prod.snd, s ≠ [] := by
      intro s hs
      obtain ⟨c, hc, rfl⟩ := List.mem_map.mp hs
      obtain ⟨b, t, hfirst, -⟩ := (h c hc).exists_first
      exact hfirst ▸ List.cons_ne_nil b t
    have hrounds : chunks.length < (chunks.flatMap Prod.snd ++ stopByte :: rest).length := by
      have hle := length_le_flatten hne
      rw [List.length_map] at hle
      rw [List.length_append, List.flatMap_def, List.length_cons]
      omega
    simpa [readString] using readPieces_chunks h rest hrounds

theorem readString_eq_some_iff {major : Nat} {bs rest : List UInt8} {pieces : List (List UInt8)} :
    readString major bs = some (pieces, rest) ↔
      ∃ s, StringForm major pieces s ∧ bs = s ++ rest := by
  constructor
  · intro h
    cases bs with
    | nil => cases h
    | cons b bs =>
      rw [readString] at h
      split_ifs at h with hindefinite
      · obtain ⟨chunks, hchunks, rfl, rfl⟩ := readPieces_eq_some h
        exact ⟨_, .indefinite chunks hchunks, by simp [hindefinite]⟩
      · obtain ⟨⟨piece, t⟩, hpiece, heq⟩ := Option.bind_eq_some_iff.mp h
        cases heq
        obtain ⟨s, hform, hs⟩ := readDefinite_eq_some_iff.mp hpiece
        exact ⟨s, .definite hform, hs⟩
  · rintro ⟨s, hform, rfl⟩
    exact hform.read rest

/-- A string begins with its major type. -/
theorem StringForm.exists_first {major : Nat} {pieces : List (List UInt8)} {s : List UInt8}
    (h : StringForm major pieces s) (hmajor : major < 7) :
    ∃ b t, s = b :: t ∧ b.toNat / 32 = major ∧ b ≠ stopByte := by
  cases h with
  | definite h =>
    obtain ⟨hhead⟩ := h
    obtain ⟨b, t, rfl, -, hstop⟩ := hhead.exists_first
    exact ⟨b, _, rfl, hhead.first_div, hstop⟩
  | indefinite chunks h =>
    have hfirst := toNat_first (show major < 8 by omega) (show 31 < 32 by decide)
    refine ⟨_, _, rfl, ?_, fun heq => ?_⟩
    · rw [Cbor.indefinite, hfirst]
      omega
    · have hnat := congrArg UInt8.toNat heq
      rw [Cbor.indefinite, hfirst, show stopByte.toNat = 255 from rfl] at hnat
      omega

theorem mapM_decode?_eq_some_iff {pieces : List (List UInt8)} {texts : List String} :
    pieces.mapM Utf8.decode? = some texts ↔ pieces = texts.map Utf8.encode := by
  induction pieces generalizing texts with
  | nil => cases texts <;> simp
  | cons piece pieces ih =>
    rw [List.mapM_cons]
    constructor
    · intro h
      obtain ⟨t, ht, h⟩ := Option.bind_eq_some_iff.mp h
      obtain ⟨ts, hts, heq⟩ := Option.bind_eq_some_iff.mp h
      cases heq
      rw [List.map_cons, Utf8.decode?_eq_some_iff.mp ht, ih.mp hts]
    · intro h
      cases texts with
      | nil => cases h
      | cons t ts =>
        obtain ⟨rfl, hpieces⟩ := List.cons.inj h
        simp [ih.mpr hpieces]

theorem TextForm.read {t : String} {s : List UInt8} (h : TextForm t s) (rest : List UInt8) :
    readText (s ++ rest) = some (t, rest) := by
  obtain @⟨texts, _, h⟩ := h
  have htexts : (texts.map Utf8.encode).mapM Utf8.decode? = some texts :=
    mapM_decode?_eq_some_iff.mpr rfl
  simp [readText, h.read, htexts]

theorem readText_eq_some_iff {bs rest : List UInt8} {t : String} :
    readText bs = some (t, rest) ↔ ∃ s, TextForm t s ∧ bs = s ++ rest := by
  constructor
  · intro h
    obtain ⟨⟨pieces, r⟩, hstring, h⟩ := Option.bind_eq_some_iff.mp h
    obtain ⟨texts, htexts, heq⟩ := Option.bind_eq_some_iff.mp h
    cases heq
    obtain ⟨s, hform, rfl⟩ := readString_eq_some_iff.mp hstring
    exact ⟨s, .intro (mapM_decode?_eq_some_iff.mp htexts ▸ hform), rfl⟩
  · rintro ⟨s, hform, rfl⟩
    exact hform.read rest

theorem BytesForm.read {content s : List UInt8} (h : BytesForm content s) (rest : List UInt8) :
    readBytes (s ++ rest) = some (content, rest) := by
  obtain ⟨h⟩ := h
  simp [readBytes, h.read]

theorem readBytes_eq_some_iff {bs rest content : List UInt8} :
    readBytes bs = some (content, rest) ↔ ∃ s, BytesForm content s ∧ bs = s ++ rest := by
  constructor
  · intro h
    obtain ⟨⟨pieces, r⟩, hstring, heq⟩ := Option.bind_eq_some_iff.mp h
    cases heq
    obtain ⟨s, hform, rfl⟩ := readString_eq_some_iff.mp hstring
    exact ⟨s, .intro hform, rfl⟩
  · rintro ⟨s, hform, rfl⟩
    exact hform.read rest

inductive IntForm : Int → List UInt8 → Prop
  | nonneg {n : Nat} {s : List UInt8} (h : HeadForm ⟨unsigned, n⟩ s) : IntForm (.ofNat n) s
  | neg {n : Nat} {s : List UInt8} (h : HeadForm ⟨negative, n⟩ s) : IntForm (.negSucc n) s

/-- The forms of a double: all its bits, or a narrower number that it is the widening of. -/
inductive DoubleForm : Double → List UInt8 → Prop
  | half {ns : List UInt8} (h : ns.length = 2) :
      DoubleForm (.ofHalf (BigEndian.decode ns)) (0xf9 :: ns)
  | single {ns : List UInt8} (h : ns.length = 4) :
      DoubleForm (.ofSingle (BigEndian.decode ns)) (0xfa :: ns)
  | double {ns : List UInt8} (h : ns.length = 8) :
      DoubleForm ⟨UInt64.ofNat (BigEndian.decode ns)⟩ (0xfb :: ns)

inductive BoolForm : Bool → List UInt8 → Prop
  | no : BoolForm false [0xf4]
  | yes : BoolForm true [0xf5]

/-- The items that stand for the lack of a value. -/
inductive BlankForm : List UInt8 → Prop
  | null : BlankForm [0xf6]
  | undefined : BlankForm [0xf7]

theorem IntForm.read {n : Int} {s : List UInt8} (h : IntForm n s) (rest : List UInt8) :
    readInt (s ++ rest) = some (n, rest) := by
  cases h with
  | nonneg h => simp [readInt, h.read]
  | neg h =>
    have hsign : negative ≠ unsigned := by decide
    simp [readInt, h.read, hsign]

theorem readInt_eq_some_iff {n : Int} {bs rest : List UInt8} :
    readInt bs = some (n, rest) ↔ ∃ s, IntForm n s ∧ bs = s ++ rest := by
  constructor
  · intro h
    obtain ⟨⟨⟨major, k⟩, r⟩, hhead, hsign⟩ := Option.bind_eq_some_iff.mp h
    obtain ⟨s, hform, rfl⟩ := readHead_eq_some_iff.mp hhead
    dsimp only at hsign
    split_ifs at hsign with hunsigned hnegative
    · cases hsign
      exact ⟨s, .nonneg (hunsigned ▸ hform), rfl⟩
    · cases hsign
      exact ⟨s, .neg (hnegative ▸ hform), rfl⟩
  · rintro ⟨s, hform, rfl⟩
    exact hform.read rest

theorem DoubleForm.read {x : Double} {s : List UInt8} (h : DoubleForm x s) (rest : List UInt8) :
    readDouble (s ++ rest) = some (x, rest) := by
  cases h with
  | @half ns h => simp [readDouble, ← h, splitBytes_append]
  | @single ns h => simp [readDouble, ← h, splitBytes_append]
  | @double ns h => simp [readDouble, ← h, splitBytes_append]

theorem readDouble_eq_some_iff {x : Double} {bs rest : List UInt8} :
    readDouble bs = some (x, rest) ↔ ∃ s, DoubleForm x s ∧ bs = s ++ rest := by
  constructor
  · intro h
    unfold readDouble at h
    split at h
    · obtain ⟨⟨ns, r⟩, hsplit, heq⟩ := Option.bind_eq_some_iff.mp h
      cases heq
      obtain ⟨hns, rfl⟩ := splitBytes_eq_some_iff.mp hsplit
      exact ⟨_, .half hns, rfl⟩
    · obtain ⟨⟨ns, r⟩, hsplit, heq⟩ := Option.bind_eq_some_iff.mp h
      cases heq
      obtain ⟨hns, rfl⟩ := splitBytes_eq_some_iff.mp hsplit
      exact ⟨_, .single hns, rfl⟩
    · obtain ⟨⟨ns, r⟩, hsplit, heq⟩ := Option.bind_eq_some_iff.mp h
      cases heq
      obtain ⟨hns, rfl⟩ := splitBytes_eq_some_iff.mp hsplit
      exact ⟨_, .double hns, rfl⟩
    · cases h
  · rintro ⟨s, hform, rfl⟩
    exact hform.read rest

theorem BoolForm.read {b : Bool} {s : List UInt8} (h : BoolForm b s) (rest : List UInt8) :
    readBool (s ++ rest) = some (b, rest) := by
  cases h <;> rfl

theorem readBool_eq_some_iff {b : Bool} {bs rest : List UInt8} :
    readBool bs = some (b, rest) ↔ ∃ s, BoolForm b s ∧ bs = s ++ rest := by
  constructor
  · intro h
    unfold readBool at h
    split at h
    · cases h
      exact ⟨_, .no, rfl⟩
    · cases h
      exact ⟨_, .yes, rfl⟩
    · cases h
  · rintro ⟨s, hform, rfl⟩
    exact hform.read rest

/-- The forms of an array or a map with some entries: the number of them in a head, or a stop byte
after them. -/
inductive ContainerForm (major : Nat) (entries : List (List UInt8)) : List UInt8 → Prop
  | definite {head : List UInt8} (hhead : HeadForm ⟨major, entries.length⟩ head) :
      ContainerForm major entries (head ++ entries.flatten)
  | indefinite : ContainerForm major entries
      (Cbor.indefinite major :: (entries.flatten ++ [stopByte]))

theorem ContainerForm.length_le {major : Nat} {entries : List (List UInt8)} {s i : List UInt8}
    (h : ContainerForm major entries s) (hi : i ∈ entries) : i.length ≤ s.length := by
  have hle := (List.sublist_flatten_of_mem hi).length_le
  cases h with
  | definite hhead =>
    rw [List.length_append]
    omega
  | indefinite =>
    rw [List.length_cons, List.length_append]
    omega

theorem readCount_indefinite (major : Nat) (rest : List UInt8) :
    readCount major (Cbor.indefinite major :: rest) = some (none, rest) := by
  simp [readCount]

theorem HeadForm.readCount {major n : Nat} {s : List UInt8} (h : HeadForm ⟨major, n⟩ s)
    (rest : List UInt8) : readCount major (s ++ rest) = some (some n, rest) := by
  have hread := h.read rest
  obtain ⟨b, t, rfl, hindefinite, -⟩ := h.exists_first
  rw [List.cons_append] at hread ⊢
  simp [Cbor.readCount, hindefinite, hread]

theorem readCount_eq_some {major : Nat} {count : Option Nat} {bs rest : List UInt8}
    (h : readCount major bs = some (count, rest)) :
    (count = none ∧ bs = Cbor.indefinite major :: rest) ∨
      ∃ n s, count = some n ∧ HeadForm ⟨major, n⟩ s ∧ bs = s ++ rest := by
  cases bs with
  | nil => cases h
  | cons b bs =>
    rw [readCount] at h
    split_ifs at h with hindefinite
    · cases h
      exact .inl ⟨rfl, by rw [hindefinite]⟩
    · obtain ⟨⟨⟨m, n⟩, r⟩, hhead, h⟩ := Option.bind_eq_some_iff.mp h
      obtain ⟨s, hform, hs⟩ := readHead_eq_some_iff.mp hhead
      dsimp only at h
      split_ifs at h with hmajor
      cases h
      exact .inr ⟨n, s, rfl, hmajor ▸ hform, hs⟩

/-- The forms of the head of a container with some number of entries, or with none told. -/
inductive CountForm (major : Nat) : Option Nat → List UInt8 → Prop
  | definite {n : Nat} {s : List UInt8} (h : HeadForm ⟨major, n⟩ s) : CountForm major (some n) s
  | indefinite : CountForm major none [Cbor.indefinite major]

theorem readCount_eq_some_iff {major : Nat} {bs : List UInt8} {count : Option Nat}
    {rest : List UInt8} :
    readCount major bs = some (count, rest) ↔ ∃ s, CountForm major count s ∧ bs = s ++ rest := by
  constructor
  · intro h
    rcases readCount_eq_some h with ⟨rfl, rfl⟩ | ⟨n, s, rfl, hform, rfl⟩
    · exact ⟨_, .indefinite, rfl⟩
    · exact ⟨s, .definite hform, rfl⟩
  · rintro ⟨s, hform, rfl⟩
    cases hform with
    | definite hhead => exact hhead.readCount rest
    | indefinite => exact readCount_indefinite major rest

theorem kind?_append {s : List UInt8} {k : Kind} (h : kind? s = some k) (more : List UInt8) :
    kind? (s ++ more) = some k := by
  cases s with
  | nil => cases h
  | cons b s =>
    rw [kind?] at h
    split_ifs at h with hend
    rw [List.cons_append, kind?, if_neg fun hlast => hend ⟨hlast.1, hlast.2.1, ?_⟩, h]
    exact List.isEmpty_iff.mpr (List.append_eq_nil_iff.mp (List.isEmpty_iff.mp hlast.2.2)).1

/-- Only of an integer the first byte may not be enough to tell the kind. -/
theorem kind?_of_append {s more : List UInt8} {k : Kind} (hne : s ≠ [])
    (h : kind? (s ++ more) = some k) (hk : k ≠ .integer) : kind? s = some k := by
  obtain ⟨b, t, rfl⟩ := List.exists_cons_of_ne_nil hne
  rw [List.cons_append, kind?] at h
  split_ifs at h with hend
  obtain rfl := Option.some.inj h
  have hinteger : ¬(0x38 ≤ b.toNat ∧ b.toNat ≤ 0x3b) := by
    rintro ⟨hlow, hhigh⟩
    have hno : ¬b.toNat ≤ 0x1b := by omega
    have hyes : 0x20 ≤ b.toNat ∧ b.toNat ≤ 0x3b := by omega
    exact hk (by simp only [Kind.ofByte, if_neg hno, if_pos hyes])
  rw [kind?, if_neg fun hlast => hinteger ⟨hlast.1, hlast.2.1⟩]

section

variable (rest : List UInt8)

theorem kind?_cons {b : UInt8} (hb : 0x3b < b.toNat) :
    kind? (b :: rest) = some (Kind.ofByte b) := by
  have hwhole : ¬(0x38 ≤ b.toNat ∧ b.toNat ≤ 0x3b ∧ rest.isEmpty) := by omega
  rw [Cbor.kind?, if_neg hwhole]

theorem kind?_eq_stop {bs : List UInt8} (h : kind? bs = some .stop) :
    bs = stopByte :: bs.drop 1 := by
  cases bs with
  | nil => cases h
  | cons b bs =>
    rw [Cbor.kind?] at h
    split_ifs at h with hend
    have hbytes : ∀ n < 256, Kind.ofByte (UInt8.ofNat n) = .stop → n = 255 := by
      decide +kernel
    have hstop : b.toNat = 255 :=
      hbytes b.toNat b.toNat_lt (by rw [UInt8.ofNat_toNat]; exact Option.some.inj h)
    rw [show b = stopByte from UInt8.toNat_inj.mp hstop]
    rfl

theorem kind?_indefinite {major : Nat} (hmajor : major < 8) {kind : Kind}
    (hkind : Kind.ofByte (indefinite major) = kind) :
    kind? (indefinite major :: rest) = some kind := by
  have hwhole : ¬(0x38 ≤ (indefinite major).toNat ∧ (indefinite major).toNat ≤ 0x3b ∧
      rest.isEmpty) := by
    rw [indefinite, toNat_first hmajor (by decide)]
    omega
  rw [Cbor.kind?, if_neg hwhole, hkind]

theorem StringForm.kind? {major : Nat} {pieces : List (List UInt8)} {s : List UInt8}
    (h : StringForm major pieces s) (hmajor : major < 8) {kind : Kind}
    (hkind : ∀ info < 28, Kind.ofByte (UInt8.ofNat (32 * major + info)) = kind)
    (hindefinite : Kind.ofByte (Cbor.indefinite major) = kind) :
    kind? (s ++ rest) = some kind := by
  cases h with
  | definite h =>
    obtain ⟨hhead⟩ := h
    rw [List.append_assoc]
    exact hhead.kind? hkind _
  | indefinite chunks h => exact kind?_indefinite _ hmajor hindefinite

theorem ContainerForm.kind? {major : Nat} {entries : List (List UInt8)} {s : List UInt8}
    (h : ContainerForm major entries s) (hmajor : major < 8) {kind : Kind}
    (hkind : ∀ info < 28, Kind.ofByte (UInt8.ofNat (32 * major + info)) = kind)
    (hindefinite : Kind.ofByte (Cbor.indefinite major) = kind) :
    kind? (s ++ rest) = some kind := by
  cases h with
  | definite hhead =>
    rw [List.append_assoc]
    exact hhead.kind? hkind _
  | indefinite => exact kind?_indefinite _ hmajor hindefinite

theorem ContainerForm.kind?_array {entries : List (List UInt8)} {s : List UInt8}
    (h : ContainerForm arrayItem entries s) : Cbor.kind? (s ++ rest) = some .array :=
  h.kind? rest (by decide) (by decide) rfl

theorem ContainerForm.kind?_map {entries : List (List UInt8)} {s : List UInt8}
    (h : ContainerForm mapItem entries s) : Cbor.kind? (s ++ rest) = some .map :=
  h.kind? rest (by decide) (by decide) rfl

theorem TextForm.kind? {t : String} {s : List UInt8} (h : TextForm t s) :
    kind? (s ++ rest) = some .text := by
  obtain ⟨h⟩ := h
  exact h.kind? rest (by decide) (by decide) rfl

theorem BytesForm.kind? {content s : List UInt8} (h : BytesForm content s) :
    kind? (s ++ rest) = some .bytes := by
  obtain ⟨h⟩ := h
  exact h.kind? rest (by decide) (by decide) rfl

theorem IntForm.kind? {n : Int} {s : List UInt8} (h : IntForm n s) :
    kind? (s ++ rest) = some .integer := by
  cases h with
  | nonneg h => exact h.kind? (by decide) rest
  | neg h => exact h.kind? (by decide) rest

theorem DoubleForm.kind? {x : Double} {s : List UInt8} (h : DoubleForm x s) :
    kind? (s ++ rest) = some .float := by
  cases h <;> rfl

theorem BoolForm.kind? {b : Bool} {s : List UInt8} (h : BoolForm b s) :
    kind? (s ++ rest) = some .bool := by
  cases h <;> rfl

end

end DeviceClient.Cbor
