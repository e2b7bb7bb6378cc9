import DeviceClient.Proofs.Payload.Acceptance

namespace DeviceClient

namespace Decoding

variable {α β : Type}

/-- The reader takes the bytes off the front of the input, and none less will do. -/
structure Delimits (read : Reader α) (a : α) (s : List UInt8) : Prop where
  whole : ∀ more, read (s ++ more) = .ok (a, more)
  cut : ∀ t u, s = t ++ u → u ≠ [] → read t = .error .malformed

/-- Whatever the reader reads ends with its last byte. -/
def SelfDelimiting (read : Reader α) : Prop :=
  ∀ bs a rest, read bs = .ok (a, rest) → ∃ s, bs = s ++ rest ∧ Delimits read a s

/-- A part of two pieces ends in the second of them, or is less than the first. -/
theorem cut_append {s t x u : List UInt8} (h : s ++ t = x ++ u) :
    (∃ y, x = s ++ y ∧ t = y ++ u) ∨ ∃ y, y ≠ [] ∧ s = x ++ y := by
  rcases List.append_eq_append_iff.mp h with ⟨y, hx, ht⟩ | ⟨y, hs, hu⟩
  · exact .inl ⟨y, hx, ht⟩
  · by_cases hy : y = []
    · subst hy
      rw [List.append_nil] at hs
      exact .inl ⟨[], by rw [hs, List.append_nil], by rw [hu]; rfl⟩
    · exact .inr ⟨y, hy, hs⟩

theorem Delimits.bind {read : Reader α} {next : α → Reader β} {a : α} {b : β} {s t : List UInt8}
    (h : Delimits read a s) (hnext : Delimits (next a) b t) :
    Delimits (fun bs => do
      let (a, bs) ← read bs
      next a bs) b (s ++ t) where
  whole more := by
    rw [List.append_assoc, h.whole]
    exact hnext.whole more
  cut x u heq hne := by
    rcases cut_append heq with ⟨y, rfl, rfl⟩ | ⟨y, hy, rfl⟩
    · rw [h.whole]
      exact hnext.cut y u rfl hne
    · rw [h.cut x y rfl hy]
      rfl

/-- What is read takes at least one byte, when nothing is read from no input. -/
theorem SelfDelimiting.exists_append {read : Reader α} (h : SelfDelimiting read)
    (hnil : ∀ r, read [] ≠ .ok r) {bs rest : List UInt8} {a : α} (hread : read bs = .ok (a, rest)) :
    ∃ s, bs = s ++ rest ∧ 0 < s.length := by
  obtain ⟨s, rfl, hs⟩ := h _ _ _ hread
  refine ⟨s, rfl, List.length_pos_iff.mpr ?_⟩
  rintro rfl
  exact hnil _ (hs.whole [])

theorem selfDelimiting_pure (a : α) : SelfDelimiting fun bs => pure (a, bs) := by
  rintro bs _ _ ⟨⟩
  exact ⟨[], rfl, fun _ => rfl, fun _ _ hnil hne =>
    absurd (List.append_eq_nil_iff.mp hnil.symm).2 hne⟩

theorem selfDelimiting_error (e : DecodeError) :
    SelfDelimiting (fun _ => .error e : Reader α) :=
  nofun

theorem SelfDelimiting.bind {read : Reader α} (h : SelfDelimiting read) (next : α → Reader β)
    (hnext : ∀ a, SelfDelimiting (next a)) :
    SelfDelimiting (fun bs => do
      let (a, bs) ← read bs
      next a bs) := by
  intro bs b rest hread
  obtain ⟨⟨a, r⟩, ha, hb⟩ := bind_eq_ok_iff.mp hread
  obtain ⟨s, rfl, hs⟩ := h _ _ _ ha
  obtain ⟨t, rfl, ht⟩ := hnext a _ _ _ hb
  exact ⟨s ++ t, (List.append_assoc _ _ _).symm, hs.bind ht⟩

/-- The reader with another result for what it reads. -/
def ReaderIn.map {m : Type → Type} [Monad m] (read : ReaderIn m α) (f : α → β) : ReaderIn m β :=
  fun bs => do
    let (a, bs) ← read bs
    return (f a, bs)

theorem SelfDelimiting.map {read : Reader α} (h : SelfDelimiting read) (f : α → β) :
    SelfDelimiting (read.map f) :=
  h.bind (fun a bs => pure (f a, bs)) fun a => selfDelimiting_pure (f a)

/-- What takes one of the forms of what it reads off the front is self-delimiting: from a part it could
read nothing that it would not read from the whole too. -/
theorem selfDelimiting_require {read : List UInt8 → Option (α × List UInt8)}
    {form : α → List UInt8 → Prop}
    (h : ∀ {bs a rest}, read bs = some (a, rest) ↔ ∃ s, form a s ∧ bs = s ++ rest) :
    SelfDelimiting fun bs => require (read bs) := by
  intro bs a rest hread
  obtain ⟨s, hs, rfl⟩ := h.mp (require_eq_ok_iff.mp hread)
  have hwhole (more : List UInt8) : read (s ++ more) = some (a, more) := h.mpr ⟨s, hs, rfl⟩
  refine ⟨s, rfl, fun more => require_eq_ok_iff.mpr (hwhole more), fun t u heq hne => ?_⟩
  cases hcut : read t with
  | none => rfl
  | some r =>
    obtain ⟨a', rest'⟩ := r
    obtain ⟨s', hs', rfl⟩ := h.mp hcut
    have hmore : read (s' ++ (rest' ++ u)) = some (a', rest' ++ u) := h.mpr ⟨s', hs', rfl⟩
    rw [← List.append_assoc, ← heq, ← List.append_nil s, hwhole []] at hmore
    have hnil : rest' ++ u = [] := (congrArg Prod.snd (Option.some.inj hmore)).symm
    exact absurd (List.append_eq_nil_iff.mp hnil).2 hne

/-- A reader that looks at the kind of the item first. -/
theorem SelfDelimiting.peek {next : Cbor.Kind → Reader α} (hnext : ∀ k, SelfDelimiting (next k))
    (hnil : ∀ k r, next k [] ≠ .ok r)
    (hinteger : ∀ bs r, next .integer bs = .ok r → ∃ k, Cbor.kind? bs = some k) :
    SelfDelimiting (fun bs => do next (← kind bs) bs) := by
  intro bs a rest hread
  obtain ⟨k, hk, hread⟩ := bind_eq_ok_iff.mp hread
  rw [kind, require_eq_ok_iff] at hk
  obtain ⟨s, rfl, hs⟩ := hnext k _ _ _ hread
  have hwhole := hs.whole []
  rw [List.append_nil] at hwhole
  have hkind : Cbor.kind? s = some k := by
    by_cases hint : k = .integer
    · subst hint
      obtain ⟨k', hk'⟩ := hinteger _ _ hwhole
      rw [hk', ← Cbor.kind?_append hk' rest, hk]
    · refine Cbor.kind?_of_append ?_ hk hint
      rintro rfl
      exact hnil k _ hwhole
  refine ⟨s, rfl, fun more => ?_, fun t u heq hne => ?_⟩
  · simp only [kind, Cbor.kind?_append hkind, require_some, ok_bind]
    exact hs.whole more
  · cases ht : Cbor.kind? t with
    | none =>
      rw [kind, ht]
      rfl
    | some k' =>
      have heq' := Cbor.kind?_append ht u
      rw [← heq, hkind] at heq'
      obtain rfl := Option.some.inj heq'
      simp only [kind, ht, require_some, ok_bind]
      exact hs.cut t u heq hne

theorem exists_kind? {next : Cbor.Kind → Except DecodeError α} {bs : List UInt8} {a : α}
    (h : kind bs >>= next = .ok a) : ∃ k, Cbor.kind? bs = some k := by
  obtain ⟨k, hk, -⟩ := bind_eq_ok_iff.mp h
  exact ⟨k, require_eq_ok_iff.mp hk⟩

theorem selfDelimiting_readExactly {entry : Reader α} (hentry : SelfDelimiting entry) (n : Nat) :
    SelfDelimiting (readExactly entry n) := by
  induction n with
  | zero => exact selfDelimiting_pure []
  | succ n ih =>
    have hnext : readExactly entry (n + 1) = (fun bs => do
        let (a, bs) ← entry bs
        (readExactly entry n).map (a :: ·) bs) :=
      funext fun bs => readNext_eq entry (readExactly entry n) bs
    rw [hnext]
    exact hentry.bind (fun a => (readExactly entry n).map (a :: ·)) fun a => ih.map _

/-- Reading up to a stop byte takes the bytes off the front when there are as many rounds as bytes, and
none less will do, however many rounds there are. -/
structure DelimitsUntilStop (entry : Reader α) (as : List α) (s : List UInt8) : Prop where
  whole : ∀ rounds more, s.length ≤ rounds →
    readUntilStop entry rounds (s ++ more) = .ok (as, more)
  cut : ∀ rounds t u, s = t ++ u → u ≠ [] → readUntilStop entry rounds t = .error .malformed

theorem delimitsUntilStop_nil (entry : Reader α) :
    DelimitsUntilStop entry [] [Cbor.stopByte] where
  whole rounds more hle := by
    obtain ⟨n, rfl⟩ := Nat.exists_eq_add_one.mpr (Nat.lt_of_succ_le hle)
    rfl
  cut rounds t u heq hne := by
    rcases List.singleton_eq_append_iff.mp heq with ⟨rfl, -⟩ | ⟨-, rfl⟩
    · cases rounds <;> rfl
    · exact absurd rfl hne

theorem DelimitsUntilStop.cons {entry : Reader α} {a : α} {as : List α} {s s' : List UInt8}
    {k : Cbor.Kind} (hs : Delimits entry a s) (hk : Cbor.kind? s = some k) (hstop : k ≠ .stop)
    (h : DelimitsUntilStop entry as s') : DelimitsUntilStop entry (a :: as) (s ++ s') where
  whole rounds more hle := by
    have hpos : 0 < s.length := by
      refine List.length_pos_iff.mpr ?_
      rintro rfl
      cases hk
    rw [List.length_append] at hle
    obtain ⟨n, rfl⟩ := Nat.exists_eq_add_one.mpr (show 0 < rounds by omega)
    rw [List.append_assoc, readUntilStop_succ (Cbor.kind?_append hk _) hstop, hs.whole]
    simp only [ok_bind, h.whole n more (by omega)]
    rfl
  cut rounds t u heq hne := by
    cases rounds with
    | zero => rfl
    | succ n =>
      rcases cut_append heq with ⟨y, rfl, rfl⟩ | ⟨y, hy, rfl⟩
      · rw [readUntilStop_succ (Cbor.kind?_append hk _) hstop, hs.whole]
        simp only [ok_bind, h.cut n y u rfl hne]
        rfl
      · cases ht : Cbor.kind? t with
        | none =>
          rw [readUntilStop, kind, ht]
          rfl
        | some k' =>
          -- The kind of a part is that of the whole, so the part is no stop byte either.
          obtain rfl : k' = k := Option.some.inj ((Cbor.kind?_append ht y).symm.trans hk)
          rw [readUntilStop_succ ht hstop, hs.cut t y rfl hy]
          rfl

section

variable {entry : Reader α} (hentry : SelfDelimiting entry)
  (hkind : ∀ bs r, entry bs = .ok r → ∃ k, Cbor.kind? bs = some k)

include hentry hkind

theorem exists_delimitsUntilStop {rounds : Nat} {bs rest : List UInt8} {as : List α}
    (h : readUntilStop entry rounds bs = .ok (as, rest)) :
    ∃ s, bs = s ++ rest ∧ DelimitsUntilStop entry as s := by
  induction rounds generalizing bs as with
  | zero => cases h
  | succ rounds ih =>
    cases hk : Cbor.kind? bs with
    | none =>
      rw [readUntilStop, kind, hk] at h
      cases h
    | some k =>
      by_cases hstop : k = .stop
      · subst hstop
        rw [readUntilStop, kind, hk] at h
        cases h
        exact ⟨[Cbor.stopByte], Cbor.kind?_eq_stop hk, delimitsUntilStop_nil entry⟩
      · rw [readUntilStop_succ hk hstop] at h
        obtain ⟨⟨a, r⟩, ha, h⟩ := bind_eq_ok_iff.mp h
        obtain ⟨⟨as', r'⟩, has, heq⟩ := bind_eq_ok_iff.mp h
        cases heq
        obtain ⟨s, rfl, hs⟩ := hentry _ _ _ ha
        obtain ⟨s', rfl, hs'⟩ := ih has
        have hwhole := hs.whole []
        rw [List.append_nil] at hwhole
        obtain ⟨k', hk'⟩ := hkind _ _ hwhole
        obtain rfl : k' = k :=
          Option.some.inj ((Cbor.kind?_append hk' (s' ++ rest)).symm.trans hk)
        exact ⟨s ++ s', (List.append_assoc _ _ _).symm, DelimitsUntilStop.cons hs hk' hstop hs'⟩

theorem selfDelimiting_readEntries (major : Nat) : SelfDelimiting (readEntries major entry) := by
  have hcount : SelfDelimiting fun bs => require (Cbor.readCount major bs) :=
    selfDelimiting_require Cbor.readCount_eq_some_iff
  rw [readEntries, enclose_eq]
  refine hcount.bind (readCounted entry) fun count => ?_
  cases count with
  | some n => exact selfDelimiting_readExactly hentry n
  | none =>
    intro bs as rest h
    obtain ⟨s, hs, hdelimits⟩ := exists_delimitsUntilStop hentry hkind h
    refine ⟨s, hs, fun more => hdelimits.whole _ more ?_, fun t u => hdelimits.cut _ t u⟩
    exact Nat.le_succ_of_le (List.sublist_append_left s more).length_le

end

/-- Readers of containers that are self-delimiting and take at least one byte. -/
structure Containers.Delimiting (c : Containers) : Prop where
  object : SelfDelimiting c.object
  array : SelfDelimiting c.array
  object_nil : ∀ r, c.object [] ≠ .ok r
  array_nil : ∀ r, c.array [] ≠ .ok r

theorem selfDelimiting_readInt : SelfDelimiting readInt := by
  have hread : SelfDelimiting fun bs => require (Cbor.readInt bs) :=
    selfDelimiting_require Cbor.readInt_eq_some_iff
  refine hread.bind (fun n bs => if -2 ^ 63 ≤ n ∧ n < 2 ^ 63 then
    return (Value.int (Int64.ofInt n), bs) else .error .valueOutOfRange) fun n => ?_
  by_cases hrange : -2 ^ 63 ≤ n ∧ n < 2 ^ 63
  · simp only [if_pos hrange]
    exact selfDelimiting_pure _
  · simp only [if_neg hrange]
    exact selfDelimiting_error _

/-- What the skipping walks through does not depend on what follows it. -/
theorem selfDelimiting_skip : SelfDelimiting fun bs =>
    require ((Cbor.Skip.skip bs).map fun rest => ((none : Option Value), rest)) := by
  have hform {bs : List UInt8} {v : Option Value} {rest : List UInt8} :
      (Cbor.Skip.skip bs).map (fun rest => ((none : Option Value), rest)) = some (v, rest) ↔
        ∃ s, (v = none ∧ ∃ p, Cbor.Skip.Goes .one s p ∧ p.isDone = true) ∧ bs = s ++ rest := by
    rw [Option.map_eq_some_iff]
    constructor
    · rintro ⟨_, hrest, ⟨⟩⟩
      obtain ⟨s, p, hgoes, hdone, rfl⟩ := Cbor.Skip.skip_eq_some_iff.mp hrest
      exact ⟨s, ⟨rfl, p, hgoes, hdone⟩, rfl⟩
    · rintro ⟨s, ⟨rfl, p, hgoes, hdone⟩, rfl⟩
      exact ⟨rest, Cbor.Skip.skip_eq_some_iff.mpr ⟨s, p, hgoes, hdone, rfl⟩, rfl⟩
  exact selfDelimiting_require hform

theorem readInt_kind? {bs : List UInt8} {r : Value × List UInt8}
    (h : (readInt bs : Except DecodeError _) = .ok r) :
    Cbor.kind? bs = some .integer := by
  obtain ⟨⟨n, rest⟩, hn, -⟩ := bind_eq_ok_iff.mp h
  obtain ⟨s, hs, rfl⟩ := Cbor.readInt_eq_some_iff.mp (require_eq_ok_iff.mp hn)
  exact hs.kind? rest

theorem selfDelimiting_readValue {inner : Containers} (hinner : inner.Delimiting) :
    SelfDelimiting (readValue inner) := by
  refine SelfDelimiting.peek (fun k => ?_) (fun k r => ?_) fun bs r h => ?_
  · cases k with
    | bool =>
      exact (selfDelimiting_require Cbor.readBool_eq_some_iff).map fun b => some (Value.bool b)
    | integer => exact selfDelimiting_readInt.map some
    | float =>
      exact (selfDelimiting_require Cbor.readDouble_eq_some_iff).map fun x => some (Value.double x)
    | text =>
      exact (selfDelimiting_require Cbor.readText_eq_some_iff).map fun s => some (Value.text s)
    | bytes =>
      exact (selfDelimiting_require Cbor.readBytes_eq_some_iff).map fun s => some (Value.bytes s)
    | map => exact hinner.object.map fun properties => some (Value.object properties)
    | array => exact hinner.array.map some
    | null | undefined | tag | simple => exact selfDelimiting_skip
    | stop | unknown => exact selfDelimiting_error _
  · cases k with
    | map =>
      intro h
      obtain ⟨r', hr', -⟩ := bind_eq_ok_iff.mp h
      exact hinner.object_nil r' hr'
    | array =>
      intro h
      obtain ⟨r', hr', -⟩ := bind_eq_ok_iff.mp h
      exact hinner.array_nil r' hr'
    | _ => nofun
  · obtain ⟨r', hv, -⟩ := bind_eq_ok_iff.mp h
    exact ⟨.integer, readInt_kind? hv⟩

theorem selfDelimiting_readProperty {inner : Containers} (hinner : inner.Delimiting) :
    SelfDelimiting (readProperty inner) := by
  refine SelfDelimiting.peek (fun k => ?_) (fun k r => ?_) nofun
  · cases k with
    | text =>
      have hname : SelfDelimiting fun bs => require (Cbor.readText bs) :=
        selfDelimiting_require Cbor.readText_eq_some_iff
      refine hname.bind (fun name bs => if name.isEmpty then .error .emptyName else
        (readValue inner).map (·.map (name, ·)) bs) fun name => ?_
      by_cases hempty : name.isEmpty = true
      · simp only [if_pos hempty]
        exact selfDelimiting_error _
      · simp only [if_neg hempty]
        exact (selfDelimiting_readValue hinner).map (·.map (name, ·))
    | _ => exact selfDelimiting_error _
  · cases k <;> nofun

theorem selfDelimiting_readObject {inner : Containers} (hinner : inner.Delimiting) :
    SelfDelimiting (readObject inner) :=
  (selfDelimiting_readEntries (selfDelimiting_readProperty hinner) (fun _ _ h => exists_kind? h)
    Cbor.mapItem).map (List.filterMap id)

theorem selfDelimiting_readArray {inner : Containers} (hinner : inner.Delimiting) :
    SelfDelimiting (readArray inner) := by
  have hentries : SelfDelimiting (readEntries Cbor.arrayItem (readValue inner)) :=
    selfDelimiting_readEntries (selfDelimiting_readValue hinner) (fun _ _ h => exists_kind? h)
      Cbor.arrayItem
  refine hentries.bind (fun entries bs => do
    let v ← require (arrayOf? (entries.filterMap id))
    return (v, bs)) fun entries => ?_
  cases arrayOf? (entries.filterMap id) with
  | some v => exact selfDelimiting_pure v
  | none => exact selfDelimiting_error .malformed

theorem containers_delimiting (levels : Nat) : (containers levels).Delimiting := by
  induction levels with
  | zero => exact ⟨selfDelimiting_error _, selfDelimiting_error _, nofun, nofun⟩
  | succ levels ih =>
    exact ⟨selfDelimiting_readObject ih, selfDelimiting_readArray ih, nofun, nofun⟩

theorem selfDelimiting_readRoot (levels : Nat) :
    SelfDelimiting (readRoot (containers levels)) := by
  refine SelfDelimiting.peek (fun k => ?_) (fun k r => ?_) nofun
  · cases k with
    | map => exact (containers_delimiting levels).object
    | _ => exact selfDelimiting_error _
  · cases k with
    | map => exact (containers_delimiting levels).object_nil r
    | _ => nofun

theorem selfDelimiting_readPayload : SelfDelimiting readPayload := by
  refine SelfDelimiting.peek (fun k => ?_) (fun k r => ?_) nofun
  · cases k with
    | map => exact (containers_delimiting maxDepth).object.map Payload.object
    | array =>
      exact (selfDelimiting_readEntries (selfDelimiting_readRoot _) (fun _ _ h => exists_kind? h)
        Cbor.arrayItem).map Payload.objects
    | _ => exact selfDelimiting_error _
  · cases k <;> nofun

end Decoding

namespace Payload

open Decoding

/-- Accepted payloads cut off anywhere, and accepted payloads that something follows, are malformed. -/
theorem decode_prefix_free {bs : List UInt8} {p : Payload} (hne : bs ≠ [])
    (h : decode bs = .ok p) :
    (∀ t, t <+: bs → t ≠ [] → t ≠ bs → decode t = .error .malformed) ∧
      ∀ more, more ≠ [] → decode (bs ++ more) = .error .malformed := by
  obtain ⟨s, hs, hdelimits⟩ := selfDelimiting_readPayload _ _ _ (readPayload_of_decode hne h)
  rw [List.append_nil] at hs
  subst hs
  refine ⟨fun t ht htne hproper => ?_, fun more hmore => ?_⟩
  · obtain ⟨u, rfl⟩ := ht
    have hu : u ≠ [] := by
      rintro rfl
      exact hproper (List.append_nil t).symm
    rw [decode_of_ne_nil htne, hdelimits.cut t u rfl hu]
    rfl
  · rw [decode_of_ne_nil (List.append_ne_nil_of_left_ne_nil hne more), hdelimits.whole more]
    cases more with
    | nil => exact absurd rfl hmore
    | cons b more => rfl

/-- An indefinite map with one property: neither the property without the stop byte nor the map with
another stop byte is a payload. -/
theorem decode_prefix_free_switch :
    decode [0xbf, 0x62, 0x6f, 0x6e, 0xf5, 0xff] = .ok (.object [("on", .bool true)]) ∧
      decode [0xbf, 0x62, 0x6f, 0x6e, 0xf5] = .error .malformed ∧
      decode [0xbf, 0x62, 0x6f, 0x6e, 0xf5, 0xff, 0xff] = .error .malformed := by
  have hswitch : decode [0xbf, 0x62, 0x6f, 0x6e, 0xf5, 0xff] = .ok (.object [("on", .bool true)]) := by
    rfl
  obtain ⟨hcut, hmore⟩ := decode_prefix_free (by decide) hswitch
  exact ⟨hswitch, hcut _ (by decide) (by decide) (by decide), hmore [0xff] (by decide)⟩

end Payload

end DeviceClient
