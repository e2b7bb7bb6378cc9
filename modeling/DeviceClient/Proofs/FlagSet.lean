import DeviceClient.FlagSet

namespace DeviceClient

variable {ι : Type} [FlagFamily ι]

namespace FlagFamily

theorem getLsbD_bit (f : ι) (k : Nat) : (bit f).getLsbD k = decide (position f = k) := by
  simp [bit, BitVec.getLsbD_twoPow, position_lt]

theorem getLsbD_foldl_or {n : Nat} (bits : List (BitVec n)) (start : BitVec n) (k : Nat) :
    (bits.foldl (· ||| ·) start).getLsbD k = (start.getLsbD k || bits.any (·.getLsbD k)) := by
  induction bits generalizing start with
  | nil => simp
  | cons b bits ih => rw [List.foldl_cons, ih, BitVec.getLsbD_or, List.any_cons, Bool.or_assoc]

/-- The known bits are those of the flags of the family. -/
theorem getLsbD_known_iff (k : Nat) :
    (known ι).getLsbD k = true ↔ ∃ f : ι, position f = k := by
  rw [known, getLsbD_foldl_or]
  simp [getLsbD_bit, mem_all]

end FlagFamily

namespace FlagSet

open FlagFamily (position getLsbD_bit getLsbD_known_iff)

variable {s t : FlagSet ι} {f : ι}

theorem contains_iff : s.contains f = true ↔ s.bits.getLsbD (position f) = true := by
  have hbit : (FlagFamily.bit f).getLsbD (position f) = true := by simp [getLsbD_bit]
  have hne : FlagFamily.bit f ≠ 0 := by
    intro hzero
    simp [hzero] at hbit
  rw [contains, includes, singleton, beq_iff_eq]
  dsimp only [FlagFamily.bit] at hne ⊢
  rw [BitVec.and_twoPow]
  cases s.bits.getLsbD (position f) with
  | false => simpa using hne.symm
  | true => simp

theorem mem_toList : f ∈ s.toList ↔ s.bits.getLsbD (position f) = true := by
  rw [toList, List.mem_filter, contains_iff]
  exact and_iff_right (FlagFamily.mem_all f)

theorem getLsbD_union (k : Nat) :
    (s.union t).bits.getLsbD k = (s.bits.getLsbD k || t.bits.getLsbD k) :=
  BitVec.getLsbD_or

theorem getLsbD_ofList_iff {fs : List ι} {k : Nat} :
    (ofList fs).bits.getLsbD k = true ↔ ∃ f ∈ fs, position f = k := by
  have hfold (s : FlagSet ι) : (fs.foldl (fun s f => s.union (singleton f)) s).bits.getLsbD k = true ↔
      s.bits.getLsbD k = true ∨ ∃ f ∈ fs, position f = k := by
    induction fs generalizing s with
    | nil => simp
    | cons f fs ih =>
      rw [List.foldl_cons, ih, getLsbD_union, singleton, getLsbD_bit]
      simp [or_assoc]
  rw [ofList, hfold]
  simp [empty]

theorem getLsbD_truncate_iff {bits : BitVec (FlagFamily.width ι)} {k : Nat} :
    (truncate bits : FlagSet ι).bits.getLsbD k = true ↔
      bits.getLsbD k = true ∧ ∃ f : ι, position f = k := by
  rw [truncate, BitVec.getLsbD_and, Bool.and_eq_true, getLsbD_known_iff]

theorem ext_getLsbD (h : ∀ k, s.bits.getLsbD k = true ↔ t.bits.getLsbD k = true) : s = t :=
  FlagSet.ext <| BitVec.eq_of_getLsbD_eq fun k _ => Bool.eq_iff_iff.mpr (h k)

theorem named_iff : s.Named ↔ ∀ k, s.bits.getLsbD k = true → ∃ f : ι, position f = k := by
  constructor
  · intro h k hk
    rw [← h] at hk
    exact (getLsbD_truncate_iff.mp hk).2
  · intro h
    exact ext_getLsbD fun k => getLsbD_truncate_iff.trans (and_iff_left_of_imp (h k))

theorem named_singleton (f : ι) : (singleton f).Named := by
  refine named_iff.mpr fun k hk => ⟨f, ?_⟩
  rwa [singleton, getLsbD_bit, decide_eq_true_eq] at hk

theorem Named.union (hs : s.Named) (ht : t.Named) : (s.union t).Named := by
  refine named_iff.mpr fun k hk => ?_
  rw [getLsbD_union, Bool.or_eq_true] at hk
  rcases hk with hk | hk
  · exact named_iff.mp hs k hk
  · exact named_iff.mp ht k hk

theorem named_ofList (fs : List ι) : (ofList fs).Named := by
  refine named_iff.mpr fun k hk => ?_
  obtain ⟨f, -, hf⟩ := getLsbD_ofList_iff.mp hk
  exact ⟨f, hf⟩

/-- What is put together again from the flags of a set is the set without the bits of no flag. -/
theorem ofList_toList (s : FlagSet ι) : ofList s.toList = truncate s.bits := by
  refine ext_getLsbD fun k => ?_
  rw [getLsbD_ofList_iff, getLsbD_truncate_iff]
  constructor
  · rintro ⟨f, hf, rfl⟩
    exact ⟨mem_toList.mp hf, f, rfl⟩
  · rintro ⟨hk, f, rfl⟩
    exact ⟨f, mem_toList.mpr hk, rfl⟩

end FlagSet

end DeviceClient
