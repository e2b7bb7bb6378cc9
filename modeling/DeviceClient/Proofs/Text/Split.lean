import DeviceClient.Text.Split

namespace DeviceClient.Split

@[simp] theorem expect_cons (c : Char) (cs : List Char) : expect c (c :: cs) = some cs := by
  simp [expect]

theorem expect_eq_none {c : Char} {cs : List Char} (h : c ∉ cs) : expect c cs = none := by
  cases cs with
  | nil => rfl
  | cons d cs =>
    have hne : d ≠ c := fun heq => h (heq ▸ List.mem_cons_self)
    rw [expect, if_neg hne]

theorem atFirst_append {s : Char} {separator before after : List Char} (h : s ∉ before) :
    atFirst (s :: separator) (before ++ (s :: separator ++ after)) = some (before, after) := by
  induction before with
  | nil =>
    have hprefix : (s :: separator).isPrefixOf (s :: (separator ++ after)) = true := by
      simp [List.isPrefixOf_iff_prefix]
    rw [List.nil_append, List.cons_append, atFirst, if_pos hprefix]
    simp
  | cons c before ih =>
    have hne : s ≠ c := fun heq => h (heq ▸ List.mem_cons_self)
    have htail := ih fun hmem => h (List.mem_cons_of_mem c hmem)
    have hprefix : ¬(s :: separator).isPrefixOf (c :: (before ++ (s :: separator ++ after))) = true := by
      simp [List.isPrefixOf, hne]
    rw [List.cons_append, atFirst, if_neg hprefix, htail]
    rfl

/-- Nothing follows, or what follows starts with this character. -/
def StartsWith (c : Char) (rest : List Char) : Prop := rest = [] ∨ ∃ t, rest = c :: t

theorem takeWhile_append {c : Char} {cs rest : List Char} (hcs : c ∉ cs)
    (hrest : StartsWith c rest) : (cs ++ rest).takeWhile (· ≠ c) = cs := by
  have hall : ∀ d ∈ cs, decide (d ≠ c) = true := fun d hd =>
    decide_eq_true fun heq => hcs (heq ▸ hd)
  rw [List.takeWhile_append_of_pos hall]
  rcases hrest with rfl | ⟨t, rfl⟩ <;> simp

theorem dropWhile_append {c : Char} {cs rest : List Char} (hcs : c ∉ cs)
    (hrest : StartsWith c rest) : (cs ++ rest).dropWhile (· ≠ c) = rest := by
  have hall : ∀ d ∈ cs, decide (d ≠ c) = true := fun d hd =>
    decide_eq_true fun heq => hcs (heq ▸ hd)
  rw [List.dropWhile_append_of_pos hall]
  rcases hrest with rfl | ⟨t, rfl⟩ <;> simp

end DeviceClient.Split
