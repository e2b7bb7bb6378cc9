namespace DeviceClient.Ordered

variable {α κ : Type} [LT κ]

theorem nodup [Std.Irrefl (@LT.lt κ _)] {key : α → κ} {l : List α}
    (h : l.Pairwise fun x y => key x < key y) : l.Nodup := by
  refine h.imp ?_
  rintro x _ hlt rfl
  exact Std.Irrefl.irrefl (key x) hlt

variable [DecidableEq κ]

/-- In an increasing list each element is what is found under its key. -/
theorem mem_iff_find? [Std.Irrefl (@LT.lt κ _)] {key : α → κ} {l : List α}
    (h : l.Pairwise fun x y => key x < key y) {x : α} :
    x ∈ l ↔ l.find? (key · == key x) = some x := by
  refine ⟨fun hx => ?_, List.mem_of_find?_eq_some⟩
  induction l with
  | nil => cases hx
  | cons b bs ih =>
    rw [List.pairwise_cons] at h
    rcases List.mem_cons.mp hx with rfl | hx
    · simp
    · have hb : (key b == key x) = false := beq_eq_false_iff_ne.mpr fun heq =>
        Std.Irrefl.irrefl (key x) (heq ▸ h.1 x hx)
      rw [List.find?_cons, hb]
      exact ih h.2 hx

theorem eq_of_key_eq [Std.Irrefl (@LT.lt κ _)] {key : α → κ} {l : List α}
    (h : l.Pairwise fun x y => key x < key y) {x y : α} (hx : x ∈ l) (hy : y ∈ l)
    (hkey : key x = key y) : x = y := by
  have hfind := (mem_iff_find? h).mp hx
  rw [hkey, (mem_iff_find? h).mp hy, Option.some_inj] at hfind
  exact hfind.symm

variable [DecidableLT κ]

/-- Puts an element in its place; it takes the place of one with the same key. -/
def put (key : α → κ) (a : α) : List α → List α
  | [] => [a]
  | b :: bs =>
    if key a < key b then a :: b :: bs
    else if key a = key b then a :: bs
    else b :: put key a bs

theorem mem_of_mem_put {key : α → κ} {a x : α} {l : List α} (h : x ∈ put key a l) :
    x = a ∨ x ∈ l := by
  induction l with
  | nil => simpa [put] using h
  | cons b bs ih =>
    unfold put at h
    split at h
    · simpa using h
    · split at h
      · rcases List.mem_cons.mp h with h | h
        · exact .inl h
        · exact .inr (List.mem_cons_of_mem _ h)
      · rcases List.mem_cons.mp h with h | h
        · exact .inr (by simp [h])
        · exact (ih h).imp id (List.mem_cons_of_mem _)

/-- Putting an element keeps a list strictly increasing. -/
theorem pairwise_put [Trans (@LT.lt κ _) (@LT.lt κ _) (@LT.lt κ _)] [Std.Trichotomous (@LT.lt κ _)]
    {key : α → κ} {l : List α} (a : α) (h : l.Pairwise fun x y => key x < key y) :
    (put key a l).Pairwise fun x y => key x < key y := by
  induction l with
  | nil => simp [put]
  | cons b bs ih =>
    rw [List.pairwise_cons] at h
    unfold put
    split
    · next hab =>
      refine List.pairwise_cons.mpr ⟨fun x hx => ?_, List.pairwise_cons.mpr h⟩
      rcases List.mem_cons.mp hx with rfl | hx
      · exact hab
      · exact Trans.trans hab (h.1 x hx)
    · split
      · next heq =>
        exact List.pairwise_cons.mpr ⟨fun x hx => by rw [heq]; exact h.1 x hx, h.2⟩
      · next hlt hne =>
        refine List.pairwise_cons.mpr ⟨fun x hx => ?_, ih h.2⟩
        rcases mem_of_mem_put hx with rfl | hx
        · by_cases hba : key b < key x
          · exact hba
          · exact absurd (Std.Trichotomous.trichotomous _ _ hlt hba) hne
        · exact h.1 x hx

theorem mem_put (key : α → κ) (a : α) (l : List α) : a ∈ put key a l := by
  induction l with
  | nil => simp [put]
  | cons b bs ih =>
    unfold put
    split
    · exact List.mem_cons_self
    · split
      · exact List.mem_cons_self
      · exact List.mem_cons_of_mem _ ih

/-- Only an element with the same key gives up its place. -/
theorem mem_put_of_mem {key : α → κ} {a x : α} {l : List α} (hx : x ∈ l) (hne : key x ≠ key a) :
    x ∈ put key a l := by
  induction l with
  | nil => cases hx
  | cons b bs ih =>
    unfold put
    split
    · exact List.mem_cons_of_mem _ hx
    · split
      · next heq =>
        rcases List.mem_cons.mp hx with rfl | hx
        · exact absurd heq.symm hne
        · exact List.mem_cons_of_mem _ hx
      · rcases List.mem_cons.mp hx with rfl | hx
        · exact List.mem_cons_self
        · exact List.mem_cons_of_mem _ (ih hx)

theorem mem_put_iff {key : α → κ} (hkey : ∀ x y, key x = key y → x = y) {a x : α} {l : List α} :
    x ∈ put key a l ↔ x = a ∨ x ∈ l := by
  refine ⟨mem_of_mem_put, fun h => ?_⟩
  by_cases hxa : x = a
  · rw [hxa]
    exact mem_put key a l
  · exact mem_put_of_mem (h.resolve_left hxa) fun heq => hxa (hkey x a heq)

/-- An element with a key of its own takes the place of none. -/
theorem mem_put_of_fresh {key : α → κ} {a x : α} {l : List α} (hnew : ∀ b ∈ l, key b ≠ key a) :
    x ∈ put key a l ↔ x = a ∨ x ∈ l := by
  refine ⟨mem_of_mem_put, fun h => ?_⟩
  rcases h with rfl | hx
  · exact mem_put key x l
  · exact mem_put_of_mem hx (hnew x hx)

/-- What is put is found under its key. -/
theorem find?_put_self (key : α → κ) (a : α) (l : List α) :
    (put key a l).find? (key · == key a) = some a := by
  induction l with
  | nil => simp [put]
  | cons b bs ih =>
    unfold put
    split
    · simp
    · split
      · simp
      · next hne =>
        have hb : (key b == key a) = false := by simpa using Ne.symm hne
        rw [List.find?_cons, hb]
        exact ih

theorem find?_put_of_ne {key : α → κ} {a : α} {n : κ} (hn : n ≠ key a) (l : List α) :
    (put key a l).find? (key · == n) = l.find? (key · == n) := by
  have ha : (key a == n) = false := by simpa using Ne.symm hn
  induction l with
  | nil => simp [put, ha]
  | cons b bs ih =>
    unfold put
    split
    · rw [List.find?_cons, ha]
    · split
      · next heq => rw [List.find?_cons, List.find?_cons, ← heq, ha]
      · rw [List.find?_cons, List.find?_cons, ih]

/-- An element that has its place is put nowhere else. -/
theorem put_put [Std.Irrefl (@LT.lt κ _)] (key : α → κ) (a : α) (l : List α) :
    put key a (put key a l) = put key a l := by
  have ha : ¬key a < key a := Std.Irrefl.irrefl (key a)
  induction l with
  | nil => simp [put, ha]
  | cons b bs ih =>
    by_cases hlt : key a < key b
    · simp [put, hlt, ha]
    · by_cases heq : key a = key b
      · rw [heq] at ha
        simp [put, heq, ha]
      · simp [put, hlt, heq, ih]

end DeviceClient.Ordered
