import DeviceClient.Proofs.Registry
import DeviceClient.Scheduler

namespace DeviceClient.Scheduler

variable {α : Type} {s : Scheduler α}

theorem mem_timers_iff_find? {timer : Timer α} :
    timer ∈ s.timers ↔ s.timers.find? (·.due == timer.due) = some timer :=
  Ordered.mem_iff_find? s.timers_ordered

/-- The entries follow from the timers. -/
theorem eq_of_timers_eq {s' : Scheduler α} (htimers : s.timers = s'.timers)
    (hnext : s.next = s'.next) : s = s' := by
  have hexpiries : s.expiries = s'.expiries := by
    refine Ordered.eq_of_mem_iff s.expiries_ordered s'.expiries_ordered fun entry => ?_
    rw [s.mem_expiries, s'.mem_expiries, htimers]
  cases s
  cases s'
  cases htimers
  cases hnext
  cases hexpiries
  rfl

theorem contains_iff {handle : Nat} :
    s.contains handle = true ↔ handle ∈ s.timers.map Timer.handle := by
  rw [contains, List.any_eq_true, List.mem_map]
  constructor
  · rintro ⟨entry, hentry, hhandle⟩
    obtain ⟨timer, htimer, hdue⟩ := s.mem_expiries_iff.mp hentry
    exact ⟨timer, htimer, (congrArg Due.handle hdue).trans (eq_of_beq hhandle)⟩
  · rintro ⟨timer, htimer, rfl⟩
    exact ⟨_, s.mem_expiries_of_mem htimer, beq_self_eq_true _⟩

theorem timers_schedule (now delay : Nat) (action : α) :
    (s.schedule now delay action).2.timers =
      Ordered.put Timer.due ⟨s.next, min (now + delay) lastTick, action⟩ s.timers := rfl

theorem mem_schedule {now delay : Nat} {action : α} {timer : Timer α} :
    timer ∈ (s.schedule now delay action).2.timers ↔
      timer = ⟨s.next, min (now + delay) lastTick, action⟩ ∨ timer ∈ s.timers :=
  s.mem_put_timer

theorem timers_schedule_of_nil (h : s.timers = []) (now delay : Nat) (action : α) :
    (s.schedule now delay action).2.timers = [⟨s.next, min (now + delay) lastTick, action⟩] := by
  rw [timers_schedule, h]
  rfl

theorem expiry?_eq_none_iff {handle : Nat} :
    s.expiry? handle = none ↔ ∀ timer ∈ s.timers, timer.handle ≠ handle := by
  rw [expiry?, Option.map_eq_none_iff, List.find?_eq_none]
  constructor
  · intro hnone timer htimer hhandle
    exact hnone _ (s.mem_expiries_of_mem htimer) (beq_iff_eq.mpr hhandle)
  · intro hnone entry hentry hhandle
    obtain ⟨timer, htimer, hdue⟩ := s.mem_expiries_iff.mp hentry
    exact hnone timer htimer ((congrArg Due.handle hdue).trans (eq_of_beq hhandle))

theorem timers_cancel (handle : Nat) :
    (s.cancel handle).2.timers = s.timers.filter (·.handle != handle) := by
  unfold cancel
  split
  · next hnone =>
    rw [expiry?_eq_none_iff] at hnone
    exact (List.filter_eq_self.mpr fun timer htimer => bne_iff_ne.mpr (hnone timer htimer)).symm
  · next expiry hfound =>
    refine List.filter_congr fun timer htimer => ?_
    rw [Bool.eq_iff_iff, bne_iff_ne, bne_iff_ne]
    exact not_congr (s.due_eq_iff hfound htimer)

theorem next_cancel (handle : Nat) : (s.cancel handle).2.next = s.next := by
  unfold cancel
  split <;> rfl

theorem action_cancel_eq_some_iff {handle : Nat} {action : α} :
    (s.cancel handle).1 = some action ↔
      ∃ timer ∈ s.timers, timer.handle = handle ∧ timer.action = action := by
  unfold cancel
  split
  · next hnone =>
    rw [expiry?_eq_none_iff] at hnone
    constructor
    · nofun
    · rintro ⟨timer, htimer, hhandle, -⟩
      exact absurd hhandle (hnone timer htimer)
  · next expiry hfound =>
    rw [Option.map_eq_some_iff]
    constructor
    · rintro ⟨timer, hfind, rfl⟩
      have hdue := List.find?_some hfind
      rw [beq_iff_eq] at hdue
      exact ⟨timer, List.mem_of_find?_eq_some hfind, congrArg Due.handle hdue, rfl⟩
    · rintro ⟨timer, htimer, hhandle, rfl⟩
      refine ⟨timer, ?_, rfl⟩
      rw [← (s.due_eq_iff hfound htimer).mpr hhandle]
      exact mem_timers_iff_find?.mp htimer

theorem fst_expired (now : Nat) : (s.expired now).1 = s.timers.filter (·.expiry ≤ now) := by
  refine List.filter_congr fun timer htimer => ?_
  rw [Bool.eq_iff_iff, Timer.isDue_iff (s.expiry_le timer htimer), decide_eq_true_eq]

theorem timers_expired (now : Nat) :
    (s.expired now).2.timers = s.timers.filter (now < ·.expiry) := by
  refine List.filter_congr fun timer htimer => ?_
  rw [Bool.eq_iff_iff, Bool.not_eq_true', ← Bool.not_eq_true, decide_eq_true_eq,
    Timer.isDue_iff (s.expiry_le timer htimer), Nat.not_le]

/-- Nothing is taken away before it is due. -/
theorem expired_of_early {now : Nat} (hearly : ∀ timer ∈ s.timers, now < timer.expiry) :
    s.expired now = ([], s) := by
  have hdue : (s.expired now).1 = [] := by
    rw [fst_expired, List.filter_eq_nil_iff]
    intro timer htimer
    simpa using hearly timer htimer
  have hkept : (s.expired now).2.timers = s.timers := by
    rw [timers_expired, List.filter_eq_self]
    intro timer htimer
    simpa using hearly timer htimer
  exact Prod.ext hdue (eq_of_timers_eq hkept rfl)

theorem clear_of_nil (h : s.timers = []) : s.clear = s := eq_of_timers_eq h.symm rfl

theorem cancel_of_singleton {timer : Timer α} (h : s.timers = [timer]) :
    (s.cancel timer.handle).2 = s.clear := by
  refine eq_of_timers_eq ?_ (next_cancel timer.handle)
  rw [timers_cancel, h]
  simp [clear]

theorem expired_of_singleton {timer : Timer α} (h : s.timers = [timer]) {now : Nat}
    (hdue : timer.expiry ≤ now) : s.expired now = ([timer], s.clear) := by
  have hfired : (s.expired now).1 = [timer] := by
    rw [fst_expired, h]
    simp [hdue]
  have hkept : (s.expired now).2.timers = [] := by
    rw [timers_expired, h]
    simp [hdue]
  exact Prod.ext hfired (eq_of_timers_eq hkept rfl)

/-- The first timer is due first. -/
theorem nextDeadline_eq_some_iff {tick : Nat} : s.nextDeadline = some tick ↔
    (∃ timer ∈ s.timers, timer.expiry = tick) ∧ ∀ timer ∈ s.timers, tick ≤ timer.expiry := by
  have hordered := s.timers_ordered
  rw [nextDeadline]
  cases htimers : s.timers with
  | nil => simp
  | cons first rest =>
    rw [htimers, List.pairwise_cons] at hordered
    have hfirst : ∀ timer ∈ first :: rest, first.expiry ≤ timer.expiry := by
      rintro timer (_ | ⟨_, htimer⟩)
      · exact Nat.le_refl _
      · have hlt : first.due < timer.due := hordered.1 timer htimer
        simp only [Due.lt_iff, Timer.due] at hlt
        omega
    rw [List.head?_cons, Option.map_some, Option.some_inj]
    constructor
    · rintro rfl
      exact ⟨⟨first, List.mem_cons_self, rfl⟩, hfirst⟩
    · rintro ⟨⟨timer, htimer, rfl⟩, hleast⟩
      exact Nat.le_antisymm (hfirst timer htimer) (hleast first List.mem_cons_self)

end DeviceClient.Scheduler
