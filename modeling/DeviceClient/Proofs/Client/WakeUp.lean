import DeviceClient.Proofs.Client.Run

namespace DeviceClient

namespace Client

variable {c : Client} {expiry : Nat}

theorem exists_instant_of_isTimerDue (hnext : c.engine.timers.nextDeadline = some expiry)
    (hdue : c.isTimerDue = true) :
    ∃ instant, Clock.deadline? c.started c.engine.config.tick expiry = some instant ∧
      instant ≤ c.time := by
  obtain ⟨instant, hwake, hreached⟩ := isTimerDue_iff.mp hdue
  rw [wakeUp?, hnext, Option.bind_some] at hwake
  exact ⟨instant, hwake, hreached⟩

theorem le_lastTick_of_nextDeadline (hnext : c.engine.timers.nextDeadline = some expiry) :
    expiry ≤ lastTick := by
  obtain ⟨⟨timer, htimer, rfl⟩, -⟩ := Scheduler.nextDeadline_eq_some_iff.mp hnext
  exact c.engine.timers.expiry_le timer htimer

/-- Waking up for a timer fires the timers whose ticks have begun. -/
theorem timers_settle (hdue : c.isTimerDue = true) (s : Surroundings) :
    (c.settle s).engine.timers.timers = c.engine.timers.timers.filter
      (Clock.ticksBegun c.engine.config.tick c.elapsed < ·.expiry) := by
  rw [settle, if_pos hdue, ← Scheduler.timers_expired, ← Engine.timers_fireTimers]

/-- A timer fires if the ticks of the first one have begun. -/
theorem size_settle_lt_iff (hnext : c.engine.timers.nextDeadline = some expiry)
    (hdue : c.isTimerDue = true) (s : Surroundings) :
    (c.settle s).engine.timers.size < c.engine.timers.size ↔
      expiry ≤ Clock.ticksBegun c.engine.config.tick c.elapsed := by
  obtain ⟨⟨first, hfirst, hexpiry⟩, hleast⟩ := Scheduler.nextDeadline_eq_some_iff.mp hnext
  rw [Scheduler.size, Scheduler.size, timers_settle hdue, List.length_filter_lt_length_iff_exists]
  constructor
  · rintro ⟨timer, htimer, hbegun⟩
    rw [decide_eq_true_eq, Nat.not_lt] at hbegun
    exact (hleast timer htimer).trans hbegun
  · intro hbegun
    exact ⟨first, hfirst, by simpa [hexpiry] using hbegun⟩

/-- What the client could wake up for has fired. -/
def Settled (c : Client) : Prop :=
  c.isTimerDue = true → ∀ timer ∈ c.engine.timers.timers,
    Clock.ticksBegun c.engine.config.tick c.elapsed < timer.expiry

theorem settled_of_nil (hnil : c.engine.timers.timers = []) : c.Settled := by
  intro hdue timer htimer
  rw [hnil] at htimer
  cases htimer

theorem settled_settle (c : Client) (s : Surroundings) : (c.settle s).Settled := by
  by_cases hdue : c.isTimerDue = true
  · intro _ timer htimer
    rw [timers_settle hdue, List.mem_filter, decide_eq_true_eq] at htimer
    rw [settle, if_pos hdue, Engine.config_fireTimers]
    exact htimer.2
  · rw [settle, if_neg hdue]
    exact fun hdue' => absurd hdue' hdue

/-- To wake up once more changes nothing. -/
theorem Settled.settle (h : c.Settled) (s : Surroundings) : c.settle s = c := by
  by_cases hdue : c.isTimerDue = true
  · rw [Client.settle, if_pos hdue, Engine.fireTimers_of_early (h hdue)]
  · rw [Client.settle, if_neg hdue]

/-- A timer is due although nothing is left to fire only if a tick has no length: the deadline of every
timer is the start then. -/
theorem Settled.isTimerDue_iff (h : c.Settled) (hstarted : c.started < Clock.horizon) :
    c.isTimerDue = true ↔ c.engine.config.tick = 0 ∧ c.engine.timers.timers ≠ [] := by
  constructor
  · intro hdue
    obtain ⟨instant, hwake, hreached⟩ := Client.isTimerDue_iff.mp hdue
    obtain ⟨expiry, hnext, hinstant⟩ := Option.bind_eq_some_iff.mp hwake
    obtain ⟨⟨timer, htimer, rfl⟩, -⟩ := Scheduler.nextDeadline_eq_some_iff.mp hnext
    refine ⟨?_, List.ne_nil_of_mem htimer⟩
    by_contra htick
    have hbegun := (Clock.le_ticksBegun_iff_of_reached (le_lastTick_of_nextDeadline hnext) hinstant
      hreached).mpr (.inl (Nat.one_le_iff_ne_zero.mpr htick))
    exact absurd (h hdue timer htimer) (Nat.not_lt.mpr hbegun)
  · rintro ⟨htick, htimers⟩
    obtain ⟨timer, rest, hcons⟩ := List.exists_cons_of_ne_nil htimers
    refine Client.isTimerDue_iff.mpr ⟨c.started, ?_, Nat.le_add_right _ _⟩
    rw [wakeUp?, Scheduler.nextDeadline, hcons, List.head?_cons, Option.map_some, Option.bind_some,
      htick, Clock.deadline?_eq_some_iff, Nat.zero_mul]
    exact ⟨rfl, hstarted⟩

theorem Settled.step {started : Nat} {config : Config} (h : c.Settled)
    (hbooks : Books started config c) (s : Surroundings) (input : Input) : (c.step s input).1.Settled := by
  have hstepping := stepping c s input
  generalize (c.step s input).1 = c' at hstepping ⊢
  cases hstepping with
  | handled hx hrun => exact settled_settle _ s
  | refused hx hidle => exact h
  | advanced hrun => exact settled_settle _ s
  | slept hidle => exact settled_of_nil (hbooks.timekeeping.timers_eq_nil (hbooks.idle hidle))
  | shutDown => exact settled_of_nil rfl

theorem settled_run (started : Nat) (s₀ : Surroundings) (config : Config)
    (inputs : List (Surroundings × Input)) : (run started s₀ config inputs).Settled := by
  induction inputs using List.reverseRecOn with
  | nil =>
    refine settled_of_nil ?_
    simp only [run_nil, start]
    split <;> rfl
  | append_singleton inputs input ih =>
    rw [run_concat]
    exact ih.step (books_run started s₀ config inputs) input.1 input.2

/-- When the deadline of some ticks comes they have begun, and when a client wakes up for a timer at
least one fires, if a tick has a length; if it has none, only once as many nanoseconds have gone by as
the timer has ticks. A step leaves nothing to fire: the client wakes up for a timer that is still to
come, again and again, exactly if a tick has no length and a timer is set. All of this holds wherever
on the clock the start is. -/
theorem wakeUp_fires_iff (config : Config) :
    (∀ start ticks elapsed, ticks ≤ lastTick →
      Clock.deadline? start config.tick ticks = some (start + elapsed) →
      (ticks ≤ Clock.ticksBegun config.tick elapsed ↔ 1 ≤ config.tick ∨ ticks = 0)) ∧
    (∀ (c : Client) s expiry, c.engine.config = config →
      c.engine.timers.nextDeadline = some expiry → c.isTimerDue = true →
      ((c.settle s).engine.timers.size < c.engine.timers.size ↔
        1 ≤ config.tick ∨ expiry ≤ c.elapsed)) ∧
    ∀ started, started < Clock.horizon → ∀ s₀ inputs,
      ((run started s₀ config inputs).isTimerDue = true ↔
        config.tick = 0 ∧ (run started s₀ config inputs).engine.timers.timers ≠ []) ∧
      ∀ s, (run started s₀ config inputs).settle s = run started s₀ config inputs := by
  refine ⟨fun start ticks elapsed hlast hinstant => ?_, fun c s expiry hconfig hnext hdue => ?_,
    fun started hstarted s₀ inputs => ?_⟩
  · rw [Clock.le_ticksBegun_iff_of_reached hlast hinstant (Nat.le_refl _)]
    refine or_congr_right' fun htick => ?_
    obtain ⟨hmul, -⟩ := Clock.deadline?_eq_some_iff.mp hinstant
    obtain hzero : config.tick = 0 := by omega
    rw [hzero, Nat.zero_mul] at hmul
    omega
  · subst hconfig
    obtain ⟨instant, hinstant, hreached⟩ := exists_instant_of_isTimerDue hnext hdue
    rw [size_settle_lt_iff hnext hdue,
      Clock.le_ticksBegun_iff_of_reached (le_lastTick_of_nextDeadline hnext) hinstant hreached]
  · have hsettled := settled_run started s₀ config inputs
    have hbooks := books_run started s₀ config inputs
    rw [hsettled.isTimerDue_iff (hbooks.started.symm ▸ hstarted), hbooks.config]
    exact ⟨Iff.rfl, hsettled.settle⟩

theorem wakeUp_fires_iff_lamp :
    5 ≤ lastTick ∧
    Clock.deadline? Lamp.started (Lamp.config 16).tick 5 = some (Lamp.started + 5000000000) ∧
    5 ≤ Clock.ticksBegun (Lamp.config 16).tick 5000000000 ∧
    Lamp.started < Clock.horizon ∧
    ∃ c, c = run Lamp.started .willing (Lamp.config 16) Lamp.followed ∧ c.isTimerDue = false ∧
      ∃ late : Client, late = { c with elapsed := 8000000000 } ∧
        late.engine.timers.nextDeadline = some 8 ∧ late.isTimerDue = true ∧
        (late.settle .willing).engine.timers.size < late.engine.timers.size := by
  have hlast : 5 ≤ lastTick := by decide
  have htick : 1 ≤ (Lamp.config 16).tick := by decide
  have hinstant : Clock.deadline? Lamp.started (Lamp.config 16).tick 5 =
      some (Lamp.started + 5000000000) := by decide +kernel
  have hstarted : Lamp.started < Clock.horizon := by decide +kernel
  obtain ⟨hticks, hwake, hruns⟩ := wakeUp_fires_iff (Lamp.config 16)
  obtain ⟨hidle, -⟩ := hruns Lamp.started hstarted .willing Lamp.followed
  have hearly : (run Lamp.started .willing (Lamp.config 16) Lamp.followed).isTimerDue = false :=
    Bool.eq_false_iff.mpr fun hdue => absurd (hidle.mp hdue).1 (by decide)
  refine ⟨hlast, hinstant, (hticks _ _ _ hlast hinstant).mpr (.inl htick), hstarted, _, rfl, hearly,
    _, rfl, ?_⟩
  have hconfig := (books_run Lamp.started .willing (Lamp.config 16) Lamp.followed).config
  generalize hlate : ({ run Lamp.started .willing (Lamp.config 16) Lamp.followed with
    elapsed := 8000000000 } : Client) = late
  have hnext : late.engine.timers.nextDeadline = some 8 := by
    rw [← hlate]
    decide +kernel
  have hdue : late.isTimerDue = true := by
    rw [← hlate]
    decide +kernel
  have hsame : late.engine.config = Lamp.config 16 := by
    rw [← hlate]
    exact hconfig
  exact ⟨hnext, hdue, (hwake late .willing 8 hsame hnext hdue).mpr (.inl htick)⟩

/-- A tick has no length. The deadline of five ticks is the start, where none of them has begun. The
observation of the lamp is to be stopped five ticks after it is registered, and its deadline has come
at once; however often the client wakes up for it, the timer is still set. -/
theorem wakes_for_nothing_lamp :
    Clock.deadline? Lamp.started 0 5 = some Lamp.started ∧ ¬ 5 ≤ Clock.ticksBegun 0 0 ∧
    ∃ c, c = run Lamp.started .willing { Lamp.config 16 with tick := 0 } Lamp.followed ∧
      c.elapsed = 2500000000 ∧ c.engine.timers.nextDeadline = some 2500000005 ∧
      c.isTimerDue = true ∧ ∀ s, c.settle s = c := by
  refine ⟨by decide, by decide, _, rfl, ?_, ?_, ?_, (settled_run _ _ _ _).settle⟩
  · decide +kernel
  · decide +kernel
  · decide +kernel

end Client

end DeviceClient
