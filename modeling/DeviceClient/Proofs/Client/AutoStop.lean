import DeviceClient.Proofs.Client.Run

namespace DeviceClient

namespace Engine

variable {e : Engine} {o : Observation}

/-- An observation that runs after a response and not before has been registered by it. -/
theorem Timekeeping.registers (h : e.Timekeeping) {s : Surroundings} {now : Nat} {r : Response}
    (hbefore : e.observation? = none)
    (hafter : (e.handle s (.response now r)).observation? = some o) :
    e.Registers (s, .response now r) now o := by
  cases (h.ticks s (.response now r)).timing with
  | kept hobs htimers => rw [hafter, hbefore] at hobs; cases hobs
  | ended hobs htimers => rw [hafter] at hobs; cases hobs
  | began hx hnone hobs htimers hsent hobserve =>
    rw [hobs] at hafter
    cases hafter
    exact .intro hsent hobserve rfl (by simp [hbefore]) hobs

end Engine

namespace Client

/-- The client takes the response, and it registers the observation. -/
def Registers (c : Client) (s : Surroundings) (r : Response) (o : Observation) : Prop :=
  c.running = true ∧ c.engine.Registers (s, .response c.now r) c.now o

/-- The client observes until a time and no longer: it is to wake up then, and a step reports once
that the timer has fired if it reaches the time, and not at all if it does not. -/
structure StopsAt (c : Client) (instant : Nat) : Prop where
  early : c.time < instant
  wakeUp : c.wakeUp? = some instant
  fires : ∀ s input, (c.step s input).1.engine.expiries =
    c.engine.expiries + if instant ≤ (c.step s input).1.time then 1 else 0

variable {config : Config} {o : Observation} {started expiry instant : Nat} {c : Client}

theorem Books.wakeUp?_of_timed (h : Books started config c) (htimed : c.engine.Timed o expiry)
    (hobs : c.engine.observation? = some o) :
    c.wakeUp? = Clock.deadline? started config.tick expiry := by
  obtain ⟨timer, htimers, -⟩ := h.timekeeping.timers_eq_singleton hobs
  have hexpiry := htimed.expiry hobs timer (by simp [htimers])
  simp [wakeUp?, Scheduler.nextDeadline, htimers, hexpiry, h.started, h.config]

theorem Books.wakeUp?_of_none (h : Books started config c) (hobs : c.engine.observation? = none) :
    c.wakeUp? = none := by
  simp [wakeUp?, Scheduler.nextDeadline, h.timekeeping.timers_eq_nil hobs]

/-- Nothing is settled while nothing is observed. -/
theorem Books.expiries_settle_of_none (h : Books started config c) (htick : 1 ≤ config.tick)
    (hobs : c.engine.observation? = none) (s : Surroundings) :
    (c.settle s).engine.expiries = c.engine.expiries := by
  have hsettling := h.settling htick s
  generalize (c.settle s).engine = e at hsettling ⊢
  cases hsettling with
  | fired hwake hdue hover hexpiries => rw [h.wakeUp?_of_none hobs] at hwake; cases hwake
  | waiting hearly => rfl

/-- The observation that runs is stopped exactly when its time has come. -/
theorem Books.settle_of_timed (h : Books started config c) (htick : 1 ≤ config.tick)
    (htimed : c.engine.Timed o expiry) (hobs : c.engine.observation? = some o)
    (hinstant : Clock.deadline? started config.tick expiry = some instant) (s : Surroundings) :
    (c.settle s).engine.expiries = c.engine.expiries + (if instant ≤ c.time then 1 else 0) ∧
      ((c.settle s).engine.observation? = some o ↔ c.time < instant) := by
  have hwakeUp := (h.wakeUp?_of_timed htimed hobs).trans hinstant
  have hsettling := h.settling htick s
  generalize (c.settle s).engine = e at hsettling ⊢
  cases hsettling with
  | fired hwake hdue hover hexpiries =>
    rw [hwakeUp, Option.some.injEq] at hwake
    subst hwake
    simp [hexpiries, hover, hdue, Nat.not_lt.mpr hdue]
  | waiting hearly =>
    have hlt := hearly instant hwakeUp
    simp [hobs, hlt, Nat.not_le.mpr hlt]

/-- What holds from the registration on: the timer of the observation is set for the tick, and its
time has not come while the observation runs. -/
structure Waiting (started : Nat) (config : Config) (o : Observation) (expiry instant : Nat)
    (c : Client) : Prop extends Books started config c where
  timed : c.engine.Timed o expiry
  early : c.engine.observation? = some o → c.time < instant

theorem Books.waiting_settle (h : Books started config c) (htick : 1 ≤ config.tick)
    (htimed : c.engine.Timed o expiry)
    (hinstant : Clock.deadline? started config.tick expiry = some instant) (s : Surroundings) :
    Waiting started config o expiry instant (c.settle s) := by
  have htimed' : (c.settle s).engine.Timed o expiry := by
    unfold Client.settle
    split_ifs
    · exact (h.timekeeping.ticks_timers s _).timed htimed
    · exact htimed
  refine ⟨h.settle s, htimed', fun hobs => ?_⟩
  rw [time_settle]
  have hsettling := h.settling htick s
  generalize (c.settle s).engine = e at hsettling hobs
  cases hsettling with
  | fired hwake hdue hover hexpiries => rw [hover] at hobs; cases hobs
  | waiting hearly => exact hearly instant ((h.wakeUp?_of_timed htimed hobs).trans hinstant)

namespace Waiting

variable (h : Waiting started config o expiry instant c) (htick : 1 ≤ config.tick)
  (hinstant : Clock.deadline? started config.tick expiry = some instant)

include h htick hinstant

theorem step (s : Surroundings) (input : Input) :
    Waiting started config o expiry instant (c.step s input).1 := by
  have hstepping := stepping c s input
  generalize (c.step s input).1 = c' at hstepping ⊢
  cases hstepping with
  | handled hx hrun =>
    exact (h.toBooks.handled hrun s _).waiting_settle htick
      ((h.timekeeping.ticks s _).timed h.timed) hinstant s
  | refused hx hidle => exact h
  | @advanced duration hrun =>
    exact (h.toBooks.passed (c.elapsed + duration)).waiting_settle htick h.timed hinstant s
  | slept hidle =>
    refine ⟨h.toBooks.passed _, h.timed, fun hobs => ?_⟩
    rw [h.idle hidle] at hobs
    cases hobs
  | shutDown => exact ⟨h.toBooks.shutDown, h.timed.of_over rfl rfl, nofun⟩

/-- While the observation runs, a step fires its timer exactly when it reaches the deadline. -/
theorem expiries_step (hobs : c.engine.observation? = some o) (s : Surroundings) (input : Input) :
    (c.step s input).1.engine.expiries =
      c.engine.expiries + if instant ≤ (c.step s input).1.time then 1 else 0 := by
  have hlt := h.early hobs
  have hstepping := stepping c s input
  generalize (c.step s input).1 = c' at hstepping ⊢
  cases hstepping with
  | @handled _ x hx hrun =>
    have hbooks := h.toBooks.handled hrun s x
    have hquiet := c.engine.expiries_handle s (stimulus?_ne_timers hx)
    have hticks := h.timekeeping.ticks s x
    rw [time_settle]
    cases hticks.timing with
    | kept hkept htimers =>
      rw [(hbooks.settle_of_timed htick (hticks.timed h.timed) (hkept.trans hobs) hinstant s).1,
        hquiet]
    | ended hover htimers =>
      rw [hbooks.expiries_settle_of_none htick hover, hquiet, time_with,
        if_neg (Nat.not_le.mpr hlt)]
      rfl
    | began hx hbefore hbegun htimers hsent hobserve => rw [hobs] at hbefore; cases hbefore
  | refused hx hidle => rw [if_neg (Nat.not_le.mpr hlt)]; rfl
  | @advanced duration hrun =>
    have hbooks := h.toBooks.passed (c.elapsed + duration)
    rw [time_settle, (hbooks.settle_of_timed htick h.timed hobs hinstant s).1]
  | slept hidle => rw [h.idle hidle] at hobs; cases hobs
  | shutDown => rw [time_with, if_neg (Nat.not_le.mpr hlt)]; rfl

theorem stopsAt (hobs : c.engine.observation? = some o) : c.StopsAt instant where
  early := h.early hobs
  wakeUp := (h.toBooks.wakeUp?_of_timed h.timed hobs).trans hinstant
  fires := h.expiries_step htick hinstant hobs

theorem run_append {s₀ : Surroundings} {inputs : List (Surroundings × Input)}
    (hrun : run started s₀ config inputs = c) (more : List (Surroundings × Input)) :
    Waiting started config o expiry instant (run started s₀ config (inputs ++ more)) := by
  induction more using List.reverseRecOn with
  | nil =>
    rw [List.append_nil, hrun]
    exact h
  | append_singleton more input ih =>
    rw [← List.append_assoc, run_concat]
    exact ih.step htick hinstant input.1 input.2

end Waiting

/-- What the response that registers an observation leaves: the observation waits for its deadline,
unless this has come already. -/
theorem Books.registered (h : Books started config c) (htick : 1 ≤ config.tick) {s : Surroundings}
    {r : Response} (hregisters : c.Registers s r o)
    (hlast : c.now + config.observationDelay ≤ lastTick)
    (hinstant : Clock.deadline? started config.tick (c.now + config.observationDelay) = some instant) :
    Waiting started config o (c.now + config.observationDelay) instant (c.step s (.response r)).1 ∧
      (c.step s (.response r)).1.engine.expiries =
        c.engine.expiries + (if instant ≤ c.time then 1 else 0) ∧
      ((c.step s (.response r)).1.engine.observation? = some o ↔ c.time < instant) := by
  obtain ⟨hrun, hengine⟩ := hregisters
  have hbooks := h.handled hrun s (.response c.now r)
  have htimed := hengine.timed h.timekeeping
  rw [h.config, Nat.min_eq_left hlast] at htimed
  have hafter : (c.engine.handle s (.response c.now r)).observation? = some o := by
    cases hengine
    assumption
  have hquiet := c.engine.expiries_handle s (x := .response c.now r) (by simp)
  have hstep : (c.step s (.response r)).1 =
      Client.settle { c with engine := c.engine.handle s (.response c.now r) } s := by
    simp [Client.step, Client.handle, hrun, Engine.handle]
  obtain ⟨hexpiries, hruns⟩ := hbooks.settle_of_timed htick htimed hafter hinstant s
  rw [hquiet] at hexpiries
  rw [hstep]
  exact ⟨hbooks.waiting_settle htick htimed hinstant s, hexpiries, hruns⟩

/-- An observation is stopped by itself at a time that is the delay after its registration, to within
less than a tick: at no earlier time, and at this one if the client wakes up when it is to. The ticks
of the deadline have begun exactly from this time on. All of this is as long as the time base can name
the tick of the deadline: time beyond the last tick is covered by no number of ticks. -/
theorem autoStop_on_time {config : Config} {started elapsed instant : Nat} (htick : 1 ≤ config.tick)
    (hfits : elapsed ⌈/⌉ config.tick + config.observationDelay ≤ lastTick)
    (hinstant : Clock.deadline? started config.tick
      (Clock.ticksCovering config.tick elapsed + config.observationDelay) = some instant) :
    (started + elapsed + config.observationDelay * config.tick ≤ instant ∧
      instant < started + elapsed + (config.observationDelay + 1) * config.tick) ∧
    (∀ later, Clock.ticksCovering config.tick elapsed + config.observationDelay ≤
      Clock.ticksBegun config.tick later ↔ instant ≤ started + later) ∧
    ∀ s₀ inputs s r o, (run started s₀ config inputs).elapsed = elapsed →
      (run started s₀ config inputs).Registers s r o →
      (run started s₀ config (inputs ++ [(s, .response r)])).engine.expiries =
        (run started s₀ config inputs).engine.expiries +
          (if instant ≤ started + elapsed then 1 else 0) ∧
      ((run started s₀ config (inputs ++ [(s, .response r)])).engine.observation? = some o ↔
        started + elapsed < instant) ∧
      ∀ more,
        (run started s₀ config (inputs ++ (s, .response r) :: more)).engine.observation? = some o →
        (run started s₀ config (inputs ++ (s, .response r) :: more)).StopsAt instant := by
  have hlast : Clock.ticksCovering config.tick elapsed + config.observationDelay ≤ lastTick := by
    have hle : Clock.ticksCovering config.tick elapsed ≤ elapsed ⌈/⌉ config.tick := by
      rw [Clock.ticksCovering_eq, Clock.unit_eq htick]
      exact Nat.min_le_left _ _
    omega
  refine ⟨Clock.deadline?_bounds htick hfits hinstant,
    Clock.le_ticksBegun_iff_of_deadline htick hlast hinstant, ?_⟩
  rintro s₀ inputs s r o rfl hregisters
  have hbooks := books_run started s₀ config inputs
  have hnow : (run started s₀ config inputs).now =
      Clock.ticksCovering config.tick (run started s₀ config inputs).elapsed := by
    rw [now, hbooks.config]
  have htime : (run started s₀ config inputs).time =
      started + (run started s₀ config inputs).elapsed := by
    rw [time, hbooks.started]
  rw [← hnow] at hlast hinstant
  obtain ⟨hwaiting, hexpiries, hruns⟩ := hbooks.registered htick hregisters hlast hinstant
  rw [run_concat]
  rw [htime] at hexpiries hruns
  refine ⟨hexpiries, hruns, fun more hobs => ?_⟩
  rw [List.append_cons] at hobs ⊢
  exact (hwaiting.run_append htick hinstant (run_concat started s₀ config inputs (s, .response r))
    more).stopsAt htick hinstant hobs

/-- The lamp is observed from two and a half seconds on, for five ticks of a second. -/
theorem autoStop_on_time_lamp :
    1 ≤ (Lamp.config 16).tick ∧
    2500000000 ⌈/⌉ (Lamp.config 16).tick + (Lamp.config 16).observationDelay ≤ lastTick ∧
    Clock.deadline? Lamp.started (Lamp.config 16).tick
      (Clock.ticksCovering (Lamp.config 16).tick 2500000000 + (Lamp.config 16).observationDelay) =
        some 3608000000000 ∧
    ∃ c, c = run Lamp.started .willing (Lamp.config 16) Lamp.approached ∧ c.elapsed = 2500000000 ∧
      ∃ o, c.Registers .willing (Lamp.reply 3 []) o ∧
        (run Lamp.started .willing (Lamp.config 16)
          (Lamp.approached ++ [(.willing, .response (Lamp.reply 3 []))])).StopsAt 3608000000000 := by
  have htick : 1 ≤ (Lamp.config 16).tick := by decide
  have hfits : 2500000000 ⌈/⌉ (Lamp.config 16).tick + (Lamp.config 16).observationDelay ≤
      lastTick := by decide +kernel
  have hinstant : Clock.deadline? Lamp.started (Lamp.config 16).tick
      (Clock.ticksCovering (Lamp.config 16).tick 2500000000 + (Lamp.config 16).observationDelay) =
        some 3608000000000 := by decide +kernel
  have helapsed : (run Lamp.started .willing (Lamp.config 16) Lamp.approached).elapsed =
      2500000000 := by decide +kernel
  have hrun : (run Lamp.started .willing (Lamp.config 16) Lamp.approached).running = true := by
    decide +kernel
  have hbefore : (run Lamp.started .willing (Lamp.config 16)
      Lamp.approached).engine.observation?.isNone = true := by decide +kernel
  have hafter : ((run Lamp.started .willing (Lamp.config 16) Lamp.approached).engine.handle .willing
      (.response (run Lamp.started .willing (Lamp.config 16) Lamp.approached).now
        (Lamp.reply 3 []))).observation?.isSome = true := by decide +kernel
  obtain ⟨o, hobs⟩ := Option.isSome_iff_exists.mp hafter
  have hregisters : (run Lamp.started .willing (Lamp.config 16) Lamp.approached).Registers .willing
      (Lamp.reply 3 []) o :=
    ⟨hrun, (books_run _ _ _ _).timekeeping.registers (Option.isNone_iff_eq_none.mp hbefore) hobs⟩
  obtain ⟨-, -, hstops⟩ := autoStop_on_time htick hfits hinstant
  obtain ⟨-, hruns, hmore⟩ := hstops .willing Lamp.approached .willing (Lamp.reply 3 []) o helapsed
    hregisters
  exact ⟨htick, hfits, hinstant, _, rfl, helapsed, o, hregisters, hmore [] (hruns.mpr (by decide))⟩

end Client

end DeviceClient
