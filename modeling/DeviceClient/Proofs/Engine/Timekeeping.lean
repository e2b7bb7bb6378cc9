import DeviceClient.Proofs.Engine.Operations
import DeviceClient.Proofs.Scheduler

namespace DeviceClient.Engine

/-- The observation that runs. -/
def observation? (e : Engine) : Option Observation := e.chain.bind Chain.observation

/-- Only a chain that observes has an observation, and the timers are the timer of it. -/
structure Timekeeping (e : Engine) : Prop where
  observing : ∀ {c o}, e.chain = some c → c.observation = some o → c.state = .observing
  timer : ∀ {o}, e.observation? = some o → o.timer ≠ none
  timed : e.timers.timers.map Timer.handle = (e.observation?.bind Observation.timer).toList

theorem timekeeping_start (config : Config) : (start config).Timekeeping where
  observing := by intro c o hc; cases hc
  timer := by intro o ho; cases ho
  timed := rfl

/-- No timer fires before its tick. -/
theorem fireTimers_of_early {e : Engine} {now : Nat}
    (hearly : ∀ timer ∈ e.timers.timers, now < timer.expiry) (s : Surroundings) :
    e.fireTimers s now = e := by
  simp only [fireTimers, Scheduler.expired_of_early hearly, List.foldl_nil]

namespace Timekeeping

variable {e : Engine} (h : e.Timekeeping)

include h

theorem observation_eq_none {c : Chain} (hc : e.chain = some c) (hstate : c.state ≠ .observing) :
    c.observation = none := by
  cases ho : c.observation with
  | none => rfl
  | some o => exact absurd (h.observing hc ho) hstate

theorem timers_eq_nil (hobs : e.observation? = none) : e.timers.timers = [] := by
  simpa [hobs] using h.timed

/-- Without an observation no timer is left. -/
theorem timers_clear_of_none (hobs : e.observation? = none) : e.timers.clear = e.timers :=
  Scheduler.clear_of_nil (h.timers_eq_nil hobs)

/-- The timer of the observation that runs is the only one. -/
theorem timers_eq_singleton {o : Observation} (hobs : e.observation? = some o) :
    ∃ timer, e.timers.timers = [timer] ∧ o.timer = some timer.handle := by
  obtain ⟨handle, ho⟩ := Option.ne_none_iff_exists'.mp (h.timer hobs)
  have hhandles := h.timed
  rw [hobs, Option.bind_some, ho, Option.toList_some] at hhandles
  obtain ⟨timer, htimers, rfl⟩ := List.map_eq_singleton_iff.mp hhandles
  exact ⟨timer, htimers, ho⟩

/-- A timer is there only while an observation runs. -/
theorem exists_observation {timer : Timer DelayedAction} (ht : timer ∈ e.timers.timers) :
    e.timers.timers = [timer] ∧ ∃ o, e.observation? = some o ∧ o.timer = some timer.handle := by
  cases hobs : e.observation? with
  | none =>
    rw [h.timers_eq_nil hobs] at ht
    cases ht
  | some o =>
    obtain ⟨t, htimers, ho⟩ := h.timers_eq_singleton hobs
    rw [htimers, List.mem_singleton] at ht
    subst ht
    exact ⟨htimers, o, rfl, ho⟩

/-- Stopping the chain takes the last timer away. -/
theorem timersAfter_eq {reason : StopReason} (hr : reason ≠ .expired) :
    e.timersAfter reason = e.timers.clear := by
  unfold timersAfter
  cases hc : e.chain with
  | none => exact (h.timers_clear_of_none (by simp [observation?, hc])).symm
  | some c =>
    simp only [Chain.timersAfter]
    cases ho : c.observation with
    | none => exact (h.timers_clear_of_none (by simp [observation?, hc, ho])).symm
    | some o =>
      obtain ⟨timer, htimers, ht⟩ := h.timers_eq_singleton (o := o) (by simp [observation?, hc, ho])
      simp [Observation.timersAfter, ht, hr, Scheduler.cancel_of_singleton htimers]

/-- A timer that is due stops the observation that it belongs to, and is the last one. -/
theorem fireTimers_of_due {timer : Timer DelayedAction} (ht : timer ∈ e.timers.timers) {now : Nat}
    (hdue : timer.expiry ≤ now) (s : Surroundings) :
    ∃ c, e.chain = some c ∧ c.state = .observing ∧
      e.fireTimers s now =
        { e with
          chain := some c.halt
          timers := e.timers.clear
          pending := e.pending.removeAll c.tokens }.recordAll
            (c.farewell s e.config.qos .expired ++
              [Effect.reported (.observationStopped .expired)]) := by
  obtain ⟨htimers, o, hobs, -⟩ := h.exists_observation ht
  obtain ⟨c, hc, ho⟩ := Option.bind_eq_some_iff.mp hobs
  have hstate := h.observing hc ho
  refine ⟨c, hc, hstate, ?_⟩
  have hrun : c.state ≠ .stopped := by simp [hstate]
  simp only [fireTimers, Scheduler.expired_of_singleton htimers hdue, List.foldl_cons,
    List.foldl_nil]
  cases timer.action
  rw [stopChain_running { e with timers := e.timers.clear } s hc hrun, c.timersAfter_expired]

end Timekeeping

end DeviceClient.Engine
