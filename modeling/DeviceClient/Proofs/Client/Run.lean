import DeviceClient.Client
import DeviceClient.Proofs.Clock
import DeviceClient.Proofs.Engine.Expiry

namespace DeviceClient

namespace Client

open Engine (Stimulus)

/-- A client after some inputs, each under surroundings of its own. -/
def run (started : Nat) (s₀ : Surroundings) (config : Config)
    (inputs : List (Surroundings × Input)) : Client :=
  inputs.foldl (fun c input => (c.step input.1 input.2).1) (start started s₀ config).1

section

variable (started : Nat) (s₀ : Surroundings) (config : Config)

@[simp] theorem run_nil : run started s₀ config [] = (start started s₀ config).1 := rfl

@[simp] theorem run_concat (inputs : List (Surroundings × Input)) (input : Surroundings × Input) :
    run started s₀ config (inputs ++ [input]) =
      ((run started s₀ config inputs).step input.1 input.2).1 := by
  simp [run]

end

theorem isTimerDue_iff {c : Client} :
    c.isTimerDue = true ↔ ∃ instant, c.wakeUp? = some instant ∧ instant ≤ c.time := by
  unfold isTimerDue
  cases c.wakeUp? <;> simp

/-- What an input gives the engine to handle, if anything. -/
def stimulus? (c : Client) : Input → Option Stimulus
  | .command command => some (.command command)
  | .response r => some (.response c.now r)
  | .onboarding event => some (.onboarding event)
  | .advance _ | .shutdown => none

/-- What becomes of a client at an input. -/
inductive Stepping (c : Client) (s : Surroundings) : Input → Client → Prop
  | handled {input : Input} {x : Stimulus} (hx : c.stimulus? input = some x)
      (hrun : c.running = true) :
      Stepping c s input (settle { c with engine := c.engine.handle s x } s)
  | refused {input : Input} {x : Stimulus} (hx : c.stimulus? input = some x)
      (hidle : c.running = false) : Stepping c s input c
  | advanced {duration : Nat} (hrun : c.running = true) :
      Stepping c s (.advance duration) (settle { c with elapsed := c.elapsed + duration } s)
  | slept {duration : Nat} (hidle : c.running = false) :
      Stepping c s (.advance duration) { c with elapsed := c.elapsed + duration }
  | shutDown : Stepping c s .shutdown { c with engine := c.engine.shutdown, running := false }

theorem stepping (c : Client) (s : Surroundings) (input : Input) :
    Stepping c s input (c.step s input).1 := by
  have hhandle {f : Engine → Engine × Except ClientError Unit} {x : Stimulus}
      (hx : c.stimulus? input = some x) (hf : (f c.engine).1 = c.engine.handle s x) :
      Stepping c s input (c.handle s f).1 := by
    unfold Client.handle
    split_ifs with hrun
    · simp only [hf]
      exact .handled hx hrun
    · exact .refused hx (by simpa using hrun)
  cases input with
  | command command => exact hhandle rfl rfl
  | response r => exact hhandle rfl rfl
  | onboarding event => exact hhandle rfl rfl
  | advance duration =>
    simp only [step]
    split_ifs with hrun
    · exact .advanced hrun
    · exact .slept (by simpa using hrun)
  | shutdown => exact .shutDown

theorem stimulus?_ne_timers {c : Client} {input : Input} {x : Stimulus}
    (hx : c.stimulus? input = some x) (now : Nat) : x ≠ .timers now := by
  rintro rfl
  cases input <;> cases hx

@[simp] theorem time_with (c : Client) (e : Engine) (running : Bool) :
    ({ c with engine := e, running := running } : Client).time = c.time := rfl

@[simp] theorem time_settle (c : Client) (s : Surroundings) : (c.settle s).time = c.time := by
  unfold settle
  split_ifs <;> rfl

/-- The books of the engine are right, and a client that does not run observes nothing. -/
structure Books (started : Nat) (config : Config) (c : Client) : Prop where
  timekeeping : c.engine.Timekeeping
  started : c.started = started
  config : c.engine.config = config
  idle : c.running = false → c.engine.observation? = none

/-- What becomes of the timers at the present time. -/
inductive Settling (c : Client) : Engine → Prop
  | fired {instant : Nat} {e : Engine} (hwake : c.wakeUp? = some instant)
      (hdue : instant ≤ c.time) (hobs : e.observation? = none)
      (hexpiries : e.expiries = c.engine.expiries + 1) : Settling c e
  | waiting (hearly : ∀ instant, c.wakeUp? = some instant → c.time < instant) :
      Settling c c.engine

namespace Books

variable {started : Nat} {config : Config} {c : Client}

theorem start (started : Nat) (s₀ : Surroundings) (config : Config) :
    Books started config (start started s₀ config).1 := by
  simp only [Client.start]
  split <;> exact ⟨⟨nofun, nofun, rfl⟩, rfl, rfl, fun _ => rfl⟩

variable (h : Books started config c)

include h

theorem settle (s : Surroundings) : Books started config (c.settle s) := by
  unfold Client.settle
  split_ifs with hdue
  · have hticks := h.timekeeping.ticks_timers s (Clock.ticksBegun c.engine.config.tick c.elapsed)
    refine ⟨hticks.timekeeping h.timekeeping, h.started, hticks.config.trans h.config,
      fun hidle => ?_⟩
    cases hticks.timing with
    | kept hobs htimers => exact hobs.trans (h.idle hidle)
    | ended hobs htimers => exact hobs
    | began hx hbefore hobs htimers hsent hobserve => cases hx
  · exact h

theorem handled (hrun : c.running = true) (s : Surroundings) (x : Stimulus) :
    Books started config { c with engine := c.engine.handle s x } := by
  have hticks := h.timekeeping.ticks s x
  exact ⟨hticks.timekeeping h.timekeeping, h.started, hticks.config.trans h.config, by simp [hrun]⟩

theorem passed (elapsed : Nat) : Books started config { c with elapsed := elapsed } :=
  ⟨h.timekeeping, h.started, h.config, h.idle⟩

theorem shutDown :
    Books started config { c with engine := c.engine.shutdown, running := false } :=
  ⟨⟨nofun, nofun, rfl⟩, h.started, h.config, fun _ => rfl⟩

theorem step (s : Surroundings) (input : Input) : Books started config (c.step s input).1 := by
  have hstepping := stepping c s input
  generalize (c.step s input).1 = c' at hstepping ⊢
  cases hstepping with
  | handled hx hrun => exact (h.handled hrun s _).settle s
  | refused hx hidle => exact h
  | advanced hrun => exact (h.passed _).settle s
  | slept hidle => exact h.passed _
  | shutDown => exact h.shutDown

/-- The timer whose deadline has come is due at the tick that has begun. -/
theorem settling (htick : 1 ≤ config.tick) (s : Surroundings) :
    Settling c (c.settle s).engine := by
  unfold Client.settle
  split_ifs with hdue
  · obtain ⟨instant, hwake, hle⟩ := isTimerDue_iff.mp hdue
    obtain ⟨expiry, hnext, hinstant⟩ := Option.bind_eq_some_iff.mp hwake
    obtain ⟨⟨timer, ht, rfl⟩, -⟩ := Scheduler.nextDeadline_eq_some_iff.mp hnext
    rw [h.config] at hinstant
    have hbegun : timer.expiry ≤ Clock.ticksBegun c.engine.config.tick c.elapsed := by
      rw [h.config]
      exact (Clock.le_ticksBegun_iff_of_deadline htick (c.engine.timers.expiry_le timer ht) hinstant
        c.elapsed).mpr hle
    obtain ⟨chain, -, -, heq⟩ := h.timekeeping.fireTimers_of_due ht hbegun s
    exact .fired hwake hle (by rw [heq]; rfl)
      (h.timekeeping.expiries_fireTimers ht hbegun s)
  · refine .waiting fun instant hwake => Nat.lt_of_not_le fun hle => hdue ?_
    exact isTimerDue_iff.mpr ⟨instant, hwake, hle⟩

end Books

theorem books_run (started : Nat) (s₀ : Surroundings) (config : Config)
    (inputs : List (Surroundings × Input)) :
    Books started config (run started s₀ config inputs) := by
  induction inputs using List.reverseRecOn with
  | nil => exact Books.start started s₀ config
  | append_singleton inputs input ih =>
    rw [run_concat]
    exact ih.step input.1 input.2

end Client

namespace Lamp

def reply (number : UInt64) (payload : List UInt8) : Response := ⟨⟨number⟩, .ok, none, payload⟩

/-- The time on the clock when the client of the lamp starts: it has gone for an hour. -/
def started : Nat := 3600 * Clock.nanosecondsPerSecond

/-- The lamp is found and read, and two and a half seconds go by before it answers the update. -/
def approached : List (Surroundings × Input) :=
  [(.willing, .command (.discoverResource "t")),
    (.willing, .response (reply 1 (Payload.encode (.objects [link])))),
    (.willing, .response (reply 2 [])), (.willing, .advance 2500000000)]

/-- The lamp answers the update, and is observed from then on. -/
def followed : List (Surroundings × Input) := approached ++ [(.willing, .response (reply 3 []))]

end Lamp

end DeviceClient
