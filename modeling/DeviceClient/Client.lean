import DeviceClient.Clock
import DeviceClient.Engine

namespace DeviceClient

/-- Something that happens to a client. -/
inductive Input where
  | command (command : Command)
  | response (response : Response)
  | onboarding (event : OnboardingEvent)
  /-- Nanoseconds go by. -/
  | advance (duration : Nat)
  | shutdown

structure Client where
  engine : Engine
  /-- The time of the start on the clock. -/
  started : Nat
  /-- The nanoseconds since the start. -/
  elapsed : Nat
  running : Bool

namespace Client

/-- Starts a client, unless the onboarding cannot use its storage. -/
def start (started : Nat) (s : Surroundings) (config : Config) :
    Client × Except ClientError Unit :=
  let call := OnboardingCall.configureStorage config.storage
  let engine := (Engine.start config).record (.called call)
  match s.call call with
  | some error => (⟨engine, started, 0, false⟩, .error error)
  | none => (⟨engine, started, 0, true⟩, .ok ())

/-- The time on the clock. -/
def time (c : Client) : Nat := c.started + c.elapsed

/-- The time at which the client is to wake up for its timers. -/
def wakeUp? (c : Client) : Option Nat :=
  c.engine.timers.nextDeadline.bind (Clock.deadline? c.started c.engine.config.tick)

/-- The tick at which commands and deliveries are handled now. -/
def now (c : Client) : Nat := Clock.ticksCovering c.engine.config.tick c.elapsed

/-- Whether the deadline of a timer has come. -/
def isTimerDue (c : Client) : Bool :=
  match c.wakeUp? with
  | some deadline => deadline ≤ c.time
  | none => false

/-- Fires the timers whose deadline has come. -/
def settle (c : Client) (s : Surroundings) : Client :=
  if c.isTimerDue then
    { c with
      engine := c.engine.fireTimers s (Clock.ticksBegun c.engine.config.tick c.elapsed) }
  else c

/-- Lets the engine handle something, if it is still running. -/
def handle (c : Client) (s : Surroundings) (f : Engine → Engine × Except ClientError Unit) :
    Client × Except ClientError Unit :=
  if c.running then
    let (engine, result) := f c.engine
    ({ c with engine := engine }.settle s, result)
  else (c, .error .shutdown)

def step (c : Client) (s : Surroundings) : Input → Client × Except ClientError Unit
  | .command command => c.handle s fun e => e.handleCommand s command
  | .response r => c.handle s fun e => (e.handleResponse s c.now r, .ok ())
  | .onboarding event => c.handle s fun e => (e.handleOnboarding event, .ok ())
  | .advance duration =>
    let c := { c with elapsed := c.elapsed + duration }
    (if c.running then c.settle s else c, .ok ())
  | .shutdown => ({ c with engine := c.engine.shutdown, running := false }, .ok ())

end Client

end DeviceClient
