import Mathlib.Data.List.Induction
import DeviceClient.Engine

namespace DeviceClient

/-- Whether a token is issued for the effect. Every request has a token of its own, except the one
that ends an observation: it repeats the token that registered the observation. -/
def Effect.isRegistration : Effect → Bool
  | sent request _ => request.observe != some .deregister
  | _ => false

/-- Whether the effect reports that an observation has stopped. -/
def Effect.isStop : Effect → Bool
  | reported (.observationStopped _) => true
  | _ => false

namespace Engine

/-- Something that an engine handles, with the tick at which it does. -/
inductive Stimulus where
  | command (command : Command)
  | response (now : Nat) (response : Response)
  | onboarding (event : OnboardingEvent)
  | timers (now : Nat)

def handle (e : Engine) (s : Surroundings) : Stimulus → Engine
  | .command command => (e.handleCommand s command).1
  | .response now r => e.handleResponse s now r
  | .onboarding event => e.handleOnboarding event
  | .timers now => e.fireTimers s now

/-- A stimulus and the surroundings that it meets. -/
abbrev Step := Surroundings × Stimulus

def run (config : Config) (steps : List Step) : Engine :=
  steps.foldl (fun e step => e.handle step.1 step.2) (start config)

/-- The number of tokens that have been issued. -/
def registrations (e : Engine) : Nat := e.log.countP Effect.isRegistration

@[simp] theorem run_nil (config : Config) : run config [] = start config := rfl

@[simp] theorem run_concat (config : Config) (steps : List Step) (step : Step) :
    run config (steps ++ [step]) = (run config steps).handle step.1 step.2 := by
  simp [run]

/-- The engine after some more effects. -/
def recordAll (e : Engine) (effects : List Effect) : Engine := { e with log := e.log ++ effects }

section

variable (e : Engine) (effects : List Effect)

@[simp] theorem log_recordAll : (e.recordAll effects).log = e.log ++ effects := rfl
@[simp] theorem config_recordAll : (e.recordAll effects).config = e.config := rfl
@[simp] theorem pending_recordAll : (e.recordAll effects).pending = e.pending := rfl
@[simp] theorem timers_recordAll : (e.recordAll effects).timers = e.timers := rfl
@[simp] theorem registry_recordAll : (e.recordAll effects).registry = e.registry := rfl
@[simp] theorem discovery_recordAll : (e.recordAll effects).discovery = e.discovery := rfl
@[simp] theorem chain_recordAll : (e.recordAll effects).chain = e.chain := rfl

@[simp] theorem registrations_recordAll :
    (e.recordAll effects).registrations =
      e.registrations + effects.countP Effect.isRegistration := by
  simp [registrations]

@[simp] theorem recordAll_nil : e.recordAll [] = e := by simp [recordAll]

@[simp] theorem recordAll_recordAll (more : List Effect) :
    (e.recordAll effects).recordAll more = e.recordAll (effects ++ more) := by
  simp [recordAll]

end

/-- What an engine has done to the world since an earlier state of it. -/
def since (e earlier : Engine) : List Effect := e.log.drop earlier.log.length

theorem since_eq_of_log {e earlier : Engine} {effects : List Effect}
    (h : e.log = earlier.log ++ effects) : e.since earlier = effects := by
  rw [since, h, List.drop_left]

@[simp] theorem since_self (e : Engine) : e.since e = [] := List.drop_length

theorem log_eq_append_since {e e' : Engine} (hlog : e.log <+: e'.log) :
    e'.log = e.log ++ e'.since e := by
  obtain ⟨effects, heffects⟩ := hlog
  rw [since_eq_of_log heffects.symm, heffects]

theorem since_append {e₁ e₂ e₃ : Engine} (h₁ : e₁.log <+: e₂.log) (h₂ : e₂.log <+: e₃.log) :
    e₃.since e₁ = e₂.since e₁ ++ e₃.since e₂ := by
  apply since_eq_of_log
  rw [log_eq_append_since h₂, log_eq_append_since h₁, List.append_assoc]

theorem record_eq (e : Engine) (effect : Effect) : e.record effect = e.recordAll [effect] := rfl

theorem report_eq (e : Engine) (event : ClientEvent) :
    e.report event = e.recordAll [.reported event] := rfl

theorem foldl_report (e : Engine) (events : List ClientEvent) :
    events.foldl report e = e.recordAll (events.map .reported) := by
  induction events generalizing e with
  | nil => simp
  | cons event events ih => simp [ih, report_eq]

end Engine

/-- A network and an onboarding that refuse nothing. -/
def Surroundings.willing : Surroundings := ⟨fun _ => none, fun _ => none⟩

namespace Lamp

/-- How the lamp presents itself to a search. -/
def link : Representation :=
  [("href", .text "/l"), ("rt", .array [.text "t"]),
    ("eps", .objects [[("ep", .text "coap://1.2.3.4:5")]])]

/-- One update, whose body is as long as the capacity allows or longer. -/
def config (payloadCapacity : Nat) : Config where
  payloadCapacity := payloadCapacity
  script := [⟨.post, [("power", .int 15)]⟩]

def answer (number : UInt64) (payload : List UInt8) : Engine.Step :=
  (.willing, .response 0 ⟨⟨number⟩, .ok, none, payload⟩)

/-- An answer after which the network refuses what the engine sends. -/
def lost (number : UInt64) : Engine.Step :=
  (⟨fun _ => some (.reported .transport "down"), fun _ => none⟩, .response 0 ⟨⟨number⟩, .ok, none, []⟩)

/-- The search for the lamp and its answer, after which the read of the lamp is under way. -/
def found : List Engine.Step :=
  [(.willing, .command (.discoverResource "t")), answer 1 (Payload.encode (.objects [link]))]

/-- The read and the update are answered, after which the lamp is observed. -/
def observed : List Engine.Step := found ++ [answer 2 [], answer 3 []]

/-- The lamp notifies of a change, and then its observation expires. -/
def expired : List Engine.Step :=
  observed ++ [(.willing, .response 1 ⟨⟨4⟩, .ok, some 7, []⟩), (.willing, .timers 5)]

/-- Another search, which finds the lamp while its read is under way. -/
def foundAgain : List Engine.Step :=
  [(.willing, .command (.discoverResource "t")), answer 3 (Payload.encode (.objects [link]))]

end Lamp

end DeviceClient
