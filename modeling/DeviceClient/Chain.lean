import DeviceClient.Representation
import DeviceClient.Request
import DeviceClient.Resource
import DeviceClient.Status

namespace DeviceClient

structure Update where
  method : Method
  body : Representation

/-- The updates between the first read and the observation. -/
abbrev Script := List Update

namespace Script

def lightState (on : Bool) (power : Int64) : Representation :=
  [("state", .bool on), ("power", .int power)]

/-- Drives a light: on at power 15, off at power 105, and on again at power 55. -/
def light : Script :=
  [⟨.put, lightState true 15⟩, ⟨.post, lightState false 105⟩, ⟨.post, lightState true 55⟩]

end Script

/-- Why an observation stopped. -/
inductive StopReason where
  /-- Its time is over. -/
  | expired
  /-- A command asked for it, or another resource takes its place. -/
  | requested
  /-- The device answered without a sequence number. -/
  | refused
  deriving DecidableEq

def StopReason.name : StopReason → String
  | expired => "Expired"
  | requested => "Requested"
  | refused => "Refused"

inductive ChainState where
  | awaitingRead
  /-- The update at this place of the script is under way. -/
  | updating (place : Nat)
  | observing
  | stopped
  deriving DecidableEq

/-- The request at a place of the chain: the read has place 0, the updates follow. -/
structure ChainRequest where
  index : Nat
  method : Method
  body : Option Representation
  observe : Option ObserveAction

def ChainRequest.observation (index : Nat) (action : ObserveAction) : ChainRequest :=
  ⟨index, .get, none, some action⟩

/-- What a response does to a chain. -/
inductive ChainProgress where
  | ignored
  | next (request : ChainRequest)
  | ended

/-- A running observation: the token that registered it and the timer that stops it. -/
structure Observation where
  token : Token
  timer : Option Nat
  deriving DecidableEq

structure Chain where
  resource : Resource
  script : Script
  state : ChainState
  /-- The token of the request under way. -/
  step : Option Token
  observation : Option Observation

/-- What is left to clean up after a chain. -/
structure StoppedChain where
  step : Option Token
  /-- The running observation and the request that ends it. -/
  observation : Option (ChainRequest × Observation)

namespace Chain

def start (resource : Resource) (script : Script) : Chain :=
  ⟨resource, script, .awaitingRead, none, none⟩

/-- The place of the request whose answer the chain waits for. -/
def awaited? (c : Chain) : Option Nat :=
  match c.state with
  | .awaitingRead => some 0
  | .updating place => some (place + 1)
  | .observing | .stopped => none

def sent (c : Chain) (token : Token) : Chain := { c with step := some token }

def observing (c : Chain) (observation : Observation) : Chain :=
  { c with observation := some observation }

/-- Goes on after the answer to the request at a place. -/
def next (c : Chain) (completed : Nat) : Chain × ChainRequest :=
  match c.script[completed]? with
  | some update =>
    ({ c with state := .updating completed },
      ⟨completed + 1, update.method, some update.body, none⟩)
  | none => ({ c with state := .observing }, .observation (completed + 1) .register)

/-- Takes the response to the request at a place. A failed read ends the chain; a failed update does
not. -/
def respond (c : Chain) (token : Token) (index : Nat) (status : Status) : Chain × ChainProgress :=
  if c.awaited? = some index ∧ c.step = some token then
    let c := { c with step := none }
    if index = 0 ∧ !status.isSuccess then ({ c with state := .stopped }, .ended)
    else
      let (c, request) := c.next index
      (c, .next request)
  else (c, .ignored)

/-- Stops a chain that is not over yet. -/
def stop (c : Chain) : Option (Chain × StoppedChain) :=
  if c.state = .stopped then none
  else
    some ({ c with state := .stopped, step := none, observation := none },
      { step := c.step
        observation := c.observation.map fun o =>
          (.observation (c.script.length + 1) .deregister, o) })

end Chain

end DeviceClient
