import DeviceClient.Discovery
import DeviceClient.Payload.Buffer
import DeviceClient.Pending
import DeviceClient.Power
import DeviceClient.Provisioning
import DeviceClient.Response
import DeviceClient.Scheduler

namespace DeviceClient

structure Config where
  /-- Where the onboarding keeps credentials. -/
  storage : String := "creds"
  /-- The length of a tick in nanoseconds. -/
  tick : Nat := 10 ^ 9
  /-- The number of ticks that an observation lasts. -/
  observationDelay : Nat := 5
  /-- The number of bytes that the payload of a request may have. -/
  payloadCapacity : Nat := Buffer.defaultCapacity
  /-- The quality of service of the requests of a chain. -/
  qos : Qos := .low
  script : Script := .light

/-- How the network and the onboarding answer: what they refuse, and why. -/
structure Surroundings where
  send : Request → Option ClientError
  call : OnboardingCall → Option ClientError

/-- Something that the engine does to the world. -/
inductive Effect where
  | sent (request : Request) (accepted : Bool)
  | released (endpoints : List Endpoint)
  | called (call : OnboardingCall)
  | reported (event : ClientEvent)

inductive Command where
  | discoverResource (type : String)
  | stopObservation
  | device (command : DeviceCommand)

/-- An action that is put off to a later tick. -/
inductive DelayedAction where
  | stopObservation
  deriving DecidableEq

/-- The search under way, with the token of its request. -/
structure Discovery where
  token : Token
  search : Search

structure Engine where
  config : Config
  pending : PendingRequests
  timers : Scheduler DelayedAction
  registry : Registry
  discovery : Option Discovery
  chain : Option Chain
  log : List Effect

namespace Engine

def start (config : Config) : Engine where
  config := config
  pending := .empty
  timers := .empty
  registry := .empty
  discovery := none
  chain := none
  log := []

def record (e : Engine) (effect : Effect) : Engine := { e with log := e.log ++ [effect] }

def report (e : Engine) (event : ClientEvent) : Engine := e.record (.reported event)

/-- Hands a request to the network, and tells why it is refused. -/
def send (e : Engine) (s : Surroundings) (request : Request) : Engine × Option ClientError :=
  (e.record (.sent request (s.send request).isNone), s.send request)

/-- Registers an operation, and sends its request under the token of it. A refused request leaves
nothing registered. -/
def request (e : Engine) (s : Surroundings) (operation : Operation) (build : Token → Request) :
    Engine × Except ClientError Token :=
  let (token, pending) := e.pending.register operation
  match { e with pending := pending }.send s (build token) with
  | (e, some error) => ({ e with pending := e.pending.remove token }, .error error)
  | (e, none) => (e, .ok token)

/-- Forgets the search under way. -/
def forgetDiscovery (e : Engine) : Engine :=
  match e.discovery with
  | some d => { e with discovery := none, pending := e.pending.remove d.token }
  | none => e

/-- Starts a search in place of the one under way. -/
def discover (e : Engine) (s : Surroundings) (type : String) : Engine × Except ClientError Unit :=
  match e.forgetDiscovery.request s .discovery fun token => .discovery token (some type) with
  | (e, .ok token) => ({ e with discovery := some ⟨token, .start type⟩ }, .ok ())
  | (e, .error error) => (e, .error error)

/-- Sends the first read to a resource. -/
def readResource (e : Engine) (s : Surroundings) (r : Resource) (qos : Qos) :
    Engine × Except ClientError Token :=
  match r.endpoints.head? with
  | none => (e, .error (.noEndpoint r.uri))
  | some endpoint =>
    e.request s (.chainStep .get 0) fun token => .unicast token .get endpoint r.uri qos

/-- Does what a search asks for; of a read that is sent, tells the token. -/
def act (s : Surroundings) : Engine → List DiscoveryAction → Engine × Option Token
  | e, [] => (e, none)
  | e, .release endpoints :: rest => act s (e.record (.released endpoints)) rest
  | e, .read r qos :: rest =>
    let (e, result) := e.readResource s r qos
    let (e, later) := act s e rest
    (e, later.or result.toOption)

/-- Ends the observation of a chain that has been stopped. The device is told, unless it has refused
the observation itself. -/
def endObservation (e : Engine) (s : Surroundings) (c : Chain) (reason : StopReason)
    (request : ChainRequest) (o : Observation) : Engine :=
  let timers := match o.timer with
    | some timer => if reason = .expired then e.timers else (e.timers.cancel timer).2
    | none => e.timers
  let e := { e with timers := timers, pending := e.pending.remove o.token }
  match c.resource.endpoints.head? with
  | some endpoint =>
    if reason = .refused then e
    else
      (e.send s { Request.unicast o.token request.method endpoint c.resource.uri e.config.qos with
        observe := request.observe }).1
  | none => e

/-- Stops the chain, unless there is none or it is over. -/
def stopChain (e : Engine) (s : Surroundings) (reason : StopReason) : Engine :=
  match e.chain.bind Chain.stop with
  | none => e
  | some (c, stopped) =>
    let e := { e with chain := some c }
    let e := match stopped.step with
      | some token => { e with pending := e.pending.remove token }
      | none => e
    let e := match stopped.observation with
      | some (request, o) => e.endObservation s c reason request o
      | none => e
    e.report (.observationStopped reason)

/-- The bytes of the body of a request. -/
def encodeBody (e : Engine) : Option Representation → Except ClientError (List UInt8)
  | none => .ok []
  | some body =>
    match (Buffer.empty e.config.payloadCapacity).encode body with
    | (b, .ok _) => .ok b.content
    | (_, .error error) => .error (.encoding error)

/-- Sends the next request of a chain. An observation that is registered is stopped by a timer. -/
def sendChainRequest (e : Engine) (s : Surroundings) (now : Nat) (c : Chain)
    (r : ChainRequest) : Engine × Except ClientError Unit :=
  match c.resource.endpoints.head? with
  | none => (e, .error (.noEndpoint c.resource.uri))
  | some endpoint =>
    match e.encodeBody r.body with
    | .error error => (e, .error error)
    | .ok payload =>
      let operation := if r.observe.isSome then .observe else .chainStep r.method r.index
      let build (token : Token) : Request :=
        { Request.unicast token r.method endpoint c.resource.uri e.config.qos with
          observe := r.observe
          payload := payload }
      match e.request s operation build with
      | (e, .error error) => (e, .error error)
      | (e, .ok token) =>
        if r.observe = some .register then
          let (timer, timers) := e.timers.schedule now e.config.observationDelay .stopObservation
          ({ e with timers := timers, chain := some (c.observing ⟨token, some timer⟩) }, .ok ())
        else ({ e with chain := some (c.sent token) }, .ok ())

/-- Takes a response to a discovery request. When the search is over, a chain starts with the
resource that was found, in place of the chain before it. -/
def takeDiscovered (e : Engine) (s : Surroundings) (d : Discovery) (p : Payload) : Engine :=
  let (search, actions, flow) := d.search.takeAll p.resources
  let (e, read) := act s { e with discovery := some { d with search := search } } actions
  match flow, search.found with
  | .proceed, _ | .stop, none => e
  | .stop, some resource =>
    let e := (e.forgetDiscovery).stopChain s .requested
    let chain := read.map fun token => (Chain.start resource e.config.script).sent token
    { e with chain := chain }.report (.resourceDiscovered resource)

def handleDiscovery (e : Engine) (s : Surroundings) (r : Response) : Engine :=
  match e.discovery with
  | none => e
  | some d =>
    if d.token = r.token then
      match r.decode with
      | .ok p => e.takeDiscovered s d p
      | .error _ => e
    else e

/-- Takes the response to a request of the chain. The next request goes out before the response is
reported, and one that cannot go out is given up. -/
def handleChainStep (e : Engine) (s : Surroundings) (now : Nat) (method : Method) (index : Nat)
    (r : Response) : Engine :=
  match e.chain with
  | none => e
  | some c =>
    let answered (e : Engine) :=
      e.report (.chainResponse index method r.status r.representationOrEmpty)
    match c.respond r.token index r.status with
    | (_, .ignored) => e
    | (c, .ended) => answered { e with chain := some c }
    | (c, .next request) =>
      answered ({ e with chain := some c }.sendChainRequest s now c request).1

def handleNotification (e : Engine) (s : Surroundings) (r : Response) : Engine :=
  match r.sequence with
  | some sequence => e.report (.notification sequence r.status r.representationOrEmpty)
  | none => e.stopChain s .refused

def handleResponse (e : Engine) (s : Surroundings) (now : Nat) (r : Response) : Engine :=
  match e.pending.correlate r.token r.sequence with
  | (none, _) => e
  | (some operation, pending) =>
    let e := { e with pending := pending }
    match operation with
    | .discovery => e.handleDiscovery s r
    | .chainStep method index => e.handleChainStep s now method index r
    | .observe => e.handleNotification s r

/-- Asks the onboarding for what a command wants, when the registry allows it. -/
def handleDeviceCommand (e : Engine) (s : Surroundings) (c : DeviceCommand) :
    Engine × Except ClientError Unit :=
  match e.registry.callFor c with
  | .error error => (e, .error error)
  | .ok call =>
    (e.record (.called call), match s.call call with
      | some error => .error error
      | none => .ok ())

def handleCommand (e : Engine) (s : Surroundings) : Command → Engine × Except ClientError Unit
  | .discoverResource type => e.discover s type
  | .stopObservation => (e.stopChain s .requested, .ok ())
  | .device command => e.handleDeviceCommand s command

def handleOnboarding (e : Engine) (event : OnboardingEvent) : Engine :=
  let (registry, events) := e.registry.apply event
  events.foldl report { e with registry := registry }

/-- Fires the timers that are due. -/
def fireTimers (e : Engine) (s : Surroundings) (now : Nat) : Engine :=
  let (due, timers) := e.timers.expired now
  due.foldl
    (fun e timer => match timer.action with
      | .stopObservation => e.stopChain s .expired)
    { e with timers := timers }

/-- Drops everything that is under way; the registry stays. -/
def shutdown (e : Engine) : Engine :=
  { e with
    pending := e.pending.clear
    timers := e.timers.clear
    discovery := none
    chain := none }

end Engine

end DeviceClient
