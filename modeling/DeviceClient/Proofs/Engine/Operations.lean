import DeviceClient.Proofs.Discovery
import DeviceClient.Proofs.Engine.Run
import DeviceClient.Proofs.Pending

namespace DeviceClient

namespace PendingRequests

/-- The table without the entries of some tokens. -/
def removeAll (p : PendingRequests) (tokens : List Token) : PendingRequests :=
  tokens.foldl remove p

@[simp] theorem removeAll_nil (p : PendingRequests) : p.removeAll [] = p := rfl

@[simp] theorem removeAll_cons (p : PendingRequests) (token : Token) (tokens : List Token) :
    p.removeAll (token :: tokens) = (p.remove token).removeAll tokens := rfl

theorem find?_removeAll (p : PendingRequests) (tokens : List Token) (other : Token) :
    (p.removeAll tokens).find? other = if other ∈ tokens then none else p.find? other := by
  induction tokens generalizing p with
  | nil => simp
  | cons token tokens ih =>
    rw [removeAll_cons, ih, find?_remove]
    by_cases ho : other = token <;> simp [ho]

@[simp] theorem nextToken_removeAll (p : PendingRequests) (tokens : List Token) :
    (p.removeAll tokens).nextToken = p.nextToken := by
  induction tokens generalizing p with
  | nil => rfl
  | cons token tokens ih => exact ih (p.remove token)

theorem Issued.removeAll {p : PendingRequests} {n : Nat} (h : p.Issued n) (tokens : List Token) :
    (p.removeAll tokens).Issued n := by
  induction tokens generalizing p with
  | nil => exact h
  | cons token tokens ih => exact ih (h.remove token)

end PendingRequests

namespace Observation

/-- The request that ends an observation. -/
def deregistration (o : Observation) (resource : Resource) (endpoint : Endpoint) (qos : Qos) :
    Request :=
  { Request.unicast o.token .get endpoint resource.uri qos with observe := some .deregister }

/-- What goes out to the device when an observation is stopped: the request that ends it, unless the
device has ended it. -/
def farewell (o : Observation) (s : Surroundings) (resource : Resource) (qos : Qos)
    (reason : StopReason) : List Effect :=
  match resource.endpoints.head? with
  | some endpoint =>
    if reason = .refused then []
    else
      [.sent (o.deregistration resource endpoint qos)
        (s.send (o.deregistration resource endpoint qos)).isNone]
  | none => []

/-- The timers after an observation is stopped. A timer that has fired is gone already. -/
def timersAfter (o : Observation) (reason : StopReason) (timers : Scheduler DelayedAction) :
    Scheduler DelayedAction :=
  match o.timer with
  | some timer => if reason = .expired then timers else (timers.cancel timer).2
  | none => timers

end Observation

namespace Chain

/-- The tokens that responses to the chain carry. -/
def tokens (c : Chain) : List Token := c.step.toList ++ (c.observation.map Observation.token).toList

/-- The timer that stops the observation of the chain. -/
def timer? (c : Chain) : Option Nat := c.observation.bind Observation.timer

/-- The chain when it is over. -/
def halt (c : Chain) : Chain := { c with state := .stopped, step := none, observation := none }

def farewell (c : Chain) (s : Surroundings) (qos : Qos) (reason : StopReason) : List Effect :=
  match c.observation with
  | some o => o.farewell s c.resource qos reason
  | none => []

def timersAfter (c : Chain) (reason : StopReason) (timers : Scheduler DelayedAction) :
    Scheduler DelayedAction :=
  match c.observation with
  | some o => o.timersAfter reason timers
  | none => timers

/-- A timer that has fired is not cancelled too. -/
theorem timersAfter_expired (c : Chain) (timers : Scheduler DelayedAction) :
    c.timersAfter .expired timers = timers := by
  simp only [Chain.timersAfter]
  cases c.observation with
  | none => rfl
  | some o =>
    simp only [Observation.timersAfter]
    cases o.timer <;> rfl

/-- Nothing but the request that ends the observation goes out. -/
theorem exists_of_mem_farewell {c : Chain} {s : Surroundings} {qos : Qos} {reason : StopReason}
    {effect : Effect} (h : effect ∈ c.farewell s qos reason) :
    ∃ (o : Observation) (endpoint : Endpoint) (accepted : Bool),
      effect = .sent (o.deregistration c.resource endpoint qos) accepted := by
  unfold farewell Observation.farewell at h
  split at h
  · split at h
    · split_ifs at h
      · cases h
      · exact ⟨_, _, _, List.mem_singleton.mp h⟩
    · cases h
  · cases h

/-- What no request that ends an observation counts for, the farewell does not count for. -/
theorem countP_farewell {p : Effect → Bool}
    (hp : ∀ (o : Observation) (r : Resource) (endpoint : Endpoint) (qos : Qos) (accepted : Bool),
      p (.sent (o.deregistration r endpoint qos) accepted) = false)
    (c : Chain) (s : Surroundings) (qos : Qos) (reason : StopReason) :
    (c.farewell s qos reason).countP p = 0 := by
  rw [List.countP_eq_zero]
  intro effect heffect
  obtain ⟨o, endpoint, accepted, rfl⟩ := exists_of_mem_farewell heffect
  rw [hp]
  exact Bool.false_ne_true

/-- The request that goes out for a request of the chain. -/
def outgoing (c : Chain) (qos : Qos) (endpoint : Endpoint) (r : ChainRequest)
    (payload : List UInt8) (token : Token) : Request :=
  { Request.unicast token r.method endpoint c.resource.uri qos with
    observe := r.observe
    payload := payload }

end Chain

/-- The operation that a request of a chain is registered as. -/
def ChainRequest.operation (r : ChainRequest) : Operation :=
  if r.observe.isSome then .observe else .chainStep r.method r.index

namespace Engine

variable (e : Engine) (s : Surroundings)

theorem request_eq (operation : Operation) (build : Token → Request) :
    e.request s operation build =
      match s.send (build e.pending.nextToken) with
      | none =>
        ({ e with pending := (e.pending.register operation).2 }.recordAll
          [.sent (build e.pending.nextToken) true], .ok e.pending.nextToken)
      | some error =>
        ({ e with
            pending := (e.pending.register operation).2.remove e.pending.nextToken }.recordAll
          [.sent (build e.pending.nextToken) false], .error error) := by
  unfold request
  cases hs : s.send (build e.pending.nextToken) <;>
    simp [send, record_eq, PendingRequests.register, PendingRequests.nextToken, recordAll] at hs ⊢ <;>
    simp [hs]

/-- The tokens of the search under way. -/
def searchTokens : List Token := (e.discovery.map Discovery.token).toList

theorem forgetDiscovery_eq :
    e.forgetDiscovery =
      { e with discovery := none, pending := e.pending.removeAll e.searchTokens } := by
  unfold forgetDiscovery searchTokens
  cases hd : e.discovery with
  | none => cases e; simp_all
  | some d => rfl

theorem act_releases (rs : List Resource) (actions : List DiscoveryAction) :
    act s e (rs.map Resource.release ++ actions) =
      act s (e.recordAll (rs.map fun r => Effect.released r.endpoints)) actions := by
  induction rs generalizing e with
  | nil => simp
  | cons r rs ih => simp [act, ih, record_eq, Resource.release]

/-- What becomes of the read of a resource that a search has found: the engine after it, and the
token of a read that has gone out. -/
inductive Reading (r : Resource) (qos : Qos) : Engine → Option Token → Prop
  | noEndpoint (hhead : r.endpoints.head? = none) : Reading r qos e none
  | refused {endpoint : Endpoint} {error : ClientError} (hhead : r.endpoints.head? = some endpoint)
      (hsend : s.send (.unicast e.pending.nextToken .get endpoint r.uri qos) = some error) :
      Reading r qos
        ({ e with
          pending :=
            (e.pending.register (.chainStep .get 0)).2.remove e.pending.nextToken }.recordAll
          [.sent (.unicast e.pending.nextToken .get endpoint r.uri qos) false]) none
  | sent {endpoint : Endpoint} (hhead : r.endpoints.head? = some endpoint)
      (hsend : s.send (.unicast e.pending.nextToken .get endpoint r.uri qos) = none) :
      Reading r qos
        ({ e with pending := (e.pending.register (.chainStep .get 0)).2 }.recordAll
          [.sent (.unicast e.pending.nextToken .get endpoint r.uri qos) true])
        (some e.pending.nextToken)

theorem reading (r : Resource) (qos : Qos) :
    Reading e s r qos (act s e [.read r qos]).1 (act s e [.read r qos]).2 := by
  simp only [act, readResource]
  cases hhead : r.endpoints.head? with
  | none => exact .noEndpoint hhead
  | some endpoint =>
    simp only [request_eq]
    cases hsend : s.send (.unicast e.pending.nextToken .get endpoint r.uri qos) with
    | none => exact .sent hhead hsend
    | some error => exact .refused hhead hsend

theorem endObservation_eq (c : Chain) (reason : StopReason) (index : Nat) (o : Observation) :
    e.endObservation s c reason (.observation index .deregister) o =
      { e with
        timers := o.timersAfter reason e.timers
        pending := e.pending.remove o.token }.recordAll
          (o.farewell s c.resource e.config.qos reason) := by
  unfold endObservation Observation.farewell Observation.timersAfter
  cases hh : c.resource.endpoints.head? with
  | none => cases ht : o.timer <;> simp
  | some endpoint =>
    by_cases hr : reason = .refused
    · cases ht : o.timer <;> simp [hr]
    · simp only [hr, if_false]
      cases ht : o.timer <;> rfl

/-- Stopping a chain that is not over. -/
theorem stopChain_running {c : Chain} (hc : e.chain = some c) (hr : c.state ≠ .stopped)
    (reason : StopReason) :
    e.stopChain s reason =
      { e with
        chain := some c.halt
        timers := c.timersAfter reason e.timers
        pending := e.pending.removeAll c.tokens }.recordAll
          (c.farewell s e.config.qos reason ++
            [Effect.reported (.observationStopped reason)]) := by
  unfold stopChain Chain.stop Chain.tokens Chain.farewell Chain.timersAfter
  simp only [hc, Option.bind_some, hr, if_false]
  cases ho : c.observation with
  | none => cases hs : c.step <;> simp [report_eq, Chain.halt, recordAll]
  | some o =>
    cases hs : c.step <;> simp [report_eq, endObservation_eq, Chain.halt, recordAll]

theorem stopChain_none (hc : e.chain = none) (reason : StopReason) :
    e.stopChain s reason = e := by
  simp [stopChain, hc]

theorem stopChain_stopped {c : Chain} (hc : e.chain = some c) (hr : c.state = .stopped)
    (reason : StopReason) : e.stopChain s reason = e := by
  simp [stopChain, hc, Chain.stop, hr]

/-- The timer that has fired is gone before the chain is stopped. -/
theorem timers_stopChain_expired : (e.stopChain s .expired).timers = e.timers := by
  cases hc : e.chain with
  | none => rw [stopChain_none e s hc]
  | some c =>
    by_cases hr : c.state = .stopped
    · rw [stopChain_stopped e s hc hr]
    · rw [stopChain_running e s hc hr, timers_recordAll, c.timersAfter_expired]

@[simp] theorem config_stopChain (reason : StopReason) :
    (e.stopChain s reason).config = e.config := by
  cases hc : e.chain with
  | none => rw [stopChain_none e s hc]
  | some c =>
    by_cases hr : c.state = .stopped
    · rw [stopChain_stopped e s hc hr]
    · rw [stopChain_running e s hc hr]
      rfl

/-- The tokens of the chain. -/
def chainTokens : List Token :=
  match e.chain with
  | some c => c.tokens
  | none => []

def timersAfter (reason : StopReason) : Scheduler DelayedAction :=
  match e.chain with
  | some c => c.timersAfter reason e.timers
  | none => e.timers

/-- What stopping the chain does to the world: nothing when there is none or it is over. -/
def closing (reason : StopReason) : List Effect :=
  match e.chain with
  | some c =>
    if c.state = .stopped then []
    else c.farewell s e.config.qos reason ++ [.reported (.observationStopped reason)]
  | none => []

theorem exists_of_mem_closing {e : Engine} {s : Surroundings} {reason : StopReason}
    {effect : Effect} (h : effect ∈ e.closing s reason) :
    (∃ (o : Observation) (r : Resource) (endpoint : Endpoint) (accepted : Bool),
      effect = .sent (o.deregistration r endpoint e.config.qos) accepted) ∨
      effect = .reported (.observationStopped reason) := by
  unfold closing at h
  split at h
  · split_ifs at h
    · cases h
    · rcases List.mem_append.mp h with hfarewell | hstopped
      · obtain ⟨o, endpoint, accepted, heq⟩ := Chain.exists_of_mem_farewell hfarewell
        exact .inl ⟨o, _, endpoint, accepted, heq⟩
      · exact .inr (List.mem_singleton.mp hstopped)
  · cases h

/-- Stopping the chain, when a chain that is over holds nothing. -/
theorem stopChain_eq (hover : ∀ c, e.chain = some c → c.state = .stopped → c.halt = c)
    (reason : StopReason) :
    e.stopChain s reason =
      { e with
        chain := e.chain.map Chain.halt
        timers := e.timersAfter reason
        pending := e.pending.removeAll e.chainTokens }.recordAll (e.closing s reason) := by
  unfold timersAfter chainTokens closing
  cases hc : e.chain with
  | none => rw [stopChain_none e s hc]; cases e; simp_all
  | some c =>
    by_cases hr : c.state = .stopped
    · have hh := hover c hc hr
      have hstep : c.step = none := by rw [← hh]; rfl
      have hobs : c.observation = none := by rw [← hh]; rfl
      rw [stopChain_stopped e s hc hr]
      cases e
      simp_all [Chain.tokens, Chain.timersAfter]
    · rw [stopChain_running e s hc hr]
      simp [hr]

/-- Giving up the search and the chain for another chain, as it happens when a search is over. -/
theorem replaceChain_eq {d : Discovery} (hd : e.discovery = some d)
    (hover : ∀ c, e.chain = some c → c.state = .stopped → c.halt = c) (chain : Option Chain)
    (event : ClientEvent) :
    { e.forgetDiscovery.stopChain s .requested with chain := chain }.report event =
      { e with
        discovery := none
        chain := chain
        timers := e.timersAfter .requested
        pending := (e.pending.remove d.token).removeAll e.chainTokens }.recordAll
          (e.closing s .requested ++ [Effect.reported event]) := by
  rw [forgetDiscovery_eq, stopChain_eq]
  · simp [searchTokens, hd, report_eq, recordAll, timersAfter, chainTokens, closing]
  · exact hover

@[simp] theorem config_forgetDiscovery : e.forgetDiscovery.config = e.config := by
  rw [forgetDiscovery_eq]

/-- What becomes of a request that a chain goes on with. Nothing is registered for a request that
does not go out. -/
inductive Sending (now : Nat) (c : Chain) (r : ChainRequest) :
    Engine → Except ClientError Unit → Prop
  | noEndpoint (hhead : c.resource.endpoints.head? = none) :
      Sending now c r e (.error (.noEndpoint c.resource.uri))
  | unencodable {endpoint : Endpoint} {error : ClientError}
      (hhead : c.resource.endpoints.head? = some endpoint)
      (hbody : e.encodeBody r.body = .error error) : Sending now c r e (.error error)
  | refused {endpoint : Endpoint} {payload : List UInt8} {error : ClientError}
      (hhead : c.resource.endpoints.head? = some endpoint)
      (hbody : e.encodeBody r.body = .ok payload)
      (hsend : s.send (c.outgoing e.config.qos endpoint r payload e.pending.nextToken) =
        some error) :
      Sending now c r
        ({ e with
          pending := (e.pending.register r.operation).2.remove e.pending.nextToken }.recordAll
          [.sent (c.outgoing e.config.qos endpoint r payload e.pending.nextToken) false])
        (.error error)
  | sent {endpoint : Endpoint} {payload : List UInt8}
      (hhead : c.resource.endpoints.head? = some endpoint)
      (hbody : e.encodeBody r.body = .ok payload)
      (hsend : s.send (c.outgoing e.config.qos endpoint r payload e.pending.nextToken) = none)
      (hobserve : r.observe ≠ some .register) :
      Sending now c r
        ({ e with
          pending := (e.pending.register r.operation).2
          chain := some (c.sent e.pending.nextToken) }.recordAll
          [.sent (c.outgoing e.config.qos endpoint r payload e.pending.nextToken) true])
        (.ok ())
  | observed {endpoint : Endpoint} {payload : List UInt8}
      (hhead : c.resource.endpoints.head? = some endpoint)
      (hbody : e.encodeBody r.body = .ok payload)
      (hsend : s.send (c.outgoing e.config.qos endpoint r payload e.pending.nextToken) = none)
      (hobserve : r.observe = some .register) :
      Sending now c r
        ({ e with
          pending := (e.pending.register r.operation).2
          timers := (e.timers.schedule now e.config.observationDelay .stopObservation).2
          chain := some (c.observing ⟨e.pending.nextToken, some e.timers.next⟩) }.recordAll
          [.sent (c.outgoing e.config.qos endpoint r payload e.pending.nextToken) true])
        (.ok ())

theorem sending (now : Nat) (c : Chain) (r : ChainRequest) :
    Sending e s now c r (e.sendChainRequest s now c r).1 (e.sendChainRequest s now c r).2 := by
  unfold sendChainRequest
  cases hhead : c.resource.endpoints.head? with
  | none => exact .noEndpoint hhead
  | some endpoint =>
    cases hbody : e.encodeBody r.body with
    | error error => exact .unencodable hhead hbody
    | ok payload =>
      simp only [request_eq]
      cases hsend : s.send (c.outgoing e.config.qos endpoint r payload e.pending.nextToken) with
      | some error =>
        rw [Chain.outgoing] at hsend
        simp only [hsend]
        exact .refused hhead hbody hsend
      | none =>
        rw [Chain.outgoing] at hsend
        simp only [hsend]
        by_cases hobserve : r.observe = some .register
        · rw [if_pos hobserve]
          exact .observed hhead hbody hsend hobserve
        · rw [if_neg hobserve]
          exact .sent hhead hbody hsend hobserve

section

variable {e e' : Engine}

theorem log_record (effect : Effect) : e.log <+: (e.record effect).log :=
  List.prefix_append _ _

theorem log_recordAll_of_eq {effects : List Effect} (h : e'.log = e.log) :
    e.log <+: (e'.recordAll effects).log := by
  rw [log_recordAll, h]
  exact List.prefix_append _ _

theorem log_request (operation : Operation) (build : Token → Request) :
    e.log <+: (e.request s operation build).1.log := by
  rw [request_eq]
  split <;> exact log_recordAll_of_eq rfl

theorem log_forgetDiscovery : e.forgetDiscovery.log = e.log := by rw [forgetDiscovery_eq]

theorem log_readResource (r : Resource) (qos : Qos) :
    e.log <+: (e.readResource s r qos).1.log := by
  unfold readResource
  split
  · exact List.prefix_refl _
  · exact log_request s _ _

theorem log_act (actions : List DiscoveryAction) : e.log <+: (act s e actions).1.log := by
  induction actions generalizing e with
  | nil => exact List.prefix_refl _
  | cons action actions ih =>
    cases action with
    | release endpoints => exact (log_record _).trans ih
    | read r qos => exact (log_readResource s r qos).trans ih

theorem log_stopChain (reason : StopReason) : e.log <+: (e.stopChain s reason).log := by
  cases hc : e.chain with
  | none => simp only [stopChain_none e s hc, List.prefix_refl]
  | some c =>
    by_cases hr : c.state = .stopped
    · simp only [stopChain_stopped e s hc hr, List.prefix_refl]
    · rw [stopChain_running e s hc hr]
      exact log_recordAll_of_eq rfl

theorem log_takeDiscovered (d : Discovery) (p : Payload) :
    e.log <+: (e.takeDiscovered s d p).log := by
  have hact := log_act s
    (e := { e with discovery := some { d with search := (d.search.takeAll p.resources).1 } })
    (d.search.takeAll p.resources).2.1
  simp only [takeDiscovered]
  split
  · exact hact
  · exact hact
  · refine hact.trans (List.IsPrefix.trans ?_ (log_record _))
    rw [← log_forgetDiscovery]
    exact log_stopChain s .requested

theorem Reading.log {r : Resource} {qos : Qos} {read : Option Token}
    (h : Reading e s r qos e' read) : e.log <+: e'.log := by
  cases h with
  | noEndpoint hhead => exact List.prefix_refl _
  | refused hhead hsend => exact log_recordAll_of_eq rfl
  | sent hhead hsend => exact log_recordAll_of_eq rfl

theorem Sending.log {now : Nat} {c : Chain} {r : ChainRequest}
    {result : Except ClientError Unit} (h : Sending e s now c r e' result) : e.log <+: e'.log := by
  cases h with
  | noEndpoint hhead => exact List.prefix_refl _
  | unencodable hhead hbody => exact List.prefix_refl _
  | refused hhead hbody hsend => exact log_recordAll_of_eq rfl
  | sent hhead hbody hsend hobserve => exact log_recordAll_of_eq rfl
  | observed hhead hbody hsend hobserve => exact log_recordAll_of_eq rfl

theorem log_handleChainStep (now : Nat) (method : Method) (index : Nat) (r : Response) :
    e.log <+: (e.handleChainStep s now method index r).log := by
  unfold handleChainStep
  split
  · exact List.prefix_refl _
  · split
    · exact List.prefix_refl _
    · exact log_recordAll_of_eq rfl
    · rename_i c request hrespond
      exact (sending { e with chain := some c } s now c request).log.trans (log_record _)

theorem log_handleResponse (now : Nat) (r : Response) :
    e.log <+: (e.handleResponse s now r).log := by
  unfold handleResponse
  split
  · exact List.prefix_refl _
  · rename_i operation pending hcorrelate
    cases operation with
    | discovery =>
      simp only [handleDiscovery]
      split
      · exact List.prefix_refl _
      · split_ifs
        · split
          · exact log_takeDiscovered (e := { e with pending := pending }) s _ _
          · exact List.prefix_refl _
        · exact List.prefix_refl _
    | chainStep method index =>
      exact log_handleChainStep (e := { e with pending := pending }) s now method index r
    | observe =>
      simp only [handleNotification]
      split
      · exact log_record (e := { e with pending := pending }) _
      · exact log_stopChain (e := { e with pending := pending }) s .refused

/-- What stopping the chain leaves alone, firing leaves alone. -/
theorem fireTimers_induction {P : Engine → Prop} {now : Nat}
    (hstop : ∀ e : Engine, P e → P (e.stopChain s .expired))
    (hexpired : P { e with timers := (e.timers.expired now).2 }) : P (e.fireTimers s now) :=
  List.foldlRecOn _ _ hexpired fun e he _ _ => hstop e he

/-- Firing takes away the timers that are due, and no others. -/
theorem timers_fireTimers (now : Nat) :
    (e.fireTimers s now).timers = (e.timers.expired now).2 := by
  refine fireTimers_induction (P := fun fired => fired.timers = (e.timers.expired now).2) s
    (fun fired hfired => ?_) rfl
  rw [timers_stopChain_expired, hfired]

theorem config_fireTimers (now : Nat) : (e.fireTimers s now).config = e.config := by
  refine fireTimers_induction (P := fun fired => fired.config = e.config) s
    (fun fired hfired => ?_) rfl
  rw [config_stopChain, hfired]

theorem log_fireTimers (now : Nat) : e.log <+: (e.fireTimers s now).log :=
  fireTimers_induction (P := fun fired => e.log <+: fired.log) s
    (fun fired hfired => hfired.trans (log_stopChain (e := fired) s .expired)) (List.prefix_refl _)

/-- What has happened stays in the log. -/
theorem log_handle (x : Stimulus) : e.log <+: (e.handle s x).log := by
  cases x with
  | command command =>
    cases command with
    | discoverResource type =>
      have hrequest := log_request (e := e.forgetDiscovery) s .discovery
        fun token => .discovery token (some type)
      rw [log_forgetDiscovery] at hrequest
      simp only [handle, handleCommand, discover]
      split <;> rename_i hresult <;> rwa [hresult] at hrequest
    | stopObservation => exact log_stopChain s .requested
    | device command =>
      simp only [handle, handleCommand, handleDeviceCommand]
      split
      · exact List.prefix_refl _
      · exact log_record _
  | response now r => exact log_handleResponse s now r
  | onboarding event =>
    simp only [handle, handleOnboarding, foldl_report]
    exact log_recordAll_of_eq rfl
  | timers now => exact log_fireTimers s now

theorem registrations_le_handle (x : Stimulus) : e.registrations ≤ (e.handle s x).registrations :=
  (log_handle s x).sublist.countP_le

end

theorem registrations_run_le_append (config : Config) (before after : List Step) :
    (run config before).registrations ≤ (run config (before ++ after)).registrations := by
  induction after using List.reverseRecOn with
  | nil => simp
  | append_singleton after step ih =>
    rw [← List.append_assoc, run_concat]
    exact Nat.le_trans ih (registrations_le_handle _ _)

/-- What is done up to the end of a search: what comes before the read, the read and what comes after
it. -/
theorem Reading.mem_since {e e₀ e₁ e' : Engine} {s : Surroundings} {r : Resource} {qos : Qos}
    {read : Option Token} (h : Reading e₀ s r qos e₁ read) {effect : Effect}
    (hmem : effect ∈ e'.since e) {before after : List Effect}
    (hbefore : e₀.log = e.log ++ before) (hafter : e'.log = e₁.log ++ after) :
    effect ∈ before ∨ effect ∈ e₁.since e₀ ∨ effect ∈ after := by
  have h₀ : e.log <+: e₀.log := ⟨before, hbefore.symm⟩
  have h₁ : e₁.log <+: e'.log := ⟨after, hafter.symm⟩
  rw [since_append (h₀.trans h.log) h₁, since_append h₀ h.log, since_eq_of_log hbefore,
    since_eq_of_log hafter] at hmem
  simpa [or_assoc] using hmem

end Engine

end DeviceClient
