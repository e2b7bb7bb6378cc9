import DeviceClient.Proofs.Engine.Ownership

namespace DeviceClient

/-- Whether the event is about a resource that has been discovered. -/
def ClientEvent.isOfChain : ClientEvent → Bool
  | resourceDiscovered _ | chainResponse _ _ _ _ | notification _ _ _ | observationStopped _ => true
  | _ => false

/-- Whether the effect is a request to a resource or an event about one. -/
def Effect.isOfChain : Effect → Bool
  | sent request _ => request.endpoint.isSome
  | reported event => event.isOfChain
  | _ => false

/-- Neither a request nor an event about a resource. -/
def Effect.IsQuiet (effect : Effect) : Prop :=
  effect.isOfChain = false ∧ effect.isRegistration = false

namespace Registry

theorem isOfChain_of_mem_transition (r : Registry) (device : DeviceId) (state : ProvisioningState) :
    ∀ reported ∈ (r.transition device state).2, reported.isOfChain = false := by
  unfold transition
  cases r.setState device state <;> simp [ClientEvent.isOfChain]

theorem isOfChain_of_mem_evict (r : Registry) (device : DeviceId) :
    ∀ reported ∈ (r.evict device).2, reported.isOfChain = false := by
  unfold evict
  cases r.contains device <;> simp [ClientEvent.isOfChain]

/-- The outcomes of the onboarding report nothing about a resource. -/
theorem isOfChain_of_mem_apply (r : Registry) (event : OnboardingEvent) :
    ∀ reported ∈ (r.apply event).2, reported.isOfChain = false := by
  cases event with
  | unownedDevice device endpoints => simp [apply, ClientEvent.isOfChain]
  | ownedDevice device endpoints => simp [apply, ClientEvent.isOfChain]
  | ownershipTransferred device status =>
    simp only [apply]
    split_ifs
    · simp [failed, ClientEvent.isOfChain]
    · exact r.isOfChain_of_mem_transition device .owned
  | credentialsProvisioned first second status =>
    simp only [apply]
    split_ifs <;> simp [failed, ClientEvent.isOfChain]
  | accessProvisioned device status =>
    simp only [apply]
    split_ifs
    · simpa [failed, ClientEvent.isOfChain] using r.isOfChain_of_mem_evict device
    · exact r.isOfChain_of_mem_transition device .aceProvisioned
  | deviceReset device status =>
    simp only [apply]
    split_ifs
    · simp [failed, ClientEvent.isOfChain]
    · exact r.isOfChain_of_mem_evict device

end Registry

namespace Chain

/-- The chain after an answer to the request under way, before the next request goes out. -/
def answered (c : Chain) (index : Nat) : Chain := ({ c with step := none }.next index).1

/-- The request that follows the one at a place. -/
def following (c : Chain) (index : Nat) : ChainRequest := (c.next index).2

@[simp] theorem step_answered (c : Chain) (index : Nat) : (c.answered index).step = none := by
  unfold answered next
  split <;> rfl

@[simp] theorem observation_answered (c : Chain) (index : Nat) :
    (c.answered index).observation = c.observation := by
  unfold answered next
  split <;> rfl

@[simp] theorem script_answered (c : Chain) (index : Nat) :
    (c.answered index).script = c.script := by
  unfold answered next
  split <;> rfl

@[simp] theorem resource_answered (c : Chain) (index : Nat) :
    (c.answered index).resource = c.resource := by
  unfold answered next
  split <;> rfl

/-- Whether an update or the observation follows is up to the length of the script. -/
theorem answered_cases (c : Chain) (index : Nat) :
    (∃ update, c.script[index]? = some update ∧ (c.answered index).state = .updating index ∧
      c.following index = ⟨index + 1, update.method, some update.body, none⟩) ∨
    (c.script[index]? = none ∧ (c.answered index).state = .observing ∧
      c.following index = .observation (index + 1) .register) := by
  unfold answered following next
  cases hu : c.script[index]? with
  | some update => exact .inl ⟨update, rfl, by simp, rfl⟩
  | none => exact .inr ⟨rfl, by simp, rfl⟩

/-- Whether the chain waits for the response: it has the token of the request under way. -/
def Awaits (c : Chain) (r : Response) (index : Nat) : Prop :=
  c.awaited? = some index ∧ c.step = some r.token

theorem respond_of_failed {c : Chain} {r : Response} (h : c.Awaits r 0)
    (hs : r.status.isSuccess = false) :
    c.respond r.token 0 r.status = ({ c with step := none, state := .stopped }, .ended) := by
  simp [respond, h.1, h.2, hs]

theorem respond_of_awaits {c : Chain} {r : Response} {index : Nat} (h : c.Awaits r index)
    (hs : index = 0 → r.status.isSuccess = true) :
    c.respond r.token index r.status = (c.answered index, .next (c.following index)) := by
  have hgo : ¬(index = 0 ∧ (!r.status.isSuccess) = true) := by
    intro hboth
    obtain ⟨hi, hf⟩ := hboth
    simp [hs hi] at hf
  simp only [respond, h.1, h.2, and_self, if_true, if_neg hgo, answered, following, next]
  cases c.script[index]? <;> rfl

theorem Sound.eq_halt_of_awaits {c : Chain} {script : Script} (h : c.Sound script) {r : Response}
    {index : Nat} (ha : c.Awaits r index) : { c with step := none, state := .stopped } = c.halt := by
  simp [Chain.halt, h.observation_of_step ha.2]

end Chain

namespace Engine

/-- The event that reports a response to the request at a place of a chain. -/
def responseEvent (index : Nat) (method : Method) (r : Response) : ClientEvent :=
  .chainResponse index method r.status r.representationOrEmpty

/-- What stops a chain, and the reason that is given for it. -/
inductive Stops (e : Engine) : Stimulus → StopReason → Prop
  | requested : Stops e (.command .stopObservation) .requested
  | refused {now : Nat} {r : Response} {c : Chain} {o : Observation} (hc : e.chain = some c)
      (ho : c.observation = some o) (htoken : r.token = o.token) (hseq : r.sequence = none) :
      Stops e (.response now r) .refused
  | expired {now : Nat} {timer : Timer DelayedAction} (ht : timer ∈ e.timers.timers)
      (hdue : timer.expiry ≤ now) : Stops e (.timers now) .expired

/-- The engine after a stimulus, by what happens. -/
inductive Reaction (e : Engine) (s : Surroundings) (x : Stimulus) : Engine → Prop
  /-- Nothing happens to the search, the chain and what they own. -/
  | quiet {registry : Registry} {effects : List Effect}
      (hquiet : ∀ effect ∈ effects, effect.IsQuiet)
      (htimers : ∀ now, x = .timers now → ∀ timer ∈ e.timers.timers, now < timer.expiry) :
      Reaction e s x ({ e with registry := registry }.recordAll effects)
  /-- A search takes the place of the one before it. -/
  | searching {type : String} {p : PendingRequests}
      (hx : x = .command (.discoverResource type)) (hp : p = e.pending.removeAll e.searchTokens)
      (hsend : s.send (.discovery p.nextToken (some type)) = none) :
      Reaction e s x
        ({ e with
          pending := (p.register .discovery).2
          discovery := some ⟨p.nextToken, .start type⟩ }.recordAll
          [.sent (.discovery p.nextToken (some type)) true])
  /-- The request of a search is refused; the search before it is gone. -/
  | searchRefused {type : String} {p : PendingRequests} {error : ClientError}
      (hx : x = .command (.discoverResource type)) (hp : p = e.pending.removeAll e.searchTokens)
      (hsend : s.send (.discovery p.nextToken (some type)) = some error) :
      Reaction e s x
        ({ e with
          pending := (p.register .discovery).2.remove p.nextToken
          discovery := none }.recordAll
          [.sent (.discovery p.nextToken (some type)) false])
  /-- The search is over. The chain of the resource takes the place of the one before it. -/
  | found {now : Nat} {response : Response} {d : Discovery} {search : Search}
      {before : List Resource} {r : Resource} {e₁ : Engine} {read : Option Token}
      (hx : x = .response now response) (hd : e.discovery = some d)
      (hread : Reading ({ e with discovery := some { d with search := search } }.recordAll
        (before.map fun r : Resource => Effect.released r.endpoints)) s r .low e₁ read) :
      Reaction e s x
        ({ e₁ with
          discovery := none
          chain := read.map (Chain.start r e.config.script).sent
          timers := e.timers.clear
          pending := (e₁.pending.remove d.token).removeAll e.chainTokens }.recordAll
          (e.closing s .requested ++ [Effect.reported (.resourceDiscovered r)]))
  | notified {now : Nat} {r : Response} {c : Chain} {o : Observation} {sequence : UInt32}
      (hx : x = .response now r) (hc : e.chain = some c) (ho : c.observation = some o)
      (htoken : r.token = o.token) (hseq : r.sequence = some sequence) :
      Reaction e s x
        (e.recordAll [.reported (.notification sequence r.status r.representationOrEmpty)])
  | stopped {c : Chain} {reason : StopReason} (hc : e.chain = some c) (hrun : c.state ≠ .stopped)
      (hstops : Stops e x reason) :
      Reaction e s x
        ({ e with
          chain := some c.halt
          timers := e.timers.clear
          pending := e.pending.removeAll c.tokens }.recordAll
          (c.farewell s e.config.qos reason ++ [Effect.reported (.observationStopped reason)]))
  | readFailed {now : Nat} {r : Response} {c : Chain} (hx : x = .response now r)
      (hc : e.chain = some c) (hawaits : c.Awaits r 0) (hstatus : r.status.isSuccess = false) :
      Reaction e s x
        ({ e with
          chain := some c.halt
          pending := e.pending.remove r.token }.recordAll
          [.reported (responseEvent 0 .get r)])
  /-- The chain goes on after an answer. -/
  | answered {now : Nat} {r : Response} {c : Chain} {index : Nat} {method : Method} {e₁ : Engine}
      {result : Except ClientError Unit} (hx : x = .response now r) (hc : e.chain = some c)
      (hawaits : c.Awaits r index) (hmethod : c.script.methodAt? index = some method)
      (hstatus : index = 0 → r.status.isSuccess = true)
      (hsending : Sending
        { e with chain := some (c.answered index), pending := e.pending.remove r.token }
        s now (c.answered index) (c.following index) e₁ result) :
      Reaction e s x (e₁.recordAll [.reported (responseEvent index method r)])

namespace Reaction

variable {e : Engine} {s : Surroundings} {x : Stimulus}

theorem quiet_refl (htimers : ∀ now, x = .timers now → ∀ timer ∈ e.timers.timers, now < timer.expiry) :
    Reaction e s x e := by
  have h : Reaction e s x ({ e with registry := e.registry }.recordAll []) :=
    .quiet (by simp) htimers
  rwa [recordAll_nil] at h

end Reaction

theorem Reading.frame {e e₁ : Engine} {s : Surroundings} {r : Resource} {qos : Qos}
    {read : Option Token} (h : Reading e s r qos e₁ read) :
    e₁.discovery = e.discovery ∧ e₁.chain = e.chain ∧ e₁.timers = e.timers ∧
      e₁.config = e.config := by
  cases h <;> exact ⟨rfl, rfl, rfl, rfl⟩

theorem Reading.head?_ne_none {e e₁ : Engine} {s : Surroundings} {r : Resource} {qos : Qos}
    {read : Option Token} (h : Reading e s r qos e₁ read) (hread : read ≠ none) :
    r.endpoints.head? ≠ none := by
  cases h with
  | noEndpoint hhead => exact absurd rfl hread
  | refused hhead hsend => exact absurd rfl hread
  | sent hhead hsend => simp [hhead]

theorem Sending.config {e e₁ : Engine} {s : Surroundings} {now : Nat} {c : Chain}
    {r : ChainRequest} {result : Except ClientError Unit}
    (h : Sending e s now c r e₁ result) : e₁.config = e.config := by
  cases h <;> rfl

theorem Reaction.config {e e' : Engine} {s : Surroundings} {x : Stimulus}
    (h : Reaction e s x e') : e'.config = e.config := by
  cases h with
  | found hx hd hread => exact hread.frame.2.2.2
  | answered hx hc hawaits hmethod hstatus hsending => exact hsending.config
  | _ => rfl

theorem Reaction.log {e e' : Engine} {s : Surroundings} {x : Stimulus}
    (h : Reaction e s x e') : e.log <+: e'.log := by
  cases h with
  | found hx hd hread =>
    exact ((log_recordAll_of_eq rfl).trans hread.log).trans (log_recordAll_of_eq rfl)
  | answered hx hc hawaits hmethod hstatus hsending =>
    exact hsending.log.trans (log_recordAll_of_eq rfl)
  | _ => exact log_recordAll_of_eq rfl

theorem reaction_discover (e : Engine) (s : Surroundings) (type : String) :
    Reaction e s (.command (.discoverResource type)) (e.discover s type).1 := by
  simp only [discover, request_eq, forgetDiscovery_eq]
  cases hsend : s.send (.discovery (e.pending.removeAll e.searchTokens).nextToken (some type)) with
  | none => exact .searching rfl rfl hsend
  | some error => exact .searchRefused rfl rfl hsend

theorem reaction_deviceCommand (e : Engine) (s : Surroundings) (command : DeviceCommand) :
    Reaction e s (.command (.device command)) (e.handleDeviceCommand s command).1 := by
  simp only [handleDeviceCommand]
  cases e.registry.callFor command with
  | error error => exact .quiet_refl (by simp)
  | ok call =>
    have hquiet : ∀ effect ∈ [Effect.called call], effect.IsQuiet := by
      simp [Effect.IsQuiet, Effect.isOfChain, Effect.isRegistration]
    exact .quiet hquiet (by simp)

theorem reaction_onboarding (e : Engine) (s : Surroundings) (event : OnboardingEvent) :
    Reaction e s (.onboarding event) (e.handleOnboarding event) := by
  simp only [handleOnboarding, foldl_report]
  refine .quiet (fun effect heffect => ?_) (by simp)
  obtain ⟨reported, hreported, rfl⟩ := List.mem_map.mp heffect
  exact ⟨e.registry.isOfChain_of_mem_apply event reported hreported, rfl⟩

namespace Bookkeeping

variable {e : Engine} (h : e.Bookkeeping) (s : Surroundings)

include h

/-- Stopping a chain that runs, when its timer has not fired. -/
theorem stopChain_eq {c : Chain} (hc : e.chain = some c) (hrun : c.state ≠ .stopped)
    {reason : StopReason} (hr : reason ≠ .expired) :
    e.stopChain s reason =
      { e with
        chain := some c.halt
        timers := e.timers.clear
        pending := e.pending.removeAll c.tokens }.recordAll
          (c.farewell s e.config.qos reason ++
            [Effect.reported (.observationStopped reason)]) := by
  have ht := h.timekeeping.timersAfter_eq hr
  simp only [timersAfter, hc] at ht
  rw [stopChain_running e s hc hrun, ht]

theorem reaction_stop :
    Reaction e s (.command .stopObservation) (e.stopChain s .requested) := by
  cases hc : e.chain with
  | none =>
    rw [stopChain_none e s hc]
    exact .quiet_refl (by simp)
  | some c =>
    by_cases hrun : c.state = .stopped
    · rw [stopChain_stopped e s hc hrun]
      exact .quiet_refl (by simp)
    · rw [h.stopChain_eq s hc hrun (by simp)]
      exact .stopped hc hrun .requested

theorem reaction_found {d : Discovery} (hd : e.discovery = some d) (now : Nat) (r : Response)
    (p : Payload) : Reaction e s (.response now r) (e.takeDiscovered s d p) := by
  have hopen := h.search d hd
  simp only [takeDiscovered]
  rcases Search.exists_first d.search p.resources with hnone | ⟨before, found, after, hp, hr, hb⟩
  · have hact := act_releases { e with discovery := some d } s p.resources []
    rw [List.append_nil] at hact
    simp only [Search.takeAll_of_forall_not hopen hnone, hact, act]
    rw [← hd]
    refine .quiet (fun effect heffect => ?_) (by simp)
    obtain ⟨r', -, rfl⟩ := List.mem_map.mp heffect
    exact ⟨rfl, rfl⟩
  · rw [hp, Search.takeAll_append_cons hopen hb hr]
    simp only [act_releases]
    have hread := reading ({ e with discovery := some { d with
      search := { d.search with found := some found } } }.recordAll
        (before.map fun r : Resource => Effect.released r.endpoints)) s found .low
    have hframe := hread.frame
    generalize act s _ [.read found .low] = acted at hread hframe ⊢
    obtain ⟨e₁, read⟩ := acted
    obtain ⟨hdisc, hchain, htimers, hconfig⟩ := hframe
    change e₁.chain = e.chain at hchain
    change e₁.timers = e.timers at htimers
    change e₁.config = e.config at hconfig
    have hover : ∀ c, e₁.chain = some c → c.state = .stopped → c.halt = c := by
      intro c hc hs
      exact h.halt_eq c (hchain ▸ hc) hs
    have htimers' : e₁.timersAfter .requested = e.timers.clear := by
      rw [← h.timekeeping.timersAfter_eq (show StopReason.requested ≠ .expired by simp)]
      simp only [timersAfter, hchain, htimers]
    have htokens : e₁.chainTokens = e.chainTokens := by simp only [chainTokens, hchain]
    have hclosing : e₁.closing s .requested = e.closing s .requested := by
      simp only [closing, hchain, hconfig]
    rw [replaceChain_eq e₁ s hdisc hover, htimers', htokens, hclosing]
    simp only [config_stopChain, config_forgetDiscovery, hconfig]
    have hreaction := Reaction.found (x := .response now r) rfl hd hread
    simpa only [hconfig] using hreaction

theorem reaction_discovery (now : Nat) (r : Response) :
    Reaction e s (.response now r) (e.handleDiscovery s r) := by
  unfold handleDiscovery
  split
  · exact .quiet_refl (by simp)
  · rename_i d hd
    split_ifs
    · split
      · exact h.reaction_found s hd now r _
      · exact .quiet_refl (by simp)
    · exact .quiet_refl (by simp)

/-- A response that belongs to a step of the chain is the answer that the chain waits for. -/
theorem exists_awaits {r : Response} {method : Method} {index : Nat}
    (hr : e.pending.find? r.token = some (.chainStep method index)) :
    ∃ c, e.chain = some c ∧ c.Awaits r index ∧ c.script.methodAt? index = some method := by
  have hown := (h.owned _ _).mp hr
  obtain ⟨c, hc, hstep, hindex, hmethod⟩ := owns_chainStep_iff.mp hown
  exact ⟨c, hc, ⟨hindex, hstep⟩, hmethod⟩

theorem reaction_chainStep (now : Nat) {r : Response} {method : Method} {index : Nat}
    (hr : e.pending.find? r.token = some (.chainStep method index)) :
    Reaction e s (.response now r)
      ({ e with pending := e.pending.remove r.token }.handleChainStep s now method index r) := by
  obtain ⟨c, hc, hawaits, hmethod⟩ := h.exists_awaits hr
  simp only [handleChainStep, hc]
  by_cases hfailed : index = 0 ∧ r.status.isSuccess = false
  · obtain ⟨rfl, hstatus⟩ := hfailed
    have hm : method = .get := by simpa [Script.methodAt?] using hmethod.symm
    rw [Chain.respond_of_failed hawaits hstatus, (h.sound c hc).eq_halt_of_awaits hawaits, hm]
    exact .readFailed rfl hc hawaits hstatus
  · have hstatus : index = 0 → r.status.isSuccess = true := by
      intro hi
      simpa [hi] using hfailed
    rw [Chain.respond_of_awaits hawaits hstatus]
    exact .answered rfl hc hawaits hmethod hstatus (sending _ s now _ _)

theorem reaction_notification (now : Nat) {r : Response}
    (hr : e.pending.find? r.token = some .observe) :
    Reaction e s (.response now r)
      ({ e with
        pending := (e.pending.correlate r.token r.sequence).2 }.handleNotification s r) := by
  obtain ⟨c, o, hc, ho, htoken⟩ := owns_observe_iff.mp ((h.owned _ _).mp hr)
  rw [PendingRequests.correlate_of_some hr]
  unfold handleNotification
  cases hseq : r.sequence with
  | some sequence => exact .notified rfl hc ho htoken.symm hseq
  | none =>
    have hsound := h.sound c hc
    have hrun : c.state ≠ .stopped := by simp [hsound.observation ho]
    have htokens : c.tokens = [r.token] := by
      simp [Chain.tokens, hsound.step_of_observation ho, ho, htoken]
    have htimers := h.timekeeping.timersAfter_eq (show StopReason.refused ≠ .expired by simp)
    simp only [timersAfter, hc] at htimers
    have hstopped := Reaction.stopped (s := s) (x := .response now r) hc hrun
      (.refused hc ho htoken.symm hseq)
    simp only [Operation.continues, Option.isSome_none, Bool.false_eq_true, if_false]
    rw [stopChain_running { e with pending := e.pending.remove r.token } s hc hrun]
    simpa only [htimers, htokens, PendingRequests.removeAll_cons, PendingRequests.remove_remove]
      using hstopped

theorem reaction_response (now : Nat) (r : Response) :
    Reaction e s (.response now r) (e.handleResponse s now r) := by
  unfold handleResponse
  cases hr : e.pending.find? r.token with
  | none =>
    rw [PendingRequests.correlate_of_none hr]
    exact .quiet_refl (by simp)
  | some operation =>
    cases operation with
    | discovery =>
      rw [PendingRequests.correlate_of_some hr]
      exact h.reaction_discovery s now r
    | chainStep method index =>
      rw [PendingRequests.correlate_of_some hr]
      exact h.reaction_chainStep s now hr
    | observe =>
      have hn := h.reaction_notification s now hr
      rw [PendingRequests.correlate_of_some hr] at hn ⊢
      exact hn

theorem reaction_timers (now : Nat) : Reaction e s (.timers now) (e.fireTimers s now) := by
  by_cases hdue : ∃ timer ∈ e.timers.timers, timer.expiry ≤ now
  · obtain ⟨timer, ht, hdue⟩ := hdue
    obtain ⟨c, hc, hstate, heq⟩ := h.timekeeping.fireTimers_of_due ht hdue s
    rw [heq]
    exact .stopped hc (by simp [hstate]) (.expired ht hdue)
  · have hearly : ∀ timer ∈ e.timers.timers, now < timer.expiry := by
      intro timer ht
      exact Nat.lt_of_not_le fun hle => hdue ⟨timer, ht, hle⟩
    rw [fireTimers_of_early hearly]
    refine .quiet_refl (fun tick htick => ?_)
    cases htick
    exact hearly

theorem reaction (x : Stimulus) : Reaction e s x (e.handle s x) := by
  cases x with
  | command command =>
    cases command with
    | discoverResource type => exact reaction_discover e s type
    | stopObservation => exact h.reaction_stop s
    | device command => exact reaction_deviceCommand e s command
  | response now r => exact h.reaction_response s now r
  | onboarding event => exact reaction_onboarding e s event
  | timers now => exact h.reaction_timers s now

end Bookkeeping

end Engine

end DeviceClient
