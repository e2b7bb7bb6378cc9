import DeviceClient.Proofs.Engine.Bookkeeping

namespace DeviceClient

namespace Engine

/-- The chain, the timers and the configuration stay. -/
structure Unmoved (e e' : Engine) : Prop where
  chain : e'.chain = e.chain
  timers : e'.timers = e.timers
  config : e'.config = e.config

theorem Unmoved.trans {e₁ e₂ e₃ : Engine} (h₁ : Unmoved e₁ e₂) (h₂ : Unmoved e₂ e₃) :
    Unmoved e₁ e₃ :=
  ⟨h₂.chain.trans h₁.chain, h₂.timers.trans h₁.timers, h₂.config.trans h₁.config⟩

theorem Unmoved.observation? {e e' : Engine} (h : Unmoved e e') :
    e'.observation? = e.observation? := by
  rw [Engine.observation?, h.chain, Engine.observation?]

theorem Unmoved.timekeeping {e e' : Engine} (hmoved : Unmoved e e') (h : e.Timekeeping) :
    e'.Timekeeping where
  observing := by
    rw [hmoved.chain]
    exact h.observing
  timer := by
    rw [hmoved.observation?]
    exact h.timer
  timed := by
    rw [hmoved.timers, hmoved.observation?]
    exact h.timed

theorem unmoved_request (e : Engine) (s : Surroundings) (operation : Operation)
    (build : Token → Request) : Unmoved e (e.request s operation build).1 := by
  rw [request_eq]
  split <;> exact ⟨rfl, rfl, rfl⟩

theorem unmoved_readResource (e : Engine) (s : Surroundings) (r : Resource) (qos : Qos) :
    Unmoved e (e.readResource s r qos).1 := by
  unfold readResource
  split
  · exact ⟨rfl, rfl, rfl⟩
  · exact unmoved_request e s _ _

theorem unmoved_act (s : Surroundings) (e : Engine) (actions : List DiscoveryAction) :
    Unmoved e (act s e actions).1 := by
  induction actions generalizing e with
  | nil => exact ⟨rfl, rfl, rfl⟩
  | cons action actions ih =>
    cases action with
    | release endpoints =>
      have hrest := ih (e.record (.released endpoints))
      exact ⟨hrest.chain, hrest.timers, hrest.config⟩
    | read r qos => exact (unmoved_readResource e s r qos).trans (ih _)

/-- What becomes of the observation that runs and of the timers. -/
inductive Timing (e : Engine) (x : Stimulus) (e' : Engine) : Prop
  | kept (hobs : e'.observation? = e.observation?) (htimers : e'.timers = e.timers)
  | ended (hobs : e'.observation? = none) (htimers : e'.timers = e.timers.clear)
  | began {now : Nat} {r : Response} {request : Request} (hx : x = .response now r)
      (hbefore : e.observation? = none)
      (hobs : e'.observation? = some ⟨request.token, some e.timers.next⟩)
      (htimers : e'.timers =
        (e.timers.schedule now e.config.observationDelay .stopObservation).2)
      (hsent : .sent request true ∈ e'.since e) (hobserve : request.observe = some .register)

/-- The books of time go on: the observation and the timers change together. -/
structure Ticks (e : Engine) (x : Stimulus) (e' : Engine) : Prop where
  config : e'.config = e.config
  observing : ∀ {c o}, e'.chain = some c → c.observation = some o → c.state = .observing
  timing : Timing e x e'

theorem Unmoved.ticks {e e' : Engine} (hmoved : Unmoved e e') (h : e.Timekeeping) (x : Stimulus) :
    Ticks e x e' where
  config := hmoved.config
  observing := (hmoved.timekeeping h).observing
  timing := .kept hmoved.observation? hmoved.timers

/-- What an engine was before matters only for its configuration, observation, timers and log. -/
theorem Ticks.of_eq {e e₀ e' : Engine} {x : Stimulus} (h : Ticks e₀ x e')
    (hconfig : e₀.config = e.config) (hobs : e₀.observation? = e.observation?)
    (htimers : e₀.timers = e.timers) (hlog : e₀.log = e.log) : Ticks e x e' where
  config := h.config.trans hconfig
  observing := h.observing
  timing := by
    cases h.timing with
    | kept hobs' htimers' => exact .kept (hobs'.trans hobs) (htimers'.trans htimers)
    | ended hobs' htimers' => exact .ended hobs' (htimers'.trans (by rw [htimers]))
    | began hx hbefore hobs' htimers' hsent hobserve =>
      rw [htimers, hconfig] at htimers'
      rw [htimers] at hobs'
      rw [since, hlog] at hsent
      exact .began hx (hobs.symm.trans hbefore) hobs' htimers' hsent hobserve

theorem Ticks.report {e e' : Engine} {x : Stimulus} (h : Ticks e x e') (event : ClientEvent) :
    Ticks e x (e'.report event) where
  config := h.config
  observing := h.observing
  timing := by
    cases h.timing with
    | kept hobs htimers => exact .kept hobs htimers
    | ended hobs htimers => exact .ended hobs htimers
    | began hx hbefore hobs htimers hsent hobserve =>
      refine .began hx hbefore hobs htimers ?_ hobserve
      have hsuffix : (e'.report event).since e =
          (e'.log ++ [Effect.reported event]).drop e.log.length := rfl
      rw [hsuffix, List.drop_append]
      exact List.mem_append_left _ hsent

namespace Timekeeping

variable {e : Engine} (h : e.Timekeeping) (s : Surroundings)

include h

theorem observation?_of_stopped {c : Chain} (hc : e.chain = some c) (hstate : c.state = .stopped) :
    e.observation? = none := by
  rw [observation?, hc, Option.bind_some]
  exact h.observation_eq_none hc (by simp [hstate])

theorem timers_stopChain {reason : StopReason} (hr : reason ≠ .expired) :
    (e.stopChain s reason).timers = e.timers.clear := by
  have htimers := h.timersAfter_eq hr
  cases hc : e.chain with
  | none =>
    rw [stopChain_none e s hc]
    simpa only [timersAfter, hc] using htimers
  | some c =>
    by_cases hrun : c.state = .stopped
    · rw [stopChain_stopped e s hc hrun, h.timers_clear_of_none]
      exact h.observation?_of_stopped hc hrun
    · simp only [timersAfter, hc] at htimers
      rw [stopChain_running e s hc hrun]
      exact htimers

theorem observation?_stopChain (reason : StopReason) :
    (e.stopChain s reason).observation? = none := by
  cases hc : e.chain with
  | none => rw [stopChain_none e s hc, observation?, hc, Option.bind_none]
  | some c =>
    by_cases hrun : c.state = .stopped
    · rw [stopChain_stopped e s hc hrun]
      exact h.observation?_of_stopped hc hrun
    · rw [stopChain_running e s hc hrun]
      rfl

/-- Stopping the chain, by something else than its timer. -/
theorem ticks_stopChain {reason : StopReason} (hr : reason ≠ .expired) (x : Stimulus) :
    Ticks e x (e.stopChain s reason) where
  config := e.config_stopChain s reason
  observing := by
    intro c o hc ho
    have hnone := h.observation?_stopChain s reason
    rw [observation?, hc, Option.bind_some, ho] at hnone
    cases hnone
  timing := .ended (h.observation?_stopChain s reason) (h.timers_stopChain s hr)

theorem ticks_takeDiscovered (d : Discovery) (p : Payload) (x : Stimulus) :
    Ticks e x (e.takeDiscovered s d p) := by
  simp only [takeDiscovered]
  have hact := unmoved_act s
    { e with discovery := some { d with search := (d.search.takeAll p.resources).1 } }
    (d.search.takeAll p.resources).2.1
  generalize act s _ _ = acted at hact ⊢
  obtain ⟨e₁, read⟩ := acted
  have hmoved : Unmoved e e₁ := ⟨hact.chain, hact.timers, hact.config⟩
  split
  · exact hmoved.ticks h x
  · exact hmoved.ticks h x
  · rename_i r hflow hfound
    have hforget : Unmoved e e₁.forgetDiscovery := by
      rw [forgetDiscovery_eq]
      exact ⟨hmoved.chain, hmoved.timers, hmoved.config⟩
    have htimers := (hforget.timekeeping h).timers_stopChain s
      (show StopReason.requested ≠ .expired by simp)
    rw [hforget.timers] at htimers
    refine ⟨(config_stopChain _ s .requested).trans hforget.config, ?_, .ended ?_ htimers⟩
    · -- The chain of the resource, if it is read at all, has no observation yet.
      intro c o hc ho
      obtain ⟨token, -, rfl⟩ := Option.map_eq_some_iff.mp hc
      cases ho
    · cases read <;> rfl

theorem ticks_discovery (now : Nat) (r : Response) :
    Ticks e (.response now r) (e.handleDiscovery s r) := by
  unfold handleDiscovery
  split
  · exact Unmoved.ticks ⟨rfl, rfl, rfl⟩ h _
  · split_ifs
    · split
      · exact h.ticks_takeDiscovered s _ _ _
      · exact Unmoved.ticks ⟨rfl, rfl, rfl⟩ h _
    · exact Unmoved.ticks ⟨rfl, rfl, rfl⟩ h _

/-- The next request of a chain that has no observation goes out, or it does not. -/
theorem ticks_sending {c : Chain} (hc : e.chain = some c) (hobs : c.observation = none) {now : Nat}
    {request : ChainRequest} (hregister : request.observe = some .register → c.state = .observing)
    {e₁ : Engine} {result : Except ClientError Unit}
    (hsending : Sending e s now c request e₁ result) (r : Response) :
    Ticks e (.response now r) e₁ := by
  cases hsending with
  | noEndpoint hhead => exact Unmoved.ticks ⟨rfl, rfl, rfl⟩ h _
  | unencodable hhead hbody => exact Unmoved.ticks ⟨rfl, rfl, rfl⟩ h _
  | refused hhead hbody hsend =>
    refine Unmoved.ticks ?_ h _
    exact ⟨rfl, rfl, rfl⟩
  | sent hhead hbody hsend hobserve =>
    refine ⟨rfl, ?_, .kept ?_ rfl⟩
    · intro c' o hc' ho
      cases hc'
      rw [Chain.sent, hobs] at ho
      cases ho
    · simp [observation?, hc, Chain.sent]
  | observed hhead hbody hsend hobserve =>
    rename_i endpoint payload
    have hbefore : e.observation? = none := by simpa [observation?, hc] using hobs
    refine ⟨rfl, ?_, @Timing.began e _ _ now r (c.outgoing e.config.qos endpoint request payload
      e.pending.nextToken) rfl hbefore rfl rfl (by simp [since]) hobserve⟩
    intro c' o hc' ho
    cases hc'
    exact hregister hobserve

/-- The chain may change as long as it has no observation. -/
theorem replaceChain {c : Chain} (hc : e.chain = some c) (hobs : c.observation = none) {c' : Chain}
    (hobs' : c'.observation = none) : ({ e with chain := some c' } : Engine).Timekeeping where
  observing := by
    intro c₁ o hc₁ ho
    cases hc₁
    rw [hobs'] at ho
    cases ho
  timer := by
    intro o ho
    rw [observation?, Option.bind_some, hobs'] at ho
    cases ho
  timed := by simpa [observation?, hc, hobs, hobs'] using h.timed

theorem ticks_chainStep (now : Nat) (method : Method) (index : Nat) (r : Response) :
    Ticks e (.response now r) (e.handleChainStep s now method index r) := by
  unfold handleChainStep
  cases hc : e.chain with
  | none => exact Unmoved.ticks ⟨rfl, rfl, rfl⟩ h _
  | some c =>
    by_cases hawaits : c.Awaits r index
    · have hstate : c.state ≠ .observing := by
        intro hstate
        have hawaited := hawaits.1
        rw [Chain.awaited?_eq_none_of_observing hstate] at hawaited
        cases hawaited
      have hobs := h.observation_eq_none hc hstate
      by_cases hfailed : index = 0 ∧ r.status.isSuccess = false
      · obtain ⟨rfl, hstatus⟩ := hfailed
        simp only [Chain.respond_of_failed hawaits hstatus]
        have hended :
            ({ e with chain := some { c with step := none, state := .stopped } } : Engine).Timekeeping :=
          h.replaceChain hc hobs hobs
        have hticks : Ticks e (.response now r)
            { e with chain := some { c with step := none, state := .stopped } } :=
          ⟨rfl, hended.observing, .kept (by simp [observation?, hc, hobs]) rfl⟩
        exact hticks.report _
      · have hstatus : index = 0 → r.status.isSuccess = true := by
          intro hindex
          simpa [hindex] using hfailed
        simp only [Chain.respond_of_awaits hawaits hstatus]
        have hobs' := (c.observation_answered index).trans hobs
        have hnext := (h.replaceChain hc hobs hobs').ticks_sending s rfl hobs'
          (fun hregister => (Chain.operation_following_of_register hregister).2)
          (sending _ s now (c.answered index) (c.following index)) r
        have hticks := hnext.of_eq (e := e) rfl (by simp [observation?, hc, hobs]) rfl rfl
        exact hticks.report _
    · have hignored : c.respond r.token index r.status = (c, .ignored) := if_neg hawaits
      simp only [hignored]
      exact Unmoved.ticks ⟨rfl, rfl, rfl⟩ h _

theorem ticks_notification (now : Nat) (r : Response) :
    Ticks e (.response now r) (e.handleNotification s r) := by
  unfold handleNotification
  split
  · exact (Unmoved.ticks ⟨rfl, rfl, rfl⟩ h _).report _
  · exact h.ticks_stopChain s (by simp) _

theorem ticks_response (now : Nat) (r : Response) :
    Ticks e (.response now r) (e.handleResponse s now r) := by
  unfold handleResponse
  split
  · exact Unmoved.ticks ⟨rfl, rfl, rfl⟩ h _
  · rename_i operation pending hcorrelate
    have h' : ({ e with pending := pending } : Engine).Timekeeping :=
      ⟨h.observing, h.timer, h.timed⟩
    cases operation with
    | discovery => exact (h'.ticks_discovery s now r).of_eq rfl rfl rfl rfl
    | chainStep method index => exact (h'.ticks_chainStep s now method index r).of_eq rfl rfl rfl rfl
    | observe => exact (h'.ticks_notification s now r).of_eq rfl rfl rfl rfl

theorem ticks_timers (now : Nat) : Ticks e (.timers now) (e.fireTimers s now) := by
  by_cases hdue : ∃ timer ∈ e.timers.timers, timer.expiry ≤ now
  · obtain ⟨timer, ht, hdue⟩ := hdue
    obtain ⟨c, -, -, heq⟩ := h.fireTimers_of_due ht hdue s
    rw [heq]
    refine ⟨rfl, ?_, .ended rfl rfl⟩
    intro c' o hc' ho
    cases hc'
    cases ho
  · rw [fireTimers_of_early (fun timer ht => Nat.lt_of_not_le fun hle => hdue ⟨timer, ht, hle⟩)]
    exact Unmoved.ticks ⟨rfl, rfl, rfl⟩ h _

theorem ticks_command (command : Command) :
    Ticks e (.command command) (e.handleCommand s command).1 := by
  cases command with
  | discoverResource type =>
    have hforget : Unmoved e e.forgetDiscovery := by
      rw [forgetDiscovery_eq]
      exact ⟨rfl, rfl, rfl⟩
    have hmoved := hforget.trans (unmoved_request e.forgetDiscovery s .discovery
      fun token => .discovery token (some type))
    simp only [handleCommand, discover]
    split <;> rename_i hresult <;> rw [hresult] at hmoved
    · refine Unmoved.ticks ?_ h _
      exact ⟨hmoved.chain, hmoved.timers, hmoved.config⟩
    · exact hmoved.ticks h _
  | stopObservation => exact h.ticks_stopChain s (by simp) _
  | device command =>
    simp only [handleCommand, handleDeviceCommand]
    split <;> refine Unmoved.ticks ?_ h _ <;> exact ⟨rfl, rfl, rfl⟩

theorem ticks (x : Stimulus) : Ticks e x (e.handle s x) := by
  cases x with
  | command command => exact h.ticks_command s command
  | response now r => exact h.ticks_response s now r
  | onboarding event =>
    simp only [handle, handleOnboarding, foldl_report]
    refine Unmoved.ticks ?_ h _
    exact ⟨rfl, rfl, rfl⟩
  | timers now => exact h.ticks_timers s now

end Timekeeping

theorem Ticks.timekeeping {e e' : Engine} {x : Stimulus} (ht : Ticks e x e')
    (h : e.Timekeeping) : e'.Timekeeping := by
  refine ⟨ht.observing, ?_, ?_⟩
  · intro o ho
    cases ht.timing with
    | kept hobs htimers => exact h.timer (hobs.symm.trans ho)
    | ended hobs htimers => rw [hobs] at ho; cases ho
    | began hx hbefore hobs htimers hsent hobserve =>
      rw [hobs] at ho
      cases ho
      simp
  · cases ht.timing with
    | kept hobs htimers => rw [htimers, hobs, h.timed]
    | ended hobs htimers => rw [htimers, hobs]; rfl
    | began hx hbefore hobs htimers hsent hobserve =>
      simp [htimers, hobs, Scheduler.timers_schedule_of_nil (h.timers_eq_nil hbefore)]

/-- The books of time are right after every run. -/
theorem timekeeping_run (config : Config) (steps : List Step) :
    (run config steps).Timekeeping ∧ (run config steps).config = config := by
  induction steps using List.reverseRecOn with
  | nil => exact ⟨timekeeping_start config, rfl⟩
  | append_singleton steps step ih =>
    have hticks := ih.1.ticks step.1 step.2
    rw [run_concat]
    exact ⟨hticks.timekeeping ih.1, hticks.config.trans ih.2⟩

/-- Handling a response at the tick registers the observation: the request for it is accepted, and
the observation runs from then on. -/
inductive Registers (e : Engine) : Step → Nat → Observation → Prop
  | intro {s : Surroundings} {now : Nat} {r : Response} {request : Request} {o : Observation}
      (hsent : .sent request true ∈ (e.handle s (.response now r)).since e)
      (hobserve : request.observe = some .register) (htoken : request.token = o.token)
      (hbefore : e.observation? ≠ some o)
      (hafter : (e.handle s (.response now r)).observation? = some o) :
      Registers e (s, .response now r) now o

/-- Whether the observation has been registered in the run at the tick. -/
def RegisteredAt (config : Config) (steps : List Step) (o : Observation) (now : Nat) : Prop :=
  ∃ before step after, steps = before ++ step :: after ∧ (run config before).Registers step now o

theorem registeredAt_concat {config : Config} {steps : List Step} {step : Step} {o : Observation}
    {now : Nat} :
    RegisteredAt config (steps ++ [step]) o now ↔
      RegisteredAt config steps o now ∨ (run config steps).Registers step now o := by
  constructor
  · intro hregistered
    obtain ⟨before, first, after, hsteps, hregisters⟩ := hregistered
    rcases List.eq_nil_or_concat after with rfl | ⟨after, last, rfl⟩
    · obtain ⟨rfl, hstep⟩ := List.append_inj' hsteps rfl
      cases hstep
      exact .inr hregisters
    · rw [List.concat_eq_append, ← List.cons_append, ← List.append_assoc] at hsteps
      obtain ⟨rfl, -⟩ := List.append_inj' hsteps rfl
      exact .inl ⟨before, first, after, rfl, hregisters⟩
  · intro hor
    rcases hor with ⟨before, first, after, rfl, hregisters⟩ | hregisters
    · exact ⟨before, first, after ++ [step], by simp, hregisters⟩
    · exact ⟨steps, step, [], rfl, hregisters⟩

/-- The observations of a run: each has a timer of its own, and the one that runs has been registered
as long ago as its timer says. -/
structure Scheduled (config : Config) (steps : List Step) : Prop where
  handle : ∀ {o now}, RegisteredAt config steps o now →
    ∃ handle, o.timer = some handle ∧ handle < (run config steps).timers.next
  registered : ∀ {o}, (run config steps).observation? = some o →
    ∃ now, RegisteredAt config steps o now
  expiry : ∀ {o now}, (run config steps).observation? = some o → RegisteredAt config steps o now →
    ∀ timer ∈ (run config steps).timers.timers,
      timer.expiry = min (now + config.observationDelay) lastTick

theorem Registers.began {e : Engine} {step : Step} {now : Nat} {o : Observation}
    (h : e.Registers step now o) (hticks : Ticks e step.2 (e.handle step.1 step.2)) :
    o.timer = some e.timers.next ∧ e.observation? = none ∧
      (e.handle step.1 step.2).timers =
        (e.timers.schedule now e.config.observationDelay .stopObservation).2 := by
  obtain ⟨hsent, hobserve, htoken, hbefore, hafter⟩ := h
  cases hticks.timing with
  | kept hobs htimers => exact absurd (hobs.symm.trans hafter) hbefore
  | ended hobs htimers => rw [hafter] at hobs; cases hobs
  | began hx hnone hobs htimers hsent' hobserve' =>
    cases hx
    rw [hafter] at hobs
    cases hobs
    exact ⟨rfl, hnone, htimers⟩

/-- The observation has a timer, and while it runs the timer is due at the tick. -/
structure Timed (e : Engine) (o : Observation) (expiry : Nat) : Prop where
  handle : ∃ handle, o.timer = some handle ∧ handle < e.timers.next
  expiry : e.observation? = some o → ∀ timer ∈ e.timers.timers, timer.expiry = expiry

theorem Timed.of_over {e e' : Engine} {o : Observation} {expiry : Nat} (h : e.Timed o expiry)
    (hobs : e'.observation? = none) (hnext : e'.timers.next = e.timers.next) :
    e'.Timed o expiry where
  handle := by
    rw [hnext]
    exact h.handle
  expiry := by simp [hobs]

theorem Ticks.timed {e e' : Engine} {x : Stimulus} {o : Observation} {expiry : Nat}
    (hticks : Ticks e x e') (h : e.Timed o expiry) : e'.Timed o expiry := by
  cases hticks.timing with
  | kept hobs htimers =>
    refine ⟨?_, fun ho => ?_⟩
    · rw [htimers]
      exact h.handle
    · rw [htimers]
      exact h.expiry (hobs.symm.trans ho)
  | ended hobs htimers => exact h.of_over hobs (by rw [htimers]; rfl)
  | began hx hbefore hobs htimers hsent hobserve =>
    obtain ⟨handle, htimer, hlt⟩ := h.handle
    refine ⟨⟨handle, htimer, ?_⟩, fun ho => ?_⟩
    · rw [htimers]
      exact Nat.lt_succ_of_lt hlt
    · -- The observation that begins now has a timer of its own.
      rw [hobs] at ho
      cases ho
      cases htimer
      exact absurd hlt (Nat.lt_irrefl _)

theorem Registers.timed {e : Engine} {step : Step} {now : Nat} {o : Observation}
    (h : e.Registers step now o) (hbooks : e.Timekeeping) :
    (e.handle step.1 step.2).Timed o (min (now + e.config.observationDelay) lastTick) := by
  obtain ⟨htimer, hnone, htimers⟩ := h.began (hbooks.ticks step.1 step.2)
  refine ⟨⟨_, htimer, ?_⟩, fun _ timer ht => ?_⟩
  · rw [htimers]
    exact Nat.lt_succ_self _
  · rw [htimers, Scheduler.timers_schedule_of_nil (hbooks.timers_eq_nil hnone),
      List.mem_singleton] at ht
    rw [ht]

theorem Scheduled.timed {config : Config} {steps : List Step} (h : Scheduled config steps)
    {o : Observation} {now : Nat} (hregistered : RegisteredAt config steps o now) :
    (run config steps).Timed o (min (now + config.observationDelay) lastTick) :=
  ⟨h.handle hregistered, fun hobs => h.expiry hobs hregistered⟩

theorem scheduled_nil (config : Config) : Scheduled config [] := by
  have hnone {o : Observation} {now : Nat} : ¬RegisteredAt config [] o now := by
    intro hregistered
    obtain ⟨before, step, after, hsteps, -⟩ := hregistered
    simp at hsteps
  constructor
  · intro o now hregistered
    exact absurd hregistered hnone
  · intro o ho
    cases ho
  · intro o now ho
    cases ho

theorem scheduled_run (config : Config) (steps : List Step) : Scheduled config steps := by
  induction steps using List.reverseRecOn with
  | nil => exact scheduled_nil config
  | append_singleton steps step ih =>
    obtain ⟨hbooks, hconfig⟩ := timekeeping_run config steps
    have hticks := hbooks.ticks step.1 step.2
    have htimed {o : Observation} {now : Nat}
        (hregistered : RegisteredAt config (steps ++ [step]) o now) :
        (run config (steps ++ [step])).Timed o (min (now + config.observationDelay) lastTick) := by
      rw [run_concat]
      rcases registeredAt_concat.mp hregistered with hearlier | hregisters
      · exact hticks.timed (ih.timed hearlier)
      · have htimed := hregisters.timed hbooks
        rwa [hconfig] at htimed
    refine ⟨fun hregistered => (htimed hregistered).handle, ?_,
      fun hobs hregistered => (htimed hregistered).expiry hobs⟩
    intro o ho
    rw [run_concat] at ho
    cases hticks.timing with
    | kept hobs htimers =>
      obtain ⟨now, hregistered⟩ := ih.registered (hobs.symm.trans ho)
      exact ⟨now, registeredAt_concat.mpr (.inl hregistered)⟩
    | ended hobs htimers => rw [hobs] at ho; cases ho
    | began hx hbefore hobs htimers hsent hobserve =>
      rename_i now r request
      obtain ⟨s, x⟩ := step
      cases hx
      rw [hobs] at ho
      cases ho
      exact ⟨now, registeredAt_concat.mpr
        (.inr (.intro hsent hobserve rfl (by simp [hbefore]) hobs))⟩

theorem Scheduled.timers_eq {config : Config} {steps : List Step} (h : Scheduled config steps)
    {o : Observation} (hobs : (run config steps).observation? = some o) {start : Nat}
    (hregistered : RegisteredAt config steps o start) :
    ∃ timer, (run config steps).timers.timers = [timer] ∧
      timer.expiry = min (start + config.observationDelay) lastTick := by
  obtain ⟨timer, htimers, -⟩ := (timekeeping_run config steps).1.timers_eq_singleton hobs
  exact ⟨timer, htimers, h.expiry hobs hregistered timer (by simp [htimers])⟩

theorem nextDeadline_run (config : Config) (steps : List Step) (deadline : Nat) :
    (run config steps).timers.nextDeadline = some deadline ↔
      ∃ o start, (run config steps).observation? = some o ∧ RegisteredAt config steps o start ∧
        deadline = min (start + config.observationDelay) lastTick := by
  have hscheduled := scheduled_run config steps
  constructor
  · intro hnext
    cases hobs : (run config steps).observation? with
    | none =>
      have hnil := (timekeeping_run config steps).1.timers_eq_nil hobs
      simp [Scheduler.nextDeadline, hnil] at hnext
    | some o =>
      obtain ⟨start, hregistered⟩ := hscheduled.registered hobs
      obtain ⟨timer, htimers, hexpiry⟩ := hscheduled.timers_eq hobs hregistered
      refine ⟨o, start, rfl, hregistered, ?_⟩
      rw [← hexpiry]
      simpa [Scheduler.nextDeadline, htimers] using hnext.symm
  · intro hdue
    obtain ⟨o, start, hobs, hregistered, rfl⟩ := hdue
    obtain ⟨timer, htimers, hexpiry⟩ := hscheduled.timers_eq hobs hregistered
    simp [Scheduler.nextDeadline, htimers, hexpiry]

namespace Timekeeping

variable {e : Engine} (h : e.Timekeeping) (s : Surroundings)

include h

/-- Timers that fire stop the observation that runs, or nothing happens. -/
theorem fireTimers_cases (now : Nat) :
    (∃ timer ∈ e.timers.timers, timer.expiry ≤ now) ∧ (e.fireTimers s now).observation? = none ∧
        .reported (.observationStopped .expired) ∈ (e.fireTimers s now).since e ∧
        ((e.fireTimers s now).since e).countP Effect.isStop = 1 ∨
      (∀ timer ∈ e.timers.timers, now < timer.expiry) ∧ e.fireTimers s now = e := by
  by_cases hdue : ∃ timer ∈ e.timers.timers, timer.expiry ≤ now
  · obtain ⟨timer, ht, hle⟩ := hdue
    obtain ⟨c, -, -, heq⟩ := h.fireTimers_of_due ht hle s
    have hsince : (e.fireTimers s now).since e =
        c.farewell s e.config.qos .expired ++ [.reported (.observationStopped .expired)] := by
      apply since_eq_of_log
      rw [heq]
      rfl
    refine .inl ⟨⟨timer, ht, hle⟩, by rw [heq]; rfl, by simp [hsince], ?_⟩
    rw [hsince, List.countP_append, Chain.countP_farewell fun _ _ _ _ _ => rfl]
    rfl
  · have hearly : ∀ timer ∈ e.timers.timers, now < timer.expiry := by
      intro timer ht
      exact Nat.lt_of_not_le fun hle => hdue ⟨timer, ht, hle⟩
    exact .inr ⟨hearly, fireTimers_of_early hearly s⟩

end Timekeeping

/-- After every run the next deadline is that of the observation that runs: the delay after the tick
at which it was registered, or the last tick. Firing the timers stops that observation exactly when
its deadline has come, and stops nothing else; none whose deadline has come goes on. -/
theorem expires_on_time (config : Config) (steps : List Step) :
    ((run config steps).timers.nextDeadline.isSome ↔ (run config steps).observation?.isSome) ∧
    (∀ deadline, (run config steps).timers.nextDeadline = some deadline ↔
      ∃ o start, (run config steps).observation? = some o ∧ RegisteredAt config steps o start ∧
        deadline = min (start + config.observationDelay) lastTick) ∧
    ∀ s now,
      (.reported (.observationStopped .expired) ∈
          ((run config steps).fireTimers s now).since (run config steps) ↔
        ∃ o start, (run config steps).observation? = some o ∧ RegisteredAt config steps o start ∧
          min (start + config.observationDelay) lastTick ≤ now) ∧
      (∀ o start, RegisteredAt config steps o start →
        min (start + config.observationDelay) lastTick ≤ now →
        ((run config steps).fireTimers s now).observation? ≠ some o) ∧
      (((run config steps).fireTimers s now).since (run config steps)).countP Effect.isStop ≤ 1 := by
  have hbooks := (timekeeping_run config steps).1
  have hscheduled := scheduled_run config steps
  refine ⟨?_, nextDeadline_run config steps, fun s now => ⟨⟨?_, ?_⟩, ?_, ?_⟩⟩
  · constructor
    · intro hsome
      obtain ⟨deadline, hdeadline⟩ := Option.isSome_iff_exists.mp hsome
      obtain ⟨o, -, hobs, -⟩ := (nextDeadline_run config steps deadline).mp hdeadline
      simp [hobs]
    · intro hsome
      obtain ⟨o, hobs⟩ := Option.isSome_iff_exists.mp hsome
      obtain ⟨start, hregistered⟩ := hscheduled.registered hobs
      have hdeadline := (nextDeadline_run config steps _).mpr ⟨o, start, hobs, hregistered, rfl⟩
      simp [hdeadline]
  · intro hstop
    rcases hbooks.fireTimers_cases s now with ⟨⟨timer, ht, hle⟩, -⟩ | ⟨-, heq⟩
    · obtain ⟨-, o, hobs, -⟩ := hbooks.exists_observation ht
      obtain ⟨start, hregistered⟩ := hscheduled.registered hobs
      exact ⟨o, start, hobs, hregistered, (hscheduled.expiry hobs hregistered timer ht) ▸ hle⟩
    · rw [heq, since_self] at hstop
      cases hstop
  · intro hdue
    obtain ⟨o, start, hobs, hregistered, hle⟩ := hdue
    obtain ⟨timer, htimers, hexpiry⟩ := hscheduled.timers_eq hobs hregistered
    rcases hbooks.fireTimers_cases s now with ⟨-, -, hstop, -⟩ | ⟨hearly, -⟩
    · exact hstop
    · have hlt := hearly timer (by simp [htimers])
      omega
  · intro o start hregistered hle hobs
    rcases hbooks.fireTimers_cases s now with ⟨-, hnone, -⟩ | ⟨hearly, heq⟩
    · rw [hnone] at hobs
      cases hobs
    · rw [heq] at hobs
      obtain ⟨timer, htimers, hexpiry⟩ := hscheduled.timers_eq hobs hregistered
      have hlt := hearly timer (by simp [htimers])
      omega
  · rcases hbooks.fireTimers_cases s now with ⟨-, -, -, hcount⟩ | ⟨-, heq⟩
    · exact Nat.le_of_eq hcount
    · simp [heq]

set_option maxRecDepth 10000 in
/-- The lamp is observed from tick 0 on, for five ticks. -/
theorem expires_on_time_lamp :
    (run (Lamp.config 16) Lamp.observed).timers.nextDeadline = some 5 ∧
    .reported (.observationStopped .expired) ∉
      ((run (Lamp.config 16) Lamp.observed).fireTimers .willing 4).since
        (run (Lamp.config 16) Lamp.observed) ∧
    .reported (.observationStopped .expired) ∈
      ((run (Lamp.config 16) Lamp.observed).fireTimers .willing 5).since
        (run (Lamp.config 16) Lamp.observed) := by
  have hnext : (run (Lamp.config 16) Lamp.observed).timers.nextDeadline = some 5 := by
    decide +kernel
  obtain ⟨-, hdeadline, hfire⟩ := expires_on_time (Lamp.config 16) Lamp.observed
  refine ⟨hnext, fun hearly => ?_, (hfire .willing 5).1.mpr ?_⟩
  · obtain ⟨o, start, hobs, hregistered, hle⟩ := (hfire .willing 4).1.mp hearly
    have hdue := (hdeadline _).mpr ⟨o, start, hobs, hregistered, rfl⟩
    rw [hnext, Option.some.injEq] at hdue
    omega
  · obtain ⟨o, start, hobs, hregistered, hdue⟩ := (hdeadline 5).mp hnext
    exact ⟨o, start, hobs, hregistered, Nat.le_of_eq hdue.symm⟩

end Engine

end DeviceClient
