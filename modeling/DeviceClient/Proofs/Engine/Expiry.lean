import DeviceClient.Proofs.Engine.Deadline

namespace DeviceClient

namespace Effect

/-- Whether the effect reports that a timer has stopped the observation. -/
def isExpiry : Effect → Bool
  | reported (.observationStopped .expired) => true
  | _ => false

theorem isExpiry_reported_of_quiet {event : ClientEvent} (h : event.isOfChain = false) :
    (reported event).isExpiry = false := by
  cases event <;> simp_all [ClientEvent.isOfChain, isExpiry]

end Effect

namespace Engine

/-- How often a timer has stopped an observation. -/
def expiries (e : Engine) : Nat := e.log.countP Effect.isExpiry

variable (e : Engine) (s : Surroundings)

@[simp] theorem expiries_recordAll (effects : List Effect) :
    (e.recordAll effects).expiries = e.expiries + effects.countP Effect.isExpiry := by
  simp [expiries]

theorem expiries_request (operation : Operation) (build : Token → Request) :
    (e.request s operation build).1.expiries = e.expiries := by
  rw [request_eq]
  split <;> exact expiries_recordAll _ _

theorem expiries_readResource (r : Resource) (qos : Qos) :
    (e.readResource s r qos).1.expiries = e.expiries := by
  unfold readResource
  split
  · rfl
  · exact expiries_request e s _ _

theorem expiries_act (actions : List DiscoveryAction) :
    (act s e actions).1.expiries = e.expiries := by
  induction actions generalizing e with
  | nil => rfl
  | cons action actions ih =>
    cases action with
    | release endpoints => exact (ih _).trans (expiries_recordAll e [.released endpoints])
    | read r qos => exact (ih _).trans (expiries_readResource e s r qos)

theorem expiries_report {event : ClientEvent} (h : (Effect.reported event).isExpiry = false) :
    (e.report event).expiries = e.expiries := by
  simp [report_eq, h]

theorem expiries_stopChain {reason : StopReason} (hr : reason ≠ .expired) :
    (e.stopChain s reason).expiries = e.expiries := by
  cases hc : e.chain with
  | none => rw [stopChain_none e s hc]
  | some c =>
    by_cases hrun : c.state = .stopped
    · rw [stopChain_stopped e s hc hrun]
    · have hreport : (Effect.reported (.observationStopped reason)).isExpiry = false := by
        cases reason <;> first | rfl | exact absurd rfl hr
      rw [stopChain_running e s hc hrun, expiries_recordAll, List.countP_append,
        Chain.countP_farewell fun _ _ _ _ _ => rfl, List.countP_singleton, hreport]
      rfl

theorem expiries_takeDiscovered (d : Discovery) (p : Payload) :
    (e.takeDiscovered s d p).expiries = e.expiries := by
  simp only [takeDiscovered]
  have hact := expiries_act
    { e with discovery := some { d with search := (d.search.takeAll p.resources).1 } } s
    (d.search.takeAll p.resources).2.1
  generalize act s _ _ = acted at hact ⊢
  obtain ⟨e₁, read⟩ := acted
  split
  · exact hact
  · exact hact
  · have hforget : e₁.forgetDiscovery.expiries = e₁.expiries := by
      rw [expiries, log_forgetDiscovery]
      rfl
    have hstop := e₁.forgetDiscovery.expiries_stopChain s
      (show StopReason.requested ≠ .expired by simp)
    exact (expiries_report _ rfl).trans ((hstop.trans hforget).trans hact)

theorem Sending.expiries {e e₁ : Engine} {s : Surroundings} {now : Nat} {c : Chain}
    {r : ChainRequest} {result : Except ClientError Unit} (h : Sending e s now c r e₁ result) :
    e₁.expiries = e.expiries := by
  cases h with
  | noEndpoint hhead => rfl
  | unencodable hhead hbody => rfl
  | refused hhead hbody hsend => exact expiries_recordAll _ _
  | sent hhead hbody hsend hobserve => exact expiries_recordAll _ _
  | observed hhead hbody hsend hobserve => exact expiries_recordAll _ _

theorem expiries_handleDiscovery (r : Response) :
    (e.handleDiscovery s r).expiries = e.expiries := by
  unfold handleDiscovery
  split
  · rfl
  · split_ifs
    · split
      · exact expiries_takeDiscovered e s _ _
      · rfl
    · rfl

theorem expiries_handleChainStep (now : Nat) (method : Method) (index : Nat) (r : Response) :
    (e.handleChainStep s now method index r).expiries = e.expiries := by
  unfold handleChainStep
  split
  · rfl
  · split
    · rfl
    · exact expiries_report _ rfl
    · rename_i c request hrespond
      exact (expiries_report _ rfl).trans (sending { e with chain := some c } s now c request).expiries

theorem expiries_handleNotification (r : Response) :
    (e.handleNotification s r).expiries = e.expiries := by
  unfold handleNotification
  split
  · exact expiries_report e rfl
  · exact expiries_stopChain e s (by simp)

theorem expiries_handleResponse (now : Nat) (r : Response) :
    (e.handleResponse s now r).expiries = e.expiries := by
  unfold handleResponse
  split
  · rfl
  · rename_i operation pending hcorrelate
    cases operation with
    | discovery => exact expiries_handleDiscovery { e with pending := pending } s r
    | chainStep method index =>
      exact expiries_handleChainStep { e with pending := pending } s now method index r
    | observe => exact expiries_handleNotification { e with pending := pending } s r

theorem expiries_handleCommand (command : Command) :
    (e.handleCommand s command).1.expiries = e.expiries := by
  cases command with
  | discoverResource type =>
    have hrequest := expiries_request e.forgetDiscovery s .discovery
      fun token => .discovery token (some type)
    rw [expiries.eq_1 e.forgetDiscovery, log_forgetDiscovery] at hrequest
    simp only [handleCommand, discover]
    split <;> rename_i hresult <;> rw [hresult] at hrequest <;> exact hrequest
  | stopObservation => exact expiries_stopChain e s (by simp)
  | device command =>
    simp only [handleCommand, handleDeviceCommand]
    split
    · rfl
    · exact expiries_recordAll e _

theorem expiries_handleOnboarding (event : OnboardingEvent) :
    (e.handleOnboarding event).expiries = e.expiries := by
  have hcount : ((e.registry.apply event).2.map Effect.reported).countP Effect.isExpiry = 0 := by
    rw [List.countP_eq_zero]
    intro effect heffect
    obtain ⟨reported, hmem, rfl⟩ := List.mem_map.mp heffect
    rw [Effect.isExpiry_reported_of_quiet (e.registry.isOfChain_of_mem_apply event reported hmem)]
    simp
  simp only [handleOnboarding, foldl_report, expiries_recordAll, hcount]
  rfl

/-- Nothing but the timers reports that a timer has stopped the observation. -/
theorem expiries_handle {x : Stimulus} (hx : ∀ now, x ≠ .timers now) :
    (e.handle s x).expiries = e.expiries := by
  cases x with
  | command command => exact expiries_handleCommand e s command
  | response now r => exact expiries_handleResponse e s now r
  | onboarding event => exact expiries_handleOnboarding e event
  | timers now => exact absurd rfl (hx now)

/-- A timer that is due is reported once. -/
theorem Timekeeping.expiries_fireTimers {e : Engine} (h : e.Timekeeping)
    {timer : Timer DelayedAction} (ht : timer ∈ e.timers.timers) {now : Nat}
    (hdue : timer.expiry ≤ now) (s : Surroundings) :
    (e.fireTimers s now).expiries = e.expiries + 1 := by
  obtain ⟨c, -, -, heq⟩ := h.fireTimers_of_due ht hdue s
  rw [heq, expiries_recordAll, List.countP_append,
    Chain.countP_farewell fun _ _ _ _ _ => rfl]
  rfl

end Engine

end DeviceClient
