import DeviceClient.Proofs.Engine.Bookkeeping

namespace DeviceClient

namespace Effect

/-- Whether the effect reports a notification. -/
def isNotification : Effect → Bool
  | reported (.notification _ _ _) => true
  | _ => false

theorem isNotification_of_quiet {effect : Effect} (h : effect.isOfChain = false) :
    effect.isNotification = false := by
  unfold isNotification
  split
  · cases h
  · rfl

theorem isStop_of_quiet {effect : Effect} (h : effect.isOfChain = false) :
    effect.isStop = false := by
  unfold isStop
  split
  · cases h
  · rfl

end Effect

namespace Engine

/-- Whether an observation has been registered that has not been stopped since. -/
def Registered (log : List Effect) : Prop :=
  ∃ (earlier : List Effect) (request : Request) (later : List Effect),
    log = earlier ++ .sent request true :: later ∧ request.observe = some .register ∧
      ∀ effect ∈ later, effect.isStop = false

theorem Registered.append {log new : List Effect} (h : Registered log)
    (hnew : ∀ effect ∈ new, effect.isStop = false) : Registered (log ++ new) := by
  obtain ⟨earlier, request, later, rfl, hobserve, hlater⟩ := h
  refine ⟨earlier, request, later ++ new, by simp, hobserve, ?_⟩
  exact List.forall_mem_append.mpr ⟨hlater, hnew⟩

/-- An observation that runs after a request of the chain has been registered with it. -/
theorem Sending.registered {e e₁ : Engine} {s : Surroundings} {now : Nat} {c : Chain}
    {r : ChainRequest} {result : Except ClientError Unit} (h : Sending e s now c r e₁ result)
    (hc : e.chain = some c) (hnone : c.observation = none) (hobs : e₁.observation?.isSome) :
    Registered e₁.log := by
  have hnot : ¬e.observation?.isSome := by simp [observation?, hc, hnone]
  cases h with
  | noEndpoint hhead => exact absurd hobs hnot
  | unencodable hhead hbody => exact absurd hobs hnot
  | refused hhead hbody hsend => exact absurd hobs hnot
  | sent hhead hbody hsend hobserve => simp [observation?, Chain.sent, hnone] at hobs
  | observed hhead hbody hsend hobserve => exact ⟨e.log, _, [], rfl, hobserve, by simp⟩

/-- While an observation runs, it has been registered and has not been stopped. -/
theorem Reaction.registered {e e' : Engine} {s : Surroundings} {x : Stimulus}
    (h : Reaction e s x e') (hbooks : e.Bookkeeping)
    (hbefore : e.observation?.isSome → Registered e.log) (hobs : e'.observation?.isSome) :
    Registered e'.log := by
  cases h with
  | quiet hquiet htimers =>
    exact (hbefore hobs).append fun effect heffect =>
      Effect.isStop_of_quiet (hquiet effect heffect).1
  | searching hx hp hsend => exact (hbefore hobs).append (by simp [Effect.isStop])
  | searchRefused hx hp hsend => exact (hbefore hobs).append (by simp [Effect.isStop])
  | found hx hd hread =>
    rename_i now response d search released r e₁ read
    cases read <;> cases hobs
  | notified hx hc ho htoken hseq => exact (hbefore hobs).append (by simp [Effect.isStop])
  | stopped hc hrun hstops => cases hobs
  | readFailed hx hc hawaits hstatus => cases hobs
  | answered hx hc hawaits hmethod hstatus hsending =>
    rename_i now r c index method e₁ result
    have hnone := (hbooks.sound c hc).observation_of_step hawaits.2
    have hsent := hsending.registered rfl ((c.observation_answered index).trans hnone) hobs
    exact hsent.append (by simp [responseEvent, Effect.isStop])

theorem registered_run {config : Config} {steps : List Step}
    (hbound : (run config steps).registrations < 2 ^ 64) :
    (run config steps).observation?.isSome → Registered (run config steps).log := by
  apply run_induction (P := fun e => e.observation?.isSome → Registered e.log) _ _ hbound
  · intro hobs
    cases hobs
  · intro e s x e' hbooks hbefore hreaction hobs
    exact hreaction.registered hbooks hbefore hobs

theorem Reading.isNotification {e e₁ : Engine} {s : Surroundings} {r : Resource} {qos : Qos}
    {read : Option Token} (h : Reading e s r qos e₁ read) {effect : Effect}
    (hmem : effect ∈ e₁.since e) : effect.isNotification = false := by
  cases h with
  | noEndpoint hhead => simp at hmem
  | refused hhead hsend =>
    obtain rfl := by simpa [since] using hmem
    rfl
  | sent hhead hsend =>
    obtain rfl := by simpa [since] using hmem
    rfl

theorem Sending.isNotification {e e₁ : Engine} {s : Surroundings} {now : Nat} {c : Chain}
    {r : ChainRequest} {result : Except ClientError Unit} (h : Sending e s now c r e₁ result)
    {effect : Effect} (hmem : effect ∈ e₁.since e) : effect.isNotification = false := by
  cases h with
  | noEndpoint hhead => simp at hmem
  | unencodable hhead hbody => simp at hmem
  | refused hhead hbody hsend =>
    obtain rfl := by simpa [since] using hmem
    rfl
  | sent hhead hbody hsend hobserve =>
    obtain rfl := by simpa [since] using hmem
    rfl
  | observed hhead hbody hsend hobserve =>
    obtain rfl := by simpa [since] using hmem
    rfl

/-- A notification comes alone, while an observation runs. -/
theorem Reaction.notification {e e' : Engine} {s : Surroundings} {x : Stimulus}
    (h : Reaction e s x e') {effect : Effect} (hnotification : effect.isNotification = true)
    (hmem : effect ∈ e'.since e) : e'.since e = [effect] ∧ e.observation?.isSome := by
  cases h with
  | quiet hquiet htimers =>
    have heffect := hquiet effect (by simpa [since] using hmem)
    rw [Effect.isNotification_of_quiet heffect.1] at hnotification
    cases hnotification
  | searching hx hp hsend =>
    obtain rfl := by simpa [since] using hmem
    cases hnotification
  | searchRefused hx hp hsend =>
    obtain rfl := by simpa [since] using hmem
    cases hnotification
  | found hx hd hread =>
    rcases hread.mem_since hmem rfl rfl with hreleased | hread' | hclosing
    · obtain ⟨r, -, rfl⟩ := List.mem_map.mp hreleased
      cases hnotification
    · rw [hread.isNotification hread'] at hnotification
      cases hnotification
    · rcases List.mem_append.mp hclosing with hend | hdiscovered
      · rcases exists_of_mem_closing hend with ⟨o, r, endpoint, accepted, rfl⟩ | rfl <;>
          cases hnotification
      · rw [List.mem_singleton.mp hdiscovered] at hnotification
        cases hnotification
  | notified hx hc ho htoken hseq =>
    obtain rfl := by simpa [since] using hmem
    exact ⟨since_eq_of_log rfl, by simp [observation?, hc, ho]⟩
  | stopped hc hrun hstops =>
    rw [since_eq_of_log rfl] at hmem
    rcases List.mem_append.mp hmem with hfarewell | hstopped
    · obtain ⟨o, endpoint, accepted, rfl⟩ := Chain.exists_of_mem_farewell hfarewell
      cases hnotification
    · rw [List.mem_singleton.mp hstopped] at hnotification
      cases hnotification
  | readFailed hx hc hawaits hstatus =>
    obtain rfl := by simpa [since] using hmem
    cases hnotification
  | answered hx hc hawaits hmethod hstatus hsending =>
    rename_i now r c index method e₁ result
    have hlog : e.log <+: e₁.log := hsending.log
    rw [since_append hlog (log_recordAll_of_eq rfl)] at hmem
    rcases List.mem_append.mp hmem with hsent | hreported
    · rw [hsending.isNotification hsent] at hnotification
      cases hnotification
    · obtain rfl := by simpa [since] using hreported
      cases hnotification

/-- A notification has come to an observation that had been registered and not been stopped. -/
theorem registered_of_notification {config : Config} {steps : List Step}
    (hbound : (run config steps).registrations < 2 ^ 64) {before after : List Effect}
    {effect : Effect} (hlog : (run config steps).log = before ++ effect :: after)
    (hnotification : effect.isNotification = true) : Registered before := by
  induction steps using List.reverseRecOn generalizing before after with
  | nil => cases before <;> cases hlog
  | append_singleton steps step ih =>
    rw [run_concat] at hbound hlog
    have hle := registrations_le_handle (e := run config steps) step.1 step.2
    have hbefore := Nat.lt_of_le_of_lt hle hbound
    have hreaction := (bookkeeping_run hbefore).reaction step.1 step.2
    obtain ⟨new, hnew⟩ := hreaction.log
    have hsince := since_eq_of_log hnew.symm
    have hlast (rest : List Effect) (hrest : before = (run config steps).log ++ rest)
        (hnow : new = rest ++ effect :: after) : Registered before := by
      obtain ⟨halone, hobs⟩ := hreaction.notification hnotification (by simp [hsince, hnow])
      rw [hsince, hnow, List.append_eq_singleton_iff] at halone
      obtain ⟨rfl, -⟩ : rest = [] ∧ effect :: after = [effect] := by simpa using halone
      rw [hrest, List.append_nil]
      exact registered_run hbefore hobs
    rw [← hnew] at hlog
    rcases List.append_eq_append_iff.mp hlog with ⟨rest, hrest, hnow⟩ | ⟨rest, hrest, hnow⟩
    · exact hlast rest hrest hnow
    · cases rest with
      | nil => exact hlast [] (by simp [hrest]) hnow.symm
      | cons first rest =>
        obtain ⟨rfl, -⟩ := List.cons.inj hnow
        exact ih hbefore hrest

end Engine

end DeviceClient
