import DeviceClient.Proofs.Engine.Reaction

namespace DeviceClient

namespace Chain

theorem Sound.answered {c : Chain} {script : Script} (h : c.Sound script)
    (hobs : c.observation = none) (index : Nat) : (c.answered index).Sound script where
  script := (c.script_answered index).trans h.script
  endpoint := by rw [resource_answered]; exact h.endpoint
  place := by
    intro place hplace
    rcases c.answered_cases index with ⟨update, hu, hstate, -⟩ | ⟨-, hstate, -⟩
    · rw [hstate] at hplace
      cases hplace
      rw [script_answered]
      exact (List.getElem?_eq_some_iff.mp hu).1
    · rw [hstate] at hplace
      cases hplace
  step := by
    intro token hstep
    rw [step_answered] at hstep
    cases hstep
  observation := by
    intro o ho
    rw [observation_answered, hobs] at ho
    cases ho
  timer := by
    intro o ho
    rw [observation_answered, hobs] at ho
    cases ho

theorem isRegistration_outgoing (c d : Chain) (index : Nat) (qos : Qos) (endpoint : Endpoint)
    (payload : List UInt8) (token : Token) (accepted : Bool) :
    (Effect.sent (d.outgoing qos endpoint (c.following index) payload token)
      accepted).isRegistration = true := by
  rcases c.answered_cases index with ⟨update, -, -, hr⟩ | ⟨-, -, hr⟩ <;>
    simp [hr, Effect.isRegistration, outgoing, ChainRequest.observation]

/-- An update is registered as what the chain waits for then. -/
theorem underWay?_answered {c : Chain} {index : Nat}
    (h : (c.following index).observe ≠ some .register) :
    (c.answered index).underWay? = some (c.following index).operation := by
  rcases c.answered_cases index with ⟨update, hu, hstate, hr⟩ | ⟨-, -, hr⟩
  · have hawaited : (c.answered index).awaited? = some (index + 1) := by simp [awaited?, hstate]
    simp [underWay?, hawaited, Script.methodAt?, hu, hr, ChainRequest.operation]
  · rw [hr] at h
    exact absurd rfl h

theorem operation_following_of_register {c : Chain} {index : Nat}
    (h : (c.following index).observe = some .register) :
    (c.following index).operation = .observe ∧ (c.answered index).state = .observing := by
  rcases c.answered_cases index with ⟨update, -, -, hr⟩ | ⟨-, hstate, hr⟩
  · rw [hr] at h
    cases h
  · exact ⟨by simp [hr, ChainRequest.operation, ChainRequest.observation], hstate⟩

end Chain

namespace Engine

theorem countP_farewell (c : Chain) (s : Surroundings) (qos : Qos) (reason : StopReason) :
    (c.farewell s qos reason).countP Effect.isRegistration = 0 :=
  c.countP_farewell (fun _ _ _ _ _ => rfl) s qos reason

theorem countP_closing (e : Engine) (s : Surroundings) (reason : StopReason) :
    (e.closing s reason).countP Effect.isRegistration = 0 := by
  rw [List.countP_eq_zero]
  intro effect heffect
  rcases exists_of_mem_closing heffect with ⟨o, r, endpoint, accepted, rfl⟩ | rfl <;>
    simp [Effect.isRegistration, Observation.deregistration]

theorem countP_quiet {effects : List Effect} (h : ∀ effect ∈ effects, effect.IsQuiet) :
    effects.countP Effect.isRegistration = 0 := by
  rw [List.countP_eq_zero]
  intro effect heffect
  simp [(h effect heffect).2]

theorem countP_singleton {effect : Effect} (h : effect.isRegistration = true) :
    [effect].countP Effect.isRegistration = 1 := by
  simp [h]

theorem mem_searchTokens_iff {e : Engine} {token : Token} :
    token ∈ e.searchTokens ↔ ∃ d, e.discovery = some d ∧ d.token = token := by
  unfold searchTokens
  cases hd : e.discovery <;> simp [eq_comm]

/-- The books after another chain, or none, has taken the place of the search and the chain. -/
theorem bookkeeping_of_replaced {e e' : Engine} {read : Option Token} {r : Resource}
    (hfind : ∀ token operation, e'.pending.find? token = some operation ↔
      read = some token ∧ operation = .chainStep .get 0)
    (hissued : e'.pending.Issued e'.registrations) (htimers : e'.timers = e.timers.clear)
    (hdiscovery : e'.discovery = none)
    (hchain : e'.chain = read.map (Chain.start r e.config.script).sent)
    (hendpoint : read ≠ none → r.endpoints.head? ≠ none) (hconfig : e'.config = e.config) :
    e'.Bookkeeping where
  owned := by
    intro token operation
    rw [hfind]
    constructor
    · intro hsent
      obtain ⟨hread, rfl⟩ := hsent
      rw [hread] at hchain
      exact .chain hchain (.step rfl rfl)
    · intro hown
      cases hown with
      | search hd => rw [hdiscovery] at hd; cases hd
      | chain hc hown =>
        rw [hchain] at hc
        obtain ⟨token', hread, rfl⟩ := Option.map_eq_some_iff.mp hc
        cases hown with
        | step hstep hunder =>
          cases hstep
          exact ⟨hread, (Option.some.inj hunder).symm⟩
        | observation hobs => cases hobs
  timed := by
    rw [htimers, hchain]
    cases read <;> rfl
  sound := by
    intro c hc
    rw [hchain] at hc
    obtain ⟨token, hread, rfl⟩ := Option.map_eq_some_iff.mp hc
    rw [hconfig]
    constructor
    · rfl
    · exact hendpoint (by simp [hread])
    · intro place hplace; cases hplace
    · intro token' htoken' hnone; cases hnone
    · intro o ho; cases ho
    · intro o ho; cases ho
  search := by rw [hdiscovery]; intro d hd; cases hd
  issued := hissued

namespace Reading

variable {e e₁ : Engine} {s : Surroundings} {r : Resource} {qos : Qos} {read : Option Token}
  (h : Reading e s r qos e₁ read) (hissued : e.pending.Issued e.registrations)
  (hbound : e₁.registrations < 2 ^ 64)

include h hissued hbound

theorem issued : e₁.pending.Issued e₁.registrations := by
  cases h with
  | noEndpoint hhead => exact hissued
  | refused hhead hsend =>
    rw [registrations_recordAll, countP_singleton rfl] at hbound ⊢
    exact (hissued.register _ hbound).remove e.pending.nextToken
  | sent hhead hsend =>
    rw [registrations_recordAll, countP_singleton rfl] at hbound ⊢
    exact hissued.register _ hbound

/-- A read goes out under a token that nothing is pending under. -/
theorem find?_eq_none {token : Token} (hsent : read = some token) :
    e.pending.find? token = none := by
  cases h with
  | noEndpoint hhead => cases hsent
  | refused hhead hsend => cases hsent
  | sent hhead hsend =>
    cases hsent
    rw [registrations_recordAll, countP_singleton rfl] at hbound
    exact hissued.find?_nextToken hbound

/-- A read that goes out is pending; one that does not leaves nothing behind. -/
theorem find?_iff {token : Token} {operation : Operation} :
    e₁.pending.find? token = some operation ↔
      (read = some token ∧ operation = .chainStep .get 0) ∨
        e.pending.find? token = some operation := by
  cases h with
  | noEndpoint hhead => simp
  | refused hhead hsend =>
    rw [registrations_recordAll, countP_singleton rfl] at hbound
    simp [hissued.find?_remove_register _ hbound]
  | sent hhead hsend =>
    rw [registrations_recordAll, countP_singleton rfl] at hbound
    have hnone := hissued.find?_nextToken hbound
    rw [pending_recordAll, PendingRequests.find?_register]
    by_cases heq : token = e.pending.nextToken
    · simp [heq, hnone, eq_comm]
    · simp [heq, Ne.symm heq]

end Reading

namespace Bookkeeping

variable {e : Engine} (h : e.Bookkeeping)

include h

/-- The books depend on nothing but the search, the chain and what they own. -/
theorem congr {e' : Engine} (hpending : e'.pending = e.pending) (htimers : e'.timers = e.timers)
    (hdiscovery : e'.discovery = e.discovery) (hchain : e'.chain = e.chain)
    (hconfig : e'.config = e.config) (hreg : e'.registrations = e.registrations) :
    e'.Bookkeeping where
  owned := by
    intro token operation
    rw [hpending, h.owned]
    exact ⟨fun hown => hown.of_eq hdiscovery hchain,
      fun hown => hown.of_eq hdiscovery.symm hchain.symm⟩
  timed := by rw [htimers, hchain]; exact h.timed
  sound := by rw [hchain, hconfig]; exact h.sound
  search := by rw [hdiscovery]; exact h.search
  issued := by rw [hpending, hreg]; exact h.issued

theorem mem_chainTokens_iff {token : Token} :
    token ∈ e.chainTokens ↔ ∃ c operation, e.chain = some c ∧ c.Owns token operation := by
  unfold chainTokens
  cases hc : e.chain with
  | none => simp
  | some c => simp [(h.sound c hc).mem_tokens_iff]

/-- Without the token of the search, what the chain owns is left. -/
theorem find?_removeAll_searchTokens {token : Token} {operation : Operation} :
    (e.pending.removeAll e.searchTokens).find? token = some operation ↔
      ∃ c, e.chain = some c ∧ c.Owns token operation := by
  rw [PendingRequests.find?_removeAll]
  constructor
  · intro hfind
    split_ifs at hfind with hmem
    cases (h.owned _ _).mp hfind with
    | search hd => exact absurd (mem_searchTokens_iff.mpr ⟨_, hd, rfl⟩) hmem
    | chain hc hown => exact ⟨_, hc, hown⟩
  · intro howned
    obtain ⟨c, hc, hown⟩ := howned
    have hfind := (h.owned _ _).mpr (.chain hc hown)
    have hmem : token ∉ e.searchTokens := by
      intro hmem
      obtain ⟨d, hd, rfl⟩ := mem_searchTokens_iff.mp hmem
      have hsearch := (h.owned _ _).mpr (.search hd)
      rw [hfind] at hsearch
      exact hown.ne_discovery (Option.some.inj hsearch)
    rw [if_neg hmem, hfind]

/-- Without the tokens of the chain, what the search owns is left. -/
theorem find?_removeAll_chainTokens {token : Token} {operation : Operation} :
    (e.pending.removeAll e.chainTokens).find? token = some operation ↔
      ∃ d, e.discovery = some d ∧ d.token = token ∧ operation = .discovery := by
  rw [PendingRequests.find?_removeAll]
  constructor
  · intro hfind
    split_ifs at hfind with hmem
    cases (h.owned _ _).mp hfind with
    | search hd => exact ⟨_, hd, rfl, rfl⟩
    | chain hc hown => exact absurd (h.mem_chainTokens_iff.mpr ⟨_, _, hc, hown⟩) hmem
  · intro hsearch
    obtain ⟨d, hd, rfl, rfl⟩ := hsearch
    have hfind := (h.owned _ _).mpr (.search hd)
    have hmem : d.token ∉ e.chainTokens := by
      intro hmem
      obtain ⟨c, operation, hc, hown⟩ := h.mem_chainTokens_iff.mp hmem
      have hchain := (h.owned _ _).mpr (.chain hc hown)
      rw [hfind] at hchain
      exact hown.ne_discovery (Option.some.inj hchain).symm
    rw [if_neg hmem, hfind]

/-- Without the tokens of the search and of the chain, nothing is left. -/
theorem find?_eq_none {token : Token} (hsearch : token ∉ e.searchTokens)
    (hchain : token ∉ e.chainTokens) : e.pending.find? token = none := by
  cases hfind : e.pending.find? token with
  | none => rfl
  | some operation =>
    cases (h.owned _ _).mp hfind with
    | search hd => exact absurd (mem_searchTokens_iff.mpr ⟨_, hd, rfl⟩) hsearch
    | chain hc hown => exact absurd (h.mem_chainTokens_iff.mpr ⟨_, _, hc, hown⟩) hchain

/-- The books after the chain has let go of what it owns. -/
theorem letGo {c c' : Chain} (hc : e.chain = some c) (hsound : c'.Sound e.config.script)
    (hstep : c'.step = none) (hobs : c'.observation = none) {effects : List Effect}
    (heffects : effects.countP Effect.isRegistration = 0) :
    ({ e with
      chain := some c'
      timers := e.timers.clear
      pending := e.pending.removeAll c.tokens }.recordAll effects).Bookkeeping where
  owned := by
    intro token operation
    have htokens : e.chainTokens = c.tokens := by simp [chainTokens, hc]
    simp only [pending_recordAll, ← htokens, h.find?_removeAll_chainTokens]
    constructor
    · intro hsearch
      obtain ⟨d, hd, rfl, rfl⟩ := hsearch
      exact .search hd
    · intro hown
      cases hown with
      | search hd => exact ⟨_, hd, rfl, rfl⟩
      | chain hc' hown =>
        cases hc'
        cases hown with
        | step hstep' hunder => rw [hstep] at hstep'; cases hstep'
        | observation hobs' => rw [hobs] at hobs'; cases hobs'
  timed := by simp [Chain.timer?, hobs, Scheduler.clear]
  sound := by
    intro c₁ hc₁
    cases hc₁
    exact hsound
  search := h.search
  issued := by
    rw [registrations_recordAll, heffects]
    exact h.issued.removeAll c.tokens

/-- The books after the chain has been given the answer that it waits for. -/
theorem letGo_of_awaits {c c' : Chain} (hc : e.chain = some c) {r : Response} {index : Nat}
    (hawaits : c.Awaits r index) (hsound : c'.Sound e.config.script) (hstep : c'.step = none)
    (hobs : c'.observation = none) {effects : List Effect}
    (heffects : effects.countP Effect.isRegistration = 0) :
    ({ e with chain := some c', pending := e.pending.remove r.token }.recordAll
      effects).Bookkeeping := by
  have hnone := (h.sound c hc).observation_of_step hawaits.2
  have htokens : c.tokens = [r.token] := by simp [Chain.tokens, hawaits.2, hnone]
  have hclear := h.timekeeping.timers_clear_of_none (by simp [observation?, hc, hnone])
  have hgone := h.letGo hc hsound hstep hobs heffects
  rw [htokens, hclear] at hgone
  exact hgone

theorem ne_nextToken (hbound : e.registrations + 1 < 2 ^ 64) {token : Token}
    {operation : Operation} (hfind : e.pending.find? token = some operation) :
    token ≠ e.pending.nextToken := by
  intro heq
  subst heq
  rw [h.issued.find?_nextToken hbound] at hfind
  cases hfind

/-- A request that is refused leaves nothing but its number behind. -/
theorem refused (operation : Operation) {effect : Effect} (heffect : effect.isRegistration = true)
    (hbound : e.registrations + 1 < 2 ^ 64) :
    ({ e with
      pending := (e.pending.register operation).2.remove e.pending.nextToken }.recordAll
        [effect]).Bookkeeping where
  owned := by
    intro token op
    simp only [pending_recordAll, h.issued.find?_remove_register operation hbound, h.owned]
    exact ⟨fun hown => hown.of_eq rfl rfl, fun hown => hown.of_eq rfl rfl⟩
  timed := h.timed
  sound := h.sound
  search := h.search
  issued := by
    rw [registrations_recordAll, countP_singleton heffect]
    exact (h.issued.register operation hbound).remove e.pending.nextToken

/-- The books without the search. -/
theorem forgetDiscovery : e.forgetDiscovery.Bookkeeping := by
  rw [forgetDiscovery_eq]
  constructor
  · intro token operation
    simp only [h.find?_removeAll_searchTokens]
    constructor
    · intro howned
      obtain ⟨c, hc, hown⟩ := howned
      exact .chain hc hown
    · intro hown
      cases hown with
      | search hd => cases hd
      | chain hc hown => exact ⟨_, hc, hown⟩
  · exact h.timed
  · exact h.sound
  · intro d hd; cases hd
  · exact h.issued.removeAll e.searchTokens

/-- The books after a search has started where there was none. -/
theorem searching (hnone : e.discovery = none) (type : String) {effect : Effect}
    (heffect : effect.isRegistration = true) (hbound : e.registrations + 1 < 2 ^ 64) :
    ({ e with
      pending := (e.pending.register .discovery).2
      discovery := some ⟨e.pending.nextToken, .start type⟩ }.recordAll [effect]).Bookkeeping where
  owned := by
    intro token operation
    simp only [pending_recordAll, PendingRequests.find?_register]
    constructor
    · intro hfind
      split_ifs at hfind with heq
      · cases hfind
        rw [heq]
        exact .search (d := ⟨e.pending.nextToken, .start type⟩) rfl
      · cases (h.owned _ _).mp hfind with
        | search hd => rw [hnone] at hd; cases hd
        | chain hc hown => exact .chain hc hown
    · intro hown
      cases hown with
      | search hd => cases hd; simp
      | chain hc hown =>
        have hfind := (h.owned _ _).mpr (.chain hc hown)
        rw [if_neg (h.ne_nextToken hbound hfind), hfind]
  timed := h.timed
  sound := h.sound
  search := by intro d hd; cases hd; rfl
  issued := by
    rw [registrations_recordAll, countP_singleton heffect]
    exact h.issued.register .discovery hbound

/-- The books after a request has been registered for a chain that owned nothing. -/
theorem registered {c c' : Chain} (hc : e.chain = some c) (hstep : c.step = none)
    (hobs : c.observation = none) {operation : Operation}
    (howns : ∀ token op, c'.Owns token op ↔ token = e.pending.nextToken ∧ op = operation)
    (hsound : c'.Sound e.config.script) {timers : Scheduler DelayedAction}
    (htimed : timers.timers.map Timer.handle = c'.timer?.toList) {effect : Effect}
    (heffect : effect.isRegistration = true) (hbound : e.registrations + 1 < 2 ^ 64) :
    ({ e with
      pending := (e.pending.register operation).2
      timers := timers
      chain := some c' }.recordAll [effect]).Bookkeeping where
  owned := by
    intro token op
    simp only [pending_recordAll, PendingRequests.find?_register]
    constructor
    · intro hfind
      split_ifs at hfind with heq
      · cases hfind
        exact .chain rfl ((howns token operation).mpr ⟨heq, rfl⟩)
      · cases (h.owned _ _).mp hfind with
        | search hd => exact .search hd
        | chain hc' hown =>
          rw [hc] at hc'
          cases hc'
          cases hown with
          | step hstep' hunder => rw [hstep] at hstep'; cases hstep'
          | observation hobs' => rw [hobs] at hobs'; cases hobs'
    · intro hown
      cases hown with
      | search hd =>
        have hfind := (h.owned _ _).mpr (.search hd)
        rw [if_neg (h.ne_nextToken hbound hfind), hfind]
      | chain hc' hown =>
        cases hc'
        obtain ⟨rfl, rfl⟩ := (howns token op).mp hown
        rw [if_pos rfl]
  timed := htimed
  sound := by
    intro c₁ hc₁
    cases hc₁
    exact hsound
  search := h.search
  issued := by
    rw [registrations_recordAll, countP_singleton heffect]
    exact h.issued.register operation hbound

/-- The books after the chain has sent the request that it waits for. -/
theorem stepSent {c : Chain} (hc : e.chain = some c) (hstep : c.step = none)
    {operation : Operation} (hunder : c.underWay? = some operation) {effect : Effect}
    (heffect : effect.isRegistration = true) (hbound : e.registrations + 1 < 2 ^ 64) :
    ({ e with
      pending := (e.pending.register operation).2
      chain := some (c.sent e.pending.nextToken) }.recordAll [effect]).Bookkeeping := by
  have hsound := h.sound c hc
  have hawaited : c.awaited? ≠ none := by
    intro hnone
    simp [Chain.underWay?, hnone] at hunder
  have hobs : c.observation = none := by
    cases hobs : c.observation with
    | none => rfl
    | some o => exact absurd (Chain.awaited?_eq_none_of_observing (hsound.observation hobs)) hawaited
  have howns (token : Token) (op : Operation) :
      (c.sent e.pending.nextToken).Owns token op ↔
        token = e.pending.nextToken ∧ op = operation := by
    constructor
    · intro hown
      cases hown with
      | step hstep' hunder' =>
        cases hstep'
        exact ⟨rfl, Option.some.inj (hunder'.symm.trans hunder)⟩
      | observation hobs' => rw [Chain.sent, hobs] at hobs'; cases hobs'
    · intro hboth
      obtain ⟨rfl, rfl⟩ := hboth
      exact .step rfl hunder
  have hsound' : (c.sent e.pending.nextToken).Sound e.config.script :=
    ⟨hsound.script, hsound.endpoint, hsound.place, fun _ => hawaited, hsound.observation,
      hsound.timer⟩
  have htimed : e.timers.timers.map Timer.handle = c.timer?.toList := by
    simpa [hc] using h.timed
  exact h.registered hc hstep hobs howns hsound' htimed heffect hbound

/-- The books after the observation of a chain has been registered. -/
theorem observationSent {c : Chain} (hc : e.chain = some c) (hstep : c.step = none)
    (hobs : c.observation = none) (hstate : c.state = .observing) (now delay : Nat)
    {effect : Effect} (heffect : effect.isRegistration = true)
    (hbound : e.registrations + 1 < 2 ^ 64) :
    ({ e with
      pending := (e.pending.register .observe).2
      timers := (e.timers.schedule now delay .stopObservation).2
      chain := some (c.observing ⟨e.pending.nextToken, some e.timers.next⟩) }.recordAll
        [effect]).Bookkeeping := by
  have hsound := h.sound c hc
  have howns (token : Token) (op : Operation) :
      (c.observing ⟨e.pending.nextToken, some e.timers.next⟩).Owns token op ↔
        token = e.pending.nextToken ∧ op = .observe := by
    constructor
    · intro hown
      cases hown with
      | step hstep' hunder => rw [Chain.observing, hstep] at hstep'; cases hstep'
      | observation hobs' => cases hobs'; exact ⟨rfl, rfl⟩
    · intro hboth
      obtain ⟨rfl, rfl⟩ := hboth
      exact .observation (o := ⟨e.pending.nextToken, some e.timers.next⟩) rfl
  have hsound' :
      (c.observing ⟨e.pending.nextToken, some e.timers.next⟩).Sound e.config.script := by
    refine ⟨hsound.script, hsound.endpoint, hsound.place, hsound.step, fun _ => hstate, ?_⟩
    intro o ho
    cases ho
    simp
  have hnil : e.timers.timers = [] := by simpa [hc, Chain.timer?, hobs] using h.timed
  have htimed : (e.timers.schedule now delay .stopObservation).2.timers.map Timer.handle =
      (c.observing ⟨e.pending.nextToken, some e.timers.next⟩).timer?.toList := by
    simp [Scheduler.timers_schedule_of_nil hnil, Chain.timer?, Chain.observing]
  exact h.registered hc hstep hobs howns hsound' htimed heffect hbound

/-- The chain that follows an answer has nothing under way yet. -/
theorem answered {c : Chain} (hc : e.chain = some c) {r : Response} {index : Nat}
    (hawaits : c.Awaits r index) :
    ({ e with
      chain := some (c.answered index)
      pending := e.pending.remove r.token } : Engine).Bookkeeping := by
  have hsound := h.sound c hc
  have hobs := hsound.observation_of_step hawaits.2
  have hnone : ([] : List Effect).countP Effect.isRegistration = 0 := rfl
  have hgone := h.letGo_of_awaits hc hawaits (hsound.answered hobs index) (c.step_answered index)
    ((c.observation_answered index).trans hobs) hnone
  rwa [recordAll_nil] at hgone

/-- The books after the next request of the chain has gone out or has failed to. -/
theorem sending {s : Surroundings} {now : Nat} {c : Chain} {index : Nat} {e₁ : Engine}
    {result : Except ClientError Unit} (hc : e.chain = some (c.answered index))
    (hobs : c.observation = none)
    (hsending : Sending e s now (c.answered index) (c.following index) e₁ result)
    (hbound : e₁.registrations < 2 ^ 64) : e₁.Bookkeeping := by
  have hstep := c.step_answered index
  have hobs' := (c.observation_answered index).trans hobs
  cases hsending with
  | noEndpoint hhead => exact h
  | unencodable hhead hbody => exact h
  | refused hhead hbody hsend =>
    rename_i endpoint payload error
    have heffect := c.isRegistration_outgoing (c.answered index) index e.config.qos endpoint payload
      e.pending.nextToken false
    rw [registrations_recordAll, countP_singleton heffect] at hbound
    exact h.refused _ heffect hbound
  | sent hhead hbody hsend hobserve =>
    rename_i endpoint payload
    have heffect := c.isRegistration_outgoing (c.answered index) index e.config.qos endpoint payload
      e.pending.nextToken true
    rw [registrations_recordAll, countP_singleton heffect] at hbound
    exact h.stepSent hc hstep (Chain.underWay?_answered hobserve) heffect hbound
  | observed hhead hbody hsend hobserve =>
    rename_i endpoint payload
    have heffect := c.isRegistration_outgoing (c.answered index) index e.config.qos endpoint payload
      e.pending.nextToken true
    obtain ⟨hop, hstate⟩ := Chain.operation_following_of_register hobserve
    rw [registrations_recordAll, countP_singleton heffect] at hbound
    rw [hop] at *
    exact h.observationSent hc hstep hobs' hstate now _ heffect hbound

/-- The books after the search is over. What becomes of the read decides whether there is a chain. -/
theorem found {s : Surroundings} {d : Discovery} {r : Resource} {e₀ e₁ : Engine}
    {read : Option Token} {event : ClientEvent} (hd : e.discovery = some d)
    (hread : Reading e₀ s r .low e₁ read) (hpending : e₀.pending = e.pending)
    (hreg : e₀.registrations = e.registrations) (hconfig : e₀.config = e.config)
    (hbound : e₁.registrations < 2 ^ 64) :
    ({ e₁ with
      discovery := none
      chain := read.map (Chain.start r e.config.script).sent
      timers := e.timers.clear
      pending := (e₁.pending.remove d.token).removeAll e.chainTokens }.recordAll
      (e.closing s .requested ++ [Effect.reported event])).Bookkeeping := by
  have hissued : e₀.pending.Issued e₀.registrations := by
    rw [hpending, hreg]
    exact h.issued
  have hissued₁ := hread.issued hissued hbound
  refine bookkeeping_of_replaced (fun token operation => ?_) ?_ rfl rfl rfl hread.head?_ne_none
    (hread.frame.2.2.2.trans hconfig)
  · simp only [pending_recordAll, PendingRequests.find?_removeAll, PendingRequests.find?_remove]
    constructor
    · intro hfind
      split_ifs at hfind with hchain hsearch
      rcases (hread.find?_iff hissued hbound).mp hfind with hsent | hbefore
      · exact hsent
      · have hnone : e.pending.find? token = none := by
          refine h.find?_eq_none (fun hmem => hsearch ?_) hchain
          obtain ⟨d', hd', rfl⟩ := mem_searchTokens_iff.mp hmem
          rw [hd] at hd'
          rw [Option.some.inj hd']
        rw [hpending, hnone] at hbefore
        cases hbefore
    · intro hread
      obtain ⟨hsent, rfl⟩ := hread
      have hnone := hread.find?_eq_none hissued hbound hsent
      rw [hpending] at hnone
      have hchain : token ∉ e.chainTokens := by
        intro hmem
        obtain ⟨c, operation, hc, hown⟩ := h.mem_chainTokens_iff.mp hmem
        rw [(h.owned _ _).mpr (.chain hc hown)] at hnone
        cases hnone
      have hsearch : token ≠ d.token := by
        intro heq
        subst heq
        rw [(h.owned _ _).mpr (.search hd)] at hnone
        cases hnone
      rw [if_neg hchain, if_neg hsearch]
      exact (hread.find?_iff hissued hbound).mpr (.inl ⟨hsent, rfl⟩)
  · have hclosing : (e.closing s .requested ++ [Effect.reported event]).countP
        Effect.isRegistration = 0 := by
      simp [countP_closing, Effect.isRegistration]
    rw [registrations_recordAll, hclosing]
    exact (hissued₁.remove d.token).removeAll e.chainTokens

/-- Every reaction keeps the books right, as long as the tokens do not start again. -/
theorem keeps {s : Surroundings} {x : Stimulus} {e' : Engine} (hreaction : Reaction e s x e')
    (hbound : e'.registrations < 2 ^ 64) : e'.Bookkeeping := by
  cases hreaction with
  | quiet hquiet htimers =>
    exact h.congr rfl rfl rfl rfl rfl (by simp [countP_quiet hquiet, registrations])
  | searching hx hp hsend =>
    rename_i type p
    have hgone := h.forgetDiscovery
    rw [forgetDiscovery_eq, ← hp] at hgone
    rw [registrations_recordAll, countP_singleton rfl] at hbound
    exact hgone.searching rfl type rfl hbound
  | searchRefused hx hp hsend =>
    have hgone := h.forgetDiscovery
    rw [forgetDiscovery_eq, ← hp] at hgone
    rw [registrations_recordAll, countP_singleton rfl] at hbound
    exact hgone.refused _ rfl hbound
  | found hx hd hread =>
    rw [registrations_recordAll] at hbound
    refine h.found hd hread rfl ?_ rfl (Nat.lt_of_le_of_lt (Nat.le_add_right _ _) hbound)
    simp [registrations, List.countP_map, Function.comp_def, Effect.isRegistration]
  | notified hx hc ho htoken hseq => exact h.congr rfl rfl rfl rfl rfl (by simp [Effect.isRegistration])
  | stopped hc hrun hstops =>
    exact h.letGo hc (h.sound _ hc).halt rfl rfl (by simp [countP_farewell, Effect.isRegistration])
  | readFailed hx hc hawaits hstatus =>
    exact h.letGo_of_awaits hc hawaits (h.sound _ hc).halt rfl rfl (by simp [Effect.isRegistration])
  | answered hx hc hawaits hmethod hstatus hsending =>
    have hobs := (h.sound _ hc).observation_of_step hawaits.2
    rw [registrations_recordAll] at hbound
    have hsent := (h.answered hc hawaits).sending rfl hobs hsending
      (Nat.lt_of_le_of_lt (Nat.le_add_right _ _) hbound)
    exact hsent.congr rfl rfl rfl rfl rfl (by simp [Effect.isRegistration])

theorem nodup_tokens : (e.searchTokens ++ e.chainTokens).Nodup := by
  refine List.nodup_append.mpr ⟨?_, ?_, ?_⟩
  · unfold searchTokens
    cases e.discovery <;> simp
  · unfold chainTokens
    cases hc : e.chain with
    | none => exact List.nodup_nil
    | some c => exact (h.sound c hc).nodup_tokens
  · intro token hsearch other hchain heq
    obtain ⟨d, hd, rfl⟩ := mem_searchTokens_iff.mp hsearch
    obtain ⟨c, operation, hc, hown⟩ := h.mem_chainTokens_iff.mp hchain
    have hfind := (h.owned _ _).mpr (.chain hc hown)
    rw [← heq, (h.owned _ _).mpr (.search hd)] at hfind
    exact hown.ne_discovery (Option.some.inj hfind).symm

theorem mem_keys_iff {token : Token} :
    token ∈ e.pending.keys ↔ token ∈ e.searchTokens ∨ token ∈ e.chainTokens := by
  rw [PendingRequests.mem_keys_iff, mem_searchTokens_iff, h.mem_chainTokens_iff]
  constructor
  · intro hpending
    obtain ⟨operation, hfind⟩ := hpending
    cases (h.owned _ _).mp hfind with
    | search hd => exact .inl ⟨_, hd, rfl⟩
    | chain hc hown => exact .inr ⟨_, _, hc, hown⟩
  · intro htoken
    rcases htoken with ⟨d, hd, rfl⟩ | ⟨c, operation, hc, hown⟩
    · exact ⟨_, (h.owned _ _).mpr (.search hd)⟩
    · exact ⟨_, (h.owned _ _).mpr (.chain hc hown)⟩

theorem keys_perm : e.pending.keys.Perm (e.searchTokens ++ e.chainTokens) := by
  rw [List.perm_ext_iff_of_nodup h.issued.keys h.nodup_tokens]
  intro token
  rw [h.mem_keys_iff, List.mem_append]

/-- A chain that is over has nothing under way. -/
theorem nothing_of_over (hover : ∀ c, e.chain = some c → c.state = .stopped) :
    e.chainTokens = [] ∧ e.timers.timers = [] := by
  have htimed := h.timed
  unfold chainTokens
  cases hc : e.chain with
  | none => simpa [hc] using htimed
  | some c =>
    have hhalt := h.halt_eq c hc (hover c hc)
    rw [hc, ← hhalt] at htimed
    rw [← hhalt]
    exact ⟨rfl, by simpa [Chain.timer?, Chain.halt] using htimed⟩

theorem respond_ne_ignored {r : Response} {method : Method} {index : Nat}
    (hfind : e.pending.find? r.token = some (.chainStep method index)) :
    ∃ c, e.chain = some c ∧ c.Awaits r index ∧
      (c.respond r.token index r.status).2 ≠ .ignored := by
  obtain ⟨c, hc, hawaits, -⟩ := h.exists_awaits hfind
  refine ⟨c, hc, hawaits, ?_⟩
  by_cases hfailed : index = 0 ∧ r.status.isSuccess = false
  · obtain ⟨rfl, hstatus⟩ := hfailed
    simp [Chain.respond_of_failed hawaits hstatus]
  · have hstatus : index = 0 → r.status.isSuccess = true := by
      intro hindex
      simpa [hindex] using hfailed
    simp [Chain.respond_of_awaits hawaits hstatus]

end Bookkeeping

theorem bookkeeping_run {config : Config} {steps : List Step}
    (hbound : (run config steps).registrations < 2 ^ 64) : (run config steps).Bookkeeping := by
  induction steps using List.reverseRecOn with
  | nil => exact bookkeeping_start config
  | append_singleton steps step ih =>
    rw [run_concat] at hbound ⊢
    have hbooks := ih (Nat.lt_of_le_of_lt (registrations_le_handle _ _) hbound)
    exact hbooks.keeps (hbooks.reaction step.1 step.2) hbound

/-- What holds at the start and is kept by every reaction holds after every run. -/
theorem run_induction {P : Engine → Prop} {config : Config} (hstart : P (start config))
    (hstep : ∀ e s x e', e.Bookkeeping → P e → Reaction e s x e' → P e') {steps : List Step}
    (hbound : (run config steps).registrations < 2 ^ 64) : P (run config steps) := by
  induction steps using List.reverseRecOn with
  | nil => exact hstart
  | append_singleton steps step ih =>
    rw [run_concat] at hbound ⊢
    have hbefore := Nat.lt_of_le_of_lt (registrations_le_handle _ _) hbound
    have hbooks := bookkeeping_run hbefore
    exact hstep _ _ _ _ hbooks (ih hbefore) (hbooks.reaction step.1 step.2)

theorem config_run {config : Config} {steps : List Step}
    (hbound : (run config steps).registrations < 2 ^ 64) : (run config steps).config = config := by
  apply run_induction (P := fun e => e.config = config) rfl _ hbound
  intro e s x e' _ hconfig hreaction
  rw [hreaction.config, hconfig]

/-- After every run, the tokens that are pending, each once, are those of the search, of the request
of the chain under way and of its observation, and each is registered as what it was issued for. The
one timer is that of the observation. So a response to a step of the chain always finds the chain
waiting for it. -/
theorem tokens_and_timers_run (config : Config) (steps : List Step)
    (hbound : (run config steps).registrations < 2 ^ 64) :
    (run config steps).pending.keys.Perm
      ((run config steps).searchTokens ++ (run config steps).chainTokens) ∧
    ((run config steps).searchTokens ++ (run config steps).chainTokens).Nodup ∧
    (∀ token, (run config steps).pending.find? token = some .discovery ↔
      ∃ d, (run config steps).discovery = some d ∧ d.token = token) ∧
    (∀ token method index,
      (run config steps).pending.find? token = some (.chainStep method index) ↔
        ∃ c, (run config steps).chain = some c ∧ c.step = some token ∧
          c.awaited? = some index ∧ config.script.methodAt? index = some method) ∧
    (∀ token, (run config steps).pending.find? token = some .observe ↔
      ∃ c o, (run config steps).chain = some c ∧ c.observation = some o ∧ o.token = token) ∧
    (run config steps).timers.timers.map Timer.handle =
      ((run config steps).chain.bind Chain.timer?).toList ∧
    (∀ c, (run config steps).chain = some c →
      (c.step ≠ none → c.state = .awaitingRead ∨ ∃ place, c.state = .updating place) ∧
      (c.observation ≠ none → c.state = .observing ∧ c.timer? ≠ none)) ∧
    ((∀ c, (run config steps).chain = some c → c.state = .stopped) →
      (run config steps).chainTokens = [] ∧ (run config steps).timers.timers = []) ∧
    (∀ r method index, (run config steps).pending.find? r.token = some (.chainStep method index) →
      ∃ c, (run config steps).chain = some c ∧ c.Awaits r index ∧
        (c.respond r.token index r.status).2 ≠ .ignored) := by
  have h := bookkeeping_run hbound
  refine ⟨h.keys_perm, h.nodup_tokens, ?_, ?_, ?_, h.timed, ?_, h.nothing_of_over,
    fun r method index => h.respond_ne_ignored⟩
  · intro token
    rw [h.owned, owns_discovery_iff]
  · intro token method index
    rw [h.owned, owns_chainStep_iff]
    constructor
    · intro hwaiting
      obtain ⟨c, hc, hstep, hawaited, hmethod⟩ := hwaiting
      rw [(h.sound c hc).script, config_run hbound] at hmethod
      exact ⟨c, hc, hstep, hawaited, hmethod⟩
    · intro hwaiting
      obtain ⟨c, hc, hstep, hawaited, hmethod⟩ := hwaiting
      rw [← config_run hbound, ← (h.sound c hc).script] at hmethod
      exact ⟨c, hc, hstep, hawaited, hmethod⟩
  · intro token
    rw [h.owned, owns_observe_iff]
  · intro c hc
    exact ⟨(h.sound c hc).state_of_step, (h.sound c hc).timer_of_observation⟩

set_option maxRecDepth 10000 in
/-- While the lamp is read, the token of the search is gone and that of the read is pending. -/
theorem tokens_and_timers_run_lamp :
    (run (Lamp.config 4) Lamp.found).registrations < 2 ^ 64 ∧
    (run (Lamp.config 4) Lamp.found).searchTokens = [] ∧
    (run (Lamp.config 4) Lamp.found).chainTokens = [⟨2⟩] ∧
    (run (Lamp.config 4) Lamp.found).pending.keys.Perm
      ((run (Lamp.config 4) Lamp.found).searchTokens ++
        (run (Lamp.config 4) Lamp.found).chainTokens) := by
  have hbound : (run (Lamp.config 4) Lamp.found).registrations < 2 ^ 64 := by decide +kernel
  exact ⟨hbound, by decide +kernel, by decide +kernel,
    (tokens_and_timers_run (Lamp.config 4) Lamp.found hbound).1⟩

end Engine

end DeviceClient
