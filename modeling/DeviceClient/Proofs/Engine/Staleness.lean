import DeviceClient.Proofs.Engine.Bookkeeping

namespace DeviceClient

namespace Engine

/-- The tokens that responses are waited for under. -/
def outstanding (e : Engine) : List Token := e.searchTokens ++ e.chainTokens

/-- A chain that is over waits for nothing. -/
theorem outstanding_of_halt {e e' : Engine} (hdiscovery : e'.discovery = e.discovery) {c : Chain}
    (hchain : e'.chain = some c.halt) : e'.outstanding = e.searchTokens := by
  simp [outstanding, searchTokens, chainTokens, hdiscovery, hchain, Chain.tokens, Chain.halt]

theorem registrations_since {e e' : Engine} (hlog : e.log <+: e'.log) :
    e'.registrations = e.registrations + (e'.since e).countP Effect.isRegistration := by
  rw [registrations, log_eq_append_since hlog, List.countP_append]
  rfl

/-- The token has been issued since an earlier state, for a request that has been accepted. -/
def Issues (e e' : Engine) (token : Token) : Prop :=
  token = e.pending.nextToken ∧ ∃ request : Request, request.token = token ∧
    (Effect.sent request true).isRegistration ∧ .sent request true ∈ e'.since e

/-- What has been issued between two states has been issued between earlier and later ones. -/
theorem Issues.mono {e₁ e₂ e₃ e₄ : Engine} {token : Token} (h : Issues e₂ e₃ token)
    (hpending : e₂.pending.nextToken = e₁.pending.nextToken) (h₁ : e₁.log <+: e₂.log)
    (h₂ : e₂.log <+: e₃.log) (h₃ : e₃.log <+: e₄.log) : Issues e₁ e₄ token := by
  obtain ⟨heq, request, hrequest, hregistration, hsent⟩ := h
  refine ⟨heq.trans hpending, request, hrequest, hregistration, ?_⟩
  rw [since_append (h₁.trans h₂) h₃, since_append h₁ h₂]
  exact List.mem_append_left _ (List.mem_append_right _ hsent)

theorem Issues.lt {e e' : Engine} {token : Token} (h : Issues e e' token)
    (hlog : e.log <+: e'.log) : e.registrations < e'.registrations := by
  obtain ⟨-, request, -, hregistration, hsent⟩ := h
  have hcount : 0 < (e'.since e).countP Effect.isRegistration :=
    List.countP_pos_iff.mpr ⟨_, hsent, hregistration⟩
  rw [registrations_since hlog]
  omega

namespace Bookkeeping

variable {e : Engine} (h : e.Bookkeeping)

include h

/-- A response that nothing waits for changes nothing. -/
theorem handleResponse_of_stale {r : Response} (hstale : r.token ∉ e.outstanding)
    (s : Surroundings) (now : Nat) : e.handleResponse s now r = e := by
  have hsearch : r.token ∉ e.searchTokens := fun hmem => hstale (List.mem_append_left _ hmem)
  have hchain : r.token ∉ e.chainTokens := fun hmem => hstale (List.mem_append_right _ hmem)
  rw [handleResponse, PendingRequests.correlate_of_none (h.find?_eq_none hsearch hchain)]

/-- The numbers of the tokens that are waited under have been issued. -/
theorem number_le_of_outstanding {token : Token} (htoken : token ∈ e.outstanding) :
    token.number.toNat ≤ e.registrations := by
  obtain ⟨operation, hfind⟩ := PendingRequests.mem_keys_iff.mp
    (h.mem_keys_iff.mpr (List.mem_append.mp htoken))
  exact h.issued.earlier token operation hfind

/-- After the answer to the request of the chain under way, only the search is left. -/
theorem outstanding_answered {c : Chain} (hc : e.chain = some c) {r : Response} {index : Nat}
    (hawaits : c.Awaits r index) :
    ({ e with
      chain := some (c.answered index)
      pending := e.pending.remove r.token } : Engine).outstanding = e.searchTokens := by
  have hobs := (h.sound c hc).observation_of_step hawaits.2
  simp [outstanding, chainTokens, searchTokens, Chain.tokens, hobs]

end Bookkeeping

theorem Reading.issues {e e₁ : Engine} {s : Surroundings} {r : Resource} {qos : Qos}
    {read : Option Token} (h : Reading e s r qos e₁ read) {token : Token}
    (hread : read = some token) : Issues e e₁ token := by
  cases h with
  | noEndpoint hhead => cases hread
  | refused hhead hsend => cases hread
  | sent hhead hsend =>
    rename_i endpoint
    cases hread
    refine ⟨rfl, .unicast e.pending.nextToken .get endpoint r.uri qos, rfl, rfl, ?_⟩
    simp [since]

/-- A request of a chain that goes out is waited for; nothing else is. -/
theorem Sending.outstanding {e e₁ : Engine} {s : Surroundings} {now : Nat} {c d : Chain}
    {index : Nat} {result : Except ClientError Unit}
    (h : Sending e s now d (c.following index) e₁ result) (hstep : d.step = none)
    (hobs : d.observation = none) {token : Token} (htoken : token ∈ e₁.outstanding) :
    token ∈ e.outstanding ∨ Issues e e₁ token := by
  cases h with
  | noEndpoint hhead => exact .inl htoken
  | unencodable hhead hbody => exact .inl htoken
  | refused hhead hbody hsend => exact .inl htoken
  | sent hhead hbody hsend hobserve =>
    rename_i endpoint payload
    rcases List.mem_append.mp htoken with hsearch | hchain
    · exact .inl (List.mem_append_left _ hsearch)
    · obtain rfl : token = e.pending.nextToken := by
        simpa [chainTokens, Chain.tokens, Chain.sent, hobs] using hchain
      refine .inr ⟨rfl, d.outgoing e.config.qos endpoint (c.following index) payload
        e.pending.nextToken, rfl, ?_, by simp [since]⟩
      exact c.isRegistration_outgoing d index e.config.qos endpoint payload e.pending.nextToken true
  | observed hhead hbody hsend hobserve =>
    rename_i endpoint payload
    rcases List.mem_append.mp htoken with hsearch | hchain
    · exact .inl (List.mem_append_left _ hsearch)
    · obtain rfl : token = e.pending.nextToken := by
        simpa [chainTokens, Chain.tokens, Chain.observing, hstep] using hchain
      refine .inr ⟨rfl, d.outgoing e.config.qos endpoint (c.following index) payload
        e.pending.nextToken, rfl, ?_, by simp [since]⟩
      exact c.isRegistration_outgoing d index e.config.qos endpoint payload e.pending.nextToken true

/-- What is waited for after a reaction has been waited for before it, or has been issued in it. -/
theorem Reaction.outstanding {e e' : Engine} {s : Surroundings} {x : Stimulus}
    (h : Reaction e s x e') (hbooks : e.Bookkeeping) {token : Token}
    (htoken : token ∈ e'.outstanding) : token ∈ e.outstanding ∨ Issues e e' token := by
  cases h with
  | quiet hquiet htimers => exact .inl htoken
  | searching hx hp hsend =>
    rename_i type p
    rcases List.mem_append.mp htoken with hsearch | hchain
    · obtain rfl : token = p.nextToken := by simpa [searchTokens] using hsearch
      refine .inr ⟨?_, .discovery p.nextToken (some type), rfl, rfl, by simp [since]⟩
      rw [hp, PendingRequests.nextToken_removeAll]
    · exact .inl (List.mem_append_right _ hchain)
  | searchRefused hx hp hsend =>
    rcases List.mem_append.mp htoken with hsearch | hchain
    · cases hsearch
    · exact .inl (List.mem_append_right _ hchain)
  | found hx hd hread =>
    rename_i now response d search released r e₁ read
    rcases List.mem_append.mp htoken with hsearch | hchain
    · cases hsearch
    · cases hr : read with
      | none => simp [chainTokens, hr] at hchain
      | some sent =>
        obtain rfl : token = sent := by
          simpa [chainTokens, hr, Chain.tokens, Chain.start, Chain.sent] using hchain
        exact .inr ((hread.issues hr).mono rfl (log_recordAll_of_eq rfl) hread.log
          (log_recordAll_of_eq rfl))
  | notified hx hc ho htoken' hseq => exact .inl htoken
  | stopped hc hrun hstops =>
    rw [outstanding_of_halt rfl rfl] at htoken
    exact .inl (List.mem_append_left _ htoken)
  | readFailed hx hc hawaits hstatus =>
    rw [outstanding_of_halt rfl rfl] at htoken
    exact .inl (List.mem_append_left _ htoken)
  | answered hx hc hawaits hmethod hstatus hsending =>
    rename_i now r c index method e₁ result
    have hobs := (hbooks.sound c hc).observation_of_step hawaits.2
    rcases hsending.outstanding (c.step_answered index) ((c.observation_answered index).trans hobs)
      htoken with hbefore | hissues
    · rw [hbooks.outstanding_answered hc hawaits] at hbefore
      exact .inl (List.mem_append_left _ hbefore)
    · have hnext : (e.pending.remove r.token).nextToken = e.pending.nextToken := rfl
      exact .inr (hissues.mono hnext (List.prefix_refl _) hsending.log (log_recordAll_of_eq rfl))

theorem Reading.refusal {e e₁ : Engine} {s : Surroundings} {r : Resource} {qos : Qos}
    {read : Option Token} (h : Reading e s r qos e₁ read) {request : Request}
    (hrefused : .sent request false ∈ e₁.since e) :
    request.token = e.pending.nextToken ∧ read = none := by
  cases h with
  | noEndpoint hhead => simp at hrefused
  | refused hhead hsend =>
    obtain rfl := by simpa [since] using hrefused
    exact ⟨rfl, rfl⟩
  | sent hhead hsend => simp [since] at hrefused

theorem Sending.refusal {e e₁ : Engine} {s : Surroundings} {now : Nat} {c : Chain}
    {r : ChainRequest} {result : Except ClientError Unit} (h : Sending e s now c r e₁ result)
    {request : Request} (hrefused : .sent request false ∈ e₁.since e) :
    request.token = e.pending.nextToken ∧ e₁.outstanding = e.outstanding := by
  cases h with
  | noEndpoint hhead => simp at hrefused
  | unencodable hhead hbody => simp at hrefused
  | refused hhead hbody hsend =>
    obtain rfl := by simpa [since] using hrefused
    exact ⟨rfl, rfl⟩
  | sent hhead hbody hsend hobserve => simp [since] at hrefused
  | observed hhead hbody hsend hobserve => simp [since] at hrefused

/-- A request that is refused has had the token that is next, and nothing is waited for that has not
been before. -/
theorem Reaction.refusal {e e' : Engine} {s : Surroundings} {x : Stimulus} (h : Reaction e s x e')
    (hbooks : e.Bookkeeping) {request : Request}
    (hregistration : (Effect.sent request false).isRegistration)
    (hrefused : .sent request false ∈ e'.since e) :
    request.token = e.pending.nextToken ∧ e'.outstanding ⊆ e.outstanding := by
  have hnot {effects : List Effect} (hnone : effects.countP Effect.isRegistration = 0) :
      .sent request false ∉ effects :=
    fun hmem => List.countP_eq_zero.mp hnone _ hmem hregistration
  cases h with
  | quiet hquiet htimers => exact absurd hrefused (by simpa [since] using hnot (countP_quiet hquiet))
  | searching hx hp hsend => simp [since] at hrefused
  | searchRefused hx hp hsend =>
    obtain rfl := by simpa [since] using hrefused
    refine ⟨?_, List.subset_append_right _ _⟩
    rw [← PendingRequests.nextToken_removeAll e.pending e.searchTokens, ← hp]
    rfl
  | found hx hd hread =>
    rename_i now response d search released r e₁ read
    rcases hread.mem_since hrefused rfl rfl with hreleased | hsent | hclosing
    · simp at hreleased
    · obtain ⟨htoken, rfl⟩ := hread.refusal hsent
      exact ⟨htoken, List.nil_subset _⟩
    · exact absurd hclosing (hnot (by simp [countP_closing, Effect.isRegistration]))
  | notified hx hc ho htoken' hseq => simp [since] at hrefused
  | stopped hc hrun hstops =>
    refine absurd hrefused ?_
    rw [since_eq_of_log rfl]
    exact hnot (by simp [countP_farewell, Effect.isRegistration])
  | readFailed hx hc hawaits hstatus => simp [since] at hrefused
  | answered hx hc hawaits hmethod hstatus hsending =>
    rename_i now r c index method e₁ result
    have hlog : e.log <+: e₁.log := hsending.log
    rw [since_append hlog (log_recordAll_of_eq rfl)] at hrefused
    rcases List.mem_append.mp hrefused with hsent | hreported
    · obtain ⟨htoken, heq⟩ := hsending.refusal hsent
      rw [hbooks.outstanding_answered hc hawaits] at heq
      refine ⟨htoken, fun token houtstanding => List.mem_append_left _ ?_⟩
      exact heq ▸ houtstanding
    · simp [since] at hreported

namespace Bookkeeping

variable {e : Engine} (h : e.Bookkeeping)

include h

/-- A response that ends an operation is the last that is waited for under its token. -/
theorem not_mem_outstanding_of_ended {s : Surroundings} {now : Nat} {r : Response}
    {operation : Operation} (hfind : e.pending.find? r.token = some operation)
    (hends : operation.continues r.sequence = false)
    (hbound : (e.handleResponse s now r).registrations < 2 ^ 64) :
    r.token ∉ (e.handleResponse s now r).outstanding := by
  have hchain (hop : operation ≠ .discovery) : r.token ∉ e.searchTokens := by
    intro hsearch
    obtain ⟨d, hd, htoken⟩ := mem_searchTokens_iff.mp hsearch
    rw [← htoken, (h.owned _ _).mpr (.search hd), Option.some.injEq] at hfind
    exact hop hfind.symm
  cases operation with
  | discovery => cases hends
  | chainStep method index =>
    have hsearch := hchain (by simp)
    obtain ⟨c, hc, hawaits, -⟩ := h.exists_awaits hfind
    rw [handleResponse, PendingRequests.correlate_of_some hfind] at hbound ⊢
    simp only [handleChainStep, hc, Operation.continues, Bool.false_eq_true, if_false] at hbound ⊢
    by_cases hfailed : index = 0 ∧ r.status.isSuccess = false
    · obtain ⟨rfl, hstatus⟩ := hfailed
      rw [Chain.respond_of_failed hawaits hstatus, (h.sound c hc).eq_halt_of_awaits hawaits]
      rwa [outstanding_of_halt rfl rfl]
    · have hstatus : index = 0 → r.status.isSuccess = true := by
        intro hindex
        simpa [hindex] using hfailed
      rw [Chain.respond_of_awaits hawaits hstatus] at hbound ⊢
      have hsending := Engine.sending
        { e with chain := some (c.answered index), pending := e.pending.remove r.token }
        s now (c.answered index) (c.following index)
      have hobs := (h.sound c hc).observation_of_step hawaits.2
      intro htoken
      rcases hsending.outstanding (c.step_answered index) ((c.observation_answered index).trans hobs)
        htoken with hbefore | hissues
      · rw [h.outstanding_answered hc hawaits] at hbefore
        exact hsearch hbefore
      · have hlt : e.registrations < _ := hissues.lt hsending.log
        simp only [report_eq, registrations_recordAll] at hbound
        exact h.ne_nextToken (by omega) hfind hissues.1
  | observe =>
    have hsearch := hchain (by simp)
    obtain ⟨c, o, hc, ho, -⟩ := owns_observe_iff.mp ((h.owned _ _).mp hfind)
    have hrun : c.state ≠ .stopped := by simp [(h.sound c hc).observation ho]
    have hseq : r.sequence = none := by simpa [Operation.continues] using hends
    rw [handleResponse, PendingRequests.correlate_of_some hfind]
    simp only [handleNotification, hseq, Operation.continues, Option.isSome_none,
      Bool.false_eq_true, if_false]
    rw [stopChain_running { e with pending := e.pending.remove r.token } s hc hrun]
    rwa [outstanding_of_halt rfl rfl]

end Bookkeeping

/-- What is waited for after more steps has been waited for before them, or its number is larger than
those of the tokens that had been issued by then. -/
theorem outstanding_run_append {config : Config} {before after : List Step}
    (hbound : (run config (before ++ after)).registrations < 2 ^ 64) {token : Token}
    (htoken : token ∈ (run config (before ++ after)).outstanding) :
    token ∈ (run config before).outstanding ∨
      (run config before).registrations < token.number.toNat := by
  induction after using List.reverseRecOn with
  | nil => exact .inl (by simpa using htoken)
  | append_singleton after step ih =>
    rw [← List.append_assoc, run_concat] at hbound htoken
    have hlog := log_handle (e := run config (before ++ after)) step.1 step.2
    have hle := registrations_le_handle (e := run config (before ++ after)) step.1 step.2
    have hbooks := bookkeeping_run (Nat.lt_of_le_of_lt hle hbound)
    rcases (hbooks.reaction step.1 step.2).outstanding hbooks htoken with hearlier | hissues
    · exact ih (Nat.lt_of_le_of_lt hle hbound) hearlier
    · have hlt := hissues.lt hlog
      have hnumber := hbooks.issued.toNat_nextToken (by omega)
      have hfirst := registrations_run_le_append config before after
      rw [← hissues.1] at hnumber
      exact .inr (by omega)

/-- Every token that is waited under has been issued for a request that has been accepted. -/
theorem exists_accepted_run {config : Config} {steps : List Step}
    (hbound : (run config steps).registrations < 2 ^ 64) (token : Token)
    (htoken : token ∈ (run config steps).outstanding) :
    ∃ request : Request, request.token = token ∧ (Effect.sent request true).isRegistration ∧
      .sent request true ∈ (run config steps).log := by
  revert token
  apply run_induction (P := fun e => ∀ token, token ∈ e.outstanding →
    ∃ request : Request, request.token = token ∧ (Effect.sent request true).isRegistration ∧
      .sent request true ∈ e.log) _ _ hbound
  · intro token htoken
    cases htoken
  · intro e s x e' hbooks hbefore hreaction token htoken
    rcases hreaction.outstanding hbooks htoken with hearlier | ⟨-, hissued⟩
    · obtain ⟨request, hrequest, hregistration, hsent⟩ := hbefore token hearlier
      exact ⟨request, hrequest, hregistration, hreaction.log.subset hsent⟩
    · obtain ⟨request, hrequest, hregistration, hsent⟩ := hissued
      exact ⟨request, hrequest, hregistration, List.mem_of_mem_drop hsent⟩

/-- No token is waited under that has been issued for a request that has been refused. -/
theorem refused_run {config : Config} {steps : List Step}
    (hbound : (run config steps).registrations < 2 ^ 64) {request : Request}
    (hregistration : (Effect.sent request false).isRegistration)
    (hrefused : .sent request false ∈ (run config steps).log) :
    request.token.number.toNat ≤ (run config steps).registrations ∧
      request.token ∉ (run config steps).outstanding := by
  induction steps using List.reverseRecOn with
  | nil => cases hrefused
  | append_singleton steps step ih =>
    rw [run_concat] at hbound hrefused ⊢
    have hlog := log_handle (e := run config steps) step.1 step.2
    have hle := registrations_le_handle (e := run config steps) step.1 step.2
    have hbooks := bookkeeping_run (Nat.lt_of_le_of_lt hle hbound)
    have hreaction := hbooks.reaction step.1 step.2
    rw [log_eq_append_since hlog] at hrefused
    rcases List.mem_append.mp hrefused with hearlier | hnow
    · obtain ⟨hnumber, hnot⟩ := ih (Nat.lt_of_le_of_lt hle hbound) hearlier
      refine ⟨Nat.le_trans hnumber hle, fun htoken => ?_⟩
      rcases hreaction.outstanding hbooks htoken with hearlier | hissues
      · exact hnot hearlier
      · have hlt := hissues.lt hlog
        have hnext := hbooks.issued.toNat_nextToken (by omega)
        rw [← hissues.1] at hnext
        omega
    · obtain ⟨hnext, hsubset⟩ := hreaction.refusal hbooks hregistration hnow
      have hlt : (run config steps).registrations <
          ((run config steps).handle step.1 step.2).registrations := by
        rw [registrations_since hlog]
        have hcount := List.countP_pos_iff.mpr ⟨_, hnow, hregistration⟩
        omega
      have hnumber := hbooks.issued.toNat_nextToken (by omega)
      rw [← hnext] at hnumber
      refine ⟨by omega, fun htoken => ?_⟩
      have hle := hbooks.number_le_of_outstanding (hsubset htoken)
      omega

/-- A response that nothing waits for might as well not have come: the run without it is the same run,
whatever comes later. A token that has been given up is never waited under again; a response that
ends an operation gives its token up. What is waited under has been issued for a request that has
been accepted, and not for one that has been refused. -/
theorem stale_responses_vanish (config : Config) (steps : List Step)
    (hbound : (run config steps).registrations < 2 ^ 64) :
    (∀ before s now r after, steps = before ++ (s, .response now r) :: after →
      r.token ∉ (run config before).outstanding → ∀ later, later <+: after →
        run config (before ++ (s, .response now r) :: later) = run config (before ++ later)) ∧
    (∀ before between after token, steps = before ++ between ++ after →
      token ∈ (run config before).outstanding →
      token ∉ (run config (before ++ between)).outstanding →
      token ∉ (run config steps).outstanding) ∧
    (∀ before s now r after operation, steps = before ++ (s, .response now r) :: after →
      (run config before).pending.find? r.token = some operation →
      operation.continues r.sequence = false → r.token ∉ (run config steps).outstanding) ∧
    (∀ token, token ∈ (run config steps).outstanding →
      (∃ request : Request, request.token = token ∧ (Effect.sent request true).isRegistration ∧
        .sent request true ∈ (run config steps).log) ∧
      ∀ request : Request, request.token = token → (Effect.sent request false).isRegistration →
        .sent request false ∉ (run config steps).log) := by
  have hgone (before between after : List Step) (token : Token)
      (hsteps : steps = before ++ between ++ after)
      (hissued : token.number.toNat ≤ (run config before).registrations)
      (hnot : token ∉ (run config (before ++ between)).outstanding) :
      token ∉ (run config steps).outstanding := by
    intro htoken
    rw [hsteps] at hbound htoken
    have hle := registrations_run_le_append config before between
    rcases outstanding_run_append hbound htoken with hearlier | hlater
    · exact hnot hearlier
    · omega
  have hbooks {before after : List Step} (hsteps : steps = before ++ after) :
      (run config before).Bookkeeping := by
    rw [hsteps] at hbound
    exact bookkeeping_run
      (Nat.lt_of_le_of_lt (registrations_run_le_append config before after) hbound)
  refine ⟨?_, ?_, ?_, ?_⟩
  · intro before s now r after hsteps hstale later hlater
    have heq := (hbooks hsteps).handleResponse_of_stale hstale s now
    simp only [run, List.foldl_append, List.foldl_cons] at heq ⊢
    rw [handle, heq]
  · intro before between after token hsteps hbefore hnot
    have hbefore := (hbooks (hsteps.trans (List.append_assoc _ _ _))).number_le_of_outstanding hbefore
    exact hgone before between after token hsteps hbefore hnot
  · intro before s now r after operation hsteps hfind hends
    have hprefix : steps = before ++ [(s, .response now r)] ++ after := by simp [hsteps]
    have hissued := (hbooks hsteps).issued.earlier _ _ hfind
    refine hgone before [(s, .response now r)] after r.token hprefix hissued ?_
    rw [run_concat]
    refine (hbooks hsteps).not_mem_outstanding_of_ended hfind hends ?_
    have hle := registrations_run_le_append config (before ++ [(s, .response now r)]) after
    rw [← hprefix, run_concat] at hle
    exact Nat.lt_of_le_of_lt hle hbound
  · intro token htoken
    refine ⟨exists_accepted_run hbound token htoken, ?_⟩
    intro request hrequest hregistration hrefused
    rw [← hrequest] at htoken
    exact (refused_run hbound hregistration hrefused).2 htoken

set_option maxRecDepth 10000 in
/-- While the lamp is read, another answer to the search that has found it comes too late. -/
theorem stale_responses_vanish_lamp :
    (run (Lamp.config 16)
      (Lamp.found ++ [Lamp.answer 1 [], Lamp.answer 2 []])).registrations < 2 ^ 64 ∧
    ⟨1⟩ ∉ (run (Lamp.config 16) Lamp.found).outstanding ∧
    ⟨2⟩ ∈ (run (Lamp.config 16) Lamp.found).outstanding ∧
    run (Lamp.config 16) (Lamp.found ++ [Lamp.answer 1 [], Lamp.answer 2 []]) =
      run (Lamp.config 16) (Lamp.found ++ [Lamp.answer 2 []]) := by
  have hbound : (run (Lamp.config 16)
      (Lamp.found ++ [Lamp.answer 1 [], Lamp.answer 2 []])).registrations < 2 ^ 64 := by
    decide +kernel
  have hstale : ⟨1⟩ ∉ (run (Lamp.config 16) Lamp.found).outstanding := by decide +kernel
  have hwaited : ⟨2⟩ ∈ (run (Lamp.config 16) Lamp.found).outstanding := by decide +kernel
  have hvanish := (stale_responses_vanish (Lamp.config 16) _ hbound).1
  exact ⟨hbound, hstale, hwaited,
    hvanish Lamp.found .willing 0 ⟨⟨1⟩, .ok, none, []⟩ [Lamp.answer 2 []] rfl hstale
      [Lamp.answer 2 []] (List.prefix_refl _)⟩

end Engine

end DeviceClient
