import DeviceClient.Proofs.Engine.Segments

namespace DeviceClient

/-- Whether the chain runs with nothing under way. -/
def Chain.Idle (c : Chain) : Prop := c.state ≠ .stopped ∧ c.step = none ∧ c.observation = none

namespace Engine

/-- Whether what the chain waits for is under way. A chain that is over waits for nothing. -/
def Waits (e : Engine) (c : Chain) : Prop :=
  match c.state with
  | .awaitingRead | .updating _ =>
    ∃ token method index, c.step = some token ∧
      e.pending.find? token = some (.chainStep method index)
  | .observing =>
    ∃ o timer, c.observation = some o ∧ e.pending.find? o.token = some .observe ∧
      o.timer = some timer ∧ e.timers.contains timer = true
  | .stopped => True

def Hangs (e : Engine) : Prop := ∃ c, e.chain = some c ∧ ¬e.Waits c

/-- Why the next request of a chain does not go out: its body cannot be encoded, or the network
refuses it. -/
inductive Blocked (e : Engine) (s : Surroundings) (c : Chain) (r : ChainRequest) : Prop
  | unencodable {error : ClientError} (hbody : e.encodeBody r.body = .error error)
  | refused {endpoint : Endpoint} {payload : List UInt8} {error : ClientError}
      (hhead : c.resource.endpoints.head? = some endpoint)
      (hbody : e.encodeBody r.body = .ok payload)
      (hsend : s.send (c.outgoing e.config.qos endpoint r payload e.pending.nextToken) = some error)

/-- The chain is given the answer that it waits for, and its next request does not go out. -/
inductive Thwarted (e : Engine) (s : Surroundings) : Stimulus → Prop
  | intro {now : Nat} {r : Response} {c : Chain} {index : Nat} (hc : e.chain = some c)
      (hawaits : c.Awaits r index) (hstatus : index = 0 → r.status.isSuccess = true)
      (hblocked : e.Blocked s (c.answered index) (c.following index)) :
      Thwarted e s (.response now r)

/-- What blocks a request depends on the configuration and the next token only. -/
theorem Blocked.congr {e e' : Engine} {s : Surroundings} {c : Chain} {r : ChainRequest}
    (h : e.Blocked s c r) (hconfig : e'.config = e.config)
    (htoken : e'.pending.nextToken = e.pending.nextToken) : e'.Blocked s c r := by
  have hencode : e'.encodeBody r.body = e.encodeBody r.body := by
    unfold encodeBody
    rw [hconfig]
  cases h with
  | unencodable hbody => exact .unencodable (hencode.trans hbody)
  | refused hhead hbody hsend =>
    exact .refused hhead (hencode.trans hbody) (by rw [hconfig, htoken]; exact hsend)

theorem Sending.chain_of_blocked {e e₁ : Engine} {s : Surroundings} {now : Nat} {c : Chain}
    {r : ChainRequest} {result : Except ClientError Unit} (h : Sending e s now c r e₁ result)
    (hblocked : e.Blocked s c r) : e₁.chain = e.chain := by
  cases h with
  | noEndpoint hhead => rfl
  | unencodable hhead hbody => rfl
  | refused hhead hbody hsend => rfl
  | sent hhead hbody hsend hobserve =>
    cases hblocked <;> simp_all
  | observed hhead hbody hsend hobserve =>
    cases hblocked <;> simp_all

namespace Bookkeeping

variable {e : Engine} (h : e.Bookkeeping)

include h

theorem waits_of_step {c : Chain} (hc : e.chain = some c) {token : Token}
    (hstep : c.step = some token) : e.Waits c := by
  have hsound := h.sound c hc
  obtain ⟨operation, hunder⟩ := Option.ne_none_iff_exists'.mp (hsound.underWay?_ne_none hstep)
  obtain ⟨method, index, rfl⟩ := Chain.eq_chainStep_of_underWay? hunder
  have hfind := (h.owned _ _).mpr (.chain hc (.step hstep hunder))
  have hstate := hsound.state_of_step (by simp [hstep])
  unfold Waits
  rcases hstate with hstate | ⟨place, hstate⟩ <;> rw [hstate] <;>
    exact ⟨token, method, index, hstep, hfind⟩

theorem waits_of_observation {c : Chain} (hc : e.chain = some c) {o : Observation}
    (hobs : c.observation = some o) : e.Waits c := by
  have hsound := h.sound c hc
  have hfind := (h.owned _ _).mpr (.chain hc (.observation hobs))
  obtain ⟨timer, htimer⟩ := Option.ne_none_iff_exists'.mp (hsound.timer hobs)
  have hcontains : e.timers.contains timer = true := by
    rw [Scheduler.contains_iff, h.timed]
    simp [hc, Chain.timer?, hobs, htimer]
  unfold Waits
  rw [hsound.observation hobs]
  exact ⟨o, timer, hobs, hfind, htimer, hcontains⟩

/-- A chain hangs when it is idle. -/
theorem hangs_iff : e.Hangs ↔ ∃ c, e.chain = some c ∧ c.Idle := by
  constructor
  · intro hhangs
    obtain ⟨c, hc, hwaits⟩ := hhangs
    refine ⟨c, hc, ?_, ?_, ?_⟩
    · intro hstate
      exact hwaits (by rw [Waits, hstate]; trivial)
    · cases hstep : c.step with
      | none => rfl
      | some token => exact absurd (h.waits_of_step hc hstep) hwaits
    · cases hobs : c.observation with
      | none => rfl
      | some o => exact absurd (h.waits_of_observation hc hobs) hwaits
  · intro hidle
    obtain ⟨c, hc, hrun, hstep, hobs⟩ := hidle
    refine ⟨c, hc, fun hwaits => ?_⟩
    unfold Waits at hwaits
    cases hstate : c.state <;> simp_all

theorem idle_answered {c : Chain} (hc : e.chain = some c) {r : Response} {index : Nat}
    (hawaits : c.Awaits r index) : (c.answered index).Idle := by
  have hobs := (h.sound c hc).observation_of_step hawaits.2
  refine ⟨?_, c.step_answered index, (c.observation_answered index).trans hobs⟩
  rcases c.answered_cases index with ⟨update, -, hstate, -⟩ | ⟨-, hstate, -⟩ <;> simp [hstate]

/-- A response that the chain waits for is pending as the step of the chain. -/
theorem find?_of_awaits {c : Chain} (hc : e.chain = some c) {r : Response} {index : Nat}
    (hawaits : c.Awaits r index) :
    ∃ method, e.pending.find? r.token = some (.chainStep method index) := by
  obtain ⟨method, hmethod⟩ :=
    Option.ne_none_iff_exists'.mp ((h.sound c hc).methodAt?_ne_none hawaits.1)
  have hunder := Chain.underWay?_eq_some_iff.mpr ⟨hawaits.1, hmethod⟩
  exact ⟨method, (h.owned _ _).mpr (.chain hc (.step hawaits.2 hunder))⟩

/-- An answer after which the next request does not go out leaves the chain idle. -/
theorem idle_of_thwarted {s : Surroundings} {x : Stimulus} (hthwarted : e.Thwarted s x) :
    ∃ c, (e.handle s x).chain = some c ∧ c.Idle := by
  obtain ⟨hc, hawaits, hstatus, hblocked⟩ := hthwarted
  rename_i now r c index
  obtain ⟨method, hfind⟩ := h.find?_of_awaits hc hawaits
  refine ⟨c.answered index, ?_, h.idle_answered hc hawaits⟩
  simp only [handle, handleResponse, PendingRequests.correlate_of_some hfind, Operation.continues,
    Bool.false_eq_true, if_false, handleChainStep, hc, Chain.respond_of_awaits hawaits hstatus,
    report_eq, chain_recordAll]
  exact (Engine.sending { e with
    chain := some (c.answered index)
    pending := e.pending.remove r.token } s now _ _).chain_of_blocked
      (hblocked.congr rfl rfl)

/-- A chain begins to hang only where its next request does not go out. -/
theorem idle_reaction {e' : Engine} {s : Surroundings} {x : Stimulus}
    (hreaction : Reaction e s x e') (hidle : ∃ c, e'.chain = some c ∧ c.Idle) :
    (∃ c, e.chain = some c ∧ c.Idle) ∧ e'.chainEvents = e.chainEvents ∨ e.Thwarted s x := by
  obtain ⟨c', hc', hrun', hstep', hobs'⟩ := hidle
  cases hreaction with
  | quiet hquiet htimers =>
    refine .inl ⟨⟨c', hc', hrun', hstep', hobs'⟩, ?_⟩
    rw [chainEvents_recordAll, chainEvents_quiet hquiet, List.append_nil]
    rfl
  | searching hx hp hsend =>
    refine .inl ⟨⟨c', hc', hrun', hstep', hobs'⟩, ?_⟩
    simp [Effect.chainEvent?, chainEvents]
  | searchRefused hx hp hsend =>
    refine .inl ⟨⟨c', hc', hrun', hstep', hobs'⟩, ?_⟩
    simp [Effect.chainEvent?, chainEvents]
  | found hx hd hread =>
    obtain ⟨token, -, rfl⟩ := Option.map_eq_some_iff.mp hc'
    cases hstep'
  | notified hx hc ho htoken hseq =>
    rw [chain_recordAll, hc] at hc'
    cases hc'
    rw [ho] at hobs'
    cases hobs'
  | stopped hc hrun hstops =>
    cases hc'
    exact absurd rfl hrun'
  | readFailed hx hc hawaits hstatus =>
    cases hc'
    exact absurd rfl hrun'
  | answered hx hc hawaits hmethod hstatus hsending =>
    rename_i now r c index method e₁ result
    subst hx
    rw [chain_recordAll] at hc'
    cases hsending with
    | noEndpoint hhead =>
      rw [c.resource_answered] at hhead
      exact absurd hhead (h.sound c hc).endpoint
    | unencodable hhead hbody => exact .inr (.intro hc hawaits hstatus (.unencodable hbody))
    | refused hhead hbody hsend =>
      exact .inr (.intro hc hawaits hstatus (.refused hhead hbody hsend))
    | sent hhead hbody hsend hobserve =>
      cases hc'
      cases hstep'
    | observed hhead hbody hsend hobserve =>
      cases hc'
      cases hobs'

end Bookkeeping

theorem chainEvents_run_append (config : Config) (before after : List Step) :
    (run config before).chainEvents <+: (run config (before ++ after)).chainEvents := by
  induction after using List.reverseRecOn with
  | nil => simp
  | append_singleton after step ih =>
    rw [← List.append_assoc, run_concat]
    exact ih.trans ((log_handle _ _).filterMap _)

/-- While nothing is reported, the chain stays as it is. -/
theorem chain_run_eq_of_silent {config : Config} {before after : List Step}
    (hbound : (run config (before ++ after)).registrations < 2 ^ 64)
    (hsilent : (run config (before ++ after)).chainEvents = (run config before).chainEvents) :
    (run config (before ++ after)).chain = (run config before).chain := by
  induction after using List.reverseRecOn with
  | nil => rw [List.append_nil]
  | append_singleton after step ih =>
    have hmiddle : (run config (before ++ after)).chainEvents = (run config before).chainEvents := by
      have hle := (chainEvents_run_append config (before ++ after) [step]).length_le
      rw [List.append_assoc, hsilent] at hle
      exact ((chainEvents_run_append config before after).eq_of_length_le hle).symm
    rw [← List.append_assoc, run_concat] at hbound hsilent ⊢
    have hbefore := Nat.lt_of_le_of_lt (registrations_le_handle _ _) hbound
    obtain ⟨new, hevents, -, hchain⟩ :=
      ((bookkeeping_run hbefore).reaction step.1 step.2).chainEvents
    rw [hsilent, ← hmiddle, List.self_eq_append_right] at hevents
    rw [hchain hevents]
    exact ih hbefore hmiddle

/-- A chain hangs exactly when some answer was followed by a request that did not go out, and nothing
has been reported about a resource since. -/
theorem hangs_run_iff (config : Config) (steps : List Step)
    (hbound : (run config steps).registrations < 2 ^ 64) :
    (run config steps).Hangs ↔
      ∃ before step after, steps = before ++ step :: after ∧
        (run config before).Thwarted step.1 step.2 ∧
        (run config steps).chainEvents = (run config (before ++ [step])).chainEvents := by
  rw [(bookkeeping_run hbound).hangs_iff]
  constructor
  · induction steps using List.reverseRecOn with
    | nil =>
      intro hidle
      obtain ⟨c, hc, -⟩ := hidle
      cases hc
    | append_singleton steps step ih =>
      intro hidle
      rw [run_concat] at hbound hidle
      have hbefore := Nat.lt_of_le_of_lt (registrations_le_handle _ _) hbound
      have hbooks := bookkeeping_run hbefore
      rcases hbooks.idle_reaction (hbooks.reaction step.1 step.2) hidle with
        ⟨hidle', hsilent⟩ | hthwarted
      · obtain ⟨before, first, after, rfl, hthwarted, hsame⟩ := ih hbefore hidle'
        refine ⟨before, first, after ++ [step], by simp, hthwarted, ?_⟩
        rw [run_concat, hsilent, hsame]
      · exact ⟨steps, step, [], rfl, hthwarted, rfl⟩
  · intro hthwarted
    obtain ⟨before, step, after, rfl, hthwarted, hsilent⟩ := hthwarted
    have hsplit : before ++ step :: after = before ++ [step] ++ after := by simp
    rw [hsplit] at hbound hsilent ⊢
    have hbefore := bookkeeping_run (Nat.lt_of_le_of_lt
      (registrations_run_le_append config before ([step] ++ after)) (by rwa [← List.append_assoc]))
    obtain ⟨c, hc, hidle⟩ := hbefore.idle_of_thwarted hthwarted
    refine ⟨c, ?_, hidle⟩
    rw [chain_run_eq_of_silent hbound hsilent, run_concat]
    exact hc

set_option maxRecDepth 10000 in
/-- The lamp is not observed where the network refuses the request for it. -/
theorem hangs_run_iff_lamp :
    (run (Lamp.config 16) (Lamp.found ++ [Lamp.answer 2 [], Lamp.lost 3])).registrations < 2 ^ 64 ∧
    ∃ before step after,
      Lamp.found ++ [Lamp.answer 2 [], Lamp.lost 3] = before ++ step :: after ∧
        (run (Lamp.config 16) before).Thwarted step.1 step.2 ∧
        (run (Lamp.config 16) (Lamp.found ++ [Lamp.answer 2 [], Lamp.lost 3])).chainEvents =
          (run (Lamp.config 16) (before ++ [step])).chainEvents := by
  have hbound :
      (run (Lamp.config 16) (Lamp.found ++ [Lamp.answer 2 [], Lamp.lost 3])).registrations <
        2 ^ 64 := by
    decide +kernel
  have hstate :
      (run (Lamp.config 16) (Lamp.found ++ [Lamp.answer 2 [], Lamp.lost 3])).chain.map
        (fun c => (c.state, c.observation)) = some (.observing, none) := by
    decide +kernel
  obtain ⟨c, hc, heq⟩ := Option.map_eq_some_iff.mp hstate
  obtain ⟨hobserving, hnone⟩ := Prod.mk.inj heq
  refine ⟨hbound, (hangs_run_iff _ _ hbound).mp ⟨c, hc, ?_⟩⟩
  rw [Waits, hobserving]
  intro hwaits
  obtain ⟨o, timer, hobs, -⟩ := hwaits
  rw [hnone] at hobs
  cases hobs

set_option maxRecDepth 10000 in
/-- The update of the lamp does not fit into four bytes. Its chain hangs after the read. -/
theorem hangs_lamp : (run (Lamp.config 4) (Lamp.found ++ [Lamp.answer 2 []])).Hangs := by
  have hstate : (run (Lamp.config 4) (Lamp.found ++ [Lamp.answer 2 []])).chain.map
      (fun c => (c.state, c.step)) = some (.updating 0, none) := by
    decide +kernel
  obtain ⟨c, hc, heq⟩ := Option.map_eq_some_iff.mp hstate
  obtain ⟨hupdating, hnone⟩ := Prod.mk.inj heq
  refine ⟨c, hc, ?_⟩
  rw [Waits, hupdating]
  intro hwaits
  obtain ⟨token, method, index, hstep, -⟩ := hwaits
  rw [hnone] at hstep
  cases hstep

end Engine

end DeviceClient
