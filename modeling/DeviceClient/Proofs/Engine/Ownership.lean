import DeviceClient.Proofs.Engine.Timekeeping

namespace DeviceClient

/-- The method of the request at a place of a chain: the read has place 0, the updates follow. -/
def Script.methodAt? (script : Script) : Nat → Option Method
  | 0 => some .get
  | place + 1 => script[place]?.map Update.method

namespace Chain

/-- What the request that the chain waits for is registered as. -/
def underWay? (c : Chain) : Option Operation :=
  c.awaited?.bind fun index => (c.script.methodAt? index).map (.chainStep · index)

inductive Owns (c : Chain) : Token → Operation → Prop
  | step {token : Token} {operation : Operation} (hstep : c.step = some token)
      (hunder : c.underWay? = some operation) : Owns c token operation
  | observation {o : Observation} (hobs : c.observation = some o) : Owns c o.token .observe

/-- What holds of the parts of a chain: a request is under way only while the chain waits for one,
and an observation is there only while the chain observes. -/
structure Sound (script : Script) (c : Chain) : Prop where
  script : c.script = script
  endpoint : c.resource.endpoints.head? ≠ none
  place : ∀ {place}, c.state = .updating place → place < c.script.length
  step : ∀ {token}, c.step = some token → c.awaited? ≠ none
  observation : ∀ {o}, c.observation = some o → c.state = .observing
  timer : ∀ {o}, c.observation = some o → o.timer ≠ none

variable {c : Chain} {script : Script}

theorem underWay?_eq_some_iff {method : Method} {index : Nat} :
    c.underWay? = some (.chainStep method index) ↔
      c.awaited? = some index ∧ c.script.methodAt? index = some method := by
  cases ha : c.awaited? with
  | none => simp [underWay?, ha]
  | some place =>
    simp only [underWay?, ha, Option.bind_some, Option.map_eq_some_iff, Operation.chainStep.injEq,
      Option.some.injEq]
    constructor
    · intro hunder
      obtain ⟨m, hm, rfl, rfl⟩ := hunder
      exact ⟨rfl, hm⟩
    · intro hboth
      obtain ⟨rfl, hm⟩ := hboth
      exact ⟨method, hm, rfl, rfl⟩

theorem eq_chainStep_of_underWay? {operation : Operation} (h : c.underWay? = some operation) :
    ∃ method index, operation = .chainStep method index := by
  simp only [underWay?, Option.bind_eq_some_iff, Option.map_eq_some_iff] at h
  obtain ⟨index, -, method, -, rfl⟩ := h
  exact ⟨method, index, rfl⟩

theorem Owns.ne_discovery {token : Token} {operation : Operation} (h : c.Owns token operation) :
    operation ≠ .discovery := by
  cases h with
  | step hstep hunder =>
    obtain ⟨method, index, rfl⟩ := eq_chainStep_of_underWay? hunder
    simp
  | observation hobs => simp

theorem awaited?_eq_none_of_observing (h : c.state = .observing) : c.awaited? = none := by
  simp [awaited?, h]

namespace Sound

theorem step_of_observing (h : c.Sound script) (hs : c.state = .observing) : c.step = none := by
  cases hstep : c.step with
  | none => rfl
  | some token => exact absurd (awaited?_eq_none_of_observing hs) (h.step hstep)

theorem step_of_observation (h : c.Sound script) {o : Observation} (ho : c.observation = some o) :
    c.step = none :=
  h.step_of_observing (h.observation ho)

theorem observation_eq_none (h : c.Sound script) (hs : c.state ≠ .observing) :
    c.observation = none := by
  cases ho : c.observation with
  | none => rfl
  | some o => exact absurd (h.observation ho) hs

theorem observation_of_step (h : c.Sound script) {token : Token} (hs : c.step = some token) :
    c.observation = none := by
  cases ho : c.observation with
  | none => rfl
  | some o => rw [h.step_of_observation ho] at hs; cases hs

theorem state_ne_stopped_of_step (h : c.Sound script) {token : Token} (hs : c.step = some token) :
    c.state ≠ .stopped := by
  intro hstate
  exact h.step hs (by simp [awaited?, hstate])

theorem halt_eq (h : c.Sound script) (hs : c.state = .stopped) : c.halt = c := by
  have hstep : c.step = none := by
    cases hstep : c.step with
    | none => rfl
    | some token => exact absurd hs (h.state_ne_stopped_of_step hstep)
  have hobs := h.observation_eq_none (by simp [hs])
  cases c
  simp_all [halt]

theorem methodAt?_ne_none (h : c.Sound script) {index : Nat} (ha : c.awaited? = some index) :
    c.script.methodAt? index ≠ none := by
  cases hs : c.state with
  | awaitingRead =>
    simp only [awaited?, hs, Option.some.injEq] at ha
    simp [← ha, Script.methodAt?]
  | updating place =>
    simp only [awaited?, hs, Option.some.injEq] at ha
    have hp := h.place hs
    simp [← ha, Script.methodAt?, hp]
  | observing => simp [awaited?, hs] at ha
  | stopped => simp [awaited?, hs] at ha

/-- The chain waits for an answer to the read or to an update. -/
theorem le_length_of_awaited (h : c.Sound script) {index : Nat} (ha : c.awaited? = some index) :
    index ≤ script.length := by
  rw [← h.script]
  cases hs : c.state with
  | awaitingRead =>
    simp only [awaited?, hs, Option.some.injEq] at ha
    omega
  | updating place =>
    have hplace := h.place hs
    simp only [awaited?, hs, Option.some.injEq] at ha
    omega
  | observing => simp [awaited?, hs] at ha
  | stopped => simp [awaited?, hs] at ha

theorem underWay?_ne_none (h : c.Sound script) {token : Token} (hs : c.step = some token) :
    c.underWay? ≠ none := by
  cases ha : c.awaited? with
  | none => exact absurd ha (h.step hs)
  | some index =>
    have hm := h.methodAt?_ne_none ha
    simpa [underWay?, ha] using hm

/-- The tokens of a chain are the ones that it owns. -/
theorem mem_tokens_iff (h : c.Sound script) {token : Token} :
    token ∈ c.tokens ↔ ∃ operation, c.Owns token operation := by
  simp only [tokens, List.mem_append, Option.mem_toList, Option.map_eq_some_iff]
  constructor
  · intro htoken
    rcases htoken with hs | ⟨o, ho, rfl⟩
    · obtain ⟨operation, hop⟩ := Option.ne_none_iff_exists'.mp (h.underWay?_ne_none hs)
      exact ⟨operation, .step hs hop⟩
    · exact ⟨.observe, .observation ho⟩
  · intro hsome
    obtain ⟨operation, hown⟩ := hsome
    cases hown with
    | step hstep hunder => exact .inl hstep
    | observation hobs => exact .inr ⟨_, hobs, rfl⟩

theorem state_of_step (h : c.Sound script) (hs : c.step ≠ none) :
    c.state = .awaitingRead ∨ ∃ place, c.state = .updating place := by
  obtain ⟨token, hstep⟩ := Option.ne_none_iff_exists'.mp hs
  have hawaited := h.step hstep
  cases hstate : c.state with
  | awaitingRead => exact .inl rfl
  | updating place => exact .inr ⟨place, rfl⟩
  | observing => simp [awaited?, hstate] at hawaited
  | stopped => simp [awaited?, hstate] at hawaited

theorem timer_of_observation (h : c.Sound script) (ho : c.observation ≠ none) :
    c.state = .observing ∧ c.timer? ≠ none := by
  obtain ⟨o, hobs⟩ := Option.ne_none_iff_exists'.mp ho
  exact ⟨h.observation hobs, by simpa [timer?, hobs] using h.timer hobs⟩

theorem nodup_tokens (h : c.Sound script) : c.tokens.Nodup := by
  unfold tokens
  cases hobs : c.observation with
  | none => cases c.step <;> simp
  | some o => simp [h.step_of_observation hobs]

theorem halt (h : c.Sound script) : c.halt.Sound script where
  script := h.script
  endpoint := h.endpoint
  place := by intro place hp; cases hp
  step := by intro token hs; cases hs
  observation := by intro o ho; cases ho
  timer := by intro o ho; cases ho

end Sound

end Chain

namespace Engine

inductive Owns (e : Engine) : Token → Operation → Prop
  | search {d : Discovery} (hd : e.discovery = some d) : Owns e d.token .discovery
  | chain {c : Chain} {token : Token} {operation : Operation} (hc : e.chain = some c)
      (h : c.Owns token operation) : Owns e token operation

section

variable {e : Engine} {token : Token}

theorem Owns.of_eq {e' : Engine} {operation : Operation} (h : e.Owns token operation)
    (hdiscovery : e'.discovery = e.discovery) (hchain : e'.chain = e.chain) :
    e'.Owns token operation := by
  cases h with
  | search hd => exact .search (hdiscovery.trans hd)
  | chain hc h => exact .chain (hchain.trans hc) h

theorem owns_discovery_iff :
    e.Owns token .discovery ↔ ∃ d, e.discovery = some d ∧ d.token = token := by
  constructor
  · intro h
    cases h with
    | search hd => exact ⟨_, hd, rfl⟩
    | chain hc h => exact absurd rfl h.ne_discovery
  · intro hsearch
    obtain ⟨d, hd, rfl⟩ := hsearch
    exact .search hd

theorem owns_chainStep_iff {method : Method} {index : Nat} :
    e.Owns token (.chainStep method index) ↔
      ∃ c, e.chain = some c ∧ c.step = some token ∧ c.awaited? = some index ∧
        c.script.methodAt? index = some method := by
  constructor
  · intro h
    cases h with
    | chain hc h =>
      cases h with
      | step hstep hunder => exact ⟨_, hc, hstep, Chain.underWay?_eq_some_iff.mp hunder⟩
  · intro hwaiting
    obtain ⟨c, hc, hstep, hunder⟩ := hwaiting
    exact .chain hc (.step hstep (Chain.underWay?_eq_some_iff.mpr hunder))

theorem owns_observe_iff :
    e.Owns token .observe ↔ ∃ c o, e.chain = some c ∧ c.observation = some o ∧ o.token = token := by
  constructor
  · intro h
    cases h with
    | chain hc h =>
      cases h with
      | step hstep hunder =>
        obtain ⟨method, index, hop⟩ := Chain.eq_chainStep_of_underWay? hunder
        cases hop
      | observation hobs => exact ⟨_, _, hc, hobs, rfl⟩
  · intro hobserving
    obtain ⟨c, o, hc, hobs, rfl⟩ := hobserving
    exact .chain hc (.observation hobs)

end

/-- The books of an engine: an operation is pending under a token exactly when it is owned, the
timers are the timer of the observation, and tokens are issued in increasing order. -/
structure Bookkeeping (e : Engine) : Prop where
  owned : ∀ token operation, e.pending.find? token = some operation ↔ e.Owns token operation
  timed : e.timers.timers.map Timer.handle = (e.chain.bind Chain.timer?).toList
  sound : ∀ c, e.chain = some c → c.Sound e.config.script
  search : ∀ d, e.discovery = some d → d.search.found = none
  issued : e.pending.Issued e.registrations

theorem bookkeeping_start (config : Config) : (start config).Bookkeeping where
  owned := by
    intro token operation
    constructor
    · intro h; simp [start] at h
    · intro h
      cases h with
      | search hd => cases hd
      | chain hc h => cases hc
  timed := rfl
  sound := by intro c hc; cases hc
  search := by intro d hd; cases hd
  issued := ⟨rfl, List.nodup_nil, by intro token operation h; simp [start] at h⟩

namespace Bookkeeping

variable {e : Engine} (h : e.Bookkeeping)

include h

theorem halt_eq (c : Chain) (hc : e.chain = some c) (hs : c.state = .stopped) : c.halt = c :=
  (h.sound c hc).halt_eq hs

theorem timekeeping : e.Timekeeping where
  observing := fun hc ho => (h.sound _ hc).observation ho
  timer := by
    intro o hobs
    obtain ⟨c, hc, ho⟩ := Option.bind_eq_some_iff.mp hobs
    exact (h.sound c hc).timer ho
  timed := by
    rw [observation?, Option.bind_assoc]
    exact h.timed

end Bookkeeping

end Engine

end DeviceClient
