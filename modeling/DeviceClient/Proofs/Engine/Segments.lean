import DeviceClient.Proofs.Engine.Bookkeeping

namespace DeviceClient

structure Answer where
  method : Method
  status : Status
  representation : Representation

structure Notice where
  sequence : UInt32
  status : Status
  representation : Representation

/-- The events about one resource. -/
structure Segment where
  resource : Resource
  answers : List Answer
  notices : List Notice
  stop : Option StopReason

def Answer.event (index : Nat) (a : Answer) : ClientEvent :=
  .chainResponse index a.method a.status a.representation

def Notice.event (n : Notice) : ClientEvent := .notification n.sequence n.status n.representation

namespace Segment

def events (segment : Segment) : List ClientEvent :=
  .resourceDiscovered segment.resource ::
    (segment.answers.mapIdx Answer.event ++ segment.notices.map Notice.event ++
      segment.stop.toList.map .observationStopped)

structure WellFormed (script : Script) (segment : Segment) : Prop where
  methods : ∀ index answer, segment.answers[index]? = some answer →
    script.methodAt? index = some answer.method
  within : segment.answers.length ≤ script.length + 1
  observed : segment.notices ≠ [] → segment.answers.length = script.length + 1
  failed : ∀ answer rest, segment.answers = answer :: rest → answer.status.isSuccess = false →
    rest = [] ∧ segment.notices = [] ∧ segment.stop = none

/-- Whether the segment can go on: the read, if it has been answered, has not failed. -/
structure IsOpen (segment : Segment) : Prop where
  stop : segment.stop = none
  read : ∀ answer rest, segment.answers = answer :: rest → answer.status.isSuccess = true

def start (r : Resource) : Segment := ⟨r, [], [], none⟩

def answer (segment : Segment) (a : Answer) : Segment :=
  { segment with answers := segment.answers ++ [a] }

def notice (segment : Segment) (n : Notice) : Segment :=
  { segment with notices := segment.notices ++ [n] }

def close (segment : Segment) (reason : StopReason) : Segment :=
  { segment with stop := some reason }

theorem wellFormed_start (script : Script) (r : Resource) : (start r).WellFormed script where
  methods := by intro index answer h; simp [start] at h
  within := Nat.zero_le _
  observed := by intro h; exact absurd rfl h
  failed := by intro answer rest h; cases h

theorem isOpen_start (r : Resource) : (start r).IsOpen where
  stop := rfl
  read := by intro answer rest h; cases h

variable {segment : Segment} {script : Script}

theorem events_answer (hstop : segment.stop = none) (hnotices : segment.notices = []) (a : Answer) :
    (segment.answer a).events = segment.events ++ [a.event segment.answers.length] := by
  simp [events, answer, hstop, hnotices, List.mapIdx_append]

theorem events_notice (hstop : segment.stop = none) (n : Notice) :
    (segment.notice n).events = segment.events ++ [n.event] := by
  simp [events, notice, hstop]

theorem events_close (hstop : segment.stop = none) (reason : StopReason) :
    (segment.close reason).events = segment.events ++ [.observationStopped reason] := by
  simp [events, close, hstop]

namespace WellFormed

variable (h : segment.WellFormed script) (hopen : segment.IsOpen)

include h hopen

theorem answer (hnotices : segment.notices = []) {a : Answer}
    (hmethod : script.methodAt? segment.answers.length = some a.method) :
    (segment.answer a).WellFormed script where
  methods := by
    intro index answer hanswer
    simp only [Segment.answer, List.getElem?_append] at hanswer
    split_ifs at hanswer with hlt
    · exact h.methods index answer hanswer
    · obtain ⟨hindex, rfl⟩ : index - segment.answers.length = 0 ∧ a = answer := by
        simpa [List.getElem?_singleton] using hanswer
      rwa [show index = segment.answers.length by omega]
  within := by
    simp only [Segment.answer, List.length_append, List.length_singleton]
    cases hlength : segment.answers.length with
    | zero => omega
    | succ place =>
      rw [hlength, Script.methodAt?] at hmethod
      obtain ⟨update, hupdate, -⟩ := Option.map_eq_some_iff.mp hmethod
      have hplace := (List.getElem?_eq_some_iff.mp hupdate).1
      omega
  observed := by intro hn; exact absurd hnotices hn
  failed := by
    intro answer rest hanswers hfailed
    cases hbefore : segment.answers with
    | nil =>
      simp only [Segment.answer, hbefore, List.nil_append, List.cons.injEq] at hanswers
      exact ⟨hanswers.2.symm, hnotices, hopen.stop⟩
    | cons first others =>
      simp only [Segment.answer, hbefore, List.cons_append, List.cons.injEq] at hanswers
      have hread := hopen.read first others hbefore
      rw [hanswers.1, hfailed] at hread
      cases hread

theorem notice (hlength : segment.answers.length = script.length + 1) (n : Notice) :
    (segment.notice n).WellFormed script where
  methods := h.methods
  within := h.within
  observed := fun _ => hlength
  failed := by
    intro answer rest hanswers hfailed
    rw [hopen.read answer rest hanswers] at hfailed
    cases hfailed

theorem close (reason : StopReason) : (segment.close reason).WellFormed script where
  methods := h.methods
  within := h.within
  observed := h.observed
  failed := by
    intro answer rest hanswers hfailed
    rw [hopen.read answer rest hanswers] at hfailed
    cases hfailed

end WellFormed

theorem IsOpen.answer (hopen : segment.IsOpen) {a : Answer}
    (hread : segment.answers.length = 0 → a.status.isSuccess = true) :
    (segment.answer a).IsOpen where
  stop := hopen.stop
  read := by
    intro answer rest hanswers
    cases hbefore : segment.answers with
    | nil =>
      simp only [Segment.answer, hbefore, List.nil_append, List.cons.injEq] at hanswers
      rw [← hanswers.1]
      exact hread (by simp [hbefore])
    | cons first others =>
      simp only [Segment.answer, hbefore, List.cons_append, List.cons.injEq] at hanswers
      rw [← hanswers.1]
      exact hopen.read first others hbefore

end Segment

/-- The event about a resource that an effect is. -/
def Effect.chainEvent? : Effect → Option ClientEvent
  | reported event => if event.isOfChain then some event else none
  | _ => none

theorem Effect.chainEvent?_of_isQuiet {effect : Effect} (h : effect.IsQuiet) :
    effect.chainEvent? = none := by
  cases effect with
  | reported event =>
    have hquiet : event.isOfChain = false := h.1
    simp [chainEvent?, hquiet]
  | _ => rfl

namespace Chain

/-- The number of answers that the chain has had. -/
def answers (c : Chain) : Nat :=
  match c.state with
  | .awaitingRead => 0
  | .updating place => place + 1
  | .observing | .stopped => c.script.length + 1

theorem answers_of_awaited? {c : Chain} {index : Nat} (h : c.awaited? = some index) :
    c.answers = index ∧ c.state ≠ .observing ∧ c.state ≠ .stopped := by
  cases hstate : c.state <;> simp_all [awaited?, answers]

/-- Whether the segment tells what has happened to the chain, which runs. -/
structure Told (c : Chain) (segment : Segment) : Prop where
  isOpen : segment.IsOpen
  resource : segment.resource = c.resource
  answers : segment.answers.length = c.answers
  notices : segment.notices ≠ [] → c.state = .observing

theorem told_start {r : Resource} (script : Script) (token : Token) :
    ((start r script).sent token).Told (.start r) where
  isOpen := Segment.isOpen_start r
  resource := rfl
  answers := rfl
  notices := by intro h; exact absurd rfl h

theorem Told.congr {c c' : Chain} {segment : Segment} (h : c.Told segment)
    (hstate : c'.state = c.state) (hscript : c'.script = c.script)
    (hresource : c'.resource = c.resource) : c'.Told segment where
  isOpen := h.isOpen
  resource := h.resource.trans hresource.symm
  answers := by rw [h.answers, Chain.answers, Chain.answers, hstate, hscript]
  notices := by rw [hstate]; exact h.notices

theorem Told.notices_eq_nil {c : Chain} {segment : Segment} (h : c.Told segment)
    (hstate : c.state ≠ .observing) : segment.notices = [] := by
  by_contra hnotices
  exact hstate (h.notices hnotices)

theorem answers_answered {c : Chain} {script : Script} (hsound : c.Sound script) {index : Nat}
    (hawaited : c.awaited? = some index) : (c.answered index).answers = index + 1 := by
  rcases c.answered_cases index with ⟨update, -, hstate, -⟩ | ⟨hnone, hstate, -⟩
  · simp [Chain.answers, hstate]
  · -- The script is over, and the chain has waited for the answer to its last request.
    have hge : c.script.length ≤ index := List.getElem?_eq_none_iff.mp hnone
    have hle := hsound.le_length_of_awaited hawaited
    rw [← hsound.script] at hle
    simp only [Chain.answers, hstate, script_answered]
    omega

theorem Told.answered {c : Chain} {segment : Segment} (h : c.Told segment) {script : Script}
    (hsound : c.Sound script) {index : Nat} (hawaited : c.awaited? = some index) {a : Answer}
    (hread : index = 0 → a.status.isSuccess = true) :
    (c.answered index).Told (segment.answer a) := by
  obtain ⟨hanswers, hobserving, -⟩ := answers_of_awaited? hawaited
  have hlength : segment.answers.length = index := h.answers.trans hanswers
  have hnotices := h.notices_eq_nil hobserving
  refine ⟨h.isOpen.answer (fun hzero => hread (hlength.symm.trans hzero)),
    h.resource.trans (c.resource_answered index).symm, ?_, fun hn => absurd hnotices hn⟩
  simp only [Segment.answer, List.length_append, List.length_singleton, hlength]
  exact (answers_answered hsound hawaited).symm

end Chain

namespace Engine

def chainEvents (e : Engine) : List ClientEvent := e.log.filterMap Effect.chainEvent?

@[simp] theorem chainEvents_recordAll (e : Engine) (effects : List Effect) :
    (e.recordAll effects).chainEvents = e.chainEvents ++ effects.filterMap Effect.chainEvent? := by
  simp [chainEvents]

theorem chainEvents_farewell (c : Chain) (s : Surroundings) (qos : Qos) (reason : StopReason) :
    (c.farewell s qos reason).filterMap Effect.chainEvent? = [] := by
  rw [List.filterMap_eq_nil_iff]
  intro effect heffect
  obtain ⟨o, endpoint, accepted, rfl⟩ := Chain.exists_of_mem_farewell heffect
  rfl

theorem chainEvents_quiet {effects : List Effect} (h : ∀ effect ∈ effects, effect.IsQuiet) :
    effects.filterMap Effect.chainEvent? = [] := by
  rw [List.filterMap_eq_nil_iff]
  intro effect heffect
  exact Effect.chainEvent?_of_isQuiet (h effect heffect)

theorem chainEvents_closing (e : Engine) (s : Surroundings) (reason : StopReason) :
    (e.closing s reason).filterMap Effect.chainEvent? =
      if ∃ c, e.chain = some c ∧ c.state ≠ .stopped then [.observationStopped reason] else [] := by
  unfold closing
  cases hc : e.chain with
  | none => simp
  | some c =>
    by_cases hr : c.state = .stopped
    · simp [hr]
    · simp [hr, chainEvents_farewell, Effect.chainEvent?, ClientEvent.isOfChain]

theorem Reading.chainEvents {e e₁ : Engine} {s : Surroundings} {r : Resource} {qos : Qos}
    {read : Option Token} (h : Reading e s r qos e₁ read) : e₁.chainEvents = e.chainEvents := by
  cases h with
  | noEndpoint hhead => rfl
  | refused hhead hsend => simp [Effect.chainEvent?, Engine.chainEvents]
  | sent hhead hsend => simp [Effect.chainEvent?, Engine.chainEvents]

theorem Reading.chainEvents_of_released {e e₁ : Engine} {s : Surroundings}
    {d : Option Discovery} {released : List Resource} {r : Resource} {qos : Qos}
    {read : Option Token}
    (h : Reading ({ e with discovery := d }.recordAll
      (released.map fun r : Resource => Effect.released r.endpoints)) s r qos e₁ read) :
    e₁.chainEvents = e.chainEvents := by
  rw [h.chainEvents, chainEvents_recordAll]
  simp [List.filterMap_map, Function.comp_def, Effect.chainEvent?, Engine.chainEvents]

theorem Sending.chainEvents {e e₁ : Engine} {s : Surroundings} {now : Nat} {c : Chain}
    {r : ChainRequest} {result : Except ClientError Unit} (h : Sending e s now c r e₁ result) :
    e₁.chainEvents = e.chainEvents := by
  cases h with
  | noEndpoint hhead => rfl
  | unencodable hhead hbody => rfl
  | refused hhead hbody hsend => simp [Effect.chainEvent?, Engine.chainEvents]
  | sent hhead hbody hsend hobserve => simp [Effect.chainEvent?, Engine.chainEvents]
  | observed hhead hbody hsend hobserve => simp [Effect.chainEvent?, Engine.chainEvents]

/-- Sending the next request leaves the chain in the state that it is in. -/
theorem Sending.chain {e e₁ : Engine} {s : Surroundings} {now : Nat} {c : Chain}
    {r : ChainRequest} {result : Except ClientError Unit} (h : Sending e s now c r e₁ result)
    (hc : e.chain = some c) :
    ∃ c₁, e₁.chain = some c₁ ∧ c₁.state = c.state ∧ c₁.script = c.script ∧
      c₁.resource = c.resource := by
  cases h with
  | noEndpoint hhead => exact ⟨c, hc, rfl, rfl, rfl⟩
  | unencodable hhead hbody => exact ⟨c, hc, rfl, rfl, rfl⟩
  | refused hhead hbody hsend => exact ⟨c, hc, rfl, rfl, rfl⟩
  | sent hhead hbody hsend hobserve => exact ⟨_, rfl, rfl, rfl, rfl⟩
  | observed hhead hbody hsend hobserve => exact ⟨_, rfl, rfl, rfl, rfl⟩

/-- Whether the segments tell what has been reported. The last one is that of a chain that runs. -/
structure Narrated (e : Engine) (segments : List Segment) : Prop where
  events : e.chainEvents = segments.flatMap Segment.events
  wellFormed : ∀ segment ∈ segments, segment.WellFormed e.config.script
  last : ∀ c, e.chain = some c → c.state ≠ .stopped →
    ∃ before segment, segments = before ++ [segment] ∧ c.Told segment

theorem narrated_start (config : Config) : (start config).Narrated [] where
  events := rfl
  wellFormed := by simp
  last := by intro c hc; cases hc

namespace Narrated

variable {e e' : Engine} {segments before : List Segment} {segment segment' : Segment}

/-- The last segment goes on. -/
theorem extend (h : e.Narrated (before ++ [segment])) (hconfig : e'.config = e.config)
    {new : List ClientEvent} (hevents : e'.chainEvents = e.chainEvents ++ new)
    (hsegment : segment'.events = segment.events ++ new)
    (hwell : segment'.WellFormed e.config.script)
    (hlast : ∀ c, e'.chain = some c → c.state ≠ .stopped → c.Told segment') :
    e'.Narrated (before ++ [segment']) where
  events := by
    rw [hevents, h.events]
    simp [hsegment]
  wellFormed := by
    intro other hother
    rw [hconfig]
    rcases List.mem_append.mp hother with hbefore | hlast'
    · exact h.wellFormed other (List.mem_append_left _ hbefore)
    · rw [List.mem_singleton.mp hlast']
      exact hwell
  last := by
    intro c hc hrun
    exact ⟨before, segment', rfl, hlast c hc hrun⟩

/-- Another segment begins. -/
theorem append (h : e.Narrated segments) (hconfig : e'.config = e.config) {r : Resource}
    (hevents : e'.chainEvents = e.chainEvents ++ [.resourceDiscovered r])
    (hlast : ∀ c, e'.chain = some c → c.Told (.start r)) :
    e'.Narrated (segments ++ [.start r]) where
  events := by
    rw [hevents, h.events]
    simp [Segment.events, Segment.start]
  wellFormed := by
    intro other hother
    rw [hconfig]
    rcases List.mem_append.mp hother with hbefore | hlast'
    · exact h.wellFormed other hbefore
    · rw [List.mem_singleton.mp hlast']
      exact Segment.wellFormed_start _ r
  last := by
    intro c hc hrun
    exact ⟨segments, .start r, rfl, hlast c hc⟩

/-- Nothing is reported, and the chain stays as it is or goes. -/
theorem congr (h : e.Narrated segments) (hconfig : e'.config = e.config)
    (hevents : e'.chainEvents = e.chainEvents)
    (hchain : ∀ c, e'.chain = some c → c.state ≠ .stopped → e.chain = some c) :
    e'.Narrated segments where
  events := hevents.trans h.events
  wellFormed := by rw [hconfig]; exact h.wellFormed
  last := by
    intro c hc hrun
    exact h.last c (hchain c hc hrun) hrun

/-- The segment of a chain that runs is closed when the chain is stopped. -/
theorem stopped (h : e.Narrated segments) {c : Chain} (hc : e.chain = some c)
    (hrun : c.state ≠ .stopped) (reason : StopReason) (hconfig : e'.config = e.config)
    (hevents : e'.chainEvents = e.chainEvents ++ [.observationStopped reason])
    (hchain : ∀ c', e'.chain = some c' → c'.state = .stopped) :
    ∃ segments, e'.Narrated segments := by
  obtain ⟨before, segment, rfl, htold⟩ := h.last c hc hrun
  have hwell := h.wellFormed segment (by simp)
  refine ⟨_, h.extend hconfig hevents (segment.events_close htold.isOpen.stop reason)
    (hwell.close htold.isOpen reason) ?_⟩
  intro c' hc' hrun'
  exact absurd (hchain c' hc') hrun'

/-- Before another chain takes its place, the chain that runs is stopped. -/
theorem closing (h : e.Narrated segments) (s : Surroundings) (reason : StopReason) :
    ∃ segments, ({ e with chain := none }.recordAll (e.closing s reason)).Narrated segments := by
  by_cases hrunning : ∃ c, e.chain = some c ∧ c.state ≠ .stopped
  · obtain ⟨c, hc, hrun⟩ := hrunning
    refine h.stopped hc hrun reason rfl ?_ (by simp)
    rw [chainEvents_recordAll, chainEvents_closing, if_pos ⟨c, hc, hrun⟩]
    rfl
  · refine ⟨segments, h.congr rfl ?_ (by simp)⟩
    rw [chainEvents_recordAll, chainEvents_closing, if_neg hrunning, List.append_nil]
    rfl

/-- The chain is given the answer that it waits for. -/
theorem answered (h : e.Narrated segments) (hbooks : e.Bookkeeping) {c : Chain}
    (hc : e.chain = some c) {r : Response} {index : Nat} (hawaits : c.Awaits r index)
    (method : Method) (hmethod : c.script.methodAt? index = some method)
    (hconfig : e'.config = e.config)
    (hevents : e'.chainEvents = e.chainEvents ++ [responseEvent index method r])
    (hchain : ∀ c', e'.chain = some c' → c'.state ≠ .stopped →
      (index = 0 → r.status.isSuccess = true) ∧ c'.state = (c.answered index).state ∧
        c'.script = c.script ∧ c'.resource = c.resource) :
    ∃ segments, e'.Narrated segments := by
  obtain ⟨hanswers, hobserving, hrun⟩ := Chain.answers_of_awaited? hawaits.1
  obtain ⟨before, segment, rfl, htold⟩ := h.last c hc hrun
  have hlength : segment.answers.length = index := htold.answers.trans hanswers
  have hnotices := htold.notices_eq_nil hobserving
  have hsound := hbooks.sound c hc
  have hwell := (h.wellFormed segment (by simp)).answer htold.isOpen hnotices
    (a := ⟨method, r.status, r.representationOrEmpty⟩) (by rw [hlength, ← hsound.script, hmethod])
  refine ⟨_, h.extend hconfig hevents ?_ hwell ?_⟩
  · rw [segment.events_answer htold.isOpen.stop hnotices, hlength]
    rfl
  · intro c' hc' hrun'
    obtain ⟨hread, hstate, hscript, hresource⟩ := hchain c' hc' hrun'
    refine (htold.answered hsound hawaits.1 hread).congr hstate ?_ ?_
    · rw [hscript, Chain.script_answered]
    · rw [hresource, Chain.resource_answered]

theorem reaction (h : e.Narrated segments) (hbooks : e.Bookkeeping) {s : Surroundings}
    {x : Stimulus} (hreaction : Reaction e s x e') : ∃ segments, e'.Narrated segments := by
  cases hreaction with
  | quiet hquiet htimers =>
    refine ⟨segments, h.congr rfl ?_ fun c hc _ => hc⟩
    rw [chainEvents_recordAll, chainEvents_quiet hquiet, List.append_nil]
    rfl
  | searching hx hp hsend =>
    exact ⟨segments, h.congr rfl (by simp [Effect.chainEvent?, chainEvents]) fun c hc _ => hc⟩
  | searchRefused hx hp hsend =>
    exact ⟨segments, h.congr rfl (by simp [Effect.chainEvent?, chainEvents]) fun c hc _ => hc⟩
  | found hx hd hread =>
    rename_i now response d search released r e₁ read
    obtain ⟨closed, hclosed⟩ := h.closing s .requested
    have hevents := hread.chainEvents_of_released
    refine ⟨closed ++ [.start r], hclosed.append ?_ ?_ ?_⟩
    · exact hread.frame.2.2.2
    · simp only [chainEvents_recordAll, List.filterMap_append, ← List.append_assoc]
      congr 2
    · intro c hc
      obtain ⟨token, -, rfl⟩ := Option.map_eq_some_iff.mp hc
      exact Chain.told_start _ token
  | notified hx hc ho htoken hseq =>
    rename_i now r c o sequence
    have hstate := (hbooks.sound c hc).observation ho
    obtain ⟨before, segment, rfl, htold⟩ := h.last c hc (by simp [hstate])
    have hlength : segment.answers.length = e.config.script.length + 1 := by
      rw [htold.answers, Chain.answers, hstate, ← (hbooks.sound c hc).script]
    have hwell := (h.wellFormed segment (by simp)).notice htold.isOpen hlength
      ⟨sequence, r.status, r.representationOrEmpty⟩
    refine ⟨_, h.extend rfl (chainEvents_recordAll _ _) ?_ hwell ?_⟩
    · rw [segment.events_notice htold.isOpen.stop]
      rfl
    · intro c' hc' hrun
      rw [chain_recordAll, hc] at hc'
      cases hc'
      exact ⟨⟨htold.isOpen.stop, htold.isOpen.read⟩, htold.resource, htold.answers, fun _ => hstate⟩
  | stopped hc hrun hstops =>
    rename_i c reason
    refine h.stopped hc hrun reason rfl ?_ ?_
    · simp only [chainEvents_recordAll, List.filterMap_append, chainEvents_farewell]
      rfl
    · intro c' hc'
      cases hc'
      rfl
  | readFailed hx hc hawaits hstatus =>
    refine h.answered hbooks hc hawaits .get rfl rfl (chainEvents_recordAll _ _) ?_
    intro c' hc' hrun
    cases hc'
    exact absurd rfl hrun
  | answered hx hc hawaits hmethod hstatus hsending =>
    rename_i now r c index method e₁ result
    obtain ⟨c₁, hc₁, hstate, hscript, hresource⟩ := hsending.chain rfl
    refine h.answered hbooks hc hawaits method hmethod hsending.config ?_ ?_
    · rw [chainEvents_recordAll, hsending.chainEvents]
      rfl
    · intro c' hc' hrun
      rw [chain_recordAll, hc₁] at hc'
      cases hc'
      exact ⟨hstatus, hstate, hscript.trans (c.script_answered index),
        hresource.trans (c.resource_answered index)⟩

end Narrated

theorem exists_narrated_run {config : Config} {steps : List Step}
    (hbound : (run config steps).registrations < 2 ^ 64) :
    ∃ segments, (run config steps).Narrated segments := by
  apply run_induction (P := fun e => ∃ segments, e.Narrated segments) _ _ hbound
  · exact ⟨[], narrated_start config⟩
  · intro e s x e' hbooks hnarrated hreaction
    obtain ⟨segments, h⟩ := hnarrated
    exact h.reaction hbooks hreaction

/-- A resource is reported alone, or right after the stop of the chain that it replaces; and the chain
changes only where something is reported. -/
theorem Reaction.chainEvents {e e' : Engine} {s : Surroundings} {x : Stimulus}
    (h : Reaction e s x e') :
    ∃ new, e'.chainEvents = e.chainEvents ++ new ∧
      (∀ r, .resourceDiscovered r ∈ new →
        new = (if ∃ c, e.chain = some c ∧ c.state ≠ .stopped then
          [.observationStopped .requested] else []) ++ [.resourceDiscovered r]) ∧
      (new = [] → e'.chain = e.chain) := by
  cases h with
  | quiet hquiet htimers =>
    refine ⟨[], ?_, by simp, fun _ => rfl⟩
    rw [chainEvents_recordAll, chainEvents_quiet hquiet]
    rfl
  | searching hx hp hsend => exact ⟨[], chainEvents_recordAll _ _, by simp, fun _ => rfl⟩
  | searchRefused hx hp hsend => exact ⟨[], chainEvents_recordAll _ _, by simp, fun _ => rfl⟩
  | found hx hd hread =>
    rename_i now response d search released r e₁ read
    refine ⟨(e.closing s .requested).filterMap Effect.chainEvent? ++ [.resourceDiscovered r],
      ?_, ?_, by simp⟩
    · rw [chainEvents_recordAll, List.filterMap_append, ← hread.chainEvents_of_released]
      rfl
    · intro r' hr'
      rw [chainEvents_closing] at hr' ⊢
      have heq : r' = r := by
        split_ifs at hr' <;> simpa using hr'
      rw [heq]
  | notified hx hc ho htoken hseq =>
    exact ⟨_, chainEvents_recordAll _ _, by simp [Effect.chainEvent?, ClientEvent.isOfChain],
      fun _ => rfl⟩
  | stopped hc hrun hstops =>
    refine ⟨_, chainEvents_recordAll _ _, ?_, ?_⟩ <;>
      simp [chainEvents_farewell, Effect.chainEvent?, ClientEvent.isOfChain]
  | readFailed hx hc hawaits hstatus =>
    refine ⟨_, chainEvents_recordAll _ _, ?_, ?_⟩ <;>
      simp [Effect.chainEvent?, responseEvent, ClientEvent.isOfChain]
  | answered hx hc hawaits hmethod hstatus hsending =>
    rename_i now r c index method e₁ result
    refine ⟨[responseEvent index method r], ?_, by simp [responseEvent], by simp⟩
    rw [chainEvents_recordAll, hsending.chainEvents]
    rfl

/-- The events of a run about resources fall into segments. In each, the answers are numbered from 0
without gaps, notifications come only after the last answer, and nothing comes after a stop or after
a read that has failed. Where a resource is discovered while a chain runs, its event comes right
after the stop of that chain. -/
theorem chainEvents_run (config : Config) (steps : List Step)
    (hbound : (run config steps).registrations < 2 ^ 64) :
    (∃ segments : List Segment,
      (run config steps).chainEvents = segments.flatMap Segment.events ∧
        ∀ segment ∈ segments, segment.WellFormed config.script) ∧
    ∀ before step after, steps = before ++ step :: after →
      ∃ new, (run config (before ++ [step])).chainEvents = (run config before).chainEvents ++ new ∧
        ∀ r, .resourceDiscovered r ∈ new →
          new = (if ∃ c, (run config before).chain = some c ∧ c.state ≠ .stopped then
            [.observationStopped .requested] else []) ++ [.resourceDiscovered r] := by
  constructor
  · obtain ⟨segments, h⟩ := exists_narrated_run hbound
    have hwell := h.wellFormed
    rw [config_run hbound] at hwell
    exact ⟨segments, h.events, hwell⟩
  · intro before step after hsteps
    subst hsteps
    have hle := registrations_run_le_append config before (step :: after)
    have hbooks := bookkeeping_run (Nat.lt_of_le_of_lt hle hbound)
    obtain ⟨new, hevents, hfound, -⟩ := (hbooks.reaction step.1 step.2).chainEvents
    rw [run_concat]
    exact ⟨new, hevents, hfound⟩

set_option maxRecDepth 10000 in
/-- The lamp is found again while it is read. -/
theorem chainEvents_run_lamp :
    (run (Lamp.config 4) (Lamp.found ++ Lamp.foundAgain)).registrations < 2 ^ 64 ∧
    (run (Lamp.config 4) (Lamp.found ++ Lamp.foundAgain)).chainEvents.length = 3 ∧
    ∃ segments : List Segment,
      (run (Lamp.config 4) (Lamp.found ++ Lamp.foundAgain)).chainEvents =
        segments.flatMap Segment.events ∧
        ∀ segment ∈ segments, segment.WellFormed (Lamp.config 4).script := by
  have hbound : (run (Lamp.config 4) (Lamp.found ++ Lamp.foundAgain)).registrations < 2 ^ 64 := by
    decide +kernel
  exact ⟨hbound, by decide +kernel,
    (chainEvents_run (Lamp.config 4) (Lamp.found ++ Lamp.foundAgain) hbound).1⟩

end Engine

end DeviceClient
