import DeviceClient.Proofs.Engine.Conversation
import DeviceClient.Proofs.Engine.Notifications

namespace DeviceClient

open Engine (Stimulus Turn)

/-- The request for an observation, and what it tells of the request that ends the observation. -/
theorem Asks.eq_observation {config : Config} {r : Resource} {request : Request}
    (h : Asks config r (config.script.length + 1) request) :
    ∃ endpoint, r.endpoints.head? = some endpoint ∧
      request = { Request.unicast request.token .get endpoint r.uri config.qos with
        observe := some .register } := by
  cases h with
  | update hhead hupdate hbody => simp at hupdate
  | observation hhead => exact ⟨_, hhead, rfl⟩

/-- What is asked of a resource goes to its device and ends no observation. -/
theorem Posted.asks_of_mem_effects {config : Config} {r : Resource} {index : Nat}
    {posted : Option Posted} (hasks : ∀ p, posted = some p → Asks config r index p.request)
    {effect : Effect} (h : effect ∈ effects posted) :
    effect.isOfChain = true ∧ effect.isFarewell = false ∧ effect.isDiscovery = false := by
  rw [effects, Option.mem_toList, Option.map_eq_some_iff] at h
  obtain ⟨p, hp, rfl⟩ := h
  obtain ⟨request, accepted⟩ := p
  cases hasks _ hp <;> exact ⟨rfl, rfl, rfl⟩

namespace Engine

/-- The payload of a request is the body of the request in bytes. -/
theorem decode_of_encodeBody {e : Engine} {body : Representation} {payload : List UInt8}
    (hcapacity : e.config.payloadCapacity < 2 ^ 64)
    (h : e.encodeBody (some body) = .ok payload) (hheight : (Payload.object body).height ≤ 16) :
    Payload.decode payload = .ok (Payload.object body).normal := by
  simp only [encodeBody] at h
  split at h
  · rename_i b n hencode
    cases h
    obtain ⟨hfault, rfl, hfits⟩ := Buffer.accepted_of_encode hencode
    have hdecode := Payload.decode_encode (p := .object body) hfault
      (Nat.lt_of_le_of_lt hfits hcapacity)
    exact hdecode.trans (if_pos hheight)
  · cases h

/-- What a chain sends upon an answer is what it asks at the next place. -/
theorem asks_outgoing {e : Engine} {c : Chain} {index : Nat} {endpoint : Endpoint}
    {payload : List UInt8} (hscript : c.script = e.config.script)
    (hle : index ≤ e.config.script.length) (hcapacity : e.config.payloadCapacity < 2 ^ 64)
    (hhead : (c.answered index).resource.endpoints.head? = some endpoint)
    (hbody : e.encodeBody (c.following index).body = .ok payload) (token : Token) :
    Asks e.config c.resource (index + 1)
      ((c.answered index).outgoing e.config.qos endpoint (c.following index) payload token) := by
  rw [c.resource_answered] at hhead
  rw [Chain.outgoing, c.resource_answered]
  rcases c.answered_cases index with ⟨update, hupdate, -, hr⟩ | ⟨hnone, -, hr⟩
  · rw [hscript] at hupdate
    rw [hr] at hbody ⊢
    exact .update hhead hupdate (decode_of_encodeBody hcapacity hbody)
  · rw [hscript, List.getElem?_eq_none_iff] at hnone
    rw [hr] at hbody ⊢
    cases hbody
    obtain rfl : index = e.config.script.length := by omega
    exact .observation hhead

theorem Reading.posts {e e₁ : Engine} {s : Surroundings} {r : Resource} {read : Option Token}
    (h : Reading e s r .low e₁ read) (config : Config) :
    ∃ posted, e₁.log = e.log ++ Posted.effects posted ∧
      (∀ p, posted = some p → Asks config r 0 p.request) ∧
      read = (posted.bind Posted.taken?).map Request.token := by
  cases h with
  | noEndpoint hhead => exact ⟨none, by simp [Posted.effects], by simp, rfl⟩
  | refused hhead hsend =>
    rename_i endpoint error
    refine ⟨some ⟨.unicast e.pending.nextToken .get endpoint r.uri .low, false⟩, rfl, ?_, rfl⟩
    intro p hp
    cases hp
    exact .read hhead
  | sent hhead hsend =>
    rename_i endpoint
    refine ⟨some ⟨.unicast e.pending.nextToken .get endpoint r.uri .low, true⟩, rfl, ?_, rfl⟩
    intro p hp
    cases hp
    exact .read hhead

/-- What goes out upon an answer, and what the chain waits for then. -/
theorem Sending.posts {e e₁ : Engine} {s : Surroundings} {now : Nat} {c : Chain} {index : Nat}
    {result : Except ClientError Unit}
    (h : Sending e s now (c.answered index) (c.following index) e₁ result)
    (hc : e.chain = some (c.answered index)) (hobs : c.observation = none)
    (hscript : c.script = e.config.script) (hle : index ≤ e.config.script.length)
    (hcapacity : e.config.payloadCapacity < 2 ^ 64) :
    ∃ posted, e₁.log = e.log ++ Posted.effects posted ∧
      (∀ p, posted = some p → Asks e.config c.resource (index + 1) p.request) ∧
      ∀ c₁, e₁.chain = some c₁ →
        c₁.tokens = ((posted.bind Posted.taken?).map Request.token).toList := by
  have hidle (c₁ : Chain) (hc₁ : e.chain = some c₁) : c₁.tokens = [] := by
    rw [hc] at hc₁
    cases hc₁
    simp [Chain.tokens, hobs]
  cases h with
  | noEndpoint hhead => exact ⟨none, by simp [Posted.effects], by simp, hidle⟩
  | unencodable hhead hbody => exact ⟨none, by simp [Posted.effects], by simp, hidle⟩
  | refused hhead hbody hsend =>
    refine ⟨some ⟨_, false⟩, rfl, ?_, hidle⟩
    intro p hp
    cases hp
    exact asks_outgoing hscript hle hcapacity hhead hbody _
  | sent hhead hbody hsend hobserve =>
    refine ⟨some ⟨_, true⟩, rfl, ?_, ?_⟩
    · intro p hp
      cases hp
      exact asks_outgoing hscript hle hcapacity hhead hbody _
    · intro c₁ hc₁
      cases hc₁
      simp [Chain.tokens, Chain.sent, hobs, Posted.taken?, Request.unicast]
  | observed hhead hbody hsend hobserve =>
    refine ⟨some ⟨_, true⟩, rfl, ?_, ?_⟩
    · intro p hp
      cases hp
      exact asks_outgoing hscript hle hcapacity hhead hbody _
    · intro c₁ hc₁
      cases hc₁
      simp [Chain.tokens, Chain.observing, Posted.taken?, Request.unicast]

end Engine

/-- Whether the conversation is the one that the chain holds. The chain waits for responses to the
last request of the conversation, if the network has taken it. -/
structure Chain.Holds (ch : Chain) (c : Conversation) : Prop where
  farewell : c.farewell = none
  resource : c.resource = ch.resource
  exchanges : c.exchanges.length = ch.answers
  waits : ch.tokens = ((c.taken? c.exchanges.length).map Request.token).toList
  notices : c.notices ≠ [] → ch.state = .observing

namespace Chain

theorem holds_start {x : Stimulus} {r : Resource} {script : Script} {posted : Option Posted}
    {token : Token} (hposted : (posted.bind Posted.taken?).map Request.token = some token) :
    ((Chain.start r script).sent token).Holds (.start x r posted) where
  farewell := rfl
  resource := rfl
  exchanges := rfl
  waits := by
    simp only [Conversation.taken?, Conversation.posted, Conversation.start, List.length_nil,
      hposted]
    rfl
  notices := by intro h; exact absurd rfl h

namespace Holds

variable {ch : Chain} {c : Conversation} (h : ch.Holds c) {script : Script}
  (hsound : ch.Sound script)

include h

theorem notices_eq_nil (hstate : ch.state ≠ .observing) : c.notices = [] := by
  by_contra hnotices
  exact hstate (h.notices hnotices)

/-- The request that the chain waits for the answer to. -/
theorem exists_taken {token : Token} (htoken : token ∈ ch.tokens) :
    ∃ request, c.taken? c.exchanges.length = some request ∧ request.token = token := by
  rw [h.waits, Option.mem_toList] at htoken
  exact Option.map_eq_some_iff.mp htoken

include hsound

/-- The observation that runs is the one that the conversation has registered. -/
theorem observation_eq (hrun : ch.state ≠ .stopped) :
    (c.taken? (script.length + 1)).map Request.token = ch.observation.map Observation.token := by
  by_cases hstate : ch.state = .observing
  · have hlength : c.exchanges.length = script.length + 1 := by
      rw [h.exchanges, answers, hstate, ← hsound.script]
    have hwaits := h.waits
    rw [hlength, tokens, hsound.step_of_observing hstate] at hwaits
    refine Option.ext fun token => ?_
    rw [← Option.mem_toList, ← hwaits]
    exact Option.mem_toList
  · have hlength : c.exchanges.length < script.length + 1 := by
      obtain ⟨index, hawaited⟩ : ∃ index, ch.awaited? = some index := by
        cases hs : ch.state <;> simp_all [awaited?]
      have hle := hsound.le_length_of_awaited hawaited
      have hanswers := (answers_of_awaited? hawaited).1
      rw [h.exchanges, hanswers]
      omega
    rw [Conversation.taken?, Conversation.posted_eq_none hlength, hsound.observation_eq_none hstate]
    rfl

/-- The request that has registered the observation that runs. -/
theorem exists_registered {o : Observation} (ho : ch.observation = some o) :
    ∃ request, c.taken? (script.length + 1) = some request ∧ request.token = o.token := by
  have hobservation := h.observation_eq hsound (by simp [hsound.observation ho])
  rw [ho, Option.map_some, Option.map_eq_some_iff] at hobservation
  exact hobservation

theorem answered {index : Nat} (hawaited : ch.awaited? = some index) {x : Exchange} {c₁ : Chain}
    (hstate : c₁.state = (ch.answered index).state) (hscript : c₁.script = ch.script)
    (hresource : c₁.resource = ch.resource)
    (htokens : c₁.tokens = ((x.next.bind Posted.taken?).map Request.token).toList) :
    c₁.Holds (c.answer x) where
  farewell := h.farewell
  resource := h.resource.trans hresource.symm
  exchanges := by
    have hanswers : c₁.answers = (ch.answered index).answers := by
      rw [answers, answers, hstate, hscript, script_answered]
    rw [hanswers, answers_answered hsound hawaited, Conversation.answer, List.length_append,
      h.exchanges, (answers_of_awaited? hawaited).1]
    rfl
  waits := by
    have hlength : (c.answer x).exchanges.length = c.exchanges.length + 1 := by
      simp [Conversation.answer]
    rw [hlength, Conversation.taken?, Conversation.posted_answer_last, htokens]
  notices := by
    intro hnotices
    exact absurd (h.notices_eq_nil (answers_of_awaited? hawaited).2.1) hnotices

end Holds

/-- What goes out when a chain that runs is stopped. -/
theorem Holds.farewell_eq {ch : Chain} {c : Conversation} (h : ch.Holds c) {config : Config}
    (hsound : ch.Sound config.script) (hrun : ch.state ≠ .stopped) (hwell : c.WellFormed config)
    (s : Surroundings) (reason : StopReason) :
    ∃ posted, ch.farewell s config.qos reason = Posted.effects posted ∧
      posted.map Posted.request =
        if reason = .refused then none
        else (c.taken? (config.script.length + 1)).map Request.ending := by
  cases hobs : ch.observation with
  | none =>
    have hobservation := h.observation_eq hsound hrun
    rw [hobs, Option.map_none, Option.map_eq_none_iff] at hobservation
    exact ⟨none, by simp [Chain.farewell, hobs, Posted.effects], by simp [hobservation]⟩
  | some o =>
    obtain ⟨request, htaken, htoken⟩ := h.exists_registered hsound hobs
    obtain ⟨p, hp, rfl⟩ := c.exists_posted htaken
    obtain ⟨endpoint, hhead, hrequest⟩ := (hwell.asks _ p hp).eq_observation
    rw [h.resource] at hhead hrequest
    simp only [Chain.farewell, hobs, Observation.farewell, hhead, htaken]
    by_cases hr : reason = .refused
    · exact ⟨none, by simp [hr, Posted.effects], by simp [hr]⟩
    · refine ⟨some ⟨o.deregistration ch.resource endpoint config.qos, _⟩, if_neg hr, ?_⟩
      rw [if_neg hr, Option.map_some, Option.map_some, Request.ending, hrequest, htoken]
      rfl

end Chain

namespace Engine

/-- The turns of the conversation of each number. The first conversation has number 1. -/
def turnsOf (cs : List Conversation) : Nat → List Turn
  | 0 => []
  | place + 1 => (cs[place]?.map Conversation.turns).getD []

theorem turnsOf_append (cs : List Conversation) (c : Conversation) (number : Nat) :
    turnsOf (cs ++ [c]) number =
      turnsOf cs number ++ if cs.length + 1 = number then c.turns else [] := by
  cases number with
  | zero => rfl
  | succ place =>
    simp only [turnsOf, Nat.add_right_cancel_iff]
    rcases Nat.lt_trichotomy place cs.length with hlt | rfl | hgt
    · simp [List.getElem?_append_left hlt, show cs.length ≠ place by omega]
    · simp
    · have hafter : (cs ++ [c])[place]? = none :=
        List.getElem?_eq_none (by rw [List.length_append]; exact hgt)
      rw [hafter, List.getElem?_eq_none (Nat.le_of_lt hgt), if_neg (Nat.ne_of_lt hgt)]
      rfl

/-- Whether the conversations are the ones that the transcripts of the chains tell of. The last one is
that of the chain that runs. -/
structure Conversed (e : Engine) (transcripts : Nat → List Turn) (cs : List Conversation) :
    Prop where
  turns : ∀ number, transcripts number = turnsOf cs number
  length : cs.length = e.discoveries
  wellFormed : ∀ c ∈ cs, c.WellFormed e.config
  last : ∀ ch, e.chain = some ch → ch.state ≠ .stopped →
    ∃ before c, cs = before ++ [c] ∧ ch.Holds c

theorem conversed_start (config : Config) : (start config).Conversed (transcript config []) [] where
  turns := by intro number; cases number <;> rfl
  length := rfl
  wellFormed := by simp
  last := by intro ch hch; cases hch

namespace Conversed

variable {e e' : Engine} {transcripts transcripts' : Nat → List Turn} {cs before : List Conversation}
  {c c' : Conversation}

/-- Nothing is said, and the chain stays as it is or goes. -/
theorem congr (h : e.Conversed transcripts cs) (hconfig : e'.config = e.config)
    (hdiscoveries : e'.discoveries = e.discoveries)
    (htranscripts : ∀ number, transcripts' number = transcripts number)
    (hchain : ∀ ch, e'.chain = some ch → ch.state ≠ .stopped → e.chain = some ch) :
    e'.Conversed transcripts' cs where
  turns := fun number => (htranscripts number).trans (h.turns number)
  length := h.length.trans hdiscoveries.symm
  wellFormed := by rw [hconfig]; exact h.wellFormed
  last := fun ch hch hrun => h.last ch (hchain ch hch hrun) hrun

theorem silent (h : e.Conversed transcripts cs) (hconfig : e'.config = e.config)
    {effects : List Effect} (hlog : e'.log = e.log ++ effects)
    (hquiet : ∀ effect ∈ effects, effect.isOfChain = false) (hchain : e'.chain = e.chain)
    (x : Stimulus) :
    e'.Conversed (fun number => transcripts number ++ turn x (share number e e')) cs := by
  refine h.congr hconfig ?_ (fun number => ?_) (fun ch hch _ => hchain.symm.trans hch)
  · exact discoveries_of_quiet hlog fun effect heffect =>
      Effect.isDiscovery_of_quiet (hquiet effect heffect)
  · rw [share_of_quiet hlog hquiet, turn_nil, List.append_nil]

/-- The last conversation goes on. -/
theorem extend (h : e.Conversed transcripts (before ++ [c])) (hconfig : e'.config = e.config)
    (hdiscoveries : e'.discoveries = e.discoveries) {new : List Turn}
    (htranscripts : ∀ number, transcripts' number =
      transcripts number ++ if e.discoveries = number then new else [])
    (hturns : c'.turns = c.turns ++ new) (hwell : c'.WellFormed e.config)
    (hlast : ∀ ch, e'.chain = some ch → ch.state ≠ .stopped → ch.Holds c') :
    e'.Conversed transcripts' (before ++ [c']) where
  turns := by
    intro number
    have hnumber : before.length + 1 = e.discoveries := by simpa using h.length
    rw [htranscripts, h.turns, turnsOf_append, turnsOf_append, hturns, hnumber]
    split_ifs <;> simp
  length := by simpa [hdiscoveries] using h.length
  wellFormed := by
    intro other hother
    rw [hconfig]
    rcases List.mem_append.mp hother with hbefore | hlast'
    · exact h.wellFormed other (List.mem_append_left _ hbefore)
    · rw [List.mem_singleton.mp hlast']
      exact hwell
  last := fun ch hch hrun => ⟨before, c', rfl, hlast ch hch hrun⟩

/-- Another conversation begins. -/
theorem append (h : e.Conversed transcripts cs) (hconfig : e'.config = e.config)
    (hdiscoveries : e'.discoveries = e.discoveries + 1)
    (htranscripts : ∀ number, transcripts' number =
      transcripts number ++ if e.discoveries + 1 = number then c.turns else [])
    (hwell : c.WellFormed e.config) (hlast : ∀ ch, e'.chain = some ch → ch.Holds c) :
    e'.Conversed transcripts' (cs ++ [c]) where
  turns := by
    intro number
    rw [htranscripts, h.turns, turnsOf_append, h.length]
  length := by simp [hdiscoveries, h.length]
  wellFormed := by
    intro other hother
    rw [hconfig]
    rcases List.mem_append.mp hother with hbefore | hlast'
    · exact h.wellFormed other hbefore
    · rw [List.mem_singleton.mp hlast']
      exact hwell
  last := fun ch hch _ => ⟨cs, c, rfl, hlast ch hch⟩

/-- The conversation of a chain that runs ends when the chain is stopped. -/
theorem stopped (h : e.Conversed transcripts cs) (hbooks : e.Bookkeeping) {ch : Chain}
    (hch : e.chain = some ch) (hrun : ch.state ≠ .stopped) (s : Surroundings) (x : Stimulus)
    (reason : StopReason) (hconfig : e'.config = e.config)
    (hdiscoveries : e'.discoveries = e.discoveries)
    (htranscripts : ∀ number, transcripts' number = transcripts number ++
      if e.discoveries = number then
        [(x, ch.farewell s e.config.qos reason ++ [.reported (.observationStopped reason)])]
      else [])
    (hchain : ∀ ch', e'.chain = some ch' → ch'.state = .stopped) :
    ∃ cs, e'.Conversed transcripts' cs := by
  obtain ⟨before, c, rfl, hholds⟩ := h.last ch hch hrun
  have hwell := h.wellFormed c (by simp)
  obtain ⟨posted, hfarewell, hrequest⟩ :=
    hholds.farewell_eq (hbooks.sound ch hch) hrun hwell s reason
  rw [hfarewell] at htranscripts
  have hturns := c.turns_close hholds.farewell ⟨x, reason, posted⟩
  refine ⟨_, h.extend hconfig hdiscoveries htranscripts hturns (hwell.close hrequest) ?_⟩
  intro ch' hch' hrun'
  exact absurd (hchain ch' hch') hrun'

/-- Before another chain takes its place, the chain that runs is stopped. -/
theorem closing (h : e.Conversed transcripts cs) (hbooks : e.Bookkeeping) (s : Surroundings)
    (x : Stimulus) :
    ∃ cs, ({ e with chain := none } : Engine).Conversed
      (fun number => transcripts number ++
        turn x (if e.discoveries = number then e.closing s .requested else [])) cs := by
  by_cases hrunning : ∃ ch, e.chain = some ch ∧ ch.state ≠ .stopped
  · obtain ⟨ch, hch, hrun⟩ := hrunning
    have hclosing : e.closing s .requested =
        ch.farewell s e.config.qos .requested ++ [.reported (.observationStopped .requested)] := by
      simp [Engine.closing, hch, hrun]
    refine h.stopped hbooks hch hrun s x .requested rfl rfl (fun number => ?_) (by simp)
    rw [hclosing, turn_ite x _ (by simp)]
  · have hclosing : e.closing s .requested = [] := by
      unfold Engine.closing
      cases hch : e.chain with
      | none => rfl
      | some ch =>
        by_contra hne
        exact hrunning ⟨ch, hch, fun hstate => hne (if_pos hstate)⟩
    refine ⟨cs, h.congr rfl rfl (fun number => ?_) (by simp)⟩
    rw [hclosing, ite_self, turn_nil, List.append_nil]

/-- The chain is given the answer that it waits for. -/
theorem answered (h : e.Conversed transcripts cs) (hbooks : e.Bookkeeping) {ch : Chain}
    (hch : e.chain = some ch) {now : Nat} {r : Response} {index : Nat}
    (hawaits : ch.Awaits r index) {method : Method}
    (hmethod : ch.script.methodAt? index = some method) {posted : Option Posted}
    (hfailed : index = 0 → r.status.isSuccess = false → posted = none)
    (hasks : ∀ p, posted = some p → Asks e.config ch.resource (index + 1) p.request)
    (hconfig : e'.config = e.config)
    (hlog : e'.log = e.log ++
      (Posted.effects posted ++ [.reported (responseEvent index method r)]))
    (hchain : ∀ ch', e'.chain = some ch' → ch'.state ≠ .stopped →
      ch'.state = (ch.answered index).state ∧ ch'.script = ch.script ∧
        ch'.resource = ch.resource ∧
        ch'.tokens = ((posted.bind Posted.taken?).map Request.token).toList) :
    ∃ cs, e'.Conversed (fun number => transcripts number ++
      turn (.response now r) (share number e e')) cs := by
  obtain ⟨hanswers, hobserving, hrun⟩ := Chain.answers_of_awaited? hawaits.1
  obtain ⟨before, c, rfl, hholds⟩ := h.last ch hch hrun
  have hsound := hbooks.sound ch hch
  have hlength : c.exchanges.length = index := hholds.exchanges.trans hanswers
  have hnotices := hholds.notices_eq_nil hobserving
  have hwaits : r.token ∈ ch.tokens := by simp [Chain.tokens, hawaits.2]
  obtain ⟨request, htaken, htoken⟩ := hholds.exists_taken hwaits
  have hwell := (h.wellFormed c (by simp)).answer (x := ⟨now, r, method, posted⟩) hholds.farewell
    hnotices htaken htoken.symm (by rw [hlength, ← hsound.script, hmethod])
    (fun hzero => hfailed (hlength.symm.trans hzero))
    (by rw [hlength, hholds.resource]; exact hasks)
  have hturns := c.turns_answer hholds.farewell hnotices ⟨now, r, method, posted⟩
  have hlatest : ∀ effect ∈ Posted.effects posted ++
      [Effect.reported (responseEvent index method r)],
      effect.isOfChain = true ∧ effect.isDiscovery = false := by
    refine List.forall_mem_append.mpr ⟨fun effect hposted => ?_, by simpa using ⟨rfl, rfl⟩⟩
    obtain ⟨hchain, -, hdiscovery⟩ := Posted.asks_of_mem_effects hasks hposted
    exact ⟨hchain, hdiscovery⟩
  refine ⟨_, h.extend hconfig ?_ (fun number => ?_) hturns hwell ?_⟩
  · exact discoveries_of_quiet hlog fun effect heffect => (hlatest effect heffect).2
  · rw [turn_share_of_latest hlog hlatest (by simp), hlength]
    rfl
  · intro ch' hch' hrun'
    obtain ⟨hstate, hscript, hresource, htokens⟩ := hchain ch' hch' hrun'
    exact hholds.answered hsound hawaits.1 hstate hscript hresource htokens

/-- A notification comes to the chain. -/
theorem notified (h : e.Conversed transcripts cs) (hbooks : e.Bookkeeping) {ch : Chain}
    (hch : e.chain = some ch) {o : Observation} (ho : ch.observation = some o) {now : Nat}
    {r : Response} (htoken : r.token = o.token) {sequence : UInt32}
    (hsequence : r.sequence = some sequence) (hconfig : e'.config = e.config)
    (hlog : e'.log =
      e.log ++ [.reported (.notification sequence r.status r.representationOrEmpty)])
    (hchain : e'.chain = e.chain) :
    ∃ cs, e'.Conversed (fun number => transcripts number ++
      turn (.response now r) (share number e e')) cs := by
  have hsound := hbooks.sound ch hch
  have hstate := hsound.observation ho
  obtain ⟨before, c, rfl, hholds⟩ := h.last ch hch (by simp [hstate])
  obtain ⟨request, htaken, hrequest⟩ := hholds.exists_registered hsound ho
  have hwell := (h.wellFormed c (by simp)).notice (n := ⟨now, r, sequence⟩) htaken
    (htoken.trans hrequest.symm) hsequence
  have hturns := c.turns_notice hholds.farewell ⟨now, r, sequence⟩
  have hlatest : ∀ effect ∈
      [Effect.reported (.notification sequence r.status r.representationOrEmpty)],
      effect.isOfChain = true ∧ effect.isDiscovery = false := by
    simpa using ⟨rfl, rfl⟩
  refine ⟨_, h.extend hconfig ?_ (fun number => ?_) hturns hwell ?_⟩
  · exact discoveries_of_quiet hlog fun effect heffect => (hlatest effect heffect).2
  · rw [turn_share_of_latest hlog hlatest (by simp)]
    rfl
  · intro ch' hch' hrun
    rw [hchain, hch] at hch'
    cases hch'
    exact ⟨hholds.farewell, hholds.resource, hholds.exchanges, hholds.waits, fun _ => hstate⟩

/-- A resource is found: the conversation of the chain before ends, and another one begins. -/
theorem found (h : e.Conversed transcripts cs) (hbooks : e.Bookkeeping) {s : Surroundings}
    {x : Stimulus} {released : List Resource} {r : Resource} {e₀ e₁ : Engine}
    {read : Option Token} (hread : Reading e₀ s r .low e₁ read)
    (hbefore : e₀.log = e.log ++ released.map fun r : Resource => Effect.released r.endpoints)
    (hafter : e'.log =
      e₁.log ++ (e.closing s .requested ++ [.reported (.resourceDiscovered r)]))
    (hchain : e'.chain = read.map (Chain.start r e.config.script).sent)
    (hconfig : e'.config = e.config) :
    ∃ cs, e'.Conversed (fun number => transcripts number ++ turn x (share number e e')) cs := by
  obtain ⟨posted, hlog, hasks, htaken⟩ := hread.posts e.config
  obtain ⟨closed, hclosed⟩ := h.closing hbooks s x
  have hquiet : ∀ effect ∈ released.map fun r : Resource => Effect.released r.endpoints,
      effect.isOfChain = false := by
    simp [Effect.isOfChain]
  have hfirst (effect) (heffect : effect ∈ Posted.effects posted) :=
    Posted.asks_of_mem_effects hasks heffect
  have hlast (effect) (heffect : effect ∈ e.closing s .requested) := ends_of_mem_closing heffect
  have hall : e'.log = e.log ++ ((released.map fun r : Resource => Effect.released r.endpoints) ++
      Posted.effects posted ++
        (e.closing s .requested ++ [.reported (.resourceDiscovered r)])) := by
    rw [hafter, hlog, hbefore]
    simp only [List.append_assoc]
  refine ⟨closed ++ [.start x r posted], hclosed.append hconfig ?_ (fun number => ?_)
    (Conversation.wellFormed_start hasks) ?_⟩
  · exact discoveries_of_found hall hquiet hfirst hlast
  · have hsame : ({ e with chain := none } : Engine).discoveries = e.discoveries := rfl
    rw [share_of_found hall hquiet hfirst hlast, hsame, List.append_assoc]
    by_cases hold : e.discoveries = number
    · simp [hold]
    · by_cases hnew : e.discoveries + 1 = number
      · simp [hold, hnew, turn, Conversation.turns, Conversation.start]
      · simp [hold, hnew]
  · intro ch hch
    rw [hchain] at hch
    obtain ⟨token, hsent, rfl⟩ := Option.map_eq_some_iff.mp hch
    exact Chain.holds_start (htaken.symm.trans hsent)

/-- Each reaction goes on with the conversations. -/
theorem reaction (h : e.Conversed transcripts cs) (hbooks : e.Bookkeeping)
    (hcapacity : e.config.payloadCapacity < 2 ^ 64) {s : Surroundings} {x : Stimulus}
    (hreaction : Reaction e s x e') :
    ∃ cs, e'.Conversed (fun number => transcripts number ++ turn x (share number e e')) cs := by
  have hconfig := hreaction.config
  cases hreaction with
  | quiet hquiet htimers =>
    exact ⟨cs, h.silent hconfig (log_recordAll _ _) (fun effect heffect => (hquiet effect heffect).1)
      rfl x⟩
  | searching hx hp hsend =>
    exact ⟨cs, h.silent hconfig (log_recordAll _ _) (by simp [Effect.isOfChain, Request.discovery])
      rfl x⟩
  | searchRefused hx hp hsend =>
    exact ⟨cs, h.silent hconfig (log_recordAll _ _) (by simp [Effect.isOfChain, Request.discovery])
      rfl x⟩
  | found hx hd hread => exact h.found hbooks hread (by rfl) (by rfl) rfl hconfig
  | notified hx hc ho htoken hseq =>
    subst hx
    exact h.notified hbooks hc ho htoken hseq hconfig (log_recordAll _ _) rfl
  | stopped hc hrun hstops =>
    rename_i ch reason
    have hlatest : ∀ effect ∈ ch.farewell s e.config.qos reason ++
        [.reported (.observationStopped reason)],
        effect.isOfChain = true ∧ effect.isDiscovery = false := by
      refine List.forall_mem_append.mpr ⟨fun effect hfarewell => ?_, by simpa using ⟨rfl, rfl⟩⟩
      obtain ⟨hchain, -, hdiscovery⟩ := ends_of_mem_farewell hfarewell
      exact ⟨hchain, hdiscovery⟩
    refine h.stopped hbooks hc hrun s x reason hconfig ?_ (fun number => ?_) ?_
    · exact discoveries_of_quiet (log_recordAll _ _) fun effect heffect =>
        (hlatest effect heffect).2
    · exact congrArg (transcripts number ++ ·)
        (turn_share_of_latest (log_recordAll _ _) hlatest (by simp) x number)
    · intro ch' hch'
      cases hch'
      rfl
  | readFailed hx hc hawaits hstatus =>
    rename_i now r ch
    subst hx
    have hasks (p : Posted) (hp : none = some p) : Asks e.config ch.resource 1 p.request := by
      cases hp
    refine h.answered hbooks hc hawaits rfl (fun _ _ => rfl) hasks hconfig rfl ?_
    intro ch' hch' hrun
    cases hch'
    exact absurd rfl hrun
  | answered hx hc hawaits hmethod hstatus hsending =>
    rename_i now r ch index method e₁ result
    have hsound := hbooks.sound ch hc
    have hobs := hsound.observation_of_step hawaits.2
    obtain ⟨posted, hlog, hasks, htokens⟩ := hsending.posts rfl hobs hsound.script
      (hsound.le_length_of_awaited hawaits.1) hcapacity
    obtain ⟨c₁, hc₁, hstate, hscript, hresource⟩ := hsending.chain rfl
    subst hx
    refine h.answered hbooks hc hawaits hmethod ?_ hasks hconfig ?_ ?_
    · intro hindex hfailed
      rw [hstatus hindex] at hfailed
      cases hfailed
    · rw [log_recordAll, hlog, List.append_assoc]
    · intro ch' hch' hrun
      rw [chain_recordAll, hc₁] at hch'
      cases hch'
      exact ⟨hstate, hscript.trans (ch.script_answered index),
        hresource.trans (ch.resource_answered index), htokens _ hc₁⟩

end Conversed

theorem exists_conversed_run {config : Config} {steps : List Step}
    (hbound : (run config steps).registrations < 2 ^ 64)
    (hcapacity : config.payloadCapacity < 2 ^ 64) :
    ∃ cs, (run config steps).Conversed (transcript config steps) cs := by
  induction steps using List.reverseRecOn with
  | nil => exact ⟨[], conversed_start config⟩
  | append_singleton steps step ih =>
    rw [run_concat] at hbound ⊢
    have hbefore := Nat.lt_of_le_of_lt (registrations_le_handle _ _) hbound
    obtain ⟨cs, hconversed⟩ := ih hbefore
    have hbooks := bookkeeping_run hbefore
    rw [← config_run hbefore] at hcapacity
    obtain ⟨cs', h⟩ := hconversed.reaction hbooks hcapacity (hbooks.reaction step.1 step.2)
    exact ⟨cs', h.congr rfl rfl (transcript_concat config steps step) fun ch hch _ => hch⟩

/-- What a run says to devices falls into conversations, one for each resource that is discovered. In
each, the read comes first; the updates of the script follow in their order, and then the request for
the observation, each upon the answer to the request before it. The request that ends the observation
goes out when the observation has been registered and is stopped, unless the device has refused it.
Each notification comes after the registration of an observation, with no stop in between. Payloads
are shorter than 2 ^ 64 bytes. -/
theorem conversations_run (config : Config) (steps : List Step)
    (hbound : (run config steps).registrations < 2 ^ 64)
    (hcapacity : config.payloadCapacity < 2 ^ 64) :
    (∃ cs : List Conversation, cs.length = (run config steps).discoveries ∧
      (∀ number, transcript config steps number = turnsOf cs number) ∧
      ∀ c ∈ cs, c.WellFormed config) ∧
    ∀ before sequence status representation after,
      (run config steps).log =
        before ++ .reported (.notification sequence status representation) :: after →
      Registered before := by
  constructor
  · obtain ⟨cs, h⟩ := exists_conversed_run hbound hcapacity
    have hwell := h.wellFormed
    rw [config_run hbound] at hwell
    exact ⟨cs, h.length, h.turns, hwell⟩
  · intro before sequence status representation after hlog
    exact registered_of_notification hbound hlog rfl

set_option maxRecDepth 10000 in
/-- The lamp is found, read, driven, observed until a notification has come, and left. -/
theorem conversations_run_lamp :
    (run (Lamp.config 16) Lamp.expired).registrations < 2 ^ 64 ∧
    (Lamp.config 16).payloadCapacity < 2 ^ 64 ∧
    (transcript (Lamp.config 16) Lamp.expired 1).length = 5 ∧
    ∃ c : Conversation, transcript (Lamp.config 16) Lamp.expired 1 = c.turns ∧
      c.WellFormed (Lamp.config 16) := by
  have hbound : (run (Lamp.config 16) Lamp.expired).registrations < 2 ^ 64 := by decide +kernel
  have hcapacity : (Lamp.config 16).payloadCapacity < 2 ^ 64 := by decide
  have hone : (run (Lamp.config 16) Lamp.expired).discoveries = 1 := by decide +kernel
  refine ⟨hbound, hcapacity, by decide +kernel, ?_⟩
  obtain ⟨⟨cs, hlength, hturns, hwell⟩, -⟩ :=
    conversations_run (Lamp.config 16) Lamp.expired hbound hcapacity
  obtain ⟨c, rfl⟩ := List.length_eq_one_iff.mp (hlength.trans hone)
  exact ⟨c, hturns 1, hwell c (by simp)⟩

end Engine

end DeviceClient
