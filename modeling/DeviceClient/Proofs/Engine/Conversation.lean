import DeviceClient.Proofs.Engine.Transcript
import DeviceClient.Proofs.Payload.Buffer

namespace DeviceClient

open Engine (Stimulus Turn)

/-- A request that has been handed to the network, and whether the network has taken it. -/
structure Posted where
  request : Request
  accepted : Bool

namespace Posted

def effect (p : Posted) : Effect := .sent p.request p.accepted

/-- The request, when the network has taken it. -/
def taken? (p : Posted) : Option Request := if p.accepted then some p.request else none

/-- What handing over a request, or none, does to the world. -/
def effects (posted : Option Posted) : List Effect := (posted.map effect).toList

end Posted

/-- The request that ends the observation that another request has registered. -/
def Request.ending (request : Request) : Request := { request with observe := some .deregister }

/-- What a chain asks of its resource at each place: the read, the updates, the observation. -/
inductive Asks (config : Config) (r : Resource) : Nat → Request → Prop
  | read {endpoint : Endpoint} {token : Token} (hhead : r.endpoints.head? = some endpoint) :
      Asks config r 0 (.unicast token .get endpoint r.uri .low)
  | update {index : Nat} {endpoint : Endpoint} {token : Token} {update : Update}
      {payload : List UInt8} (hhead : r.endpoints.head? = some endpoint)
      (hupdate : config.script[index]? = some update)
      (hbody : (Payload.object update.body).height ≤ 16 →
        Payload.decode payload = .ok (Payload.object update.body).normal) :
      Asks config r (index + 1)
        { Request.unicast token update.method endpoint r.uri config.qos with payload := payload }
  | observation {endpoint : Endpoint} {token : Token}
      (hhead : r.endpoints.head? = some endpoint) :
      Asks config r (config.script.length + 1)
        { Request.unicast token .get endpoint r.uri config.qos with observe := some .register }

/-- An answer that moves the chain, and the request that goes out upon it. -/
structure Exchange where
  now : Nat
  response : Response
  method : Method
  next : Option Posted

/-- A response that the observation goes on with. -/
structure Notified where
  now : Nat
  response : Response
  sequence : UInt32

/-- The stop of a chain, and the request that ends its observation. -/
structure Farewell where
  stimulus : Stimulus
  reason : StopReason
  request : Option Posted

def Exchange.turn (index : Nat) (x : Exchange) : Turn :=
  (.response x.now x.response,
    Posted.effects x.next ++ [.reported (Engine.responseEvent index x.method x.response)])

def Notified.turn (n : Notified) : Turn :=
  (.response n.now n.response,
    [.reported (.notification n.sequence n.response.status n.response.representationOrEmpty)])

def Farewell.turn (f : Farewell) : Turn :=
  (f.stimulus, Posted.effects f.request ++ [.reported (.observationStopped f.reason)])

/-- What is said about one resource. -/
structure Conversation where
  opening : Stimulus
  resource : Resource
  read : Option Posted
  exchanges : List Exchange
  notices : List Notified
  farewell : Option Farewell

namespace Conversation

def turns (c : Conversation) : List Turn :=
  (c.opening, Posted.effects c.read ++ [.reported (.resourceDiscovered c.resource)]) ::
    (c.exchanges.mapIdx Exchange.turn ++ c.notices.map Notified.turn ++
      c.farewell.toList.map Farewell.turn)

/-- The request at a place of the chain: the read, then what goes out upon each answer. -/
def posted (c : Conversation) : Nat → Option Posted
  | 0 => c.read
  | index + 1 => c.exchanges[index]?.bind Exchange.next

/-- The request at a place of the chain, when the network has taken it. -/
def taken? (c : Conversation) (index : Nat) : Option Request := (c.posted index).bind Posted.taken?

structure WellFormed (config : Config) (c : Conversation) : Prop where
  asks : ∀ index p, c.posted index = some p → Asks config c.resource index p.request
  answered : ∀ index x, c.exchanges[index]? = some x →
    ∃ request, c.taken? index = some request ∧ x.response.token = request.token ∧
      config.script.methodAt? index = some x.method
  failed : ∀ x rest, c.exchanges = x :: rest → x.response.status.isSuccess = false → x.next = none
  observed : ∀ n ∈ c.notices, ∃ request, c.taken? (config.script.length + 1) = some request ∧
    n.response.token = request.token ∧ n.response.sequence = some n.sequence
  farewell : ∀ f, c.farewell = some f → f.request.map Posted.request =
    if f.reason = .refused then none
    else (c.taken? (config.script.length + 1)).map Request.ending

def start (x : Stimulus) (r : Resource) (read : Option Posted) : Conversation :=
  ⟨x, r, read, [], [], none⟩

def answer (c : Conversation) (x : Exchange) : Conversation :=
  { c with exchanges := c.exchanges ++ [x] }

def notice (c : Conversation) (n : Notified) : Conversation := { c with notices := c.notices ++ [n] }

def close (c : Conversation) (f : Farewell) : Conversation := { c with farewell := some f }

variable {c : Conversation} {config : Config}

theorem turns_answer (hfarewell : c.farewell = none) (hnotices : c.notices = []) (x : Exchange) :
    (c.answer x).turns = c.turns ++ [x.turn c.exchanges.length] := by
  simp [turns, answer, hfarewell, hnotices, List.mapIdx_append]

theorem turns_notice (hfarewell : c.farewell = none) (n : Notified) :
    (c.notice n).turns = c.turns ++ [n.turn] := by
  simp [turns, notice, hfarewell]

theorem turns_close (hfarewell : c.farewell = none) (f : Farewell) :
    (c.close f).turns = c.turns ++ [f.turn] := by
  simp [turns, close, hfarewell]

theorem exists_posted {index : Nat} {request : Request} (h : c.taken? index = some request) :
    ∃ p, c.posted index = some p ∧ p.request = request := by
  obtain ⟨p, hp, htaken⟩ := Option.bind_eq_some_iff.mp h
  obtain ⟨-, hrequest⟩ := Option.ite_none_right_eq_some.mp htaken
  exact ⟨p, hp, Option.some.inj hrequest⟩

theorem posted_eq_none {index : Nat} (h : c.exchanges.length < index) : c.posted index = none := by
  cases index with
  | zero => omega
  | succ index => simp [posted, show c.exchanges.length ≤ index by omega]

theorem posted_answer_of_le {index : Nat} (h : index ≤ c.exchanges.length) (x : Exchange) :
    (c.answer x).posted index = c.posted index := by
  cases index with
  | zero => rfl
  | succ index => simp only [posted, answer, List.getElem?_append_left (show index < _ from h)]

theorem posted_answer_last (x : Exchange) :
    (c.answer x).posted (c.exchanges.length + 1) = x.next := by
  simp [posted, answer]

theorem wellFormed_start {x : Stimulus} {r : Resource} {read : Option Posted}
    (hread : ∀ p, read = some p → Asks config r 0 p.request) :
    (start x r read).WellFormed config where
  asks := by
    intro index p hp
    cases index with
    | zero => exact hread p hp
    | succ index => cases hp
  answered := by intro index x hx; cases hx
  failed := by intro x rest hx; cases hx
  observed := by intro n hn; cases hn
  farewell := by intro f hf; cases hf

namespace WellFormed

variable (h : c.WellFormed config)

include h

theorem answer (hfarewell : c.farewell = none) (hnotices : c.notices = []) {x : Exchange}
    {request : Request} (htaken : c.taken? c.exchanges.length = some request)
    (htoken : x.response.token = request.token)
    (hmethod : config.script.methodAt? c.exchanges.length = some x.method)
    (hfailed : c.exchanges.length = 0 → x.response.status.isSuccess = false → x.next = none)
    (hnext : ∀ p, x.next = some p →
      Asks config c.resource (c.exchanges.length + 1) p.request) :
    (c.answer x).WellFormed config where
  asks := by
    intro index p hp
    rcases Nat.lt_trichotomy index (c.exchanges.length + 1) with hlt | rfl | hgt
    · rw [posted_answer_of_le (by omega)] at hp
      exact h.asks index p hp
    · rw [posted_answer_last] at hp
      exact hnext p hp
    · rw [posted_eq_none (by simpa [Conversation.answer] using hgt)] at hp
      cases hp
  answered := by
    intro index y hy
    have hle : index ≤ c.exchanges.length := by
      have hlt := (List.getElem?_eq_some_iff.mp hy).1
      simpa [Conversation.answer, Nat.lt_succ_iff] using hlt
    rw [taken?, posted_answer_of_le hle]
    rcases Nat.lt_or_eq_of_le hle with hlt | rfl
    · rw [Conversation.answer, List.getElem?_append_left hlt] at hy
      exact h.answered index y hy
    · obtain rfl : x = y := by simpa [Conversation.answer] using hy
      exact ⟨request, htaken, htoken, hmethod⟩
  failed := by
    intro y rest hy hfailure
    cases hbefore : c.exchanges with
    | nil =>
      simp only [Conversation.answer, hbefore, List.nil_append, List.cons.injEq] at hy
      rw [← hy.1] at hfailure ⊢
      exact hfailed (by simp [hbefore]) hfailure
    | cons first others =>
      simp only [Conversation.answer, hbefore, List.cons_append, List.cons.injEq] at hy
      rw [← hy.1] at hfailure ⊢
      exact h.failed first others hbefore hfailure
  observed := by
    intro n hn
    rw [Conversation.answer, hnotices] at hn
    cases hn
  farewell := by
    intro f hf
    rw [Conversation.answer, hfarewell] at hf
    cases hf

theorem notice {n : Notified} {request : Request}
    (htaken : c.taken? (config.script.length + 1) = some request)
    (htoken : n.response.token = request.token)
    (hsequence : n.response.sequence = some n.sequence) : (c.notice n).WellFormed config where
  asks := h.asks
  answered := h.answered
  failed := h.failed
  observed := by
    intro m hm
    rcases List.mem_append.mp hm with hbefore | hlast
    · exact h.observed m hbefore
    · rw [List.mem_singleton.mp hlast]
      exact ⟨request, htaken, htoken, hsequence⟩
  farewell := h.farewell

theorem close {f : Farewell} (hrequest : f.request.map Posted.request =
    if f.reason = .refused then none
    else (c.taken? (config.script.length + 1)).map Request.ending) :
    (c.close f).WellFormed config where
  asks := h.asks
  answered := h.answered
  failed := h.failed
  observed := h.observed
  farewell := by
    intro g hg
    cases hg
    exact hrequest

end WellFormed

end Conversation

end DeviceClient
