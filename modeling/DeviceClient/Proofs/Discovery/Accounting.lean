import Mathlib.Data.List.Basic
import DeviceClient.ClientError
import DeviceClient.Proofs.Discovery

namespace DeviceClient

/-- What carries out the actions of a search. It may fail to send a request. -/
structure Host (σ : Type) where
  read : σ → Resource → Qos → Except ClientError Unit × σ
  release : σ → List Endpoint → σ

namespace Host

variable {σ : Type} (host : Host σ)

def perform (w : σ) : DiscoveryAction → σ
  | .read r qos => (host.read w r qos).2
  | .release endpoints => host.release w endpoints

def performAll (w : σ) (actions : List DiscoveryAction) : σ := actions.foldl host.perform w

end Host

namespace Search

variable {σ : Type} (host : Host σ)

/-- Tells a search of one resource. The search answers whether it wants more. -/
def tell (c : Search × σ) (r : Resource) : (Search × σ) × DiscoveryFlow :=
  let (s, action) := c.1.take r
  ((s, host.perform c.2 action), s.flow)

/-- Tells a search of one resource after another, whatever it answers. -/
def tellEach (c : Search × σ) : List Resource → (Search × σ) × List DiscoveryFlow
  | [] => (c, [])
  | r :: rs =>
    let (c, answer) := tell host c r
    let (c, answers) := tellEach c rs
    (c, answer :: answers)

/-- Hands a payload to a search. -/
def receive (c : Search × σ) (p : Payload) : (Search × σ) × DiscoveryFlow :=
  let (s, actions, answer) := c.1.takeAll p.resources
  ((s, host.performAll c.2 actions), answer)

def receiveEach (c : Search × σ) : List Payload → (Search × σ) × List DiscoveryFlow
  | [] => (c, [])
  | p :: ps =>
    let (c, answer) := receive host c p
    let (c, answers) := receiveEach c ps
    (c, answer :: answers)

/-- Some resources up to the first one that the search answers with stop, that one included. -/
def untilStop (c : Search × σ) (rs : List Resource) : List Resource :=
  rs.take ((tellEach host c rs).2.idxOf .stop + 1)

/-- The resources of some payloads, of each up to the first that the search answers with stop. -/
def eachUntilStop (c : Search × σ) : List Payload → List Resource
  | [] => []
  | p :: ps => untilStop host c p.resources ++ eachUntilStop (receive host c p).1 ps

variable {host} {s : Search} {w : σ} {r : Resource}

theorem tell_of_not_hasType (hs : s.found = none) (hr : r.hasType s.type = false) :
    tell host (s, w) r = ((s, host.perform w r.release), .proceed) := by
  simp [tell, take_of_not_hasType hr, flow, isOver, hs]

theorem tell_of_hasType (hs : s.found = none) (hr : r.hasType s.type = true) :
    tell host (s, w) r = (({ s with found := some r }, host.perform w (.read r .low)), .stop) := by
  simp [tell, take_of_hasType hs hr, flow, isOver]

theorem tell_of_isOver (hs : s.isOver = true) :
    tell host (s, w) r = ((s, host.perform w r.release), .stop) := by
  simp [tell, take, hs, flow, Resource.release]

theorem tellEach_append (c : Search × σ) (rs rs' : List Resource) :
    tellEach host c (rs ++ rs') =
      ((tellEach host (tellEach host c rs).1 rs').1,
        (tellEach host c rs).2 ++ (tellEach host (tellEach host c rs).1 rs').2) := by
  induction rs generalizing c with
  | nil => rfl
  | cons r rs ih => simp [tellEach, ih]

theorem tellEach_of_forall_not (hs : s.found = none) {rs : List Resource}
    (hrs : ∀ r ∈ rs, r.hasType s.type = false) :
    tellEach host (s, w) rs =
      ((s, host.performAll w (rs.map Resource.release)), rs.map fun _ => .proceed) := by
  induction rs generalizing w with
  | nil => rfl
  | cons r rs ih =>
    have hr := hrs r List.mem_cons_self
    have htail (w : σ) := ih (w := w) fun r' h => hrs r' (List.mem_cons_of_mem r h)
    rw [tellEach, tell_of_not_hasType hs hr]
    simp only [htail]
    rfl

theorem tellEach_of_isOver (hs : s.isOver = true) (rs : List Resource) :
    tellEach host (s, w) rs =
      ((s, host.performAll w (rs.map Resource.release)), rs.map fun _ => .stop) := by
  induction rs generalizing w with
  | nil => rfl
  | cons r rs ih =>
    rw [tellEach, tell_of_isOver hs]
    simp only [ih]
    rfl

/-- The whole story of a search that finds something: what lies in front of it is let go of, it is kept
and asked for, and what comes after it is let go of again. -/
theorem tellEach_append_cons (hs : s.found = none) {before after : List Resource}
    (hbefore : ∀ r ∈ before, r.hasType s.type = false) (hr : r.hasType s.type = true) :
    tellEach host (s, w) (before ++ r :: after) =
      (({ s with found := some r }, host.performAll w
          (before.map Resource.release ++ .read r .low :: after.map Resource.release)),
        before.map (fun _ => .proceed) ++ .stop :: after.map fun _ => .stop) := by
  have hover : Search.isOver { s with found := some r } = true := rfl
  rw [tellEach_append, tellEach_of_forall_not hs hbefore, tellEach, tell_of_hasType hs hr]
  simp only [tellEach_of_isOver hover]
  simp only [Host.performAll, List.foldl_append, List.foldl_cons]

theorem untilStop_of_stop {c c' : Search × σ} (h : tell host c r = (c', .stop))
    (rs : List Resource) : untilStop host c (r :: rs) = [r] := by
  simp [untilStop, tellEach, h]

theorem untilStop_of_proceed {c c' : Search × σ} (h : tell host c r = (c', .proceed))
    (rs : List Resource) : untilStop host c (r :: rs) = r :: untilStop host c' rs := by
  simp [untilStop, tellEach, h]

/-- Taking resources in turn is telling of them up to the first that is answered with stop, and the
answer to the last of these is the answer to all. -/
theorem takeAll_eq (host : Host σ) (c : Search × σ) (rs : List Resource) :
    ((c.1.takeAll rs).1, host.performAll c.2 (c.1.takeAll rs).2.1) =
        (tellEach host c (untilStop host c rs)).1 ∧
      (c.1.takeAll rs).2.2 = (tellEach host c (untilStop host c rs)).2.getLastD .proceed := by
  induction rs generalizing c with
  | nil => exact ⟨rfl, rfl⟩
  | cons r rs ih =>
    obtain ⟨s, w⟩ := c
    by_cases hover : (s.take r).1.isOver = true
    · have htell : tell host (s, w) r =
          (((s.take r).1, host.perform w (s.take r).2), .stop) := by
        simp [tell, flow, hover]
      rw [untilStop_of_stop htell]
      simp [takeAll, hover, tellEach, htell, Host.performAll]
    · have htell : tell host (s, w) r =
          (((s.take r).1, host.perform w (s.take r).2), .proceed) := by
        simp [tell, flow, hover]
      obtain ⟨hstate, hanswer⟩ := ih ((s.take r).1, host.perform w (s.take r).2)
      rw [untilStop_of_proceed htell]
      simp only [tellEach, htell, List.getLastD_cons]
      rw [← hstate, ← hanswer]
      simp [takeAll, hover, Host.performAll]

theorem receive_eq (c : Search × σ) (p : Payload) :
    receive host c p =
      ((tellEach host c (untilStop host c p.resources)).1,
        (tellEach host c (untilStop host c p.resources)).2.getLastD .proceed) := by
  obtain ⟨hstate, hanswer⟩ := takeAll_eq host c p.resources
  rw [← hstate, ← hanswer]
  rfl

theorem receiveEach_eq (c : Search × σ) (ps : List Payload) :
    (receiveEach host c ps).1 = (tellEach host c (eachUntilStop host c ps)).1 := by
  induction ps generalizing c with
  | nil => rfl
  | cons p ps ih =>
    have hfirst : (receive host c p).1 = (tellEach host c (untilStop host c p.resources)).1 := by
      rw [receive_eq]
    have htail : (receiveEach host c (p :: ps)).1 = (receiveEach host (receive host c p).1 ps).1 :=
      rfl
    rw [htail, ih, eachUntilStop, tellEach_append, hfirst]

/-- The books of a search. As long as no resource has the type, each is let go of, and more are wanted.
The first one that has it is kept and asked for, with no resource let go of, and from then on none is
wanted: every later one is let go of and nothing else is asked for. Payloads are their resources in
turn, of each payload up to the first resource that is answered with stop; the answer to it is the
answer to the payload. All of this holds whatever becomes of the request. -/
theorem accounting (host : Host σ) (type : String) (w : σ) :
    (∀ rs : List Resource, (∀ r ∈ rs, r.hasType type = false) →
      tellEach host (start type, w) rs =
        ((start type, host.performAll w (rs.map fun r => .release r.endpoints)),
          rs.map fun _ => .proceed)) ∧
    (∀ (before : List Resource) (r : Resource) (after : List Resource),
      (∀ r ∈ before, r.hasType type = false) → r.hasType type = true →
      tellEach host (start type, w) (before ++ r :: after) =
        ((⟨type, some r⟩, host.performAll w (before.map (fun r => .release r.endpoints) ++
            .read r .low :: after.map fun r => .release r.endpoints)),
          before.map (fun _ => .proceed) ++ .stop :: after.map fun _ => .stop)) ∧
    (∀ (c : Search × σ) (p : Payload),
      receive host c p =
        ((tellEach host c (untilStop host c p.resources)).1,
          (tellEach host c (untilStop host c p.resources)).2.getLastD .proceed)) ∧
    ∀ (c : Search × σ) (ps : List Payload),
      (receiveEach host c ps).1 = (tellEach host c (eachUntilStop host c ps)).1 := by
  refine ⟨fun rs hrs => ?_, fun before r after hbefore hr => ?_, receive_eq, receiveEach_eq⟩
  · have hopen : (start type).found = none := rfl
    exact tellEach_of_forall_not hopen hrs
  · have hopen : (start type).found = none := rfl
    exact tellEach_append_cons hopen hbefore hr

/-- A host that writes its tasks down and cannot send anything. -/
def offline : Host (List DiscoveryAction) where
  read w r qos := (.error (.reported .transport "Network unreachable."), w ++ [.read r qos])
  release w endpoints := w ++ [.release endpoints]

/-- A fan and two lights are told of one after another, and the request to the first light fails. -/
theorem accounting_light :
    let hosted (n : UInt8) : List Endpoint := [.ipv4 ⟨10, 0, 0, n⟩ 5683 .empty]
    let fan : Resource := ⟨"", "/a/fan", ["core.fan"], .empty, .empty, hosted 1⟩
    let light (n : UInt8) : Resource := ⟨"", "/a/light", ["core.light"], .empty, .empty, hosted n⟩
    tellEach offline (start "core.light", []) [fan, light 2, light 3] =
      ((⟨"core.light", some (light 2)⟩,
          [.release (hosted 1), .read (light 2) .low, .release (hosted 3)]),
        [.proceed, .stop, .stop]) := by
  intro hosted fan light
  have hbefore : ∀ r ∈ [fan], r.hasType "core.light" = false := by decide
  exact (accounting offline "core.light" []).2.1 [fan] (light 2) [light 3] hbefore (by decide)

end Search

end DeviceClient
