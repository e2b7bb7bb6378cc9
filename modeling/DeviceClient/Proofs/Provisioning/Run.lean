import Mathlib.Data.List.Induction
import DeviceClient.Proofs.Provisioning.Outcome

namespace DeviceClient

/-- The event that tells the outcome of a call, if it has any. -/
def OnboardingCall.outcome? (status : Int) : OnboardingCall → Option OnboardingEvent
  | takeOwnership device => some (.ownershipTransferred device status)
  | provisionCredentials first second => some (.credentialsProvisioned first second status)
  | provisionAccess device _ => some (.accessProvisioned device status)
  | reset device => some (.deviceReset device status)
  | configureStorage _ | discoverUnowned | discoverOwned => none

structure Provisioning where
  registry : Registry
  /-- The operations that have been accepted and not been answered yet. -/
  awaited : List OnboardingCall
  deriving DecidableEq

namespace Provisioning

inductive Move where
  /-- A command is given. It starts an operation if the registry allows it. -/
  | asked (command : DeviceCommand)
  | advertised (device : DeviceId) (owned : Bool) (endpoints : List Endpoint)
  /-- The outcome of an operation. -/
  | answered (call : OnboardingCall) (status : Int)

def Move.event? : Move → Option OnboardingEvent
  | asked _ => none
  | advertised device false endpoints => some (.unownedDevice device endpoints)
  | advertised device true endpoints => some (.ownedDevice device endpoints)
  | answered call status => call.outcome? status

def start : Provisioning := ⟨.empty, []⟩

def take (p : Provisioning) (move : Move) : Provisioning where
  registry :=
    match move.event? with
    | some event => (p.registry.apply event).1
    | none => p.registry
  awaited :=
    match move with
    | .asked command =>
      match p.registry.callFor command with
      | .ok call => call :: p.awaited
      | .error _ => p.awaited
    | .advertised _ _ _ => p.awaited
    | .answered call _ => p.awaited.erase call

def run (moves : List Move) : Provisioning := moves.foldl take start

@[simp] theorem run_nil : run [] = start := rfl

@[simp] theorem run_concat (moves : List Move) (move : Move) :
    run (moves ++ [move]) = (run moves).take move := by
  simp [run]

theorem registry_take {p : Provisioning} {move : Move} {event : OnboardingEvent}
    (h : move.event? = some event) : (p.take move).registry = (p.registry.apply event).1 := by
  simp only [take, h]

theorem registry_take_of_none {p : Provisioning} {move : Move} (h : move.event? = none) :
    (p.take move).registry = p.registry := by
  simp only [take, h]

/-- The event comes up in a run, and finds this registry. -/
def Meets (moves : List Move) (r : Registry) (event : OnboardingEvent) : Prop :=
  ∃ before move, before ++ [move] <+: moves ∧ move.event? = some event ∧ (run before).registry = r

/-- What every event of a run keeps holds of the registry at every moment of it. -/
theorem registry_induction {P : Registry → Prop} {moves : List Move} (hempty : P .empty)
    (hevent : ∀ r event, Meets moves r event → P r → P (r.apply event).1) :
    ∀ before, before <+: moves → P (run before).registry := by
  intro before
  induction before using List.reverseRecOn with
  | nil => exact fun _ => hempty
  | append_singleton before move ih =>
    intro hbefore
    have hp := ih ((List.prefix_append before [move]).trans hbefore)
    rw [run_concat]
    cases hmove : move.event? with
    | none => rwa [registry_take_of_none hmove]
    | some event =>
      rw [registry_take hmove]
      exact hevent _ event ⟨before, move, hbefore, hmove, rfl⟩ hp

/-- An outcome needs an operation that awaits it. -/
def Admits (p : Provisioning) : Move → Prop
  | .answered call _ => call ∈ p.awaited
  | _ => True

instance (p : Provisioning) (move : Move) : Decidable (p.Admits move) :=
  match move with
  | .asked _ => .isTrue trivial
  | .advertised _ _ _ => .isTrue trivial
  | .answered call _ => inferInstanceAs (Decidable (call ∈ p.awaited))

/-- Each outcome is that of an operation that awaits it: an operation is answered once at most. -/
def Answering (moves : List Move) : Prop :=
  ∀ before move, before ++ [move] <+: moves → (run before).Admits move

theorem answering_iff_forall_fin {moves : List Move} :
    Answering moves ↔ ∀ n : Fin moves.length, (run (moves.take n)).Admits moves[n] := by
  constructor
  · intro h n
    refine h _ _ ?_
    rw [Fin.getElem_fin, List.take_append_getElem]
    exact List.take_prefix _ _
  · rintro h before move ⟨after, rfl⟩
    have hlt : before.length < (before ++ [move] ++ after).length := by simp
    simpa using h ⟨before.length, hlt⟩

instance (moves : List Move) : Decidable (Answering moves) :=
  decidable_of_iff _ answering_iff_forall_fin.symm

/-- An operation that awaits its outcome has been accepted at some moment. -/
theorem exists_asked_of_awaited {moves : List Move} {call : OnboardingCall}
    (h : call ∈ (run moves).awaited) :
    ∃ before command after, moves = before ++ .asked command :: after ∧
      (run before).registry.callFor command = .ok call := by
  induction moves using List.reverseRecOn with
  | nil => cases h
  | append_singleton moves move ih =>
    have hearlier (h : call ∈ (run moves).awaited) :
        ∃ before command after, moves ++ [move] = before ++ .asked command :: after ∧
          (run before).registry.callFor command = .ok call := by
      obtain ⟨before, command, after, rfl, hcall⟩ := ih h
      exact ⟨before, command, after ++ [move], by simp, hcall⟩
    rw [run_concat] at h
    cases move with
    | asked command =>
      simp only [take] at h
      split at h
      · next accepted haccepted =>
        rcases List.mem_cons.mp h with rfl | h
        · exact ⟨moves, command, [], rfl, haccepted⟩
        · exact hearlier h
      · exact hearlier h
    | advertised device owned endpoints => exact hearlier h
    | answered answer status => exact hearlier (List.mem_of_mem_erase h)

/-- Something has come between the acceptance of an operation and this moment. -/
def Overtaken (moves : List Move) (call : OnboardingCall) (Q : OnboardingEvent → Prop) : Prop :=
  ∃ before command between, moves = before ++ .asked command :: between ∧
    (run before).registry.callFor command = .ok call ∧
    ∃ move ∈ between, ∃ event, move.event? = some event ∧ Q event

section

variable {P : Registry → Prop} {Q : OnboardingEvent → Prop}
  (hevent : ∀ r event, ¬P r → P (r.apply event).1 → Q event)

include hevent

/-- What has become true of the registry has been brought about by some event. -/
theorem exists_event_between {before between : List Move} (hbefore : ¬P (run before).registry)
    (hafter : P (run (before ++ between)).registry) :
    ∃ move ∈ between, ∃ event, move.event? = some event ∧ Q event := by
  induction between using List.reverseRecOn with
  | nil =>
    rw [List.append_nil] at hafter
    exact absurd hafter hbefore
  | append_singleton between move ih =>
    rw [← List.append_assoc, run_concat] at hafter
    by_cases hmiddle : P (run (before ++ between)).registry
    · obtain ⟨earlier, hmem, hearlier⟩ := ih hmiddle
      exact ⟨earlier, List.mem_append_left _ hmem, hearlier⟩
    · cases hmove : move.event? with
      | none =>
        rw [registry_take_of_none hmove] at hafter
        exact absurd hafter hmiddle
      | some event =>
        rw [registry_take hmove] at hafter
        exact ⟨move, by simp, event, hmove, hevent _ _ hmiddle hafter⟩

/-- An operation has been overtaken when the registry would not allow it any more. -/
theorem overtaken_of_awaited {moves : List Move} {call : OnboardingCall}
    (hcall : call ∈ (run moves).awaited) (hallows : ∀ r : Registry, r.Allows call → ¬P r)
    (hnow : P (run moves).registry) : Overtaken moves call Q := by
  obtain ⟨before, command, between, rfl, haccepted⟩ := exists_asked_of_awaited hcall
  have hbefore := hallows _ (Registry.allows_of_callFor haccepted)
  obtain ⟨move, hmem, event, hmove, hq⟩ := exists_event_between hevent hbefore hnow
  refine ⟨before, command, between, rfl, haccepted, move, ?_, event, hmove, hq⟩
  rcases List.mem_cons.mp hmem with rfl | hmem
  · cases hmove
  · exact hmem

end

def lamp : DeviceId := .ofBytes [1]

def switch : DeviceId := .ofBytes [2]

/-- An access control entry for everything that a device has. -/
def openEntry : AccessEntry := ⟨.connection .authenticatedEncrypted, [.everything], .empty⟩

end Provisioning

end DeviceClient
