import DeviceClient.Proofs.Provisioning.Run

namespace DeviceClient

/-- The state may be followed by the other one: a device is owned before its access control entry is
put on it, and can lose its owner at any time. -/
inductive ProvisioningState.Precedes : ProvisioningState → ProvisioningState → Prop
  | owned : Precedes .unowned .owned
  | provisioned : Precedes .owned .aceProvisioned
  | restarted (state : ProvisioningState) : Precedes state .unowned

namespace OnboardingEvent

/-- The event moves a device to a state. -/
def Brings (d : DeviceId) : OnboardingEvent → ProvisioningState → Prop
  | unownedDevice device _, state => d = device ∧ state = .unowned
  | ownedDevice device _, state => d = device ∧ state = .owned
  | ownershipTransferred device status, state => d = device ∧ 0 ≤ status ∧ state = .owned
  | accessProvisioned device status, state => d = device ∧ 0 ≤ status ∧ state = .aceProvisioned
  | _, _ => False

/-- The event tells the success of an operation to a device that is not in the place for it: it got
its access control entry before the ownership, or lost its owner before the access control entry. -/
inductive ComesLate (d : DeviceId) : OnboardingEvent → ProvisioningState → Prop
  | ownership {status : Int} (h : 0 ≤ status) :
      ComesLate d (.ownershipTransferred d status) .aceProvisioned
  | access {status : Int} (h : 0 ≤ status) : ComesLate d (.accessProvisioned d status) .unowned

end OnboardingEvent

namespace Registry

open OnboardingEvent

variable {r : Registry} {event : OnboardingEvent} {d : DeviceId} {s s' : ProvisioningState}

theorem state?_eq_some_iff : r.state? d = some s ↔ ∃ e, r.find? d = some e ∧ e.state = s := by
  rw [state?, Option.map_eq_some_iff]

theorem eq_of_map_state {entry : Option RegistryEntry}
    (h : (entry.map fun e => { e with state := s }).map RegistryEntry.state = some s') : s' = s := by
  rw [Option.map_map] at h
  obtain ⟨e, -, rfl⟩ := Option.map_eq_some_iff.mp h
  rfl

/-- A device comes to a state only by an event that brings it there. -/
theorem brings_of_state? (h : r.state? d ≠ some s') (h' : (r.apply event).1.state? d = some s') :
    event.Brings d s' := by
  rw [state?, find?_apply] at h'
  split_ifs at h' with hmem
  · cases event with
    | unownedDevice device endpoints =>
      cases h'
      exact ⟨List.mem_singleton.mp hmem, rfl⟩
    | ownedDevice device endpoints =>
      simp only [entryAfter, Option.map_some, Option.some.injEq] at h'
      split_ifs at h' with hstate
      · exact absurd (h' ▸ hstate) h
      · exact ⟨List.mem_singleton.mp hmem, h'.symm⟩
    | ownershipTransferred device status =>
      by_cases hs : status < 0
      · rw [entryAfter, if_pos hs] at h'
        exact absurd h' h
      · rw [entryAfter, if_neg hs] at h'
        exact ⟨List.mem_singleton.mp hmem, Int.not_lt.mp hs, eq_of_map_state h'⟩
    | credentialsProvisioned first second status => exact absurd h' h
    | accessProvisioned device status =>
      by_cases hs : status < 0
      · rw [entryAfter, if_pos hs] at h'
        cases h'
      · rw [entryAfter, if_neg hs] at h'
        exact ⟨List.mem_singleton.mp hmem, Int.not_lt.mp hs, eq_of_map_state h'⟩
    | deviceReset device status =>
      by_cases hs : status < 0
      · rw [entryAfter, if_pos hs] at h'
        exact absurd h' h
      · rw [entryAfter, if_neg hs] at h'
        cases h'
  · exact absurd h' h

/-- A change of state follows the order, or comes from an outcome that comes late. -/
theorem precedes_or_comesLate (h : r.state? d = some s) (h' : (r.apply event).1.state? d = some s')
    (hne : s ≠ s') : s.Precedes s' ∨ event.ComesLate d s := by
  have hbrings : event.Brings d s' := brings_of_state? (by simpa [h] using hne) h'
  cases event with
  | unownedDevice device endpoints =>
    obtain ⟨-, rfl⟩ := hbrings
    exact .inl (.restarted s)
  | ownedDevice device endpoints =>
    obtain ⟨rfl, rfl⟩ := hbrings
    cases s with
    | unowned => exact .inl .owned
    | owned => exact absurd rfl hne
    | aceProvisioned =>
      obtain ⟨e, he, hstate⟩ := state?_eq_some_iff.mp h
      simp [state?, find?_apply, devices, entryAfter, he, hstate] at h'
  | ownershipTransferred device status =>
    obtain ⟨rfl, hstatus, rfl⟩ := hbrings
    cases s with
    | unowned => exact .inl .owned
    | owned => exact absurd rfl hne
    | aceProvisioned => exact .inr (.ownership hstatus)
  | credentialsProvisioned first second status => exact hbrings.elim
  | accessProvisioned device status =>
    obtain ⟨rfl, hstatus, rfl⟩ := hbrings
    cases s with
    | unowned => exact .inr (.access hstatus)
    | owned => exact .inl .provisioned
    | aceProvisioned => exact absurd rfl hne
  | deviceReset device status => exact hbrings.elim

/-- An outcome that comes late moves its device against the order. -/
theorem exists_not_precedes_of_comesLate (h : r.state? d = some s) (hlate : event.ComesLate d s) :
    ∃ s', (r.apply event).1.state? d = some s' ∧ s ≠ s' ∧ ¬s.Precedes s' := by
  obtain ⟨e, he, -⟩ := state?_eq_some_iff.mp h
  cases hlate with
  | ownership hstatus =>
    refine ⟨.owned, ?_, by decide, by rintro ⟨⟩⟩
    simp [state?, find?_apply, devices, entryAfter, he, Int.not_lt.mpr hstatus]
  | access hstatus =>
    refine ⟨.aceProvisioned, ?_, by decide, by rintro ⟨⟩⟩
    simp [state?, find?_apply, devices, entryAfter, he, Int.not_lt.mpr hstatus]

/-- An operation is accepted only where its outcome would not come late. -/
theorem not_state?_of_allows {call : OnboardingCall} {status : Int}
    (hevent : call.outcome? status = some event) (hlate : event.ComesLate d s)
    (hallows : r.Allows call) : r.state? d ≠ some s := by
  cases call with
  | takeOwnership device =>
    cases hevent
    cases hlate
    simp [show r.state? d = some .unowned from hallows]
  | provisionAccess device entry =>
    cases hevent
    cases hlate
    intro hs
    have howned : r.isOwned d = true := hallows
    simp [isOwned, hs, ProvisioningState.isOwned] at howned
  | provisionCredentials first second =>
    cases hevent
    cases hlate
  | reset device =>
    cases hevent
    cases hlate
  | _ => cases hevent

end Registry

namespace Provisioning

open Registry OnboardingEvent

/-- All changes of state in a run follow the order exactly when no outcome comes late. An outcome that
comes late has been overtaken by the event that moved the device. -/
theorem changes_precede_iff {moves : List Move} (h : Answering moves) :
    ((∀ r event, Meets moves r event → ∀ d s s', r.state? d = some s →
        (r.apply event).1.state? d = some s' → s ≠ s' → event.Brings d s' ∧ s.Precedes s') ↔
      ∀ r event, Meets moves r event → ∀ d s, r.state? d = some s → ¬event.ComesLate d s) ∧
    ∀ before call status, before ++ [.answered call status] <+: moves →
      ∀ event, call.outcome? status = some event →
        ∀ d s, (run before).registry.state? d = some s → event.ComesLate d s →
          Overtaken before call (·.Brings d s) := by
  refine ⟨⟨?_, ?_⟩, ?_⟩
  · intro halong r event hmeets d s hs hlate
    obtain ⟨s', hs', hne, hnot⟩ := exists_not_precedes_of_comesLate hs hlate
    exact hnot (halong r event hmeets d s s' hs hs' hne).2
  · intro hlate r event hmeets d s s' hs hs' hne
    have hbrings : event.Brings d s' := brings_of_state? (by simpa [hs] using hne) hs'
    exact ⟨hbrings, (precedes_or_comesLate hs hs' hne).resolve_right (hlate r event hmeets d s hs)⟩
  · intro before call status hbefore event hevent d s hs hlate
    exact overtaken_of_awaited (fun r event => brings_of_state?) (h before _ hbefore)
      (fun r => not_state?_of_allows hevent hlate) hs

/-- The ownership of the lamp is asked for twice, and the lamp gets its access control entry between
the two outcomes. -/
def ownedTwice : List Move :=
  [.advertised lamp false [], .asked (.takeOwnership lamp), .asked (.takeOwnership lamp),
    .answered (.takeOwnership lamp) 0, .asked (.provisionAccess lamp openEntry),
    .answered (.provisionAccess lamp openEntry) 0, .answered (.takeOwnership lamp) 0]

theorem changes_precede_iff_ownedTwice :
    Answering ownedTwice ∧
      Overtaken (ownedTwice.take 6) (.takeOwnership lamp) (·.Brings lamp .aceProvisioned) := by
  have h : Answering ownedTwice := by decide +kernel
  have hstate : (run (ownedTwice.take 6)).registry.state? lamp = some .aceProvisioned := by
    decide +kernel
  exact ⟨h, (changes_precede_iff h).2 (ownedTwice.take 6) (.takeOwnership lamp) 0
    (List.prefix_refl _) _ rfl lamp _ hstate (.ownership (by decide))⟩

/-- The second outcome takes the lamp back to the state before its access control entry. -/
theorem not_precedes_ownedTwice :
    Answering ownedTwice ∧
      ¬∀ r event, Meets ownedTwice r event → ∀ d s s', r.state? d = some s →
        (r.apply event).1.state? d = some s' → s ≠ s' → event.Brings d s' ∧ s.Precedes s' := by
  have h : Answering ownedTwice := by decide +kernel
  have hstate : (run (ownedTwice.take 6)).registry.state? lamp = some .aceProvisioned := by
    decide +kernel
  have hafter : ((run (ownedTwice.take 6)).registry.apply (.ownershipTransferred lamp 0)).1.state?
      lamp = some .owned := by
    decide +kernel
  refine ⟨h, fun halong => ?_⟩
  have hmeets : Meets ownedTwice (run (ownedTwice.take 6)).registry (.ownershipTransferred lamp 0) :=
    ⟨ownedTwice.take 6, .answered (.takeOwnership lamp) 0, List.prefix_refl _, rfl, rfl⟩
  cases (halong _ _ hmeets lamp _ _ hstate hafter (by decide)).2

end Provisioning

end DeviceClient
