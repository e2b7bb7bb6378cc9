import DeviceClient.Proofs.Registry
import DeviceClient.Provisioning

namespace DeviceClient

namespace OnboardingEvent

/-- What becomes of the entry of a device that the event is about. -/
def entryAfter : OnboardingEvent → Option RegistryEntry → Option RegistryEntry
  | unownedDevice device endpoints, _ => some ⟨device, .unowned, endpoints⟩
  | ownedDevice device endpoints, entry =>
    let state :=
      if entry.map RegistryEntry.state = some .aceProvisioned then .aceProvisioned else .owned
    some ⟨device, state, endpoints⟩
  | ownershipTransferred _ status, entry =>
    if status < 0 then entry else entry.map fun e => { e with state := .owned }
  | credentialsProvisioned _ _ _, entry => entry
  | accessProvisioned _ status, entry =>
    if status < 0 then none else entry.map fun e => { e with state := .aceProvisioned }
  | deviceReset _ status, entry => if status < 0 then entry else none

/-- The event ends the credentials that a device shares: the device has no owner, did not take its
access control entry, or is reset. -/
def Drops (d : DeviceId) : OnboardingEvent → Prop
  | unownedDevice device _ => d = device
  | accessProvisioned device status => d = device ∧ status < 0
  | deviceReset device status => d = device ∧ 0 ≤ status
  | _ => False

/-- The event gives credentials to two devices. -/
def Joins (a b : DeviceId) : OnboardingEvent → Prop
  | credentialsProvisioned first second status =>
    0 ≤ status ∧ (first = a ∧ second = b ∨ first = b ∧ second = a)
  | _ => False

/-- The pair to which the event gives credentials, if there is one. -/
def joined? : OnboardingEvent → Option (DeviceId × DeviceId)
  | credentialsProvisioned first second status =>
    if status < 0 then none else some (Registry.pair first second)
  | _ => none

theorem joins_iff {event : OnboardingEvent} {a b : DeviceId} :
    event.Joins a b ↔ event.joined? = some (a, b) ∨ event.joined? = some (b, a) := by
  cases event with
  | credentialsProvisioned first second status =>
    rw [Joins, joined?, ← Registry.pair_eq_iff]
    by_cases hs : status < 0
    · simp [hs, Int.not_le.mpr hs]
    · simp [hs, Int.not_lt.mp hs]
  | _ => simp [Joins, joined?]

/-- An event drops credentials of the devices only that it is about. -/
theorem Drops.mem_devices {event : OnboardingEvent} {d : DeviceId} (h : event.Drops d) :
    d ∈ event.devices := by
  cases event with
  | unownedDevice device endpoints => exact List.mem_singleton.mpr h
  | accessProvisioned device status => exact List.mem_singleton.mpr h.1
  | deviceReset device status => exact List.mem_singleton.mpr h.1
  | _ => exact h.elim

theorem mem_devices_of_joined? {event : OnboardingEvent} {p : DeviceId × DeviceId}
    (h : event.joined? = some p) : p.1 ∈ event.devices ∧ p.2 ∈ event.devices := by
  cases event with
  | credentialsProvisioned first second status =>
    simp only [joined?] at h
    split_ifs at h
    obtain ⟨hfirst, hsecond⟩ | ⟨hfirst, hsecond⟩ :=
      Registry.pair_eq_iff.mp (.inl (Option.some.inj h))
    · simp [devices, hfirst, hsecond]
    · simp [devices, hfirst, hsecond]
  | _ => cases h

end OnboardingEvent

namespace Registry

open OnboardingEvent

theorem find?_transition (r : Registry) (device d : DeviceId) (state : ProvisioningState) :
    (r.transition device state).1.find? d =
      if d = device then (r.find? device).map fun e => { e with state := state }
      else r.find? d := by
  cases hfind : r.find? device with
  | none =>
    simp only [transition, setState, hfind, Option.map_none]
    split_ifs with hd
    · rw [hd, hfind]
    · rfl
  | some e =>
    simp only [transition, setState, hfind, Option.map_some, find?_put, device_of_find? hfind]

@[simp] theorem fst_evict (r : Registry) (d : DeviceId) : (r.evict d).1 = r.remove d := rfl

@[simp] theorem credentials_transition (r : Registry) (device : DeviceId)
    (state : ProvisioningState) : (r.transition device state).1.credentials = r.credentials := by
  unfold transition setState
  cases r.find? device <;> rfl

/-- The machines of the devices that an event is about move, each by itself. -/
theorem find?_apply (r : Registry) (event : OnboardingEvent) (d : DeviceId) :
    (r.apply event).1.find? d =
      if d ∈ event.devices then event.entryAfter (r.find? d) else r.find? d := by
  cases event with
  | unownedDevice device endpoints =>
    simp [apply, mergeUnowned, find?_put, devices, entryAfter]
  | ownedDevice device endpoints =>
    simp only [apply, mergeOwned, find?_put, devices, entryAfter, List.mem_singleton, state?]
    split_ifs with hd hstate
    · subst hd
      rw [hstate]
    · subst hd
      split
      · contradiction
      · rfl
    · rfl
  | ownershipTransferred device status =>
    simp only [apply, devices, entryAfter, List.mem_singleton]
    by_cases hd : d = device <;> by_cases hs : status < 0 <;> simp [hd, hs, find?_transition]
  | credentialsProvisioned first second status =>
    by_cases hs : status < 0 <;> simp [apply, entryAfter, hs]
  | accessProvisioned device status =>
    simp only [apply, devices, entryAfter, List.mem_singleton]
    by_cases hd : d = device <;> by_cases hs : status < 0 <;>
      simp [hd, hs, find?_transition, find?_remove]
  | deviceReset device status =>
    simp only [apply, devices, entryAfter, List.mem_singleton]
    by_cases hd : d = device <;> by_cases hs : status < 0 <;> simp [hd, hs, find?_remove]

theorem find?_apply_of_not_mem {r : Registry} {event : OnboardingEvent} {d : DeviceId}
    (h : d ∉ event.devices) : (r.apply event).1.find? d = r.find? d := by
  rw [find?_apply, if_neg h]

/-- A pair has credentials from the event that gives them to the first that drops those of one of
its devices. -/
theorem mem_credentials_apply {r : Registry} {event : OnboardingEvent} {p : DeviceId × DeviceId} :
    p ∈ (r.apply event).1.credentials ↔
      event.joined? = some p ∨ p ∈ r.credentials ∧ ¬event.Drops p.1 ∧ ¬event.Drops p.2 := by
  cases event with
  | unownedDevice device endpoints =>
    simp [apply, mergeUnowned, mem_credentials_dropCredentials, joined?, Drops]
  | ownedDevice device endpoints => simp [apply, mergeOwned, joined?, Drops]
  | ownershipTransferred device status =>
    by_cases hs : status < 0 <;> simp [apply, hs, joined?, Drops]
  | credentialsProvisioned first second status =>
    by_cases hs : status < 0
    · simp [apply, hs, joined?, Drops]
    · simp [apply, hs, mem_credentials_addCredentials, joined?, Drops, eq_comm]
  | accessProvisioned device status =>
    by_cases hs : status < 0 <;>
      simp [apply, hs, credentials_remove, mem_credentials_dropCredentials, joined?, Drops]
  | deviceReset device status =>
    by_cases hs : status < 0
    · simp [apply, hs, joined?, Drops, Int.not_le.mpr hs]
    · simp [apply, hs, credentials_remove, mem_credentials_dropCredentials, joined?, Drops,
        Int.not_lt.mp hs]

theorem mem_credentials_apply_of_not_mem {r : Registry} {event : OnboardingEvent}
    {p : DeviceId × DeviceId} (hfirst : p.1 ∉ event.devices) (hsecond : p.2 ∉ event.devices) :
    p ∈ (r.apply event).1.credentials ↔ p ∈ r.credentials := by
  have hjoined : event.joined? ≠ some p := fun h => hfirst (mem_devices_of_joined? h).1
  have hdrops : ¬event.Drops p.1 ∧ ¬event.Drops p.2 :=
    ⟨fun h => hfirst h.mem_devices, fun h => hsecond h.mem_devices⟩
  rw [mem_credentials_apply, or_iff_right hjoined, and_iff_left hdrops]

theorem mem_peers_apply {r : Registry} {event : OnboardingEvent} {a b : DeviceId} :
    b ∈ (r.apply event).1.peers a ↔
      event.Joins a b ∨ b ∈ r.peers a ∧ ¬event.Drops a ∧ ¬event.Drops b := by
  rw [mem_peers_iff, mem_peers_iff, mem_credentials_apply, mem_credentials_apply, joins_iff]
  grind

/-- Whether the device is there and this client owns it. -/
def isOwned (r : Registry) (d : DeviceId) : Bool := (r.state? d).any ProvisioningState.isOwned

theorem isOwned_iff {r : Registry} {d : DeviceId} :
    r.isOwned d = true ↔ ∃ e, r.find? d = some e ∧ e.state.isOwned = true := by
  cases hfind : r.find? d <;> simp [isOwned, state?, hfind]

/-- A device stays owned until its credentials are dropped. -/
theorem isOwned_apply {r : Registry} {event : OnboardingEvent} {d : DeviceId}
    (hd : r.isOwned d = true) (hdrops : ¬event.Drops d) : (r.apply event).1.isOwned d = true := by
  obtain ⟨e, he, howned⟩ := isOwned_iff.mp hd
  rw [isOwned_iff, find?_apply]
  split_ifs with hmem
  · rw [he]
    cases event with
    | unownedDevice device endpoints => exact absurd (List.mem_singleton.mp hmem) hdrops
    | ownedDevice device endpoints =>
      refine ⟨_, rfl, ?_⟩
      dsimp only
      split_ifs <;> rfl
    | ownershipTransferred device status =>
      by_cases hs : status < 0
      · exact ⟨e, by simp [entryAfter, hs], howned⟩
      · exact ⟨{ e with state := .owned }, by simp [entryAfter, hs], rfl⟩
    | credentialsProvisioned first second status => exact ⟨e, rfl, howned⟩
    | accessProvisioned device status =>
      have hs : ¬status < 0 := fun hs => hdrops ⟨List.mem_singleton.mp hmem, hs⟩
      exact ⟨{ e with state := .aceProvisioned }, by simp [entryAfter, hs], rfl⟩
    | deviceReset device status =>
      have hs : status < 0 := Int.not_le.mp fun hs => hdrops ⟨List.mem_singleton.mp hmem, hs⟩
      exact ⟨e, by simp [entryAfter, hs], howned⟩
  · exact ⟨e, he, howned⟩

theorem requireUnowned_eq_ok {r : Registry} {d : DeviceId} (h : r.requireUnowned d = .ok ()) :
    r.state? d = some .unowned := by
  unfold requireUnowned at h
  split at h
  · next heq => exact heq
  · cases h
  · cases h

theorem requireOwned_eq_ok {r : Registry} {d : DeviceId} (h : r.requireOwned d = .ok ()) :
    r.isOwned d = true := by
  unfold requireOwned at h
  split at h
  · next state heq =>
    split_ifs at h with howned
    simp [isOwned, heq, howned]
  · cases h

/-- What the registry has checked when it allows the first of two things. -/
theorem eq_ok_of_bind {α : Type} {check : Except ClientError Unit} {next : Except ClientError α}
    {a : α} (h : (check >>= fun _ => next) = .ok a) : check = .ok () ∧ next = .ok a := by
  cases check with
  | error error => cases h
  | ok => exact ⟨rfl, h⟩

/-- What a registry asks of the devices that a call names. -/
def Allows (r : Registry) : OnboardingCall → Prop
  | .takeOwnership device => r.state? device = some .unowned
  | .provisionCredentials first second =>
    first ≠ second ∧ r.isOwned first = true ∧ r.isOwned second = true
  | .provisionAccess device _ => r.isOwned device = true
  | .reset device => r.contains device = true
  | .configureStorage _ | .discoverUnowned | .discoverOwned => True

theorem allows_of_callFor {r : Registry} {command : DeviceCommand} {call : OnboardingCall}
    (h : r.callFor command = .ok call) : r.Allows call := by
  cases command with
  | discoverUnowned =>
    cases h
    trivial
  | discoverOwned =>
    cases h
    trivial
  | takeOwnership device =>
    obtain ⟨hdevice, hcall⟩ := eq_ok_of_bind h
    cases hcall
    exact requireUnowned_eq_ok hdevice
  | provisionCredentials first second =>
    simp only [callFor] at h
    split_ifs at h with hsame
    · cases h
    · obtain ⟨hfirst, h⟩ := eq_ok_of_bind h
      obtain ⟨hsecond, hcall⟩ := eq_ok_of_bind h
      cases hcall
      exact ⟨hsame, requireOwned_eq_ok hfirst, requireOwned_eq_ok hsecond⟩
  | provisionAccess device entry =>
    simp only [callFor] at h
    split at h
    · cases h
    · obtain ⟨hdevice, hcall⟩ := eq_ok_of_bind h
      cases hcall
      exact requireOwned_eq_ok hdevice
  | reset device =>
    obtain ⟨hdevice, hcall⟩ := eq_ok_of_bind h
    cases hcall
    simp only [requireKnown] at hdevice
    split_ifs at hdevice with hknown
    exact hknown

end Registry

end DeviceClient
