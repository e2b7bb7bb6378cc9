import Mathlib.Tactic.Tauto
import DeviceClient.Proofs.Provisioning.Log
import DeviceClient.Proofs.Provisioning.Run

namespace DeviceClient

namespace Registry

open OnboardingEvent Provisioning

theorem contains_congr {r s : Registry} {d : DeviceId} (h : s.find? d = r.find? d) :
    s.contains d = r.contains d := by
  rw [contains, contains, h]

theorem snd_transition (r : Registry) (device : DeviceId) (state : ProvisioningState) :
    (r.transition device state).2 =
      ((r.find? device).map fun e => .deviceUpdated { e with state := state }).toList := by
  unfold transition setState
  cases r.find? device <;> rfl

/-- What an event reports depends on nothing but the entries of the devices that it is about. -/
theorem snd_apply_congr {r s : Registry} {event : OnboardingEvent}
    (h : ∀ d ∈ event.devices, s.find? d = r.find? d) : (s.apply event).2 = (r.apply event).2 := by
  cases event with
  | unownedDevice device endpoints => rfl
  | ownedDevice device endpoints =>
    have hdevice : s.find? device = r.find? device := h device (List.mem_singleton_self device)
    simp only [apply, mergeOwned, state?, hdevice]
  | ownershipTransferred device status =>
    have hdevice : s.find? device = r.find? device := h device (List.mem_singleton_self device)
    simp only [apply]
    split_ifs
    · rfl
    · rw [snd_transition, snd_transition, hdevice]
  | credentialsProvisioned first second status =>
    simp only [apply]
    split_ifs <;> rfl
  | accessProvisioned device status =>
    have hdevice : s.find? device = r.find? device := h device (List.mem_singleton_self device)
    simp only [apply]
    split_ifs
    · simp only [evict, contains_congr hdevice]
    · rw [snd_transition, snd_transition, hdevice]
  | deviceReset device status =>
    have hdevice : s.find? device = r.find? device := h device (List.mem_singleton_self device)
    simp only [apply]
    split_ifs
    · rfl
    · simp only [evict, contains_congr hdevice]

/-- Pairs stay in order, whatever becomes of them. -/
theorem pairwise_credentials_apply {r : Registry} (event : OnboardingEvent)
    (h : r.credentials.Pairwise fun p q => pairKey p < pairKey q) :
    (r.apply event).1.credentials.Pairwise fun p q => pairKey p < pairKey q := by
  have hdrop (d : DeviceId) :
      (r.dropCredentials d).credentials.Pairwise fun p q => pairKey p < pairKey q := h.filter _
  cases event with
  | unownedDevice device endpoints => exact hdrop device
  | ownedDevice device endpoints => exact h
  | ownershipTransferred device status =>
    by_cases hs : status < 0 <;> simpa [apply, hs] using h
  | credentialsProvisioned first second status =>
    by_cases hs : status < 0
    · simpa [apply, hs] using h
    · simpa [apply, hs, addCredentials] using Ordered.pairwise_put (pair first second) h
  | accessProvisioned device status =>
    by_cases hs : status < 0
    · simpa [apply, hs, credentials_remove] using hdrop device
    · simpa [apply, hs] using h
  | deviceReset device status =>
    by_cases hs : status < 0
    · simpa [apply, hs] using h
    · simpa [apply, hs, credentials_remove] using hdrop device

theorem Canonical.apply {r : Registry} (h : r.Canonical) (event : OnboardingEvent) :
    (r.apply event).1.Canonical where
  entries := (reports_apply r event).sorted h.entries
  credentials := pairwise_credentials_apply event h.credentials

/-- All registries that events lead to are canonical. -/
theorem canonical_applyAll (events : List OnboardingEvent) : (applyAll events).1.Canonical := by
  induction events using List.reverseRecOn with
  | nil => exact canonical_empty
  | append_singleton events event ih =>
    rw [applyAll_concat]
    exact ih.apply event

section

variable {r : Registry} {e f : OnboardingEvent} (h : e.devices.Disjoint f.devices)

include h

theorem find?_apply_comm (d : DeviceId) :
    ((r.apply e).1.apply f).1.find? d = ((r.apply f).1.apply e).1.find? d := by
  by_cases he : d ∈ e.devices
  · have hf : d ∉ f.devices := fun hf => h he hf
    rw [find?_apply_of_not_mem hf, find?_apply, find?_apply, find?_apply_of_not_mem hf]
  · rw [find?_apply_of_not_mem (r := (r.apply f).1) he, find?_apply _ f, find?_apply r f,
      find?_apply_of_not_mem he]

/-- An event does not drop what the other one has just given. -/
theorem not_drops_of_joined? {p : DeviceId × DeviceId} (hp : e.joined? = some p) :
    ¬f.Drops p.1 ∧ ¬f.Drops p.2 := by
  obtain ⟨hfirst, hsecond⟩ := mem_devices_of_joined? hp
  exact ⟨fun hdrops => h hfirst hdrops.mem_devices, fun hdrops => h hsecond hdrops.mem_devices⟩

theorem mem_credentials_apply_comm (p : DeviceId × DeviceId) :
    p ∈ ((r.apply e).1.apply f).1.credentials ↔ p ∈ ((r.apply f).1.apply e).1.credentials := by
  have he (hp : e.joined? = some p) := not_drops_of_joined? h hp
  have hf (hp : f.joined? = some p) := not_drops_of_joined? (List.disjoint_symm h) hp
  rw [mem_credentials_apply, mem_credentials_apply, mem_credentials_apply, mem_credentials_apply]
  tauto

end

/-- Events about different devices may come in either order. Each reports the same in both, and the
entries and the pairs with credentials are the same afterwards. So the registries are equal, as they
are canonical when the first one is, which all are that events lead to (`canonical_applyAll`). -/
theorem apply_comm (r : Registry) {e f : OnboardingEvent} (h : e.devices.Disjoint f.devices) :
    ((r.apply f).1.apply e).2 = (r.apply e).2 ∧ ((r.apply e).1.apply f).2 = (r.apply f).2 ∧
    (∀ d, ((r.apply e).1.apply f).1.find? d = ((r.apply f).1.apply e).1.find? d) ∧
    (∀ p, p ∈ ((r.apply e).1.apply f).1.credentials ↔
      p ∈ ((r.apply f).1.apply e).1.credentials) ∧
    (r.Canonical → ((r.apply e).1.apply f).1 = ((r.apply f).1.apply e).1) := by
  have hreports : ((r.apply f).1.apply e).2 = (r.apply e).2 :=
    snd_apply_congr fun d hd => find?_apply_of_not_mem fun hf => h hd hf
  have hreports' : ((r.apply e).1.apply f).2 = (r.apply f).2 :=
    snd_apply_congr fun d hd => find?_apply_of_not_mem fun he => h he hd
  have hentries := find?_apply_comm (r := r) h
  have hcredentials := mem_credentials_apply_comm (r := r) h
  refine ⟨hreports, hreports', hentries, hcredentials, fun hr => ?_⟩
  exact ((hr.apply e).apply f).eq ((hr.apply f).apply e) hentries hcredentials

/-- The lamp loses its owner, and with it the credentials that it shares with the switch, while the
switch gets credentials with a heater. -/
theorem apply_comm_lostLamp :
    let heater := DeviceId.ofBytes [3]
    let r := (applyAll [.ownedDevice lamp [], .ownedDevice switch [], .ownedDevice heater [],
      .credentialsProvisioned lamp switch 0]).1
    let e := OnboardingEvent.unownedDevice lamp []
    let f := OnboardingEvent.credentialsProvisioned heater switch 0
    e.devices.Disjoint f.devices ∧ r.Canonical ∧
      ((r.apply e).1.apply f).1 = ((r.apply f).1.apply e).1 ∧
      ((r.apply e).1.apply f).1.peers switch = [heater] := by
  intro heater r e f
  have hdisjoint : e.devices.Disjoint f.devices := by
    intro d hd hd'
    rw [List.mem_singleton.mp hd] at hd'
    revert hd'
    decide
  have hcanonical : r.Canonical := canonical_applyAll _
  exact ⟨hdisjoint, hcanonical, (apply_comm r hdisjoint).2.2.2.2 hcanonical, by decide +kernel⟩

end Registry

end DeviceClient
