import DeviceClient.Proofs.Provisioning.Run

namespace DeviceClient

namespace OnboardingEvent

/-- An event that drops credentials gives none. -/
theorem Drops.joined?_eq_none {event : OnboardingEvent} {d : DeviceId} (h : event.Drops d) :
    event.joined? = none := by
  cases event with
  | credentialsProvisioned first second status => exact h.elim
  | _ => rfl

end OnboardingEvent

namespace Registry

open OnboardingEvent Provisioning

/-- Away from some devices the registries are the same: all other entries, and all pairs of other
devices. -/
structure SameBut (devices : List DeviceId) (r s : Registry) : Prop where
  entries : ∀ d, d ∉ devices → s.find? d = r.find? d
  credentials : ∀ p, p.1 ∉ devices → p.2 ∉ devices → (p ∈ s.credentials ↔ p ∈ r.credentials)

/-- The device shares no credentials. -/
def Unpaired (r : Registry) (d : DeviceId) : Prop := ∀ p ∈ r.credentials, p.1 ≠ d ∧ p.2 ≠ d

/-- The device is out of the registry. -/
structure Gone (r : Registry) (d : DeviceId) : Prop where
  entry : r.find? d = none
  unpaired : r.Unpaired d

theorem apply_sameBut (r : Registry) (event : OnboardingEvent) :
    SameBut event.devices r (r.apply event).1 where
  entries _ := find?_apply_of_not_mem
  credentials _ := mem_credentials_apply_of_not_mem

theorem unpaired_apply {r : Registry} {event : OnboardingEvent} {d : DeviceId}
    (h : event.Drops d) : (r.apply event).1.Unpaired d := by
  intro p hp
  have hjoined : event.joined? ≠ some p := by
    rw [h.joined?_eq_none]
    nofun
  obtain ⟨-, hfirst, hsecond⟩ := (mem_credentials_apply.mp hp).resolve_left hjoined
  exact ⟨fun heq => hfirst (heq ▸ h), fun heq => hsecond (heq ▸ h)⟩

/-- A device of which the event leaves no entry is out, when its credentials are dropped too. -/
theorem gone_apply {r : Registry} {event : OnboardingEvent} {d : DeviceId} (h : event.Drops d)
    (hentry : ∀ entry, event.entryAfter entry = none) : (r.apply event).1.Gone d where
  entry := by rw [find?_apply, if_pos h.mem_devices, hentry]
  unpaired := unpaired_apply h

theorem dropCredentials_dropCredentials (r : Registry) (d : DeviceId) :
    (r.dropCredentials d).dropCredentials d = r.dropCredentials d := by
  simp [dropCredentials, List.filter_filter]

theorem put_put (r : Registry) (e : RegistryEntry) : (r.put e).put e = r.put e := by
  simp only [put, Ordered.put_put]

theorem mergeUnowned_mergeUnowned (r : Registry) (device : DeviceId) (endpoints : List Endpoint) :
    (r.mergeUnowned device endpoints).2.mergeUnowned device endpoints =
      r.mergeUnowned device endpoints := by
  have hdrop (e : RegistryEntry) : ((r.dropCredentials device).put e).dropCredentials device =
      (r.dropCredentials device).put e :=
    congrArg (put · e) (r.dropCredentials_dropCredentials device)
  simp only [mergeUnowned, hdrop, put_put]

/-- The state that the first advertisement gives is kept by the second one. -/
theorem mergeOwned_mergeOwned (r : Registry) (device : DeviceId) (endpoints : List Endpoint) :
    (r.mergeOwned device endpoints).2.mergeOwned device endpoints =
      r.mergeOwned device endpoints := by
  have hstate (state : ProvisioningState) :
      (r.put ⟨device, state, endpoints⟩).state? device = some state := by
    rw [state?, find?_put, if_pos rfl, Option.map_some]
  cases hentry : r.state? device with
  | none => simp [mergeOwned, hentry, hstate, put_put]
  | some state => cases state <;> simp [mergeOwned, hentry, hstate, put_put]

/-- An event touches the devices only that it is about. A device that advertises itself without an
owner is unowned and has no credentials, and an advertisement may come twice. Credentials leave all
entries as they are. A failure is reported and changes nothing, with one exception: a device that did
not take its access control entry is out, as is one that has been reset. -/
theorem apply_local (r : Registry) (event : OnboardingEvent) :
    SameBut event.devices r (r.apply event).1 ∧
    match event with
    | .unownedDevice device endpoints =>
      (r.apply event).1.find? device = some ⟨device, .unowned, endpoints⟩ ∧
        (r.apply event).1.Unpaired device ∧ ((r.apply event).1.apply event).1 = (r.apply event).1
    | .ownedDevice _ _ => ((r.apply event).1.apply event).1 = (r.apply event).1
    | .ownershipTransferred device status =>
      status < 0 → r.apply event = (r, [.provisioningFailed ⟨device, .takeOwnership, status⟩])
    | .credentialsProvisioned first _ status =>
      (r.apply event).1.entries = r.entries ∧
        (status < 0 →
          r.apply event = (r, [.provisioningFailed ⟨first, .pairwiseCredentials, status⟩]))
    | .accessProvisioned device status => status < 0 → (r.apply event).1.Gone device
    | .deviceReset device status =>
      (status < 0 → r.apply event = (r, [.provisioningFailed ⟨device, .reset, status⟩])) ∧
        (0 ≤ status → (r.apply event).1.Gone device) := by
  refine ⟨r.apply_sameBut event, ?_⟩
  cases event with
  | unownedDevice device endpoints =>
    refine ⟨?_, unpaired_apply rfl, congrArg Prod.snd (r.mergeUnowned_mergeUnowned device endpoints)⟩
    rw [find?_apply]
    exact if_pos (List.mem_singleton_self device)
  | ownedDevice device endpoints => exact congrArg Prod.snd (r.mergeOwned_mergeOwned device endpoints)
  | ownershipTransferred device status => exact fun hs => by rw [apply, if_pos hs, failed]
  | credentialsProvisioned first second status =>
    refine ⟨?_, fun hs => by rw [apply, if_pos hs, failed]⟩
    rw [apply]
    split_ifs <;> rfl
  | accessProvisioned device status =>
    intro hs
    exact gone_apply ⟨rfl, hs⟩ fun _ => if_pos hs
  | deviceReset device status =>
    refine ⟨fun hs => by rw [apply, if_pos hs, failed], fun hs => ?_⟩
    exact gone_apply ⟨rfl, hs⟩ fun _ => if_neg (Int.not_lt.mpr hs)

/-- The lamp does not take its access control entry. It is out, and the switch has lost its peer. -/
theorem apply_local_evictedLamp :
    let r := (run [.advertised lamp true [], .advertised switch true [],
      .asked (.provisionCredentials lamp switch),
      .answered (.provisionCredentials lamp switch) 0]).registry
    let s := (r.apply (.accessProvisioned lamp (-1))).1
    r.peers switch = [lamp] ∧ s.Gone lamp ∧ s.find? switch = r.find? switch := by
  intro r s
  have hpeer : r.peers switch = [lamp] := by decide +kernel
  have hother : switch ∉ (OnboardingEvent.accessProvisioned lamp (-1)).devices := by decide
  obtain ⟨hsame, hgone⟩ := apply_local r (.accessProvisioned lamp (-1))
  exact ⟨hpeer, hgone (by decide), hsame.entries switch hother⟩

end Registry

end DeviceClient
