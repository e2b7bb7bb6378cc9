import Mathlib.Data.List.Induction
import DeviceClient.Proofs.Provisioning.Outcome

namespace DeviceClient

/-- What is known of the devices after one more event. -/
def ClientEvent.heard (known : DeviceId → Option RegistryEntry) :
    ClientEvent → DeviceId → Option RegistryEntry
  | deviceUpdated entry => fun d => if d = entry.device then some entry else known d
  | deviceRemoved device => fun d => if d = device then none else known d
  | _ => known

/-- What is known of the devices after some events. -/
def heardAll (known : DeviceId → Option RegistryEntry) (events : List ClientEvent) :
    DeviceId → Option RegistryEntry :=
  events.foldl ClientEvent.heard known

theorem heardAll_append (known : DeviceId → Option RegistryEntry) (a b : List ClientEvent) :
    heardAll known (a ++ b) = heardAll (heardAll known a) b :=
  List.foldl_append

namespace Registry

/-- Applies events of the onboarding in turn, and collects what is reported. -/
def applyAll (events : List OnboardingEvent) : Registry × List ClientEvent :=
  events.foldl (fun done event =>
    ((done.1.apply event).1, done.2 ++ (done.1.apply event).2)) (empty, [])

@[simp] theorem applyAll_nil : applyAll [] = (empty, []) := rfl

@[simp] theorem applyAll_concat (events : List OnboardingEvent) (event : OnboardingEvent) :
    applyAll (events ++ [event]) =
      (((applyAll events).1.apply event).1,
        (applyAll events).2 ++ ((applyAll events).1.apply event).2) := by
  simp [applyAll]

/-- What is reported tells all that is done to the entries, and the entries stay in order. -/
structure Reports (r : Registry) (done : Registry × List ClientEvent) : Prop where
  sorted : r.Sorted → done.1.Sorted
  told : heardAll r.find? done.2 = done.1.find?
  /-- Only a device that was there is reported as removed. -/
  removed : ∀ d, .deviceRemoved d ∈ done.2 → r.contains d = true

section

variable {r s : Registry} (hentries : s.entries = r.entries)

include hentries

theorem find?_congr : s.find? = r.find? := by
  funext d
  rw [find?_eq, find?_eq, hentries]

theorem Reports.unchanged : Reports r (s, []) where
  sorted h := by rwa [Sorted, hentries]
  told := (find?_congr hentries).symm
  removed d h := absurd h List.not_mem_nil

theorem Reports.updated (e : RegistryEntry) : Reports r (s.put e, [.deviceUpdated e]) where
  sorted h := ((unchanged hentries).sorted h).put e
  told := by
    funext d
    rw [find?_put, find?_congr hentries]
    rfl
  removed d h := by cases List.mem_singleton.mp h

end

/-- An event that says nothing of the entries can be reported too. -/
theorem Reports.aside {r : Registry} {done : Registry × List ClientEvent} {event : ClientEvent}
    (h : Reports r done) (hheard : ∀ known, event.heard known = known)
    (hremoved : ∀ d, event ≠ .deviceRemoved d) : Reports r (done.1, event :: done.2) where
  sorted := h.sorted
  told := by
    rw [heardAll, List.foldl_cons, hheard]
    exact h.told
  removed d hd := h.removed d ((List.mem_cons.mp hd).resolve_left (hremoved d).symm)

theorem Reports.failed {r : Registry} {done : Registry × List ClientEvent} (h : Reports r done)
    (device : DeviceId) (operation : ProvisioningOperation) (status : Int) :
    Reports r (done.1, failed device operation status :: done.2) :=
  h.aside (fun _ => rfl) (fun _ => nofun)

theorem reports_transition (r : Registry) (device : DeviceId) (s : ProvisioningState) :
    Reports r (r.transition device s) := by
  unfold transition setState
  cases r.find? device with
  | none => exact .unchanged rfl
  | some e => exact .updated rfl _

theorem reports_evict (r : Registry) (device : DeviceId) : Reports r (r.evict device) := by
  cases hknown : r.contains device with
  | true =>
    rw [evict, hknown]
    refine ⟨fun h => h.remove device, ?_, fun d hd => ?_⟩
    · funext d
      exact (find?_remove r d device).symm
    · cases List.mem_singleton.mp hd
      exact hknown
  | false =>
    have hsame : (r.remove device).entries = r.entries := by
      refine List.filter_eq_self.mpr fun e he => ?_
      have hnone : r.find? device = none := by simpa [contains] using hknown
      simpa using List.find?_eq_none.mp hnone e he
    rw [evict, hknown]
    exact .unchanged hsame

theorem reports_apply (r : Registry) (event : OnboardingEvent) : Reports r (r.apply event) := by
  have hself : Reports r (r, []) := .unchanged rfl
  cases event with
  | unownedDevice device endpoints => exact .updated (r := r) (s := r.dropCredentials device) rfl _
  | ownedDevice device endpoints => exact .updated rfl _
  | ownershipTransferred device status =>
    rw [apply]
    split_ifs
    · exact hself.failed device _ status
    · exact reports_transition r device .owned
  | credentialsProvisioned first second status =>
    rw [apply]
    split_ifs
    · exact hself.failed first _ status
    · refine Reports.aside (.unchanged (r := r) (s := r.addCredentials first second) rfl) ?_ ?_
      · exact fun _ => rfl
      · rintro d ⟨⟩
  | accessProvisioned device status =>
    rw [apply]
    split_ifs
    · exact (reports_evict r device).failed device _ status
    · exact reports_transition r device .aceProvisioned
  | deviceReset device status =>
    rw [apply]
    split_ifs
    · exact hself.failed device _ status
    · exact reports_evict r device

theorem sorted_applyAll (events : List OnboardingEvent) : (applyAll events).1.Sorted := by
  induction events using List.reverseRecOn with
  | nil => exact sorted_empty
  | append_singleton events event ih =>
    rw [applyAll_concat]
    exact (reports_apply _ event).sorted ih

theorem heardAll_applyAll (events : List OnboardingEvent) :
    heardAll (fun _ => none) (applyAll events).2 = (applyAll events).1.find? := by
  induction events using List.reverseRecOn with
  | nil => rfl
  | append_singleton events event ih =>
    rw [applyAll_concat, heardAll_append, ih]
    exact (reports_apply _ event).told

/-- After any events of the onboarding, what has been reported is the registry: each entry is known
as it is, nothing else is known, and no device is reported as removed that is not there. -/
theorem reports_tell_entries (events : List OnboardingEvent) :
    (∀ d e, heardAll (fun _ => none) (applyAll events).2 d = some e ↔
      e ∈ (applyAll events).1.entries ∧ e.device = d) ∧
    ∀ event d, .deviceRemoved d ∈ ((applyAll events).1.apply event).2 →
      (applyAll events).1.contains d = true := by
  refine ⟨fun d e => ?_, fun event => (reports_apply _ event).removed⟩
  rw [heardAll_applyAll]
  constructor
  · intro h
    obtain rfl := device_of_find? h
    exact ⟨(mem_entries_iff (sorted_applyAll events)).mpr h, rfl⟩
  · rintro ⟨hmem, rfl⟩
    exact (mem_entries_iff (sorted_applyAll events)).mp hmem

end Registry

end DeviceClient
