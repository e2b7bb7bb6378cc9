import DeviceClient.Proofs.Provisioning.Independence
import DeviceClient.Proofs.Since

namespace DeviceClient

namespace Registry

open OnboardingEvent Provisioning

section

variable {r : Registry} (h : r.Sorted)

include h

/-- Each entry stands under the identity of its device. -/
theorem find?_eq_some_iff {d : DeviceId} {e : RegistryEntry} :
    r.find? d = some e ↔ e ∈ r.snapshot ∧ e.device = d := by
  constructor
  · intro hfind
    obtain rfl := device_of_find? hfind
    exact ⟨(mem_entries_iff h).mpr hfind, rfl⟩
  · rintro ⟨hmem, rfl⟩
    exact (mem_entries_iff h).mp hmem

theorem pairwise_snapshot : (r.snapshot.map RegistryEntry.device).Pairwise (· < ·) :=
  List.pairwise_map.mpr h

theorem mem_snapshot_iff {d : DeviceId} :
    d ∈ r.snapshot.map RegistryEntry.device ↔ r.contains d = true := by
  rw [contains, Option.isSome_iff_exists, List.mem_map]
  exact exists_congr fun e => (find?_eq_some_iff h).symm

theorem pairwise_devicesIn (state : ProvisioningState) : (r.devicesIn state).Pairwise (· < ·) :=
  List.pairwise_map.mpr (h.filter _)

theorem mem_devicesIn_iff {state : ProvisioningState} {d : DeviceId} :
    d ∈ r.devicesIn state ↔ r.state? d = some state := by
  rw [devicesIn, List.mem_map, state?, Option.map_eq_some_iff]
  refine exists_congr fun e => ?_
  rw [List.mem_filter, beq_iff_eq, find?_eq_some_iff h, snapshot]
  tauto

theorem disjoint_devicesIn {s t : ProvisioningState} (hne : s ≠ t) :
    (r.devicesIn s).Disjoint (r.devicesIn t) := by
  intro d hs ht
  rw [mem_devicesIn_iff h] at hs ht
  rw [hs, Option.some.injEq] at ht
  exact hne ht

end

theorem perm_states (es : List RegistryEntry) : (es.filter (·.state == .unowned) ++
    es.filter (·.state == .owned) ++ es.filter (·.state == .aceProvisioned)).Perm es := by
  induction es with
  | nil => exact .nil
  | cons e es ih =>
    cases hstate : e.state with
    | unowned => simpa [hstate] using ih
    | owned =>
      rw [List.append_assoc] at ih
      simpa [hstate] using List.perm_middle.trans (ih.cons e)
    | aceProvisioned => simpa [hstate] using List.perm_middle.trans (ih.cons e)

/-- The three states share the devices out among them. -/
theorem perm_snapshot (r : Registry) : (r.devicesIn .unowned ++ r.devicesIn .owned ++
    r.devicesIn .aceProvisioned).Perm (r.snapshot.map RegistryEntry.device) := by
  simp only [devicesIn, snapshot, ← List.map_append]
  exact (perm_states r.entries).map _

/-- Each pair has its smaller identity first. -/
def PairsOrdered (r : Registry) : Prop := ∀ p ∈ r.credentials, ¬p.2 < p.1

theorem not_lt_pair (a b : DeviceId) : ¬(pair a b).2 < (pair a b).1 := by
  unfold pair
  split_ifs with hlt
  · exact Nat.lt_asymm hlt
  · exact hlt

theorem pairKey_lt_iff {p q : DeviceId × DeviceId} :
    pairKey p < pairKey q ↔ p.1 < q.1 ∨ p.1 = q.1 ∧ p.2 < q.2 := by
  have hp := p.2.number_lt
  have hq := q.2.number_lt
  change _ ↔ p.1.number < q.1.number ∨ p.1 = q.1 ∧ p.2.number < q.2.number
  rw [← DeviceId.number_inj, pairKey, pairKey]
  omega

theorem PairsOrdered.apply {r : Registry} (h : r.PairsOrdered) (event : OnboardingEvent) :
    (r.apply event).1.PairsOrdered := by
  intro p hp
  rcases mem_credentials_apply.mp hp with hnew | ⟨hold, -⟩
  · cases event with
    | credentialsProvisioned first second status =>
      simp only [joined?] at hnew
      split_ifs at hnew
      cases hnew
      exact not_lt_pair first second
    | _ => cases hnew
  · exact h p hold

theorem pairsOrdered_applyAll (events : List OnboardingEvent) :
    (applyAll events).1.PairsOrdered := by
  induction events using List.reverseRecOn with
  | nil => exact nofun
  | append_singleton events event ih =>
    rw [applyAll_concat]
    exact ih.apply event

/-- The peers of a device go up: first those before it, which stand first in their pairs, then those
after it. -/
theorem pairwise_peers {r : Registry} (h : r.Canonical) (hpairs : r.PairsOrdered) (d : DeviceId) :
    (r.peers d).Pairwise (· < ·) := by
  rw [peers, List.pairwise_filterMap]
  refine h.credentials.imp_of_mem ?_
  rintro ⟨a, b⟩ ⟨a', b'⟩ hp hq hlt x hx y hy
  have hab : ¬b.number < a.number := hpairs _ hp
  have hab' : ¬b'.number < a'.number := hpairs _ hq
  have hkey : a.number < a'.number ∨ a = a' ∧ b.number < b'.number := pairKey_lt_iff.mp hlt
  change x.number < y.number
  dsimp only at hx hy
  split_ifs at hx hy with ha ha' hb' hb ha' hb' <;> cases hx <;> cases hy
  · -- Both peers come after the device.
    rw [ha, ha'] at hkey
    exact (hkey.resolve_left (Nat.lt_irrefl _)).2
  · rw [ha, hb'] at hkey
    rw [hb'] at hab'
    exact absurd (hkey.resolve_right fun heq => ha' heq.1.symm) hab'
  · -- The first peer comes before the device, and the second one after it.
    rw [hb] at hab
    rw [ha'] at hab'
    have hne : a.number ≠ d.number := fun heq => ha (DeviceId.eq_of_number_eq heq)
    omega
  · rw [hb, hb'] at hkey
    exact hkey.resolve_right fun heq => Nat.lt_irrefl _ heq.2

theorem mem_peers_comm {r : Registry} {a b : DeviceId} : b ∈ r.peers a ↔ a ∈ r.peers b := by
  rw [mem_peers_iff, mem_peers_iff, or_comm]

/-- Two devices are peers since an event that has given them credentials, as long as none drops the
credentials of one of them. -/
theorem mem_peers_applyAll_iff {events : List OnboardingEvent} {a b : DeviceId} :
    b ∈ (applyAll events).1.peers a ↔
      Since (Joins a b) (fun event => event.Drops a ∨ event.Drops b) events := by
  induction events using List.reverseRecOn with
  | nil => simp [not_since_nil]
  | append_singleton events event ih =>
    rw [applyAll_concat, mem_peers_apply, since_concat, ih, not_or]

/-- Whatever events have been applied, the queries tell one registry. Each entry stands under the
identity of its device, and each pair has its smaller identity first. The devices go up, as do those in
a state and the peers of a device. Each device is in one of the three states, and no device is missing
or listed twice. Peers are mutual: two devices are peers since an event that has given them
credentials, unless one has dropped the credentials of either. -/
theorem queries_consistent (events : List OnboardingEvent) :
    let r := (applyAll events).1
    ((∀ d e, r.find? d = some e ↔ e ∈ r.snapshot ∧ e.device = d) ∧
      ∀ p ∈ r.credentials, ¬p.2 < p.1) ∧
    ((r.snapshot.map RegistryEntry.device).Pairwise (· < ·) ∧
      ∀ d, d ∈ r.snapshot.map RegistryEntry.device ↔ r.contains d = true) ∧
    ((∀ state, (r.devicesIn state).Pairwise (· < ·) ∧
        ∀ d, d ∈ r.devicesIn state ↔ r.state? d = some state) ∧
      (∀ s t, s ≠ t → (r.devicesIn s).Disjoint (r.devicesIn t)) ∧
      (r.devicesIn .unowned ++ r.devicesIn .owned ++ r.devicesIn .aceProvisioned).Perm
        (r.snapshot.map RegistryEntry.device)) ∧
    ∀ a, (r.peers a).Pairwise (· < ·) ∧ ∀ b, (b ∈ r.peers a ↔ a ∈ r.peers b) ∧
      (b ∈ r.peers a ↔
        Since (Joins a b) (fun event => event.Drops a ∨ event.Drops b) events) := by
  intro r
  have hcanonical : r.Canonical := canonical_applyAll events
  have hsorted := hcanonical.entries
  have hpairs : r.PairsOrdered := pairsOrdered_applyAll events
  refine ⟨⟨fun d e => find?_eq_some_iff hsorted, hpairs⟩,
    ⟨pairwise_snapshot hsorted, fun d => mem_snapshot_iff hsorted⟩,
    ⟨fun state => ⟨pairwise_devicesIn hsorted state, fun d => mem_devicesIn_iff hsorted⟩,
      fun s t => disjoint_devicesIn hsorted, perm_snapshot r⟩, fun a => ⟨?_, fun b => ?_⟩⟩
  · exact pairwise_peers hcanonical hpairs a
  · exact ⟨mem_peers_comm, mem_peers_applyAll_iff⟩

/-- The switch has credentials with the lamp and with a heater, which then loses its owner. -/
theorem queries_consistent_switch :
    let heater := DeviceId.ofBytes [3]
    let events := [.ownedDevice lamp [], .ownedDevice switch [], .ownedDevice heater [],
      .credentialsProvisioned switch lamp 0, .credentialsProvisioned switch heater 0,
      .unownedDevice heater []]
    let r := (applyAll events).1
    (r.devicesIn .unowned).Disjoint (r.devicesIn .owned) ∧ r.peers switch = [lamp] ∧
      Since (Joins switch lamp) (fun event => event.Drops switch ∨ event.Drops lamp) events ∧
      ¬Since (Joins switch heater) (fun event => event.Drops switch ∨ event.Drops heater) events := by
  intro heater events r
  obtain ⟨-, -, ⟨-, hdisjoint, -⟩, hpeers⟩ := queries_consistent events
  have hswitch : r.peers switch = [lamp] := by decide +kernel
  have hheater : heater ≠ lamp := by decide +kernel
  obtain ⟨-, hboth⟩ := hpeers switch
  refine ⟨hdisjoint _ _ (by decide), hswitch, (hboth lamp).2.mp ?_, fun hsince => hheater ?_⟩
  · exact hswitch ▸ List.mem_cons_self
  · exact List.mem_singleton.mp (hswitch ▸ (hboth heater).2.mpr hsince)

end Registry

end DeviceClient
