import DeviceClient.Proofs.Provisioning.Run

namespace DeviceClient

namespace Registry

open OnboardingEvent

/-- Whoever shares credentials does so with another device, and both are owned. -/
def PeersOwned (r : Registry) : Prop :=
  ∀ a b, b ∈ r.peers a → a ≠ b ∧ r.isOwned a = true ∧ r.isOwned b = true

variable {r : Registry} {event : OnboardingEvent} {a b : DeviceId}

theorem peersOwned_empty : empty.PeersOwned := by
  intro a b hb
  simp at hb

/-- Credentials say nothing about states. -/
theorem isOwned_apply_of_joins (h : event.Joins a b) (d : DeviceId) :
    (r.apply event).1.isOwned d = r.isOwned d := by
  cases event with
  | credentialsProvisioned first second status =>
    have hfind : (r.apply (.credentialsProvisioned first second status)).1.find? d = r.find? d := by
      rw [find?_apply]
      exact ite_self _
    simp only [isOwned, state?, hfind]
  | _ => exact h.elim

/-- Peers stay owned when credentials are given to two owned devices only: a device that is lost
drops its credentials. -/
theorem PeersOwned.apply (h : r.PeersOwned)
    (hjoins : ∀ a b, event.Joins a b → a ≠ b ∧ r.isOwned a = true ∧ r.isOwned b = true) :
    (r.apply event).1.PeersOwned := by
  intro a b hb
  rcases mem_peers_apply.mp hb with hnew | ⟨hold, ha, hb⟩
  · obtain ⟨hne, howned⟩ := hjoins a b hnew
    rw [isOwned_apply_of_joins hnew, isOwned_apply_of_joins hnew]
    exact ⟨hne, howned⟩
  · obtain ⟨hne, howna, hownb⟩ := h a b hold
    exact ⟨hne, isOwned_apply howna ha, isOwned_apply hownb hb⟩

end Registry

namespace Provisioning

open Registry OnboardingEvent

variable {moves : List Move}

/-- Credentials are given to two devices, because they have been asked for two. -/
theorem ne_of_joins (h : Answering moves) {r : Registry} {event : OnboardingEvent}
    (hmeets : Meets moves r event) {a b : DeviceId} (hjoins : event.Joins a b) : a ≠ b := by
  obtain ⟨before, move, hbefore, hevent, -⟩ := hmeets
  have hadmits := h before move hbefore
  cases move with
  | asked command => cases hevent
  | advertised device owned endpoints => cases owned <;> cases hevent <;> cases hjoins
  | answered call status =>
    obtain ⟨earlier, command, between, -, haccepted⟩ := exists_asked_of_awaited hadmits
    have hallows := allows_of_callFor haccepted
    cases call with
    | provisionCredentials first second =>
      cases hevent
      obtain ⟨hne, -⟩ := hallows
      rcases hjoins.2 with ⟨rfl, rfl⟩ | ⟨rfl, rfl⟩
      · exact hne
      · exact hne.symm
    | takeOwnership device => cases hevent; cases hjoins
    | provisionAccess device entry => cases hevent; cases hjoins
    | reset device => cases hevent; cases hjoins
    | _ => cases hevent

/-- Peers are two devices at every moment. They are owned at every moment exactly when credentials
are given to owned devices only. A device that gets them although it is not owned has dropped its
credentials between the acceptance of the operation and the outcome. -/
theorem peers_owned_iff (h : Answering moves) :
    (∀ before, before <+: moves → ∀ a b, b ∈ (run before).registry.peers a → a ≠ b) ∧
    ((∀ before, before <+: moves → (run before).registry.PeersOwned) ↔
      ∀ r event, Meets moves r event → ∀ a b, event.Joins a b →
        r.isOwned a = true ∧ r.isOwned b = true) ∧
    ∀ before first second status,
      before ++ [.answered (.provisionCredentials first second) status] <+: moves →
        ∀ d, d = first ∨ d = second → (run before).registry.isOwned d = false →
          Overtaken before (.provisionCredentials first second) (·.Drops d) := by
  refine ⟨?_, ⟨?_, ?_⟩, ?_⟩
  · refine registry_induction (P := fun r => ∀ a b, b ∈ r.peers a → a ≠ b) (by simp)
      fun r event hmeets hne a b hb => ?_
    rcases mem_peers_apply.mp hb with hnew | ⟨hold, -⟩
    · exact ne_of_joins h hmeets hnew
    · exact hne a b hold
  · rintro howned r event ⟨before, move, hbefore, hevent, rfl⟩ a b hjoins
    have hafter := howned (before ++ [move]) hbefore
    rw [run_concat, registry_take hevent] at hafter
    have hboth := (hafter a b (mem_peers_apply.mpr (.inl hjoins))).2
    rwa [isOwned_apply_of_joins hjoins, isOwned_apply_of_joins hjoins] at hboth
  · intro hgiven
    refine registry_induction peersOwned_empty fun r event hmeets howned => ?_
    exact howned.apply fun a b hjoins =>
      ⟨ne_of_joins h hmeets hjoins, hgiven r event hmeets a b hjoins⟩
  · intro before first second status hbefore d hd hlost
    refine overtaken_of_awaited (P := fun r => r.isOwned d = false) ?_ (h before _ hbefore) ?_ hlost
    · intro r event hbefore hafter
      by_contra hdrops
      rw [Bool.not_eq_false] at hbefore
      rw [isOwned_apply hbefore hdrops] at hafter
      cases hafter
    · rintro r ⟨-, hfirst, hsecond⟩
      rw [Bool.not_eq_false]
      rcases hd with rfl | rfl
      · exact hfirst
      · exact hsecond

/-- The lamp loses its owner while its credentials with the switch are on their way. -/
def lostLamp : List Move :=
  [.advertised lamp true [], .advertised switch true [],
    .asked (.provisionCredentials lamp switch), .advertised lamp false [],
    .answered (.provisionCredentials lamp switch) 0]

theorem peers_owned_iff_lostLamp :
    Answering lostLamp ∧
      Overtaken (lostLamp.take 4) (.provisionCredentials lamp switch) (·.Drops lamp) := by
  have h : Answering lostLamp := by decide +kernel
  have hlost : (run (lostLamp.take 4)).registry.isOwned lamp = false := by decide +kernel
  exact ⟨h, (peers_owned_iff h).2.2 (lostLamp.take 4) lamp switch 0 (List.prefix_refl _) lamp
    (.inl rfl) hlost⟩

/-- The lamp has a peer in the end, and no owner. -/
theorem not_peersOwned_lostLamp :
    Answering lostLamp ∧ ¬(run lostLamp).registry.PeersOwned := by
  have hpeer : switch ∈ (run lostLamp).registry.peers lamp := by decide +kernel
  have hlost : (run lostLamp).registry.isOwned lamp = false := by decide +kernel
  refine ⟨by decide +kernel, fun howned => ?_⟩
  obtain ⟨-, hlamp, -⟩ := howned lamp switch hpeer
  rw [hlost] at hlamp
  cases hlamp

end Provisioning

end DeviceClient
