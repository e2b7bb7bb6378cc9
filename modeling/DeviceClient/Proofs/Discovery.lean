import DeviceClient.Discovery

namespace DeviceClient

/-- Letting go of a resource. -/
def Resource.release (r : Resource) : DiscoveryAction := .release r.endpoints

namespace Search

theorem take_of_not_hasType {s : Search} {r : Resource} (hr : r.hasType s.type = false) :
    s.take r = (s, r.release) := by
  simp [take, hr, Resource.release]

theorem take_of_hasType {s : Search} {r : Resource} (hs : s.found = none)
    (hr : r.hasType s.type = true) : s.take r = ({ s with found := some r }, .read r .low) := by
  simp [take, isOver, hs, hr]

/-- A search that is under way goes on when no resource has the type. -/
theorem takeAll_of_forall_not {s : Search} (hs : s.found = none) {rs : List Resource}
    (hrs : ∀ r ∈ rs, r.hasType s.type = false) :
    s.takeAll rs = (s, rs.map Resource.release, .proceed) := by
  induction rs with
  | nil => rfl
  | cons r rs ih =>
    have hr := hrs r List.mem_cons_self
    have htail := ih fun r' h => hrs r' (List.mem_cons_of_mem r h)
    simp [takeAll, take_of_not_hasType hr, isOver, hs, htail]

/-- A search that is under way is over at the first resource that has the type. -/
theorem takeAll_append_cons {s : Search} (hs : s.found = none) {before after : List Resource}
    {r : Resource} (hbefore : ∀ r ∈ before, r.hasType s.type = false)
    (hr : r.hasType s.type = true) :
    s.takeAll (before ++ r :: after) =
      ({ s with found := some r }, before.map Resource.release ++ [.read r .low], .stop) := by
  induction before with
  | nil => simp [takeAll, take_of_hasType hs hr, isOver]
  | cons r' before ih =>
    have hr' := hbefore r' List.mem_cons_self
    have htail := ih fun r' h => hbefore r' (List.mem_cons_of_mem _ h)
    simp [takeAll, take_of_not_hasType hr', isOver, hs, htail]

/-- Either no resource has the type, or there is a first one that has it. -/
theorem exists_first (s : Search) (rs : List Resource) :
    (∀ r ∈ rs, r.hasType s.type = false) ∨
      ∃ before r after, rs = before ++ r :: after ∧ r.hasType s.type = true ∧
        ∀ r ∈ before, r.hasType s.type = false := by
  induction rs with
  | nil => exact .inl (by simp)
  | cons r rs ih =>
    by_cases hr : r.hasType s.type = true
    · exact .inr ⟨[], r, rs, rfl, hr, by simp⟩
    · rcases ih with hnone | ⟨before, r', after, rfl, hr', hbefore⟩
      · exact .inl (by simpa [hr] using hnone)
      · exact .inr ⟨r :: before, r', after, rfl, hr', by simpa [hr] using hbefore⟩

end Search

end DeviceClient
