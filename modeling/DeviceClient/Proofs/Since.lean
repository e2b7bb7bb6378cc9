import Mathlib.Data.List.Basic

namespace DeviceClient

variable {α : Type} {Begins Ends : α → Prop}

/-- Something has happened that begins it, and nothing since that ends it. -/
def Since (Begins Ends : α → Prop) (history : List α) : Prop :=
  ∃ before first after, history = before ++ first :: after ∧ Begins first ∧
    ∀ event ∈ after, ¬Ends event

theorem not_since_nil : ¬Since Begins Ends [] := by
  rintro ⟨before, first, after, hhistory, -⟩
  simp at hhistory

theorem since_concat {history : List α} {event : α} :
    Since Begins Ends (history ++ [event]) ↔
      Begins event ∨ Since Begins Ends history ∧ ¬Ends event := by
  constructor
  · rintro ⟨before, first, after, hhistory, hfirst, hafter⟩
    rcases List.eq_nil_or_concat' after with rfl | ⟨after, last, rfl⟩
    · obtain ⟨-, hlast⟩ := List.append_inj' hhistory rfl
      rw [List.singleton_inj.mp hlast]
      exact .inl hfirst
    · rw [← List.cons_append, ← List.append_assoc] at hhistory
      obtain ⟨rfl, hlast⟩ := List.append_inj' hhistory rfl
      obtain rfl := List.singleton_inj.mp hlast
      rw [List.forall_mem_append, List.forall_mem_singleton] at hafter
      exact .inr ⟨⟨before, first, after, rfl, hfirst, hafter.1⟩, hafter.2⟩
  · rintro (hevent | ⟨⟨before, first, after, rfl, hfirst, hafter⟩, hlast⟩)
    · exact ⟨history, event, [], rfl, hevent, nofun⟩
    · refine ⟨before, first, after ++ [event], ?_, hfirst, ?_⟩
      · rw [List.append_assoc, List.cons_append]
      · rw [List.forall_mem_append, List.forall_mem_singleton]
        exact ⟨hafter, hlast⟩

end DeviceClient
