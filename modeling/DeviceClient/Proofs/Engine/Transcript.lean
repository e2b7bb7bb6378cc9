import DeviceClient.Proofs.Engine.Segments

namespace DeviceClient

namespace Effect

/-- Whether the effect reports that a resource has been discovered. -/
def isDiscovery : Effect → Bool
  | reported (.resourceDiscovered _) => true
  | _ => false

/-- Whether the effect is a part of the end of a chain. -/
def isFarewell : Effect → Bool
  | sent request _ => request.observe = some .deregister
  | reported (.observationStopped _) => true
  | _ => false

/-- Whether the effect belongs to the chain of the number, when `before` is the number of the latest
chain before the effects of a stimulus and `after` its number after them. -/
def belongs (number before after : Nat) (effect : Effect) : Bool :=
  effect.isOfChain && (if effect.isFarewell then before else after) == number

theorem isDiscovery_of_quiet {effect : Effect} (h : effect.isOfChain = false) :
    effect.isDiscovery = false := by
  unfold isDiscovery
  split
  · cases h
  · rfl

variable {number before after : Nat} {effects : List Effect}

theorem filter_belongs {owner : Nat}
    (h : ∀ effect ∈ effects, effect.isOfChain = true ∧
      (if effect.isFarewell then before else after) = owner) :
    effects.filter (belongs number before after) = if owner = number then effects else [] := by
  split_ifs with hnumber
  · rw [List.filter_eq_self]
    intro effect heffect
    simp [belongs, h effect heffect, hnumber]
  · rw [List.filter_eq_nil_iff]
    intro effect heffect
    simp [belongs, h effect heffect, hnumber]

theorem filter_belongs_of_quiet (h : ∀ effect ∈ effects, effect.isOfChain = false) :
    effects.filter (belongs number before after) = [] := by
  rw [List.filter_eq_nil_iff]
  intro effect heffect
  simp [belongs, h effect heffect]

end Effect

namespace Engine

/-- The number of the latest chain. -/
def discoveries (e : Engine) : Nat := e.log.countP Effect.isDiscovery

/-- What belongs to a chain of the effects between two states. -/
def share (number : Nat) (e e' : Engine) : List Effect :=
  (e'.since e).filter (Effect.belongs number e.discoveries e'.discoveries)

/-- A stimulus and what belongs to one chain of its effects. -/
abbrev Turn := Stimulus × List Effect

/-- The turn of a chain, unless nothing happens for it. -/
def turn (x : Stimulus) (effects : List Effect) : List Turn :=
  if effects.isEmpty then [] else [(x, effects)]

def transcriptFrom (number : Nat) : Engine → List Step → List Turn
  | _, [] => []
  | e, step :: steps =>
    turn step.2 (share number e (e.handle step.1 step.2)) ++
      transcriptFrom number (e.handle step.1 step.2) steps

/-- The turns of a chain in a run. -/
def transcript (config : Config) (steps : List Step) (number : Nat) : List Turn :=
  transcriptFrom number (start config) steps

theorem transcriptFrom_concat (number : Nat) (e : Engine) (steps : List Step) (step : Step) :
    transcriptFrom number e (steps ++ [step]) =
      transcriptFrom number e steps ++
        turn step.2 (share number (steps.foldl (fun e step => e.handle step.1 step.2) e)
          ((steps.foldl (fun e step => e.handle step.1 step.2) e).handle step.1 step.2)) := by
  induction steps generalizing e with
  | nil => simp [transcriptFrom]
  | cons first steps ih => simp [transcriptFrom, ih]

theorem transcript_concat (config : Config) (steps : List Step) (step : Step) (number : Nat) :
    transcript config (steps ++ [step]) number =
      transcript config steps number ++
        turn step.2 (share number (run config steps)
          ((run config steps).handle step.1 step.2)) :=
  transcriptFrom_concat number (start config) steps step

@[simp] theorem turn_nil (x : Stimulus) : turn x [] = [] := rfl

theorem turn_of_ne_nil (x : Stimulus) {effects : List Effect} (h : effects ≠ []) :
    turn x effects = [(x, effects)] := by
  simp [turn, h]

theorem turn_ite (x : Stimulus) (p : Prop) [Decidable p] {effects : List Effect}
    (h : effects ≠ []) :
    turn x (if p then effects else []) = if p then [(x, effects)] else [] := by
  split_ifs
  · exact turn_of_ne_nil x h
  · rfl

theorem discoveries_of_log {e e' : Engine} {effects : List Effect}
    (hlog : e'.log = e.log ++ effects) :
    e'.discoveries = e.discoveries + effects.countP Effect.isDiscovery := by
  rw [discoveries, hlog, List.countP_append]
  rfl

theorem discoveries_of_quiet {e e' : Engine} {effects : List Effect}
    (hlog : e'.log = e.log ++ effects) (hnone : ∀ effect ∈ effects, effect.isDiscovery = false) :
    e'.discoveries = e.discoveries := by
  rw [discoveries_of_log hlog, List.countP_eq_zero.mpr, Nat.add_zero]
  intro effect heffect
  simp [hnone effect heffect]

theorem share_of_quiet {e e' : Engine} {effects : List Effect} (hlog : e'.log = e.log ++ effects)
    (hquiet : ∀ effect ∈ effects, effect.isOfChain = false) (number : Nat) :
    share number e e' = [] := by
  rw [share, since_eq_of_log hlog]
  exact Effect.filter_belongs_of_quiet hquiet

/-- As long as no resource is discovered, everything belongs to the latest chain. -/
theorem share_of_latest {e e' : Engine} {effects : List Effect} (hlog : e'.log = e.log ++ effects)
    (hchain : ∀ effect ∈ effects, effect.isOfChain = true ∧ effect.isDiscovery = false)
    (number : Nat) : share number e e' = if e.discoveries = number then effects else [] := by
  have hsame := discoveries_of_quiet hlog fun effect heffect => (hchain effect heffect).2
  rw [share, since_eq_of_log hlog, hsame]
  exact Effect.filter_belongs fun effect heffect => ⟨(hchain effect heffect).1, ite_self _⟩

theorem turn_share_of_latest {e e' : Engine} {effects : List Effect}
    (hlog : e'.log = e.log ++ effects)
    (hchain : ∀ effect ∈ effects, effect.isOfChain = true ∧ effect.isDiscovery = false)
    (hne : effects ≠ []) (x : Stimulus) (number : Nat) :
    turn x (share number e e') = if e.discoveries = number then [(x, effects)] else [] := by
  rw [share_of_latest hlog hchain, turn_ite x _ hne]

section

variable {e e' : Engine} {quiet first last : List Effect} {r : Resource}
  (hlog : e'.log = e.log ++ (quiet ++ first ++ (last ++ [.reported (.resourceDiscovered r)])))
  (hquiet : ∀ effect ∈ quiet, effect.isOfChain = false)
  (hfirst : ∀ effect ∈ first,
    effect.isOfChain = true ∧ effect.isFarewell = false ∧ effect.isDiscovery = false)
  (hlast : ∀ effect ∈ last,
    effect.isOfChain = true ∧ effect.isFarewell = true ∧ effect.isDiscovery = false)

include hlog hquiet hfirst hlast

theorem discoveries_of_found : e'.discoveries = e.discoveries + 1 := by
  have hnone (effects : List Effect) (h : ∀ effect ∈ effects, effect.isDiscovery = false) :
      effects.countP Effect.isDiscovery = 0 := by
    rw [List.countP_eq_zero]
    intro effect heffect
    simp [h effect heffect]
  rw [discoveries_of_log hlog, List.countP_append, List.countP_append, List.countP_append,
    hnone quiet fun effect heffect => Effect.isDiscovery_of_quiet (hquiet effect heffect),
    hnone first fun effect heffect => (hfirst effect heffect).2.2,
    hnone last fun effect heffect => (hlast effect heffect).2.2]
  rfl

/-- Where a resource is discovered, the end of the chain before belongs to that chain, and the rest to
the chain that begins. -/
theorem share_of_found (number : Nat) :
    share number e e' =
      if e.discoveries = number then last
      else if e.discoveries + 1 = number then first ++ [.reported (.resourceDiscovered r)]
      else [] := by
  have hdiscovered : [Effect.reported (.resourceDiscovered r)].filter
      (Effect.belongs number e.discoveries e'.discoveries) =
        if e'.discoveries = number then [.reported (.resourceDiscovered r)] else [] :=
    Effect.filter_belongs (by simp [Effect.isOfChain, ClientEvent.isOfChain, Effect.isFarewell])
  have hbegin : first.filter (Effect.belongs number e.discoveries e'.discoveries) =
      if e'.discoveries = number then first else [] :=
    Effect.filter_belongs fun effect heffect =>
      ⟨(hfirst effect heffect).1, by simp [(hfirst effect heffect).2.1]⟩
  have hend : last.filter (Effect.belongs number e.discoveries e'.discoveries) =
      if e.discoveries = number then last else [] :=
    Effect.filter_belongs fun effect heffect =>
      ⟨(hlast effect heffect).1, if_pos (hlast effect heffect).2.1⟩
  rw [share, since_eq_of_log hlog, List.filter_append, List.filter_append, List.filter_append,
    Effect.filter_belongs_of_quiet hquiet, hbegin, hend, hdiscovered,
    discoveries_of_found hlog hquiet hfirst hlast]
  by_cases hold : e.discoveries = number
  · simp [hold]
  · by_cases hnew : e.discoveries + 1 = number <;> simp [hold, hnew]

end

theorem ends_of_mem_farewell {c : Chain} {s : Surroundings} {qos : Qos} {reason : StopReason}
    {effect : Effect} (h : effect ∈ c.farewell s qos reason) :
    effect.isOfChain = true ∧ effect.isFarewell = true ∧ effect.isDiscovery = false := by
  obtain ⟨o, endpoint, accepted, rfl⟩ := Chain.exists_of_mem_farewell h
  exact ⟨rfl, rfl, rfl⟩

theorem ends_of_mem_closing {e : Engine} {s : Surroundings} {reason : StopReason} {effect : Effect}
    (h : effect ∈ e.closing s reason) :
    effect.isOfChain = true ∧ effect.isFarewell = true ∧ effect.isDiscovery = false := by
  rcases exists_of_mem_closing h with ⟨o, r, endpoint, accepted, rfl⟩ | rfl <;>
    exact ⟨rfl, rfl, rfl⟩

end Engine

end DeviceClient
