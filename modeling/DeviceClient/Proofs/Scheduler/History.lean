import Mathlib.Data.List.Induction
import Mathlib.Data.List.Nodup
import Mathlib.Data.Set.Card
import DeviceClient.Proofs.Scheduler

namespace DeviceClient.Scheduler

variable {α : Type}

inductive Call (α : Type) where
  | schedule (now delay : Nat) (action : α)
  | cancel (handle : Nat)
  | expired (now : Nat)
  | clear

/-- A call together with its answer. -/
inductive Exchange (α : Type) where
  | schedule (now delay : Nat) (action : α) (handle : Nat)
  | cancel (handle : Nat) (action : Option α)
  | expired (now : Nat) (due : List (Timer α))
  | clear (count : Nat)

namespace Exchange

def call : Exchange α → Call α
  | schedule now delay action _ => .schedule now delay action
  | cancel handle _ => .cancel handle
  | expired now _ => .expired now
  | clear _ => .clear

/-- The handle that is given out. -/
def handle? : Exchange α → Option Nat
  | schedule _ _ _ handle => some handle
  | _ => none

end Exchange

/-- The handles that have been given out. -/
def handles (history : List (Exchange α)) : List Nat := history.filterMap Exchange.handle?

def perform (s : Scheduler α) : Call α → Exchange α × Scheduler α
  | .schedule now delay action =>
    (.schedule now delay action (s.schedule now delay action).1, (s.schedule now delay action).2)
  | .cancel handle => (.cancel handle (s.cancel handle).1, (s.cancel handle).2)
  | .expired now => (.expired now (s.expired now).1, (s.expired now).2)
  | .clear => (.clear s.size, s.clear)

/-- Makes some calls to a new scheduler: their history, and the scheduler after them. -/
def run (calls : List (Call α)) : List (Exchange α) × Scheduler α :=
  calls.foldl (fun done call =>
    (done.1 ++ [(done.2.perform call).1], (done.2.perform call).2)) ([], empty)

@[simp] theorem run_nil : run ([] : List (Call α)) = ([], empty) := rfl

@[simp] theorem run_concat (calls : List (Call α)) (call : Call α) :
    run (calls ++ [call]) = ((run calls).1 ++ [((run calls).2.perform call).1],
      ((run calls).2.perform call).2) := by
  simp [run]

theorem call_perform (s : Scheduler α) (call : Call α) : (s.perform call).1.call = call := by
  cases call <;> rfl

/-- A plain map of timers: the tick at which each timer is due, and its action. -/
abbrev Held (α : Type) := Nat → Option (Nat × α)

namespace Held

def after (held : Held α) : Exchange α → Held α
  | .schedule now delay action handle =>
    Function.update held handle (some (min (now + delay) lastTick, action))
  | .cancel handle _ => Function.update held handle none
  | .expired now _ => fun handle => (held handle).filter fun timer => now < timer.1
  | .clear _ => fun _ => none

/-- What a map holds after a history. -/
def afterAll (history : List (Exchange α)) : Held α := history.foldl after fun _ => none

/-- How many timers the map holds. -/
noncomputable def count (held : Held α) : ℕ∞ := {handle | held handle ≠ none}.encard

/-- The answers that a map gives after a history. A new handle is one that has not been given out;
handles count the timers, so fewer than `2 ^ 64` timers have handles below `2 ^ 64`. -/
def Answers (history : List (Exchange α)) : Exchange α → Prop
  | .schedule _ _ _ handle => handle ∉ handles history ∧ handle = (handles history).length
  | .cancel handle action => action = (afterAll history handle).map Prod.snd
  | .expired now due => due.Pairwise (fun a b => a.due < b.due) ∧ ∀ timer, timer ∈ due ↔
      afterAll history timer.handle = some (timer.expiry, timer.action) ∧ timer.expiry ≤ now
  | .clear count => (afterAll history).count = count

end Held

@[simp] theorem afterAll_concat (history : List (Exchange α)) (exchange : Exchange α) :
    Held.afterAll (history ++ [exchange]) = (Held.afterAll history).after exchange := by
  simp [Held.afterAll]

@[simp] theorem handles_concat (history : List (Exchange α)) (exchange : Exchange α) :
    handles (history ++ [exchange]) = handles history ++ exchange.handle?.toList := by
  cases hhandle : exchange.handle? <;> simp [handles, hhandle]

/-- The scheduler holds what the map holds after the history, and the handles have been given out
one after the other. -/
structure Tracks (s : Scheduler α) (history : List (Exchange α)) : Prop where
  mem_iff : ∀ timer, timer ∈ s.timers ↔
    Held.afterAll history timer.handle = some (timer.expiry, timer.action)
  handles : handles history = List.range s.next

theorem tracks_empty : (empty : Scheduler α).Tracks [] where
  mem_iff timer := by simp [empty, Held.afterAll]
  handles := rfl

namespace Tracks

variable {s : Scheduler α} {history : List (Exchange α)} (h : s.Tracks history)

include h

theorem exists_timer {handle : Nat} (hheld : Held.afterAll history handle ≠ none) :
    ∃ timer ∈ s.timers, timer.handle = handle := by
  obtain ⟨⟨expiry, action⟩, hheld⟩ := Option.ne_none_iff_exists'.mp hheld
  exact ⟨⟨handle, expiry, action⟩, (h.mem_iff _).mpr hheld, rfl⟩

theorem held_of_mem {timer : Timer α} (htimer : timer ∈ s.timers) :
    Held.afterAll history timer.handle ≠ none := by
  rw [(h.mem_iff timer).mp htimer]
  nofun

theorem held_iff {handle : Nat} :
    Held.afterAll history handle ≠ none ↔ handle ∈ s.timers.map Timer.handle := by
  rw [List.mem_map]
  constructor
  · exact h.exists_timer
  · rintro ⟨timer, htimer, rfl⟩
    exact h.held_of_mem htimer

theorem count_eq : (Held.afterAll history).count = s.size := by
  have hset : {handle | Held.afterAll history handle ≠ none} =
      ((s.timers.map Timer.handle).toFinset : Set Nat) := by
    ext handle
    rw [Set.mem_ofPred_eq, List.coe_toFinset, Set.mem_ofPred_eq, h.held_iff]
  have hnodup : (s.timers.map Timer.handle).Nodup :=
    (Ordered.nodup s.timers_ordered).map_on fun a ha b hb => s.eq_of_handle_eq ha hb
  rw [Held.count, hset, Set.encard_coe_eq_coe_finsetCard, List.toFinset_card_of_nodup hnodup,
    List.length_map, size]

theorem answers (call : Call α) : Held.Answers history (s.perform call).1 := by
  cases call with
  | schedule now delay action =>
    change s.next ∉ Scheduler.handles history ∧ s.next = (Scheduler.handles history).length
    rw [h.handles, List.length_range, List.mem_range]
    exact ⟨Nat.lt_irrefl s.next, rfl⟩
  | cancel handle =>
    change (s.cancel handle).1 = (Held.afterAll history handle).map Prod.snd
    ext action
    rw [action_cancel_eq_some_iff, Option.map_eq_some_iff]
    constructor
    · rintro ⟨timer, htimer, rfl, rfl⟩
      exact ⟨_, (h.mem_iff timer).mp htimer, rfl⟩
    · rintro ⟨⟨expiry, action⟩, hheld, rfl⟩
      exact ⟨⟨handle, expiry, action⟩, (h.mem_iff _).mpr hheld, rfl, rfl⟩
  | expired now =>
    refine ⟨s.timers_ordered.filter _, fun timer => ?_⟩
    rw [fst_expired, List.mem_filter, decide_eq_true_eq, h.mem_iff]
  | clear => exact h.count_eq

theorem step (call : Call α) : (s.perform call).2.Tracks (history ++ [(s.perform call).1]) := by
  cases call with
  | schedule now delay action =>
    refine ⟨fun timer => ?_, ?_⟩
    · rw [perform, afterAll_concat, Held.after, mem_schedule]
      by_cases hnew : timer.handle = s.next
      · have hold : timer ∉ s.timers := fun htimer => Nat.ne_of_lt (s.handle_lt timer htimer) hnew
        obtain ⟨handle, expiry, action'⟩ := timer
        cases hnew
        rw [schedule, Function.update_self, or_iff_left hold]
        simp [eq_comm]
      · have hne : timer ≠ ⟨s.next, min (now + delay) lastTick, action⟩ :=
          fun heq => hnew (congrArg Timer.handle heq)
        rw [schedule, Function.update_of_ne hnew, or_iff_right hne, h.mem_iff]
    · rw [handles_concat, h.handles, perform, schedule, List.range_succ]
      rfl
  | cancel handle =>
    refine ⟨fun timer => ?_, ?_⟩
    · rw [perform, afterAll_concat, Held.after, timers_cancel, List.mem_filter, bne_iff_ne, h.mem_iff]
      by_cases hother : timer.handle = handle
      · simp [hother]
      · simp [hother]
    · rw [handles_concat, h.handles, perform, next_cancel]
      exact List.append_nil _
  | expired now =>
    refine ⟨fun timer => ?_, ?_⟩
    · rw [perform, afterAll_concat, Held.after, timers_expired, List.mem_filter, h.mem_iff,
        Option.filter_eq_some_iff]
    · rw [handles_concat, h.handles]
      exact List.append_nil _
  | clear =>
    refine ⟨fun timer => ?_, ?_⟩
    · simp [perform, clear, Held.after]
    · rw [handles_concat, h.handles]
      exact List.append_nil _

end Tracks

/-- Whatever is asked of the scheduler is what the map says. -/
structure Shows (s : Scheduler α) (held : Held α) : Prop where
  contains : ∀ handle, s.contains handle = (held handle).isSome
  size : held.count = s.size
  isEmpty : s.isEmpty = true ↔ ∀ handle, held handle = none
  nextDeadline : ∀ tick, s.nextDeadline = some tick ↔
    IsLeast {expiry | ∃ handle action, held handle = some (expiry, action)} tick

theorem Tracks.shows {s : Scheduler α} {history : List (Exchange α)} (h : s.Tracks history) :
    s.Shows (Held.afterAll history) where
  contains handle := by
    rw [Bool.eq_iff_iff, contains_iff, Option.isSome_iff_ne_none, h.held_iff]
  size := h.count_eq
  isEmpty := by
    rw [isEmpty, List.isEmpty_iff, List.eq_nil_iff_forall_not_mem]
    constructor
    · intro hnone handle
      by_contra hheld
      obtain ⟨timer, htimer, -⟩ := h.exists_timer hheld
      exact hnone timer htimer
    · intro hnone timer htimer
      exact h.held_of_mem htimer (hnone timer.handle)
  nextDeadline tick := by
    have hexpiry (expiry : Nat) : (∃ timer ∈ s.timers, timer.expiry = expiry) ↔
        ∃ handle action, Held.afterAll history handle = some (expiry, action) := by
      constructor
      · rintro ⟨timer, htimer, rfl⟩
        exact ⟨timer.handle, timer.action, (h.mem_iff timer).mp htimer⟩
      · rintro ⟨handle, action, hheld⟩
        exact ⟨⟨handle, expiry, action⟩, (h.mem_iff _).mpr hheld, rfl⟩
    rw [nextDeadline_eq_some_iff, hexpiry]
    refine and_congr_right fun _ => ?_
    constructor
    · rintro hleast expiry hheld
      obtain ⟨timer, htimer, rfl⟩ := (hexpiry expiry).mpr hheld
      exact hleast timer htimer
    · intro hleast timer htimer
      exact hleast ((hexpiry timer.expiry).mp ⟨timer, htimer, rfl⟩)

inductive End where
  | fired | cancelled | cleared

/-- The ends that a timer comes to by an exchange with the map before it. -/
def Exchange.ends (handle : Nat) (held : Held α) : Exchange α → List End
  | .schedule _ _ _ _ => []
  | .cancel other action => if other = handle ∧ action.isSome = true then [.cancelled] else []
  | .expired _ due => (due.filter (·.handle == handle)).map fun _ => .fired
  | .clear _ => if (held handle).isSome then [.cleared] else []

def endsFrom (handle : Nat) (held : Held α) : List (Exchange α) → List End
  | [] => []
  | exchange :: history =>
    exchange.ends handle held ++ endsFrom handle (held.after exchange) history

/-- The ends that a timer comes to in a history. -/
def ends (handle : Nat) (history : List (Exchange α)) : List End :=
  endsFrom handle (fun _ => none) history

theorem ends_concat (handle : Nat) (history : List (Exchange α)) (exchange : Exchange α) :
    ends handle (history ++ [exchange]) =
      ends handle history ++ exchange.ends handle (Held.afterAll history) := by
  have hfrom (held : Held α) : endsFrom handle held (history ++ [exchange]) =
      endsFrom handle held history ++ exchange.ends handle (history.foldl Held.after held) := by
    induction history generalizing held with
    | nil => simp [endsFrom]
    | cons first history ih => simp [endsFrom, ih]
  exact hfrom fun _ => none

/-- A timer is fired once, if it is due. -/
theorem length_filter_due {history : List (Exchange α)} {now : Nat} {due : List (Timer α)}
    (h : Held.Answers history (.expired now due)) (handle : Nat) :
    (due.filter (·.handle == handle)).length =
      ((Held.afterAll history handle).filter fun timer => timer.1 ≤ now).toList.length := by
  obtain ⟨hordered, hmem⟩ := h
  have hnodup : due.Nodup := Ordered.nodup hordered
  let timer? := ((Held.afterAll history handle).filter fun timer => timer.1 ≤ now).map
    fun timer => (⟨handle, timer.1, timer.2⟩ : Timer α)
  have hsame : (due.filter (·.handle == handle)).Perm timer?.toList := by
    have hnodup' : timer?.toList.Nodup := by cases timer? <;> simp
    rw [List.perm_ext_iff_of_nodup (hnodup.filter _) hnodup']
    intro timer
    rw [List.mem_filter, hmem, beq_iff_eq, Option.mem_toList, Option.map_eq_some_iff]
    constructor
    · rintro ⟨⟨hheld, hdue⟩, rfl⟩
      exact ⟨_, Option.filter_eq_some_iff.mpr ⟨hheld, decide_eq_true hdue⟩, rfl⟩
    · rintro ⟨⟨expiry, action⟩, hheld, rfl⟩
      obtain ⟨hheld, hdue⟩ := Option.filter_eq_some_iff.mp hheld
      exact ⟨⟨hheld, of_decide_eq_true hdue⟩, rfl⟩
  rw [hsame.length_eq, Option.length_toList, Option.length_toList, Option.isSome_map]

/-- By an exchange a timer comes to an end, or is held as before; a new one is held. -/
theorem length_ends_exchange {history : List (Exchange α)} {exchange : Exchange α}
    (h : Held.Answers history exchange) (handle : Nat)
    (hnew : handle ∉ handles history → Held.afterAll history handle = none) :
    (exchange.ends handle (Held.afterAll history)).length +
        ((Held.afterAll history).after exchange handle).toList.length =
      (Held.afterAll history handle).toList.length + exchange.handle?.toList.count handle := by
  cases exchange with
  | schedule now delay action new =>
    by_cases hhandle : handle = new
    · subst hhandle
      simp [Exchange.ends, Exchange.handle?, Held.after, hnew h.1]
    · have hcount : List.count handle [new] = 0 := List.count_eq_zero.mpr (by simpa using hhandle)
      simp [Exchange.ends, Exchange.handle?, Held.after, hhandle, hcount]
  | cancel other action =>
    have haction : action = (Held.afterAll history other).map Prod.snd := h
    by_cases hhandle : handle = other
    · subst hhandle
      cases hheld : Held.afterAll history handle <;>
        simp [Exchange.ends, Exchange.handle?, Held.after, haction, hheld]
    · simp [Exchange.ends, Exchange.handle?, Held.after, hhandle, Ne.symm hhandle]
  | expired now due =>
    have hdue := length_filter_due h handle
    simp only [Exchange.ends, Exchange.handle?, Held.after, List.length_map, hdue, Option.toList_none,
      List.count_nil, Nat.add_zero]
    cases Held.afterAll history handle with
    | none => rfl
    | some timer =>
      by_cases hlate : timer.1 ≤ now
      · simp [Option.filter_some, hlate, Nat.not_lt.mpr hlate]
      · simp [Option.filter_some, hlate, Nat.not_le.mp hlate]
  | clear count =>
    cases hheld : Held.afterAll history handle <;>
      simp [Exchange.ends, Exchange.handle?, Held.after, hheld]

/-- Each handle that has been given out is accounted for: its timer has come to an end, or is held. -/
def Balanced (history : List (Exchange α)) : Prop :=
  ∀ handle, (ends handle history).length + (Held.afterAll history handle).toList.length =
    (handles history).count handle

theorem balanced_nil : Balanced ([] : List (Exchange α)) := fun _ => rfl

namespace Balanced

variable {history : List (Exchange α)} (h : Balanced history)

include h

theorem held_eq_none {handle : Nat} (hnew : handle ∉ handles history) :
    Held.afterAll history handle = none := by
  have hhandle := h handle
  rw [List.count_eq_zero.mpr hnew] at hhandle
  cases hheld : Held.afterAll history handle with
  | none => rfl
  | some timer => simp [hheld] at hhandle

theorem concat {exchange : Exchange α} (hanswers : Held.Answers history exchange) :
    Balanced (history ++ [exchange]) := by
  intro handle
  have hhandle := h handle
  have hexchange := length_ends_exchange hanswers handle h.held_eq_none
  rw [ends_concat, afterAll_concat, handles_concat, List.length_append, List.count_append]
  omega

theorem ended_or_held (hnodup : (handles history).Nodup) {handle : Nat}
    (hhandle : handle ∈ handles history) :
    (ends handle history = [] ∧ Held.afterAll history handle ≠ none) ∨
      (∃ last, ends handle history = [last]) ∧ Held.afterAll history handle = none := by
  have hone := h handle
  rw [List.count_eq_one_of_mem hnodup hhandle] at hone
  cases hheld : Held.afterAll history handle with
  | none =>
    rw [hheld] at hone
    exact .inr ⟨List.length_eq_one_iff.mp hone, rfl⟩
  | some timer =>
    rw [hheld, Option.toList_some, List.length_singleton] at hone
    exact .inl ⟨List.length_eq_zero_iff.mp (by omega), nofun⟩

end Balanced

theorem tracks_run (calls : List (Call α)) :
    (run calls).2.Tracks (run calls).1 ∧ (run calls).1.map Exchange.call = calls ∧
      (∀ before exchange, before ++ [exchange] <+: (run calls).1 → Held.Answers before exchange) ∧
      Balanced (run calls).1 := by
  -- From the end: each call is made to a scheduler that holds what the map holds.
  induction calls using List.reverseRecOn with
  | nil =>
    refine ⟨tracks_empty, rfl, fun before exchange hbefore => ?_, balanced_nil⟩
    simp at hbefore
  | append_singleton calls call ih =>
    obtain ⟨htracks, hcalls, hanswers, hbalanced⟩ := ih
    have hanswer := htracks.answers call
    rw [run_concat]
    refine ⟨htracks.step call, ?_, fun before exchange hbefore => ?_, hbalanced.concat hanswer⟩
    · rw [List.map_append, hcalls, List.map_singleton, call_perform]
    · rcases List.prefix_concat_iff.mp hbefore with heq | hearlier
      · obtain ⟨rfl, hlast⟩ := List.append_inj' heq rfl
        cases hlast
        exact hanswer
      · exact hanswers before exchange hearlier

/-- The scheduler answers each call as a plain map of timers does, and after any calls it holds what
the map holds. Each timer is fired, cancelled or cleared once, or is still held, and none that is
due is left behind. -/
theorem answers_as_map (calls : List (Call α)) :
    (run calls).1.map Exchange.call = calls ∧
    (∀ before exchange, before ++ [exchange] <+: (run calls).1 → Held.Answers before exchange) ∧
    (run calls).2.Shows (Held.afterAll (run calls).1) ∧
    (∀ handle ∈ handles (run calls).1,
      (ends handle (run calls).1 = [] ∧ Held.afterAll (run calls).1 handle ≠ none) ∨
        (∃ last, ends handle (run calls).1 = [last]) ∧
          Held.afterAll (run calls).1 handle = none) ∧
    ∀ now, ∀ timer ∈ ((run calls).2.expired now).2.timers, now < timer.expiry := by
  obtain ⟨htracks, hcalls, hanswers, hbalanced⟩ := tracks_run calls
  refine ⟨hcalls, hanswers, htracks.shows, fun handle hhandle => ?_, fun now timer htimer => ?_⟩
  · have hnodup : (handles (run calls).1).Nodup := by
      rw [htracks.handles]
      exact List.nodup_range
    exact hbalanced.ended_or_held hnodup hhandle
  · rw [timers_expired, List.mem_filter] at htimer
    exact of_decide_eq_true htimer.2

end DeviceClient.Scheduler
