import DeviceClient.Ordered
import DeviceClient.Power

namespace DeviceClient

/-- The last tick that the time base can name. -/
def lastTick : Nat := 2 ^ 64 - 1

/-- The tick after a tick; there is none after the last one. -/
def nextTick? (tick : Nat) : Option Nat := if tick < lastTick then some (tick + 1) else none

/-- When a timer is fired: at its tick, and in the order of scheduling at the same tick. -/
structure Due where
  expiry : Nat
  handle : Nat
deriving DecidableEq

namespace Due

instance : LT Due where
  lt a b := a.expiry < b.expiry ∨ a.expiry = b.expiry ∧ a.handle < b.handle

theorem lt_iff {a b : Due} :
    a < b ↔ a.expiry < b.expiry ∨ a.expiry = b.expiry ∧ a.handle < b.handle := Iff.rfl

instance : DecidableLT Due := fun _ _ => decidable_of_iff' _ lt_iff

instance : Std.Irrefl (@LT.lt Due _) where
  irrefl a := by
    rw [lt_iff]
    omega

instance : Trans (@LT.lt Due _) (@LT.lt Due _) (@LT.lt Due _) where
  trans {a b c} hab hbc := by
    rw [lt_iff] at hab hbc ⊢
    omega

instance : Std.Trichotomous (@LT.lt Due _) where
  trichotomous a b hab hba := by
    rw [lt_iff] at hab hba
    have hexpiry : a.expiry = b.expiry := by omega
    have hhandle : a.handle = b.handle := by omega
    cases a
    cases b
    simp_all

end Due

structure Timer (α : Type) where
  /-- The number of the timer, in the order of scheduling. -/
  handle : Nat
  /-- The tick at which the timer is due. -/
  expiry : Nat
  action : α

namespace Timer

variable {α : Type}

def due (timer : Timer α) : Due := ⟨timer.expiry, timer.handle⟩

/-- Whether a timer comes before the first one of the next tick. -/
def isDue (timer : Timer α) (now : Nat) : Bool :=
  match nextTick? now with
  | some next => timer.due < ⟨next, 0⟩
  | none => true

theorem isDue_iff {timer : Timer α} (hlast : timer.expiry ≤ lastTick) (now : Nat) :
    timer.isDue now = true ↔ timer.expiry ≤ now := by
  unfold isDue nextTick?
  by_cases hnow : now < lastTick
  · simp only [hnow, if_true, decide_eq_true_eq, Due.lt_iff, due]
    omega
  · simp only [hnow, if_false, true_iff]
    omega

end Timer

/-- Timers are kept twice: under the time at which they are fired, and the tick of each under its
handle. The two agree, and there is no other timer with the same handle. -/
structure Scheduler (α : Type) where
  /-- The timers in the order in which they are fired. -/
  timers : List (Timer α)
  /-- Each handle with the tick at which its timer is due, in the order of scheduling. -/
  expiries : List (Nat × Nat)
  /-- The handle of the next timer. -/
  next : Nat
  timers_ordered : timers.Pairwise fun a b => a.due < b.due
  expiries_ordered : expiries.Pairwise fun a b => a.1 < b.1
  mem_expiries : ∀ entry, entry ∈ expiries ↔ ⟨entry.2, entry.1⟩ ∈ timers.map Timer.due
  handle_lt : ∀ timer ∈ timers, timer.handle < next
  expiry_le : ∀ timer ∈ timers, timer.expiry ≤ lastTick

namespace Scheduler

variable {α : Type}

def empty : Scheduler α where
  timers := []
  expiries := []
  next := 0
  timers_ordered := .nil
  expiries_ordered := .nil
  mem_expiries _ := by simp
  handle_lt := nofun
  expiry_le := nofun

theorem mem_expiries_iff (s : Scheduler α) {handle expiry : Nat} :
    (handle, expiry) ∈ s.expiries ↔ ∃ timer ∈ s.timers, timer.due = ⟨expiry, handle⟩ := by
  rw [s.mem_expiries, List.mem_map]

theorem mem_expiries_of_mem (s : Scheduler α) {timer : Timer α} (h : timer ∈ s.timers) :
    (timer.handle, timer.expiry) ∈ s.expiries :=
  s.mem_expiries_iff.mpr ⟨timer, h, rfl⟩

theorem entry_lt (s : Scheduler α) {entry : Nat × Nat} (h : entry ∈ s.expiries) :
    entry.1 < s.next := by
  obtain ⟨timer, htimer, hdue⟩ := s.mem_expiries_iff.mp h
  have hhandle : timer.handle = entry.1 := congrArg Due.handle hdue
  rw [← hhandle]
  exact s.handle_lt timer htimer

theorem due_ne (s : Scheduler α) {timer : Timer α} (h : timer ∈ s.timers) (expiry : Nat) :
    timer.due ≠ ⟨expiry, s.next⟩ := fun hdue =>
  Nat.ne_of_lt (s.handle_lt timer h) (congrArg Due.handle hdue)

theorem mem_put_timer (s : Scheduler α) {expiry : Nat} {action : α} {timer : Timer α} :
    timer ∈ Ordered.put Timer.due ⟨s.next, expiry, action⟩ s.timers ↔
      timer = ⟨s.next, expiry, action⟩ ∨ timer ∈ s.timers :=
  Ordered.mem_put_of_fresh fun _ h => s.due_ne h expiry

theorem mem_put_entry (s : Scheduler α) (expiry : Nat) (action : α) (entry : Nat × Nat) :
    entry ∈ Ordered.put Prod.fst (s.next, expiry) s.expiries ↔ ⟨entry.2, entry.1⟩ ∈
      (Ordered.put Timer.due ⟨s.next, expiry, action⟩ s.timers).map Timer.due := by
  obtain ⟨handle, tick⟩ := entry
  rw [Ordered.mem_put_of_fresh fun _ h => Nat.ne_of_lt (s.entry_lt h), s.mem_expiries,
    List.mem_map, List.mem_map]
  constructor
  · rintro (heq | ⟨timer, htimer, hdue⟩)
    · cases heq
      exact ⟨_, s.mem_put_timer.mpr (.inl rfl), rfl⟩
    · exact ⟨timer, s.mem_put_timer.mpr (.inr htimer), hdue⟩
  · rintro ⟨timer, htimer, hdue⟩
    rcases s.mem_put_timer.mp htimer with rfl | htimer
    · cases hdue
      exact .inl rfl
    · exact .inr ⟨timer, htimer, hdue⟩

/-- Sets a timer that is due some ticks after the present one, at the last tick at the latest. -/
def schedule (s : Scheduler α) (now delay : Nat) (action : α) : Nat × Scheduler α :=
  let expiry := min (now + delay) lastTick
  let timer : Timer α := ⟨s.next, expiry, action⟩
  (s.next,
    { timers := Ordered.put Timer.due timer s.timers
      expiries := Ordered.put Prod.fst (s.next, expiry) s.expiries
      next := s.next + 1
      timers_ordered := Ordered.pairwise_put timer s.timers_ordered
      expiries_ordered := Ordered.pairwise_put (s.next, expiry) s.expiries_ordered
      mem_expiries := s.mem_put_entry expiry action
      handle_lt := fun t ht => by
        rcases s.mem_put_timer.mp ht with rfl | ht
        · exact Nat.lt_succ_self s.next
        · exact Nat.lt_succ_of_lt (s.handle_lt t ht)
      expiry_le := fun t ht => by
        rcases s.mem_put_timer.mp ht with rfl | ht
        · exact Nat.min_le_right _ _
        · exact s.expiry_le t ht })

def contains (s : Scheduler α) (handle : Nat) : Bool := s.expiries.any (·.1 == handle)

/-- Keeps some of the timers, and of the entries those that belong to them. -/
def keep (s : Scheduler α) (keepsTimer : Timer α → Bool) (keepsEntry : Nat × Nat → Bool)
    (h : ∀ timer ∈ s.timers, keepsEntry (timer.handle, timer.expiry) = keepsTimer timer) :
    Scheduler α where
  timers := s.timers.filter keepsTimer
  expiries := s.expiries.filter keepsEntry
  next := s.next
  timers_ordered := s.timers_ordered.filter keepsTimer
  expiries_ordered := s.expiries_ordered.filter keepsEntry
  mem_expiries := by
    rintro ⟨handle, expiry⟩
    rw [List.mem_filter, s.mem_expiries_iff, List.mem_map]
    constructor
    · rintro ⟨⟨timer, htimer, hdue⟩, hentry⟩
      cases hdue
      have hkept : keepsTimer timer = true := (h timer htimer).symm.trans hentry
      exact ⟨timer, List.mem_filter.mpr ⟨htimer, hkept⟩, rfl⟩
    · rintro ⟨timer, htimer, hdue⟩
      obtain ⟨htimer, hkept⟩ := List.mem_filter.mp htimer
      cases hdue
      exact ⟨⟨timer, htimer, rfl⟩, (h timer htimer).trans hkept⟩
  handle_lt timer htimer := s.handle_lt timer (List.mem_filter.mp htimer).1
  expiry_le timer htimer := s.expiry_le timer (List.mem_filter.mp htimer).1

/-- Two timers have different handles. -/
theorem eq_of_handle_eq (s : Scheduler α) {a b : Timer α} (ha : a ∈ s.timers) (hb : b ∈ s.timers)
    (h : a.handle = b.handle) : a = b := by
  have hentry : (a.handle, a.expiry) = (b.handle, b.expiry) :=
    Ordered.eq_of_key_eq s.expiries_ordered (s.mem_expiries_of_mem ha) (s.mem_expiries_of_mem hb) h
  have hexpiry : a.expiry = b.expiry := congrArg Prod.snd hentry
  have hdue : a.due = b.due := by rw [Timer.due, Timer.due, h, hexpiry]
  exact Ordered.eq_of_key_eq s.timers_ordered ha hb hdue

/-- The tick at which a timer is due that is still to fire. -/
def expiry? (s : Scheduler α) (handle : Nat) : Option Nat :=
  (s.expiries.find? (·.1 == handle)).map Prod.snd

theorem exists_of_expiry? (s : Scheduler α) {handle expiry : Nat}
    (h : s.expiry? handle = some expiry) : ∃ timer ∈ s.timers, timer.due = ⟨expiry, handle⟩ := by
  obtain ⟨entry, hfind, rfl⟩ := Option.map_eq_some_iff.mp h
  have hhandle := List.find?_some hfind
  rw [beq_iff_eq] at hhandle
  rw [← hhandle]
  exact s.mem_expiries_iff.mp (List.mem_of_find?_eq_some hfind)

/-- A timer is found by its handle as it is by the time at which it is fired. -/
theorem due_eq_iff (s : Scheduler α) {handle expiry : Nat} (h : s.expiry? handle = some expiry)
    {timer : Timer α} (htimer : timer ∈ s.timers) :
    timer.due = ⟨expiry, handle⟩ ↔ timer.handle = handle := by
  refine ⟨congrArg Due.handle, fun hhandle => ?_⟩
  obtain ⟨other, hother, hdue⟩ := s.exists_of_expiry? h
  have heq : timer = other := s.eq_of_handle_eq htimer hother
    (hhandle.trans (congrArg Due.handle hdue).symm)
  rw [heq, hdue]

/-- Takes a timer away before it fires, and gives its action back. -/
def cancel (s : Scheduler α) (handle : Nat) : Option α × Scheduler α :=
  match hfound : s.expiry? handle with
  | none => (none, s)
  | some expiry =>
    ((s.timers.find? (·.due == ⟨expiry, handle⟩)).map Timer.action,
      s.keep (·.due != ⟨expiry, handle⟩) (·.1 != handle) fun timer htimer => by
        rw [Bool.eq_iff_iff, bne_iff_ne, bne_iff_ne]
        exact not_congr (s.due_eq_iff hfound htimer).symm)

def nextDeadline (s : Scheduler α) : Option Nat := s.timers.head?.map Timer.expiry

/-- A timer that is not due has another handle than those that are. -/
theorem all_handle_ne (s : Scheduler α) {timer : Timer α} (htimer : timer ∈ s.timers) (now : Nat) :
    (s.timers.filter (·.isDue now)).all (·.handle != timer.handle) = !timer.isDue now := by
  rw [Bool.eq_iff_iff, List.all_eq_true, Bool.not_eq_true']
  constructor
  · intro hother
    rw [← Bool.not_eq_true]
    intro hdue
    exact bne_iff_ne.mp (hother timer (List.mem_filter.mpr ⟨htimer, hdue⟩)) rfl
  · intro hkept other hother
    obtain ⟨hother, hdue⟩ := List.mem_filter.mp hother
    rw [bne_iff_ne]
    intro hhandle
    rw [s.eq_of_handle_eq hother htimer hhandle, hkept] at hdue
    cases hdue

/-- Takes away the timers that are due, the earliest first and in the order of scheduling among
those of one tick. -/
def expired (s : Scheduler α) (now : Nat) : List (Timer α) × Scheduler α :=
  let due := s.timers.filter (·.isDue now)
  (due, s.keep (!·.isDue now) (fun entry => due.all (·.handle != entry.1)) fun _ htimer =>
    s.all_handle_ne htimer now)

def clear (s : Scheduler α) : Scheduler α where
  timers := []
  expiries := []
  next := s.next
  timers_ordered := .nil
  expiries_ordered := .nil
  mem_expiries _ := by simp
  handle_lt := nofun
  expiry_le := nofun

def size (s : Scheduler α) : Nat := s.timers.length

def isEmpty (s : Scheduler α) : Bool := s.timers.isEmpty

end Scheduler

end DeviceClient
