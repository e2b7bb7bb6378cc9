import Mathlib.Algebra.Order.Floor.Div
import DeviceClient.Clock

namespace DeviceClient.Clock

variable {start tick : Nat}

theorem unit_pos (tick : Nat) : 0 < unit tick := Nat.lt_of_lt_of_le Nat.one_pos (Nat.le_max_right _ _)

theorem unit_eq (htick : 1 ≤ tick) : unit tick = tick := Nat.max_eq_left htick

theorem deadline?_eq_some_iff {ticks instant : Nat} :
    deadline? start tick ticks = some instant ↔
      start + tick * ticks = instant ∧ instant < horizon := by
  unfold deadline?
  split_ifs with hlt
  · rw [Option.some.injEq]
    constructor
    · rintro rfl
      exact ⟨rfl, hlt⟩
    · exact And.left
  · constructor
    · nofun
    · rintro ⟨rfl, hbefore⟩
      exact absurd hbefore hlt

/-- A tick that can be named has begun when its time is over, however late it is. -/
theorem le_ticksBegun_iff {ticks elapsed : Nat} (hlast : ticks ≤ lastTick) :
    ticks ≤ ticksBegun tick elapsed ↔ unit tick * ticks ≤ elapsed := by
  rw [ticksBegun, Nat.le_min, Nat.le_div_iff_mul_le (unit_pos tick), Nat.mul_comm]
  exact and_iff_left hlast

theorem ticksCovering_eq (tick elapsed : Nat) :
    ticksCovering tick elapsed = min (elapsed ⌈/⌉ unit tick) lastTick := rfl

/-- Rounding up adds less than a tick. -/
theorem mul_ceilDiv_lt (htick : 0 < tick) (elapsed : Nat) :
    tick * (elapsed ⌈/⌉ tick) < elapsed + tick := by
  have hfloor : tick * ((elapsed + tick - 1) / tick) ≤ elapsed + tick - 1 := Nat.mul_div_le _ _
  rw [Nat.ceilDiv_eq_add_pred_div]
  omega

/-- The deadline that is some ticks after the tick that covers the present time comes after that
many ticks, and before one more is over. -/
theorem deadline?_bounds (htick : 1 ≤ tick) {elapsed delay instant : Nat}
    (hfits : elapsed ⌈/⌉ tick + delay ≤ lastTick)
    (hinstant : deadline? start tick (ticksCovering tick elapsed + delay) = some instant) :
    start + elapsed + delay * tick ≤ instant ∧
      instant < start + elapsed + (delay + 1) * tick := by
  have hcovering : ticksCovering tick elapsed = elapsed ⌈/⌉ tick := by
    rw [ticksCovering_eq, unit_eq htick]
    exact Nat.min_eq_left (by omega)
  obtain ⟨hmul, -⟩ := deadline?_eq_some_iff.mp hinstant
  rw [hcovering, Nat.mul_add, Nat.mul_comm tick delay] at hmul
  have hover : elapsed ≤ tick * (elapsed ⌈/⌉ tick) :=
    (ceilDiv_le_iff_le_mul htick).mp (Nat.le_refl _)
  have hunder := mul_ceilDiv_lt htick elapsed
  rw [Nat.add_mul, Nat.one_mul]
  omega

/-- Ticks have begun exactly from their deadline on. -/
theorem le_ticksBegun_iff_of_deadline (htick : 1 ≤ tick) {ticks instant : Nat}
    (hlast : ticks ≤ lastTick) (hinstant : deadline? start tick ticks = some instant)
    (elapsed : Nat) : ticks ≤ ticksBegun tick elapsed ↔ instant ≤ start + elapsed := by
  obtain ⟨rfl, -⟩ := deadline?_eq_some_iff.mp hinstant
  rw [le_ticksBegun_iff hlast, unit_eq htick, Nat.add_le_add_iff_left]

/-- When the deadline of some ticks has come they have begun, unless a tick has no length: the
deadline of all ticks is the start then, and each of them takes a nanosecond to begin. -/
theorem le_ticksBegun_iff_of_reached {ticks instant elapsed : Nat} (hlast : ticks ≤ lastTick)
    (hinstant : deadline? start tick ticks = some instant) (hreached : instant ≤ start + elapsed) :
    ticks ≤ ticksBegun tick elapsed ↔ 1 ≤ tick ∨ ticks ≤ elapsed := by
  by_cases htick : 1 ≤ tick
  · rw [le_ticksBegun_iff_of_deadline htick hlast hinstant]
    exact iff_of_true hreached (.inl htick)
  · obtain rfl : tick = 0 := by omega
    rw [le_ticksBegun_iff hlast, or_iff_right htick]
    exact iff_of_eq (congrArg (· ≤ elapsed) (Nat.one_mul ticks))

end DeviceClient.Clock
