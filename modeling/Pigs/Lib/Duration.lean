import Mathlib.Tactic

/-! A span of time kept as whole seconds and the nanoseconds of the last one. -/

namespace Pigs.Lib

structure Duration where
  secs : Nat
  nanos : Nat
  small : nanos < 1000000000
  deriving DecidableEq

namespace Duration

def asNanos (d : Duration) : Nat := d.secs * 1000000000 + d.nanos

def asMillis (d : Duration) : Nat := d.secs * 1000 + d.nanos / 1000000

theorem rest_small (span : Nat) : span % 1000000000 < 1000000000 := Nat.mod_lt _ (by decide)

def ofNanos (span : Nat) : Duration :=
  ⟨span / 1000000000, span % 1000000000, rest_small span⟩

@[simp] theorem ofNanos_asNanos (span : Nat) : (ofNanos span).asNanos = span := by
  simp only [ofNanos, asNanos]
  omega

theorem asMillis_eq (d : Duration) : d.asMillis = d.asNanos / 1000000 := by
  have small := d.small
  simp only [asMillis, asNanos]
  omega

theorem asMillis_mono (first second : Duration) (below : first.asNanos ≤ second.asNanos) :
    first.asMillis ≤ second.asMillis := by
  rw [asMillis_eq, asMillis_eq]
  exact Nat.div_le_div_right below

/-- The seconds left over by the division are shared out as nanoseconds. -/
theorem shared_rest (secs nanos rhs : Nat) (positive : 0 < rhs) :
    nanos / rhs + (secs % rhs * 1000000000 + nanos % rhs) / rhs =
      (secs % rhs * 1000000000 + nanos) / rhs := by
  have whole : secs % rhs * 1000000000 + nanos =
      secs % rhs * 1000000000 + nanos % rhs + rhs * (nanos / rhs) := by
    have split := Nat.mod_add_div nanos rhs
    omega
  rw [whole, Nat.add_mul_div_left _ _ positive, Nat.add_comm]

theorem shared_rest_small (secs nanos rhs : Nat) (positive : 0 < rhs) (small : nanos < 1000000000) :
    nanos / rhs + (secs % rhs * 1000000000 + nanos % rhs) / rhs < 1000000000 := by
  rw [shared_rest secs nanos rhs positive, Nat.div_lt_iff_lt_mul positive]
  have left : secs % rhs + 1 ≤ rhs := Nat.mod_lt secs positive
  calc secs % rhs * 1000000000 + nanos < (secs % rhs + 1) * 1000000000 := by omega
    _ ≤ rhs * 1000000000 := Nat.mul_le_mul_right _ left
    _ = 1000000000 * rhs := Nat.mul_comm ..

def checkedDiv (d : Duration) (rhs : Nat) : Option Duration :=
  if positive : 0 < rhs then
    some ⟨d.secs / rhs, d.nanos / rhs + (d.secs % rhs * 1000000000 + d.nanos % rhs) / rhs,
      shared_rest_small d.secs d.nanos rhs positive d.small⟩
  else
    none

/-- The division is the exact one, rounded down. -/
theorem checkedDiv_asNanos (d : Duration) (rhs : Nat) (positive : 0 < rhs) :
    ∃ share, d.checkedDiv rhs = some share ∧ share.asNanos = d.asNanos / rhs := by
  refine ⟨_, dif_pos positive, ?_⟩
  simp only [asNanos]
  rw [shared_rest d.secs d.nanos rhs positive]
  have whole : d.secs * 1000000000 + d.nanos =
      d.secs % rhs * 1000000000 + d.nanos + rhs * (d.secs / rhs * 1000000000) := by
    calc d.secs * 1000000000 + d.nanos
        = (d.secs % rhs + rhs * (d.secs / rhs)) * 1000000000 + d.nanos := by
          rw [Nat.mod_add_div]
      _ = d.secs % rhs * 1000000000 + d.nanos + rhs * (d.secs / rhs * 1000000000) := by ring
  rw [whole, Nat.add_mul_div_left _ _ positive, Nat.add_comm]

end Duration

/-- A duration whose seconds are a 64-bit word. -/
structure StdDuration extends Duration where
  fits : secs < 18446744073709551616

theorem StdDuration.asNanos_lt (d : StdDuration) : d.asNanos < 18446744073709551616000000000 := by
  have fits := d.fits
  have small := d.small
  simp only [Duration.asNanos]
  omega

end Pigs.Lib
