import Pigs.Lib.Rounding
import Pigs.SysMetrics.Sample

/-! `rate` is the exact quotient, rounded to the nearest integer. -/

namespace Pigs.SysMetrics

open Pigs.Lib

/-- The growth of a counter, none when it has gone back. -/
def growth (current previous : UInt64) : Nat := (Saturating.sub current previous).toNat

theorem growth_lt (current previous : UInt64) : growth current previous < 18446744073709551616 :=
  (Saturating.sub current previous).toNat_lt

/-- No product of a growth and no sum with half a duration leaves `u128`. -/
theorem intermediates_exact (current previous : UInt64) (elapsed : StdDuration) :
    saturatingMul128 (growth current previous) 1000000000 = growth current previous * 1000000000 ∧
      saturatingAdd128 (growth current previous * 1000000000) (elapsed.asNanos / 2) =
        growth current previous * 1000000000 + elapsed.asNanos / 2 := by
  have small := growth_lt current previous
  have short := elapsed.asNanos_lt
  simp only [saturatingMul128, saturatingAdd128]
  constructor
  · omega
  · omega

theorem rate_toNat (current previous : UInt64) (elapsed : StdDuration) (positive : 0 < elapsed.asNanos) :
    (rate current previous elapsed).toNat =
      min ((growth current previous * 1000000000 + elapsed.asNanos / 2) / elapsed.asNanos)
        Saturating.LIMIT := by
  obtain ⟨product, sum⟩ := intermediates_exact current previous elapsed
  simp only [growth] at product sum ⊢
  rw [rate]
  simp only [if_neg positive.ne', product, sum]
  exact Saturating.toNat_clamp _

theorem growth_cast (current previous : UInt64) :
    (growth current previous : ℚ) = max ((current.toNat : ℚ) - previous.toNat) 0 := by
  rw [growth, Saturating.toNat_sub]
  rcases Nat.le_total previous.toNat current.toNat with up | down
  · have cast : (previous.toNat : ℚ) ≤ current.toNat := by exact_mod_cast up
    rw [Nat.cast_sub up, max_eq_left (by linarith)]
  · have cast : (current.toNat : ℚ) ≤ previous.toNat := by exact_mod_cast down
    rw [Nat.sub_eq_zero_of_le down, max_eq_right (by linarith), Nat.cast_zero]

theorem rate_nearest (current previous : UInt64) (elapsed : StdDuration) (positive : 0 < elapsed.asNanos) :
    ((rate current previous elapsed).toNat : Int) =
      min 18446744073709551615
        (round (max ((current.toNat : ℚ) - previous.toNat) 0 * 1000000000 / elapsed.asNanos)) := by
  have nearest := add_half_div (growth current previous * 1000000000) elapsed.asNanos positive
  rw [Nat.cast_mul, growth_cast] at nearest
  rw [rate_toNat current previous elapsed positive, Nat.cast_min, nearest, min_comm]
  rfl

theorem rate_zero (current previous : UInt64) (elapsed : StdDuration) (zero : elapsed.asNanos = 0) :
    rate current previous elapsed = 0 := by
  simp only [rate, if_pos zero]

theorem rate_mono (current previous larger smaller : UInt64) (elapsed : StdDuration)
    (grown : growth current previous ≤ growth larger smaller) :
    rate current previous elapsed ≤ rate larger smaller elapsed := by
  rcases Nat.eq_zero_or_pos elapsed.asNanos with zero | positive
  · rw [rate_zero current previous elapsed zero, rate_zero larger smaller elapsed zero]
    exact UInt64.le_refl 0
  · rw [UInt64.le_iff_toNat_le, rate_toNat _ _ _ positive, rate_toNat _ _ _ positive]
    have quotients : (growth current previous * 1000000000 + elapsed.asNanos / 2) / elapsed.asNanos ≤
        (growth larger smaller * 1000000000 + elapsed.asNanos / 2) / elapsed.asNanos :=
      Nat.div_le_div_right (by omega)
    omega

/-- A rate is the nearest integer to the growth per second, and it is monotone. -/
theorem rate_exactly_rounded (current previous : UInt64) (elapsed : StdDuration) :
    (saturatingMul128 (growth current previous) 1000000000 = growth current previous * 1000000000 ∧
      saturatingAdd128 (growth current previous * 1000000000) (elapsed.asNanos / 2) =
        growth current previous * 1000000000 + elapsed.asNanos / 2) ∧
    (0 < elapsed.asNanos →
      ((rate current previous elapsed).toNat : Int) =
        min 18446744073709551615
          (round (max ((current.toNat : ℚ) - previous.toNat) 0 * 1000000000 / elapsed.asNanos))) ∧
    (elapsed.asNanos = 0 → rate current previous elapsed = 0) ∧
    (∀ larger, current ≤ larger → rate current previous elapsed ≤ rate larger previous elapsed) ∧
    ∀ larger, previous ≤ larger → rate current larger elapsed ≤ rate current previous elapsed := by
  refine ⟨intermediates_exact current previous elapsed, rate_nearest current previous elapsed,
    rate_zero current previous elapsed, ?_, ?_⟩
  · intro larger above
    apply rate_mono
    rw [UInt64.le_iff_toNat_le] at above
    simp only [growth, Saturating.toNat_sub]
    omega
  · intro larger above
    apply rate_mono
    rw [UInt64.le_iff_toNat_le] at above
    simp only [growth, Saturating.toNat_sub]
    omega

end Pigs.SysMetrics
