import Mathlib.Algebra.Order.Round
import Mathlib.Data.Rat.Floor
import Mathlib.Tactic

/-! Rounding to the nearest integer, with ties upwards and with ties to even. -/

namespace Pigs.Lib

/-- Half of the divisor, rounded down, makes a truncating division round to the nearest. -/
theorem add_half_div (value divisor : Nat) (positive : 0 < divisor) :
    (((value + divisor / 2) / divisor : Nat) : Int) = round ((value : ℚ) / divisor) := by
  have below : (value + divisor / 2) / divisor * divisor ≤ value + divisor / 2 := Nat.div_mul_le_self ..
  have above : value + divisor / 2 < divisor * ((value + divisor / 2) / divisor + 1) :=
    Nat.lt_mul_div_succ _ positive
  generalize (value + divisor / 2) / divisor = quotient at below above
  have lower : 2 * (quotient * divisor) ≤ 2 * value + divisor := by omega
  have upper : 2 * value + divisor < 2 * (divisor * (quotient + 1)) := by omega
  have castLower : 2 * ((quotient : ℚ) * divisor) ≤ 2 * value + divisor := by exact_mod_cast lower
  have castUpper : 2 * (value : ℚ) + divisor < 2 * (divisor * (quotient + 1)) := by exact_mod_cast upper
  have some : (0 : ℚ) < divisor := by exact_mod_cast positive
  rw [round_eq, eq_comm, Int.floor_eq_iff, Int.cast_natCast]
  have whole : (value : ℚ) / divisor + 1 / 2 = (2 * value + divisor) / (2 * divisor) := by
    field_simp
  rw [whole, le_div_iff₀ (by positivity), div_lt_iff₀ (by positivity)]
  constructor
  · linarith
  · linarith

/-- The nearest natural number, the even one of two. -/
def roundEven (value : ℚ) : Nat :=
  let floor := ⌊value⌋₊
  let rest := value - floor
  if rest < 1 / 2 then floor
  else if 1 / 2 < rest then floor + 1
  else if floor % 2 = 0 then floor
  else floor + 1

theorem roundEven_natCast (value : Nat) : roundEven value = value := by
  simp [roundEven]

theorem floor_le_roundEven (value : ℚ) : ⌊value⌋₊ ≤ roundEven value := by
  simp only [roundEven]
  split_ifs <;> omega

theorem roundEven_le_succ (value : ℚ) : roundEven value ≤ ⌊value⌋₊ + 1 := by
  simp only [roundEven]
  split_ifs <;> omega

theorem roundEven_mono (first second : ℚ) (below : first ≤ second) : roundEven first ≤ roundEven second := by
  rcases Nat.lt_or_eq_of_le (Nat.floor_mono below) with less | same
  · exact (roundEven_le_succ first).trans (less.trans_le (floor_le_roundEven second))
  · simp only [roundEven]
    rw [← same]
    have rests : first - ⌊first⌋₊ ≤ second - ⌊first⌋₊ := by linarith
    split_ifs <;> first | omega | linarith

end Pigs.Lib
