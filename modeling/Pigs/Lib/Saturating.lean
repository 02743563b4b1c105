import Mathlib.Tactic

/-! Saturating arithmetic of 64-bit words, and sums that are capped on the way. -/

namespace Pigs.Lib.Saturating

def LIMIT : Nat := 18446744073709551615

def add (first second : UInt64) : UInt64 := .ofNatClamp (first.toNat + second.toNat)

def sub (first second : UInt64) : UInt64 := .ofNatClamp (first.toNat - second.toNat)

def mul (first second : UInt64) : UInt64 := .ofNatClamp (first.toNat * second.toNat)

theorem toNat_clamp (value : Nat) : (UInt64.ofNatClamp value).toNat = min value LIMIT := by
  by_cases fits : value < UInt64.size
  · rw [UInt64.toNat_ofNatClamp_of_lt fits]
    simp only [UInt64.size] at fits
    simp only [LIMIT]
    omega
  · rw [UInt64.toNat_ofNatClamp_of_le (Nat.le_of_not_lt fits)]
    simp only [UInt64.size] at fits ⊢
    simp only [LIMIT]
    omega

theorem toNat_le (word : UInt64) : word.toNat ≤ LIMIT := Nat.le_of_lt_succ word.toNat_lt

@[simp] theorem toNat_add (first second : UInt64) :
    (add first second).toNat = min (first.toNat + second.toNat) LIMIT :=
  toNat_clamp _

@[simp] theorem toNat_sub (first second : UInt64) :
    (sub first second).toNat = first.toNat - second.toNat := by
  have fits := toNat_le first
  rw [sub, toNat_clamp]
  omega

@[simp] theorem toNat_mul (first second : UInt64) :
    (mul first second).toNat = min (first.toNat * second.toNat) LIMIT :=
  toNat_clamp _

/-- Nothing is lost by capping early. -/
theorem min_add_min (first second limit : Nat) :
    min (first + min second limit) limit = min (first + second) limit := by
  omega

theorem min_sum_min (values : List Nat) (limit : Nat) :
    min ((values.map fun value => min value limit).sum) limit = min values.sum limit := by
  induction values with
  | nil => rfl
  | cons value values ih =>
      simp only [List.map_cons, List.sum_cons]
      calc
        _ = min (min value limit + min ((values.map fun value => min value limit).sum) limit) limit :=
          (min_add_min ..).symm
        _ = min (min value limit + min values.sum limit) limit := by rw [ih]
        _ = min (value + values.sum) limit := by omega

theorem foldl_add (start : UInt64) (words : List UInt64) :
    (words.foldl add start).toNat = min (start.toNat + (words.map UInt64.toNat).sum) LIMIT := by
  induction words generalizing start with
  | nil =>
      have fits := toNat_le start
      simp [fits]
  | cons word words ih =>
      rw [List.foldl_cons, ih, toNat_add, List.map_cons, List.sum_cons]
      omega

end Pigs.Lib.Saturating
