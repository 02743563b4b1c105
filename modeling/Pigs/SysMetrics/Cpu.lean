import Pigs.SysMetrics.Sample

/-! `parse_cpu` adds its fields without an overflow exactly when their sum is a word, and the usage
between any two samples is within its bounds. -/

namespace Pigs.SysMetrics

open Pigs.Lib

def wordSum (values : List UInt64) : Nat := (values.map UInt64.toNat).sum

/-- The sum so far has wrapped, or it is the sum. -/
theorem foldl_sumStep (sum : UInt64 × Bool) (values : List UInt64) :
    (values.foldl sumStep sum).2 = (sum.2 || decide (18446744073709551616 ≤ sum.1.toNat + wordSum values)) ∧
      (sum.1.toNat + wordSum values < 18446744073709551616 →
        (values.foldl sumStep sum).1.toNat = sum.1.toNat + wordSum values) := by
  induction values generalizing sum with
  | nil =>
      have small := sum.1.toNat_lt
      simp [wordSum, small]
  | cons value values ih =>
      obtain ⟨flag, exact⟩ := ih (sumStep sum value)
      have total : wordSum (value :: values) = value.toNat + wordSum values := rfl
      have wrapped : (sumStep sum value).1.toNat = (sum.1.toNat + value.toNat) % 18446744073709551616 :=
        UInt64.toNat_add ..
      rw [List.foldl_cons, total]
      by_cases late : 18446744073709551616 ≤ sum.1.toNat + value.toNat
      · constructor
        · rw [flag]
          have later : 18446744073709551616 ≤ sum.1.toNat + (value.toNat + wordSum values) := by omega
          simp [sumStep, late, later]
        · intro small
          omega
      · rw [Nat.mod_eq_of_lt (Nat.lt_of_not_le late)] at wrapped
        rw [wrapped, Nat.add_assoc] at flag exact
        constructor
        · rw [flag]
          simp [sumStep, late]
        · exact exact

theorem sum_overflowed_iff (values : List UInt64) :
    (values.foldl sumStep (0, false)).2 = true ↔ 18446744073709551616 ≤ wordSum values := by
  rw [(foldl_sumStep (0, false) values).1]
  simp

theorem sum_exact (values : List UInt64) (small : wordSum values < 18446744073709551616) :
    (values.foldl sumStep (0, false)).1.toNat = wordSum values := by
  have exact := (foldl_sumStep (0, false) values).2
  simp only [UInt64.toNat_zero, Nat.zero_add] at exact
  exact exact small

/-- The two fields of the idle time are two of the fields. -/
theorem idle_le_wordSum (values : List UInt64) :
    ((values[3]?).getD 0).toNat + ((values[4]?).getD 0).toNat ≤ wordSum values := by
  match values with
  | [] => simp [wordSum]
  | [_] => simp [wordSum]
  | [_, _] => simp [wordSum]
  | [_, _, _] => simp [wordSum]
  | [_, _, _, idle] =>
      simp [wordSum]
      omega
  | _ :: _ :: _ :: idle :: iowait :: rest =>
      simp [wordSum]
      omega

/-- The fields of a text, if it has any, add up to a word. -/
def FieldsFit (input : List Char) : Prop :=
  ∀ values, cpuValues input = .ok values → wordSum values < 18446744073709551616

/-- What `parse_cpu` returns for a text comes without an overflow, and with no more idle time than time. -/
def CpuSafe (input : List Char) : Prop :=
  ∀ times, parseCpu input = .ok times → times.overflowed = false ∧ times.idle ≤ times.total

theorem parseCpu_ok (input : List Char) (values : List UInt64) (read : cpuValues input = .ok values) :
    parseCpu input = .ok ⟨(values.foldl sumStep (0, false)).1,
      Saturating.add ((values[3]?).getD 0) ((values[4]?).getD 0), (values.foldl sumStep (0, false)).2⟩ := by
  rw [parseCpu, read]

theorem cpuSafe_iff (input : List Char) : CpuSafe input ↔ FieldsFit input := by
  constructor
  · intro safe values read
    obtain ⟨within, -⟩ := safe _ (parseCpu_ok input values read)
    by_contra large
    rw [(sum_overflowed_iff values).mpr (Nat.le_of_not_lt large)] at within
    cases within
  · intro fits times parsed
    cases read : cpuValues input with
    | error invalid =>
        rw [parseCpu, read] at parsed
        cases parsed
    | ok values =>
        have small := fits values read
        rw [parseCpu_ok input values read] at parsed
        cases parsed
        constructor
        · rw [← Bool.not_eq_true, sum_overflowed_iff]
          exact Nat.not_le_of_lt small
        · have part := idle_le_wordSum values
          rw [UInt64.le_iff_toNat_le, sum_exact values small, Saturating.toNat_add]
          omega

theorem sub_ne_zero_iff (first second : UInt64) : Saturating.sub first second ≠ 0 ↔ second < first := by
  rw [Ne, ← UInt64.toNat_inj, UInt64.lt_iff_toNat_lt, Saturating.toNat_sub, UInt64.toNat_zero]
  omega

/-- There is a usage exactly when the total has grown, whatever the counters. -/
theorem busyBasisPoints_isSome_iff (before current : Counters) :
    (busyBasisPoints before current).isSome ↔ before.cpuTotal < current.cpuTotal := by
  rw [← sub_ne_zero_iff]
  simp only [busyBasisPoints, checkedDiv]
  split_ifs with zero
  · simp [zero]
  · simp [zero]

theorem busyBasisPoints_le (before current : Counters) (points : UInt64)
    (some : busyBasisPoints before current = some points) : points.toNat ≤ 10000 := by
  simp only [busyBasisPoints, checkedDiv] at some
  split_ifs at some with zero
  cases some
  rw [UInt64.toNat_div, Saturating.toNat_mul, Saturating.toNat_sub]
  generalize (Saturating.sub current.cpuTotal before.cpuTotal).toNat = total
  generalize (Saturating.sub current.cpuIdle before.cpuIdle).toNat = idle
  have fewer : min ((total - idle) * 10000) Saturating.LIMIT ≤ total * 10000 := by omega
  calc
    _ ≤ total * 10000 / total := Nat.div_le_div_right fewer
    _ ≤ 10000 := Nat.div_le_of_le_mul (Nat.le_refl _)

theorem of_bind_ok {A B E : Type} {first : Except E A} {rest : A → Except E B} {result : B}
    (done : first >>= rest = .ok result) : ∃ value, first = .ok value ∧ rest value = .ok result := by
  cases first with
  | error error => cases done
  | ok value => exact ⟨value, rfl, done⟩

/-- Two texts are read without an overflow, and with usages within their bounds, exactly when the fields
of each add up to a word. -/
theorem cpu_usage_safe_iff (first second : List Char) :
    (CpuSafe first ∧ CpuSafe second ∧ ∀ before current : Counters,
      ((busyBasisPoints before current).isSome ↔ before.cpuTotal < current.cpuTotal) ∧
        ∀ points, busyBasisPoints before current = some points → points.toNat ≤ 10000) ↔
      FieldsFit first ∧ FieldsFit second := by
  rw [cpuSafe_iff, cpuSafe_iff]
  constructor
  · rintro ⟨firstFits, secondFits, -⟩
    exact ⟨firstFits, secondFits⟩
  · rintro ⟨firstFits, secondFits⟩
    exact ⟨firstFits, secondFits, fun before current =>
      ⟨busyBasisPoints_isSome_iff before current, busyBasisPoints_le before current⟩⟩

/-- The largest word and one more. -/
theorem cpu_sum_overflows :
    ¬∀ first second : List Char, CpuSafe first ∧ CpuSafe second ∧ ∀ before current : Counters,
      ((busyBasisPoints before current).isSome ↔ before.cpuTotal < current.cpuTotal) ∧
        ∀ points, busyBasisPoints before current = some points → points.toNat ≤ 10000 := by
  intro always
  have safe := (always "cpu 18446744073709551615 1 0 0 0".toList []).1
  have overflowed := (safe ⟨0, 0, true⟩ (by decide)).1
  cases overflowed

end Pigs.SysMetrics
