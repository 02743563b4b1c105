import Pigs.Cache.C100k.Shard
import Pigs.Lib.Duration

/-! `Cache::ttl_to_tick`: which time-to-live the number of ticks covers. -/

namespace Pigs.Cache.C100k

open Pigs.Lib

/-- `u64::div_ceil` -/
def divCeil (count per : Nat) : Nat := count / per + if count % per = 0 then 0 else 1

/-- `as_millis()` is cast to a `u64`. -/
def ttlToTick (ttl : Duration) : Nat :=
  let ms := ttl.asMillis % 18446744073709551616
  if ms = 0 then 1 else divCeil ms TICK_MS

/-- The time that a number of ticks takes, in nanoseconds. -/
def ticksNanos (ticks : Nat) : Nat := ticks * TICK_MS * 1000000

/-- The ticks are at least one and no shorter than the time-to-live. -/
def Covers (ttl : Duration) : Prop := 1 ≤ ttlToTick ttl ∧ ttl.asNanos ≤ ticksNanos (ttlToTick ttl)

/-- The milliseconds fit in a `u64`, and no whole number of ticks is followed by a fraction of a
millisecond. -/
def Exact (ttl : Duration) : Prop :=
  ttl.asMillis < 18446744073709551616 ∧
    ¬ (ttl.asMillis ≠ 0 ∧ ttl.asMillis % TICK_MS = 0 ∧ ttl.asNanos % 1000000 ≠ 0)

theorem divCeil_bounds (count per : Nat) (positive : 0 < per) :
    count ≤ divCeil count per * per ∧ divCeil count per * per < count + per := by
  have split := Nat.div_add_mod count per
  have small := Nat.mod_lt count positive
  rw [Nat.mul_comm] at split
  rw [divCeil, Nat.add_mul]
  split_ifs with whole
  · omega
  · omega

theorem divCeil_of_whole (count per : Nat) (whole : count % per = 0) : divCeil count per * per = count := by
  rw [divCeil, if_pos whole, Nat.add_zero]
  exact Nat.div_mul_cancel (Nat.dvd_of_mod_eq_zero whole)

theorem divCeil_mono (per : Nat) (positive : 0 < per) (first second : Nat) (below : first ≤ second) :
    divCeil first per ≤ divCeil second per := by
  by_contra above
  have next : divCeil second per + 1 ≤ divCeil first per := by omega
  have scaled := Nat.mul_le_mul_right per next
  have lower := (divCeil_bounds first per positive).2
  have upper := (divCeil_bounds second per positive).1
  rw [Nat.add_mul] at scaled
  omega

theorem divCeil_positive (count per : Nat) (positive : 0 < per) (nonzero : count ≠ 0) :
    1 ≤ divCeil count per := by
  by_contra zero
  have bound := (divCeil_bounds count per positive).1
  have empty : divCeil count per = 0 := by omega
  rw [empty] at bound
  omega

theorem one_le_ttlToTick (ttl : Duration) : 1 ≤ ttlToTick ttl := by
  simp only [ttlToTick]
  split_ifs with zero
  · exact Nat.le_refl 1
  · exact divCeil_positive _ TICK_MS (by decide) zero

/-- The nanoseconds are the whole milliseconds and a rest below one of them. -/
theorem asNanos_split (ttl : Duration) :
    ttl.asNanos = ttl.asMillis * 1000000 + ttl.asNanos % 1000000 := by
  rw [Duration.asMillis_eq, Nat.mul_comm]
  exact (Nat.div_add_mod ttl.asNanos 1000000).symm

theorem covers_of_exact (ttl : Duration) (exact : Exact ttl) :
    ttl.asNanos ≤ ticksNanos (ttlToTick ttl) := by
  obtain ⟨fits, unbroken⟩ := exact
  have split := asNanos_split ttl
  have rest := Nat.mod_lt ttl.asNanos (show 0 < 1000000 by decide)
  simp only [ttlToTick, Nat.mod_eq_of_lt fits, ticksNanos]
  split_ifs with zero
  · rw [zero] at split
    simp only [TICK_MS]
    omega
  · by_cases whole : ttl.asMillis % TICK_MS = 0
    · have flush : ttl.asNanos % 1000000 = 0 := by
        by_contra broken
        exact unbroken ⟨zero, whole, broken⟩
      rw [divCeil_of_whole _ _ whole]
      omega
    · have bounds := divCeil_bounds ttl.asMillis TICK_MS (by decide)
      have above : ttl.asMillis ≠ divCeil ttl.asMillis TICK_MS * TICK_MS := by
        intro same
        rw [same, Nat.mul_mod_left] at whole
        exact whole rfl
      omega

/-- Milliseconds beyond a `u64` are counted modulo `2 ^ 64`. -/
theorem short_of_wrapped (ttl : Duration) (wraps : 18446744073709551616 ≤ ttl.asMillis) :
    ticksNanos (ttlToTick ttl) < ttl.asNanos := by
  have split := asNanos_split ttl
  have kept : ttl.asMillis % 18446744073709551616 + 18446744073709551616 ≤ ttl.asMillis := by omega
  simp only [ttlToTick, ticksNanos]
  split_ifs with zero
  · simp only [TICK_MS]
    omega
  · have bounds := divCeil_bounds (ttl.asMillis % 18446744073709551616) TICK_MS (by decide)
    simp only [TICK_MS] at bounds ⊢
    omega

theorem short_of_broken (ttl : Duration) (fits : ttl.asMillis < 18446744073709551616)
    (nonzero : ttl.asMillis ≠ 0) (whole : ttl.asMillis % TICK_MS = 0)
    (broken : ttl.asNanos % 1000000 ≠ 0) : ticksNanos (ttlToTick ttl) < ttl.asNanos := by
  have split := asNanos_split ttl
  simp only [ttlToTick, Nat.mod_eq_of_lt fits, ticksNanos, if_neg nonzero]
  rw [divCeil_of_whole _ _ whole]
  omega

theorem covers_iff (ttl : Duration) : Covers ttl ↔ Exact ttl := by
  constructor
  · rintro ⟨_, covered⟩
    constructor
    · by_contra wraps
      have short := short_of_wrapped ttl (by omega)
      omega
    · rintro ⟨nonzero, whole, broken⟩
      have fits : ttl.asMillis < 18446744073709551616 := by
        by_contra wraps
        have short := short_of_wrapped ttl (by omega)
        omega
      have short := short_of_broken ttl fits nonzero whole broken
      omega
  · intro exact
    exact ⟨one_le_ttlToTick ttl, covers_of_exact ttl exact⟩

theorem ttlToTick_mono (first second : Duration) (fits : second.asMillis < 18446744073709551616)
    (below : first.asNanos ≤ second.asNanos) : ttlToTick first ≤ ttlToTick second := by
  have millis := Duration.asMillis_mono first second below
  have fitsFirst : first.asMillis < 18446744073709551616 := lt_of_le_of_lt millis fits
  simp only [ttlToTick, Nat.mod_eq_of_lt fits, Nat.mod_eq_of_lt fitsFirst]
  split_ifs with zeroFirst zeroSecond
  · exact Nat.le_refl 1
  · exact divCeil_positive _ TICK_MS (by decide) zeroSecond
  · omega
  · exact divCeil_mono TICK_MS (by decide) _ _ millis

/-- Two times-to-live are covered, and in order, exactly when neither wraps nor breaks off a fraction of a
millisecond behind a whole tick. -/
theorem ttl_kept_iff (first second : Duration) :
    (Covers first ∧ Covers second ∧ (first.asNanos ≤ second.asNanos → ttlToTick first ≤ ttlToTick second)) ↔
      Exact first ∧ Exact second := by
  rw [covers_iff, covers_iff]
  constructor
  · rintro ⟨exactFirst, exactSecond, _⟩
    exact ⟨exactFirst, exactSecond⟩
  · rintro ⟨exactFirst, exactSecond⟩
    exact ⟨exactFirst, exactSecond, ttlToTick_mono first second exactSecond.1⟩

/-- A time-to-live of 200 ms and 1 ns gets one tick. -/
theorem ttl_shortened :
    ¬ ∀ first second : Duration, Covers first ∧ Covers second ∧
        (first.asNanos ≤ second.asNanos → ttlToTick first ≤ ttlToTick second) := by
  intro always
  have covered := (always (.ofNanos 200000001) (.ofNanos 200000001)).1.2
  revert covered
  decide

end Pigs.Cache.C100k
