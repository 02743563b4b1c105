import Pigs.Lib.Duration
import Pigs.Lib.Rounding

/-! The delays of a `RetryPolicy`, with exact rationals in place of floating-point numbers. -/

namespace Pigs.Rpc

open Pigs.Lib

structure RetryPolicy where
  initialDelay : StdDuration
  maxDelay : StdDuration
  multiplier : ℚ
  jitterRatio : ℚ
  maxAttempts : Option UInt32

/-- `as_secs_f64` -/
def asSecs (d : StdDuration) : ℚ := d.asNanos / 1000000000

/-- `Duration::from_secs_f64`, which rounds to nanoseconds; nothing where it panics. -/
def fromSecs (secs : ℚ) : Option StdDuration :=
  if secs < 0 then
    none
  else
    let nanos := roundEven (secs * 1000000000)
    if fits : nanos / 1000000000 < 18446744073709551616 then some ⟨.ofNanos nanos, fits⟩ else none

namespace RetryPolicy

/-- `RetryPolicy::default()` -/
def byDefault : RetryPolicy where
  initialDelay := ⟨.ofNanos 250000000, by decide⟩
  maxDelay := ⟨.ofNanos 30000000000, by decide⟩
  multiplier := 2
  jitterRatio := 1 / 5
  maxAttempts := none

def exponent (attempt : UInt32) : Nat := min (attempt.toNat - 1) 2147483647

def delayWithoutJitter (p : RetryPolicy) (attempt : UInt32) : Option StdDuration :=
  let seconds := asSecs p.initialDelay * max p.multiplier 1 ^ exponent attempt
  fromSecs (min seconds (asSecs p.maxDelay))

def jitter (p : RetryPolicy) (base : StdDuration) : ℚ := asSecs base * max 0 (min p.jitterRatio 1)

/-- `delta` is what `gen_range` draws. -/
def delay (p : RetryPolicy) (attempt : UInt32) (delta : ℚ) : Option StdDuration := do
  let base ← p.delayWithoutJitter attempt
  if p.jitterRatio ≤ 0 ∨ base.asNanos = 0 then
    return base
  fromSecs (max (asSecs base + delta) 0)

def permits (p : RetryPolicy) (attempt : UInt32) : Bool := p.maxAttempts.all fun max => attempt ≤ max

/-- The draws of `gen_range(-jitter..=jitter)`. -/
def Draws (p : RetryPolicy) (attempt : UInt32) (delta : ℚ) : Prop :=
  ∀ base, p.delayWithoutJitter attempt = some base → -p.jitter base ≤ delta ∧ delta ≤ p.jitter base

/-- Every delay is at most `max_delay`, and without jitter no delay is shorter than an earlier one. -/
structure RespectsCap (p : RetryPolicy) (attempt : UInt32) : Prop where
  capped : ∀ delta, p.Draws attempt delta →
    ∃ d, p.delay attempt delta = some d ∧ d.asNanos ≤ p.maxDelay.asNanos
  plain : ∃ d, p.delayWithoutJitter attempt = some d ∧ d.asNanos ≤ p.maxDelay.asNanos
  nondecreasing : ∀ later, attempt ≤ later → ∃ first second, p.delayWithoutJitter attempt = some first ∧
    p.delayWithoutJitter later = some second ∧ first.asNanos ≤ second.asNanos

/-- The exponential growth up to the cap, in nanoseconds. -/
def cappedNanos (p : RetryPolicy) (attempt : UInt32) : Nat :=
  roundEven (min (p.initialDelay.asNanos * max p.multiplier 1 ^ exponent attempt) p.maxDelay.asNanos)

/-- The largest jitter still fits under the cap. -/
def HasRoom (p : RetryPolicy) (attempt : UInt32) : Prop :=
  p.jitterRatio ≤ 0 ∨
    roundEven (p.cappedNanos attempt * (1 + min p.jitterRatio 1)) ≤ p.maxDelay.asNanos

end RetryPolicy

theorem asSecs_nonneg (d : StdDuration) : 0 ≤ asSecs d := by
  rw [asSecs]
  positivity

theorem fromSecs_some (value : ℚ) (nonneg : 0 ≤ value) (limit : StdDuration)
    (below : roundEven (value * 1000000000) ≤ limit.asNanos) :
    ∃ d, fromSecs value = some d ∧ d.asNanos = roundEven (value * 1000000000) := by
  have fits : roundEven (value * 1000000000) / 1000000000 < 18446744073709551616 := by
    have most := limit.asNanos_lt
    omega
  refine ⟨⟨.ofNanos (roundEven (value * 1000000000)), fits⟩, ?_, Duration.ofNanos_asNanos _⟩
  rw [fromSecs, if_neg (not_lt.mpr nonneg)]
  exact dif_pos fits

theorem fromSecs_asNanos (value : ℚ) (d : StdDuration) (made : fromSecs value = some d) :
    d.asNanos = roundEven (value * 1000000000) := by
  simp only [fromSecs] at made
  by_cases negative : value < 0
  · rw [if_pos negative] at made
    cases made
  · rw [if_neg negative] at made
    by_cases fits : roundEven (value * 1000000000) / 1000000000 < 18446744073709551616
    · rw [dif_pos fits] at made
      cases made
      exact Duration.ofNanos_asNanos _
    · rw [dif_neg fits] at made
      cases made

namespace RetryPolicy

theorem min_secs (p : RetryPolicy) (attempt : UInt32) :
    min (asSecs p.initialDelay * max p.multiplier 1 ^ exponent attempt) (asSecs p.maxDelay) * 1000000000 =
      min (p.initialDelay.asNanos * max p.multiplier 1 ^ exponent attempt) p.maxDelay.asNanos := by
  rw [min_mul_of_nonneg _ _ (by norm_num), asSecs, asSecs]
  congr 1
  · ring
  · ring

theorem cappedNanos_le (p : RetryPolicy) (attempt : UInt32) : p.cappedNanos attempt ≤ p.maxDelay.asNanos := by
  calc
    _ ≤ roundEven (p.maxDelay.asNanos : ℚ) := roundEven_mono _ _ (min_le_right ..)
    _ = p.maxDelay.asNanos := roundEven_natCast _

theorem delayWithoutJitter_eq (p : RetryPolicy) (attempt : UInt32) :
    ∃ d, p.delayWithoutJitter attempt = some d ∧ d.asNanos = p.cappedNanos attempt := by
  have same := congrArg roundEven (p.min_secs attempt)
  have below := p.cappedNanos_le attempt
  simp only [delayWithoutJitter, cappedNanos] at below ⊢
  rw [← same] at below ⊢
  generalize exponent attempt = power at below ⊢
  have growth : 0 ≤ max p.multiplier 1 ^ power := by positivity
  have nonneg : 0 ≤ asSecs p.initialDelay * max p.multiplier 1 ^ power :=
    mul_nonneg (asSecs_nonneg _) growth
  exact fromSecs_some _ (le_min nonneg (asSecs_nonneg _)) p.maxDelay below

theorem cappedNanos_mono (p : RetryPolicy) (attempt later : UInt32) (order : attempt ≤ later) :
    p.cappedNanos attempt ≤ p.cappedNanos later := by
  have exponents : exponent attempt ≤ exponent later := by
    rw [UInt32.le_iff_toNat_le] at order
    simp only [exponent]
    omega
  have powers : max p.multiplier 1 ^ exponent attempt ≤ max p.multiplier 1 ^ exponent later :=
    pow_le_pow_right₀ (le_max_right ..) exponents
  apply roundEven_mono
  exact min_le_min_right _ (mul_le_mul_of_nonneg_left powers (by positivity))

/-- The largest jitter of a base, in nanoseconds. -/
theorem topped_nanos (p : RetryPolicy) (base : StdDuration) (jitters : 0 < p.jitterRatio) :
    (asSecs base + p.jitter base) * 1000000000 = base.asNanos * (1 + min p.jitterRatio 1) := by
  have kept : max 0 (min p.jitterRatio 1) = min p.jitterRatio 1 := max_eq_right (le_min jitters.le zero_le_one)
  rw [jitter, kept, asSecs]
  ring

theorem jitter_nonneg (p : RetryPolicy) (base : StdDuration) : 0 ≤ p.jitter base :=
  mul_nonneg (asSecs_nonneg base) (le_max_left ..)

theorem delay_plain (p : RetryPolicy) (attempt : UInt32) (delta : ℚ) (base : StdDuration)
    (made : p.delayWithoutJitter attempt = some base) (plain : p.jitterRatio ≤ 0 ∨ base.asNanos = 0) :
    p.delay attempt delta = some base := by
  simp only [delay, made, Option.bind_eq_bind, Option.bind_some, if_pos plain]
  rfl

theorem delay_jittered (p : RetryPolicy) (attempt : UInt32) (delta : ℚ) (base : StdDuration)
    (made : p.delayWithoutJitter attempt = some base) (jitters : ¬(p.jitterRatio ≤ 0 ∨ base.asNanos = 0)) :
    p.delay attempt delta = fromSecs (max (asSecs base + delta) 0) := by
  simp only [delay, made, Option.bind_eq_bind, Option.bind_some, if_neg jitters]

theorem full_jitter_fits (p : RetryPolicy) (attempt : UInt32) (respects : p.RespectsCap attempt) :
    p.HasRoom attempt := by
  obtain ⟨base, made, nanos⟩ := p.delayWithoutJitter_eq attempt
  by_cases plain : p.jitterRatio ≤ 0 ∨ base.asNanos = 0
  · apply plain.imp_right
    intro zero
    rw [← nanos, zero, Nat.cast_zero, zero_mul, ← Nat.cast_zero, roundEven_natCast]
    exact Nat.zero_le _
  · have jitters : 0 < p.jitterRatio := not_le.mp fun none => plain (.inl none)
    have drawn : p.Draws attempt (p.jitter base) := by
      intro other again
      cases made.symm.trans again
      have nonneg := p.jitter_nonneg base
      constructor
      · linarith
      · exact le_rfl
    obtain ⟨d, result, capped⟩ := respects.capped _ drawn
    rw [p.delay_jittered attempt _ base made plain] at result
    have top : max (asSecs base + p.jitter base) 0 = asSecs base + p.jitter base :=
      max_eq_left (add_nonneg (asSecs_nonneg base) (p.jitter_nonneg base))
    rw [fromSecs_asNanos _ d result, top, p.topped_nanos base jitters, nanos] at capped
    exact .inr capped

theorem delay_capped (p : RetryPolicy) (attempt : UInt32) (room : p.HasRoom attempt) (delta : ℚ)
    (drawn : p.Draws attempt delta) :
    ∃ d, p.delay attempt delta = some d ∧ d.asNanos ≤ p.maxDelay.asNanos := by
  obtain ⟨base, made, nanos⟩ := p.delayWithoutJitter_eq attempt
  by_cases plain : p.jitterRatio ≤ 0 ∨ base.asNanos = 0
  · refine ⟨base, p.delay_plain attempt delta base made plain, ?_⟩
    rw [nanos]
    exact p.cappedNanos_le attempt
  · have jitters : 0 < p.jitterRatio := not_le.mp fun none => plain (.inl none)
    have topped := room.resolve_left (not_le.mpr jitters)
    have most : max (asSecs base + delta) 0 * 1000000000 ≤ p.cappedNanos attempt * (1 + min p.jitterRatio 1) := by
      rw [← nanos, ← p.topped_nanos base jitters]
      apply mul_le_mul_of_nonneg_right _ (by norm_num)
      apply max_le
      · exact add_le_add_right (drawn base made).2 _
      · exact add_nonneg (asSecs_nonneg base) (p.jitter_nonneg base)
    have below := (roundEven_mono _ _ most).trans topped
    obtain ⟨d, result, rounded⟩ := fromSecs_some _ (le_max_right ..) p.maxDelay below
    refine ⟨d, (p.delay_jittered attempt delta base made plain).trans result, ?_⟩
    rw [rounded]
    exact below

/-- The jitter comes after the cap, so the delays stay under it exactly where it has room for the jitter. -/
theorem retry_delay_capped_iff (p : RetryPolicy) (attempt : UInt32) :
    p.RespectsCap attempt ↔ p.HasRoom attempt := by
  constructor
  · exact p.full_jitter_fits attempt
  · intro room
    obtain ⟨base, made, nanos⟩ := p.delayWithoutJitter_eq attempt
    constructor
    case capped => exact p.delay_capped attempt room
    case plain =>
      refine ⟨base, made, ?_⟩
      rw [nanos]
      exact p.cappedNanos_le attempt
    case nondecreasing =>
      intro later order
      obtain ⟨second, madeLater, nanosLater⟩ := p.delayWithoutJitter_eq later
      refine ⟨base, second, made, madeLater, ?_⟩
      rw [nanos, nanosLater]
      exact p.cappedNanos_mono attempt later order

theorem byDefault_cappedNanos : byDefault.cappedNanos 8 = 30000000000 := by
  have power : exponent 8 = 7 := by decide
  have most : byDefault.maxDelay.asNanos = 30000000000 := Duration.ofNanos_asNanos _
  have initial : byDefault.initialDelay.asNanos = 250000000 := Duration.ofNanos_asNanos _
  have doubles : max byDefault.multiplier 1 = 2 := by norm_num [byDefault]
  have reached : min (((250000000 : Nat) : ℚ) * 2 ^ 7) ((30000000000 : Nat) : ℚ) = (30000000000 : Nat) :=
    min_eq_right (by norm_num)
  rw [cappedNanos, power, most, initial, doubles, reached, roundEven_natCast]

/-- The default policy can wait 36 s before the eighth attempt, above its 30 s. -/
theorem default_delay_over_cap :
    ¬∀ (p : RetryPolicy) (attempt : UInt32), 0 ≤ p.jitterRatio → p.RespectsCap attempt := by
  intro claimed
  have ratio : byDefault.jitterRatio = 1 / 5 := rfl
  have most : byDefault.maxDelay.asNanos = 30000000000 := Duration.ofNanos_asNanos _
  have room := byDefault.full_jitter_fits 8 (claimed byDefault 8 (by norm_num [ratio]))
  have jitters : ¬byDefault.jitterRatio ≤ 0 := by norm_num [ratio]
  have topped := room.resolve_left jitters
  have longest : ((30000000000 : Nat) : ℚ) * (1 + min (1 / 5) 1) = (36000000000 : Nat) := by norm_num
  rw [byDefault_cappedNanos, ratio, most, longest, roundEven_natCast] at topped
  omega

end RetryPolicy

end Pigs.Rpc
