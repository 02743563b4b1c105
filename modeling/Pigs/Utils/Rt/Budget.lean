import Pigs.Lib.Duration

/-! How `RuntimeRegistry::shutdown` shares its total timeout out between the stages of `ordered` and the
main runtime. Instants are in nanoseconds. -/

namespace Pigs.Utils.Rt

open Pigs.Lib

/-- `Instant::saturating_duration_since` -/
def saturatingDurationSince (later earlier : Nat) : Duration := .ofNanos (later - earlier)

/-- `(ordered.len() - index + 1) as u32` -/
def stagesLeft (len index : Nat) : Nat := (len - index + 1) % 4294967296

def stageTimeout (deadline now left : Nat) : Duration :=
  ((saturatingDurationSince deadline now).checkedDiv left).getD (.ofNanos 0)

/-- The timeouts of the stages from `index` on, when each stage takes its duration. -/
def stageTimeouts (deadline len : Nat) : Nat → Nat → List Duration → List Duration
  | _, _, [] => []
  | index, now, duration :: later =>
      stageTimeout deadline now (stagesLeft len index) ::
        stageTimeouts deadline len (index + 1) (now + duration.asNanos) later

def used (durations : List Duration) : Nat := (durations.map Duration.asNanos).sum

def mainTimeout (deadline started : Nat) (durations : List Duration) : Duration :=
  saturatingDurationSince deadline (started + used durations)

/-- The timeouts of a shutdown that begins at `started`. -/
def shutdownTimeouts (started : Nat) (total : Duration) (durations : List Duration) : List Duration :=
  stageTimeouts (started + total.asNanos) durations.length 0 started durations

/-- Each stage takes at most the timeout that it was given. -/
def WithinTimeouts (started : Nat) (total : Duration) (durations : List Duration) : Prop :=
  List.Forall₂ (fun duration timeout => duration.asNanos ≤ timeout.asNanos) durations
    (shutdownTimeouts started total durations)

/-- The share of every stage and of the main runtime is at least `floor(total / (n + 1))`, no share is
below an earlier one, and the shares do not exceed the total. -/
structure FairShares (started : Nat) (total : Duration) (durations : List Duration) : Prop where
  stages : ∀ timeout ∈ shutdownTimeouts started total durations,
    total.asNanos / (durations.length + 1) ≤ timeout.asNanos
  nondecreasing : (shutdownTimeouts started total durations).Pairwise
    fun earlier later => earlier.asNanos ≤ later.asNanos
  main : total.asNanos / (durations.length + 1) ≤
    (mainTimeout (started + total.asNanos) started durations).asNanos
  sum : used durations + (mainTimeout (started + total.asNanos) started durations).asNanos ≤ total.asNanos
  divisor : ∀ index < durations.length, stagesLeft durations.length index ≠ 0

theorem stagesLeft_eq (len index : Nat) (small : len + 1 < 4294967296) :
    stagesLeft len index = len - index + 1 :=
  Nat.mod_eq_of_lt (by omega)

theorem stageTimeout_asNanos (deadline now left : Nat) (positive : 0 < left) :
    (stageTimeout deadline now left).asNanos = (deadline - now) / left := by
  obtain ⟨share, divided, exact⟩ :=
    (saturatingDurationSince deadline now).checkedDiv_asNanos left positive
  rw [stageTimeout, divided, Option.getD_some, exact, saturatingDurationSince, Duration.ofNanos_asNanos]

/-- A stage that keeps within its share leaves the next one no smaller share. -/
theorem share_next (remaining taken left : Nat) (positive : 0 < left)
    (within : taken ≤ remaining / (left + 1)) :
    remaining / (left + 1) ≤ (remaining - taken) / left := by
  rw [Nat.le_div_iff_mul_le positive]
  have whole : remaining / (left + 1) * (left + 1) ≤ remaining := Nat.div_mul_le_self ..
  rw [Nat.mul_add, Nat.mul_one] at whole
  omega

/-- With `left` stages to go, the rest of the loop hands out at least the share of the first of them,
in order, and keeps at least that share for the main runtime. -/
theorem stageTimeouts_fair (deadline len index now : Nat) (durations : List Duration)
    (small : len + 1 < 4294967296) (left : index + durations.length = len) (early : now ≤ deadline)
    (within : List.Forall₂ (fun duration timeout => duration.asNanos ≤ timeout.asNanos) durations
      (stageTimeouts deadline len index now durations)) :
    (∀ timeout ∈ stageTimeouts deadline len index now durations,
        (deadline - now) / (durations.length + 1) ≤ timeout.asNanos) ∧
      (stageTimeouts deadline len index now durations).Pairwise
        (fun earlier later => earlier.asNanos ≤ later.asNanos) ∧
      (deadline - now) / (durations.length + 1) ≤ deadline - (now + used durations) ∧
      now + used durations ≤ deadline := by
  induction durations generalizing index now with
  | nil => simpa [stageTimeouts, used] using early
  | cons duration later ih =>
      have divisor : stagesLeft len index = later.length + 1 + 1 := by
        rw [stagesLeft_eq len index small]
        simp only [List.length_cons] at left
        omega
      have given : (stageTimeout deadline now (stagesLeft len index)).asNanos =
          (deadline - now) / (later.length + 1 + 1) := by
        rw [stageTimeout_asNanos deadline now _ (by omega), divisor]
      cases within with
      | cons first rest =>
          rw [given] at first
          have spent : duration.asNanos ≤ deadline - now := le_trans first (Nat.div_le_self ..)
          have following := share_next (deadline - now) duration.asNanos (later.length + 1) (by omega) first
          rw [Nat.sub_sub] at following
          obtain ⟨stages, nondecreasing, main, sum⟩ := ih (index + 1) (now + duration.asNanos)
            (by simp only [List.length_cons] at left; omega) (by omega) rest
          have total : now + used (duration :: later) = now + duration.asNanos + used later := by
            simp only [used, List.map_cons, List.sum_cons]
            omega
          simp only [stageTimeouts, List.length_cons, List.forall_mem_cons, List.pairwise_cons]
          rw [given, total]
          exact ⟨⟨le_refl _, fun timeout member => le_trans following (stages timeout member)⟩,
            ⟨fun timeout member => le_trans following (stages timeout member), nondecreasing⟩,
            le_trans following main, sum⟩

theorem fairShares_of_small (started : Nat) (total : Duration) (durations : List Duration)
    (small : durations.length + 1 < 4294967296) (within : WithinTimeouts started total durations) :
    FairShares started total durations := by
  obtain ⟨stages, nondecreasing, main, sum⟩ :=
    stageTimeouts_fair (started + total.asNanos) durations.length 0 started durations small (by omega)
      (by omega) within
  rw [Nat.add_sub_cancel_left] at stages main
  have last : (mainTimeout (started + total.asNanos) started durations).asNanos =
      started + total.asNanos - (started + used durations) := Duration.ofNanos_asNanos _
  refine ⟨stages, nondecreasing, by rwa [last], by rw [last]; omega, ?_⟩
  intro index inside
  rw [stagesLeft_eq _ _ small]
  omega

/-- The divisor of the stage with `2 ^ 32 - 1` stages behind it is zero. -/
theorem stagesLeft_zero (len : Nat) (large : 4294967295 ≤ len) :
    stagesLeft len (len - 4294967295) = 0 := by
  have behind : len - (len - 4294967295) + 1 = 4294967296 := by omega
  rw [stagesLeft, behind]

/-- The shares are fair exactly while the number of stages with the main runtime fits in a `u32`. -/
theorem shutdown_shares_fair_iff (started : Nat) (total : Duration) (durations : List Duration)
    (within : WithinTimeouts started total durations) :
    FairShares started total durations ↔ durations.length + 1 < 4294967296 := by
  constructor
  · intro fair
    by_contra large
    exact fair.divisor (durations.length - 4294967295) (by omega)
      (stagesLeft_zero durations.length (by omega))
  · intro small
    exact fairShares_of_small started total durations small within

theorem stageTimeouts_length (deadline len index now : Nat) (durations : List Duration) :
    (stageTimeouts deadline len index now durations).length = durations.length := by
  induction durations generalizing index now with
  | nil => rfl
  | cons duration later ih => simp only [stageTimeouts, List.length_cons, ih]

theorem withinTimeouts_zero (started : Nat) (total : Duration) (stages : Nat) :
    WithinTimeouts started total (List.replicate stages (.ofNanos 0)) := by
  rw [WithinTimeouts, List.forall₂_iff_get]
  constructor
  · rw [shutdownTimeouts, stageTimeouts_length]
  · intro index inside _
    simp

theorem shutdown_shares_fair_two_stages :
    FairShares 5 (.ofNanos 8000000000) [.ofNanos 1000000000, .ofNanos 3000000000] ↔ 2 + 1 < 4294967296 :=
  shutdown_shares_fair_iff 5 (.ofNanos 8000000000) [.ofNanos 1000000000, .ofNanos 3000000000]
    (.cons (by decide) (.cons (by decide) .nil))

/-- The first of `2 ^ 32 - 1` stages is given no time at all. -/
theorem shutdown_shares_of_full_order :
    ¬ ∀ (started : Nat) (total : Duration) (durations : List Duration),
        WithinTimeouts started total durations → FairShares started total durations := by
  intro always
  have fair := always 0 (.ofNanos 8000000000) (List.replicate 4294967295 (.ofNanos 0))
    (withinTimeouts_zero 0 _ 4294967295)
  have divisor := fair.divisor 0
  rw [List.length_replicate] at divisor
  exact divisor (by decide) (by decide)

end Pigs.Utils.Rt
