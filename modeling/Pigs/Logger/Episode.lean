import Pigs.Lib.Duration
import Pigs.Lib.Run

/-! `FailureEpisode`: the decisions that throttle the logging of repeated failures. Instants are in
nanoseconds and counters are `u64`. -/

namespace Pigs.Logger

open Pigs.Lib

inductive EpisodeDecision where
  | started
  | suppressed
  | summary (total sinceLastSummary suppressed : Nat) (duration : Duration)
  | recovered (total suppressed : Nat) (duration : Duration)
  | healthy
  deriving DecidableEq

/-- `positive` is the assertion of `new`. -/
structure FailureEpisode where
  summaryInterval : Duration
  positive : 0 < summaryInterval.asNanos
  startedAt : Option Nat
  lastSummaryAt : Option Nat
  total : Nat
  suppressedTotal : Nat
  suppressedSinceSummary : Nat

def saturatingAdd (count more : Nat) : Nat := min (count + more) 18446744073709551615

/-- `checked_duration_since` with zero for an instant that lies ahead. -/
def elapsed (now earlier : Nat) : Duration := .ofNanos (now - earlier)

namespace FailureEpisode

/-- `none` is the failed assertion. -/
def new (summaryInterval : Duration) : Option FailureEpisode :=
  if positive : 0 < summaryInterval.asNanos then
    some
      { summaryInterval := summaryInterval
        positive := positive
        startedAt := none
        lastSummaryAt := none
        total := 0
        suppressedTotal := 0
        suppressedSinceSummary := 0 }
  else
    none

def defaultSummaryInterval : Duration := .ofNanos 60000000000

theorem defaultSummaryInterval_positive : 0 < defaultSummaryInterval.asNanos := by decide

/-- `FailureEpisode::default()` -/
def byDefault : FailureEpisode where
  summaryInterval := defaultSummaryInterval
  positive := defaultSummaryInterval_positive
  startedAt := none
  lastSummaryAt := none
  total := 0
  suppressedTotal := 0
  suppressedSinceSummary := 0

def recordFailure (e : FailureEpisode) (now : Nat) : FailureEpisode × EpisodeDecision :=
  match e.startedAt with
  | none => ({ e with startedAt := some now, lastSummaryAt := some now, total := 1 }, .started)
  | some startedAt =>
      let total := saturatingAdd e.total 1
      let lastSummaryAt := e.lastSummaryAt.getD startedAt
      if e.summaryInterval.asNanos ≤ (elapsed now lastSummaryAt).asNanos then
        let suppressed := e.suppressedSinceSummary
        ({ e with total := total, suppressedSinceSummary := 0, lastSummaryAt := some now },
          .summary total (saturatingAdd suppressed 1) suppressed (elapsed now startedAt))
      else
        ({ e with
            total := total
            suppressedTotal := saturatingAdd e.suppressedTotal 1
            suppressedSinceSummary := saturatingAdd e.suppressedSinceSummary 1 }, .suppressed)

def reset (e : FailureEpisode) : FailureEpisode :=
  { e with
    startedAt := none
    lastSummaryAt := none
    total := 0
    suppressedTotal := 0
    suppressedSinceSummary := 0 }

def recordSuccess (e : FailureEpisode) (now : Nat) : FailureEpisode × EpisodeDecision :=
  match e.startedAt with
  | none => (e, .healthy)
  | some startedAt => (e.reset, .recovered e.total e.suppressedTotal (elapsed now startedAt))

end FailureEpisode

inductive EpisodeCall where
  | recordFailure (now : Nat)
  | recordSuccess (now : Nat)
  | reset

namespace FailureEpisode

def step (e : FailureEpisode) : EpisodeCall → FailureEpisode
  | .recordFailure now => (e.recordFailure now).1
  | .recordSuccess now => (e.recordSuccess now).1
  | .reset => e.reset

def run (e : FailureEpisode) (calls : List EpisodeCall) : FailureEpisode := runFrom step e calls

/-- What a call contributes to the history: a failure with its instant and its decision, or an end of the
episode. -/
def outcome (e : FailureEpisode) : EpisodeCall → List (Option (Nat × EpisodeDecision))
  | .recordFailure now => [some (now, (e.recordFailure now).2)]
  | .recordSuccess _ => [none]
  | .reset => [none]

/-- The failures of a history since its last end of an episode. -/
def currentOf (history : List (Option (Nat × EpisodeDecision))) : List (Nat × EpisodeDecision) :=
  history.foldl (fun episode entry =>
    match entry with
    | some failure => episode ++ [failure]
    | none => []) []

/-- The failures of the episode that a run is in. -/
def current (e : FailureEpisode) (calls : List EpisodeCall) : List (Nat × EpisodeDecision) :=
  currentOf (traceFrom step outcome e calls)

theorem current_concat_failure (e : FailureEpisode) (calls : List EpisodeCall) (now : Nat) :
    e.current (calls ++ [.recordFailure now]) =
      e.current calls ++ [(now, ((e.run calls).recordFailure now).2)] := by
  simp [current, currentOf, traceFrom_append, traceFrom, outcome, run]

theorem current_concat_end (e : FailureEpisode) (calls : List EpisodeCall) (call : EpisodeCall)
    (ends : ∀ now, call ≠ .recordFailure now) : e.current (calls ++ [call]) = [] := by
  cases call with
  | recordFailure now => exact absurd rfl (ends now)
  | recordSuccess now => simp [current, currentOf, traceFrom_append, traceFrom, outcome]
  | reset => simp [current, currentOf, traceFrom_append, traceFrom, outcome]

theorem run_concat (e : FailureEpisode) (calls : List EpisodeCall) (call : EpisodeCall) :
    e.run (calls ++ [call]) = (e.run calls).step call :=
  runFrom_append e calls [call]

end FailureEpisode

end Pigs.Logger
