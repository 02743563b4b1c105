import Pigs.Logger.Episode

/-! Every failure of an episode is reported once: as its start, in a summary, or as suppressed since the
last summary. -/

namespace Pigs.Logger

open Pigs.Lib

def EpisodeDecision.sinceLastSummary : EpisodeDecision → Nat
  | .summary _ sinceLastSummary _ _ => sinceLastSummary
  | _ => 0

namespace FailureEpisode

def isSuppressed (failure : Nat × EpisodeDecision) : Bool := failure.2 = .suppressed

/-- The failures suppressed since the last decision that was emitted. -/
def sinceEmitted (episode : List (Nat × EpisodeDecision)) : Nat :=
  (episode.reverse.takeWhile isSuppressed).length

/-- The sum of `since_last_summary` over the summaries of an episode. -/
def summarized (episode : List (Nat × EpisodeDecision)) : Nat :=
  (episode.map fun failure => failure.2.sinceLastSummary).sum

/-- The failures before the last emitted one, the suppressed ones since and the start are all. -/
def Covers (episode : List (Nat × EpisodeDecision)) : Prop :=
  summarized episode + sinceEmitted episode + 1 = episode.length

/-- A decision about a failure, as the failures before it in its episode ask for. -/
structure Accounts (episode : List (Nat × EpisodeDecision)) (now : Nat) (decision : EpisodeDecision) :
    Prop where
  first : decision = .started ↔ episode = []
  kind : decision = .started ∨ decision = .suppressed ∨
    ∃ total sinceLastSummary suppressed duration,
      decision = .summary total sinceLastSummary suppressed duration
  summary : ∀ total sinceLastSummary suppressed duration,
    decision = .summary total sinceLastSummary suppressed duration →
      total = episode.length + 1 ∧ suppressed = sinceEmitted episode
  covers : Covers (episode ++ [(now, decision)])

/-- The fields of the episode tell what has happened in it. -/
structure Tracks (e : FailureEpisode) (episode : List (Nat × EpisodeDecision)) : Prop where
  active : e.startedAt = none ↔ episode = []
  last : e.lastSummaryAt = none ↔ episode = []
  total : e.total = episode.length
  suppressedTotal : e.suppressedTotal = episode.countP isSuppressed
  suppressedSinceSummary : e.suppressedSinceSummary = sinceEmitted episode
  covers : episode ≠ [] → Covers episode

theorem saturatingAdd_of_small (count more : Nat) (small : count + more < 18446744073709551616) :
    saturatingAdd count more = count + more := by
  rw [saturatingAdd]
  omega

theorem sinceEmitted_concat_suppressed (episode : List (Nat × EpisodeDecision)) (now : Nat) :
    sinceEmitted (episode ++ [(now, .suppressed)]) = sinceEmitted episode + 1 := by
  simp [sinceEmitted, isSuppressed]

theorem sinceEmitted_concat_emitted (episode : List (Nat × EpisodeDecision)) (now : Nat)
    (decision : EpisodeDecision) (emitted : decision ≠ .suppressed) :
    sinceEmitted (episode ++ [(now, decision)]) = 0 := by
  simp [sinceEmitted, isSuppressed, emitted]

theorem summarized_concat (episode : List (Nat × EpisodeDecision)) (now : Nat)
    (decision : EpisodeDecision) :
    summarized (episode ++ [(now, decision)]) =
      summarized episode + decision.sinceLastSummary := by
  simp [summarized]

theorem sinceEmitted_le (episode : List (Nat × EpisodeDecision)) :
    sinceEmitted episode ≤ episode.length := by
  calc sinceEmitted episode ≤ episode.reverse.length := (List.takeWhile_sublist _).length_le
    _ = episode.length := List.length_reverse

theorem new_tracks (interval : Duration) (e : FailureEpisode) (made : new interval = some e) :
    Tracks e [] := by
  simp only [new, Option.dite_none_right_eq_some, Option.some.injEq] at made
  obtain ⟨positive, rfl⟩ := made
  exact ⟨iff_of_true rfl rfl, iff_of_true rfl rfl, rfl, rfl, rfl, fun nonempty => absurd rfl nonempty⟩

theorem reset_tracks (e : FailureEpisode) : Tracks e.reset [] :=
  ⟨iff_of_true rfl rfl, iff_of_true rfl rfl, rfl, rfl, rfl, fun nonempty => absurd rfl nonempty⟩

theorem reset_new (e : FailureEpisode) : new e.summaryInterval = some e.reset := dif_pos e.positive

theorem Tracks.start {e : FailureEpisode} {episode : List (Nat × EpisodeDecision)}
    (tracks : Tracks e episode) (now : Nat) (inactive : e.startedAt = none) :
    Accounts episode now (e.recordFailure now).2 ∧
      Tracks (e.recordFailure now).1 (episode ++ [(now, (e.recordFailure now).2)]) := by
  obtain rfl := tracks.active.mp inactive
  simp only [recordFailure, inactive]
  refine ⟨⟨iff_of_true rfl rfl, Or.inl rfl, ?_, rfl⟩, ?_⟩
  · intro _ _ _ _ other
    cases other
  · exact ⟨by simp, by simp, rfl, tracks.suppressedTotal, tracks.suppressedSinceSummary, fun _ => rfl⟩

theorem Tracks.nonempty {e : FailureEpisode} {episode : List (Nat × EpisodeDecision)}
    (tracks : Tracks e episode) {startedAt : Nat} (active : e.startedAt = some startedAt) :
    episode ≠ [] := by
  intro empty
  rw [tracks.active.mpr empty] at active
  cases active

/-- A failure is accounted for, and the fields follow it. -/
theorem Tracks.failure {e : FailureEpisode} {episode : List (Nat × EpisodeDecision)}
    (tracks : Tracks e episode) (now : Nat) (few : episode.length + 1 < 18446744073709551616) :
    Accounts episode now (e.recordFailure now).2 ∧
      Tracks (e.recordFailure now).1 (episode ++ [(now, (e.recordFailure now).2)]) := by
  cases active : e.startedAt with
  | none => exact tracks.start now active
  | some startedAt =>
      have bound := sinceEmitted_le episode
      have counted : episode.countP isSuppressed ≤ episode.length := List.countP_le_length
      have total : saturatingAdd e.total 1 = episode.length + 1 := by
        rw [tracks.total]
        exact saturatingAdd_of_small _ _ few
      have since : saturatingAdd (sinceEmitted episode) 1 = sinceEmitted episode + 1 :=
        saturatingAdd_of_small _ _ (by omega)
      have suppressed : saturatingAdd e.suppressedTotal 1 = episode.countP isSuppressed + 1 := by
        rw [tracks.suppressedTotal]
        exact saturatingAdd_of_small _ _ (by omega)
      have nonempty := tracks.nonempty active
      have before := tracks.covers nonempty
      simp only [Covers] at before
      simp only [recordFailure, active, total, since, suppressed, tracks.suppressedSinceSummary]
      split
      case isTrue late =>
        have covers : Covers (episode ++ [(now, .summary (episode.length + 1) (sinceEmitted episode + 1)
            (sinceEmitted episode) (elapsed now startedAt))]) := by
          rw [Covers, summarized_concat, sinceEmitted_concat_emitted _ _ _ (by simp), List.length_append]
          simp only [EpisodeDecision.sinceLastSummary, List.length_singleton]
          omega
        refine ⟨⟨iff_of_false (by simp) nonempty, Or.inr (Or.inr ⟨_, _, _, _, rfl⟩), ?_, covers⟩, ?_⟩
        · intro reported sinceLast emitted duration same
          cases same
          exact ⟨rfl, rfl⟩
        · refine ⟨by simp, by simp, by simp, ?_, ?_, fun _ => covers⟩
          · simp [tracks.suppressedTotal, isSuppressed]
          · simp [sinceEmitted_concat_emitted]
      case isFalse early =>
        have covers : Covers (episode ++ [(now, .suppressed)]) := by
          rw [Covers, summarized_concat, sinceEmitted_concat_suppressed, List.length_append]
          simp only [EpisodeDecision.sinceLastSummary, List.length_singleton]
          omega
        refine ⟨⟨iff_of_false (by simp) nonempty, Or.inr (Or.inl rfl), ?_, covers⟩, ?_⟩
        · intro _ _ _ _ other
          cases other
        · refine ⟨by simp, ?_, by simp, ?_, ?_, fun _ => covers⟩
          · exact iff_of_false (fun none => nonempty (tracks.last.mp none)) (by simp)
          · simp [isSuppressed]
          · simp [sinceEmitted_concat_suppressed]

/-- What an end of the episode answers and leaves behind. -/
structure Closes (e : FailureEpisode) (episode : List (Nat × EpisodeDecision)) (now : Nat) : Prop where
  healthy : episode = [] → (e.recordSuccess now).2 = .healthy
  recovered : episode ≠ [] → ∃ duration,
    (e.recordSuccess now).2 = .recovered episode.length (episode.countP isSuppressed) duration
  fresh : new e.summaryInterval = some (e.recordSuccess now).1

theorem Tracks.inactive {e : FailureEpisode} (tracks : Tracks e []) : e = e.reset := by
  obtain ⟨interval, positive, startedAt, lastSummaryAt, total, suppressedTotal, since⟩ := e
  obtain ⟨active, last, total, suppressedTotal, since, _⟩ := tracks
  simp only [reset, FailureEpisode.mk.injEq]
  exact ⟨trivial, active.mpr rfl, last.mpr rfl, total, suppressedTotal, since⟩

/-- A success reports the episode and starts from zero. -/
theorem Tracks.success {e : FailureEpisode} {episode : List (Nat × EpisodeDecision)}
    (tracks : Tracks e episode) (now : Nat) : Closes e episode now := by
  cases active : e.startedAt with
  | none =>
      obtain rfl := tracks.active.mp active
      refine ⟨fun _ => by simp [recordSuccess, active], fun nonempty => absurd rfl nonempty, ?_⟩
      rw [reset_new, recordSuccess, active, ← tracks.inactive]
  | some startedAt =>
      have nonempty := tracks.nonempty active
      refine ⟨fun empty => absurd empty nonempty, fun _ => ⟨elapsed now startedAt, ?_⟩, ?_⟩
      · simp [recordSuccess, active, tracks.total, tracks.suppressedTotal]
      · rw [reset_new, recordSuccess, active]

/-- What a call answers and leaves behind, with the failures of the episode before it. -/
def CallAccounts (e : FailureEpisode) (episode : List (Nat × EpisodeDecision)) : EpisodeCall → Prop
  | .recordFailure now => Accounts episode now (e.recordFailure now).2
  | .recordSuccess now => Closes e episode now
  | .reset => new e.summaryInterval = some e.reset

theorem recordSuccess_tracks {e : FailureEpisode} {episode : List (Nat × EpisodeDecision)}
    (tracks : Tracks e episode) (now : Nat) : Tracks (e.recordSuccess now).1 [] := by
  have fresh := (tracks.success now).fresh
  rw [reset_new] at fresh
  rw [← Option.some.inj fresh]
  exact reset_tracks e

theorem Tracks.call {e : FailureEpisode} {calls : List EpisodeCall}
    (tracks : Tracks (e.run calls) (e.current calls)) (call : EpisodeCall)
    (few : (e.current (calls ++ [call])).length < 18446744073709551616) :
    CallAccounts (e.run calls) (e.current calls) call ∧
      Tracks (e.run (calls ++ [call])) (e.current (calls ++ [call])) := by
  rw [run_concat]
  cases call with
  | recordFailure now =>
      rw [current_concat_failure] at few ⊢
      rw [List.length_append, List.length_singleton] at few
      exact tracks.failure now few
  | recordSuccess now =>
      rw [current_concat_end e calls _ (by simp)]
      exact ⟨tracks.success now, recordSuccess_tracks tracks now⟩
  | reset =>
      rw [current_concat_end e calls _ (by simp)]
      exact ⟨reset_new (e.run calls), reset_tracks (e.run calls)⟩

/-- No episode of the run has as many failures as a counter can hold. -/
def FewFailures (e : FailureEpisode) (calls : List EpisodeCall) : Prop :=
  ∀ front, front <+: calls → (e.current front).length < 18446744073709551616

theorem run_tracks (interval : Duration) (e : FailureEpisode) (made : new interval = some e)
    (calls : List EpisodeCall) (few : FewFailures e calls) :
    Tracks (e.run calls) (e.current calls) := by
  induction calls using List.reverseRecOn with
  | nil => exact new_tracks interval e made
  | append_singleton calls call ih =>
      have earlier := ih fun front prior => few front (prior.trans (List.prefix_append calls [call]))
      exact (earlier.call call (few _ (List.prefix_refl _))).2

/-- Every call of a run accounts for the failures of its episode. -/
theorem failure_episodes_account (interval : Duration) (e : FailureEpisode)
    (made : new interval = some e) (calls : List EpisodeCall) (few : FewFailures e calls) :
    ∀ front call, front ++ [call] <+: calls → CallAccounts (e.run front) (e.current front) call := by
  intro front call prior
  have before : front <+: calls := (List.prefix_append front [call]).trans prior
  have tracks := run_tracks interval e made front fun part inside => few part (inside.trans before)
  exact (tracks.call call (few _ prior)).1

theorem current_length_le (e : FailureEpisode) (calls : List EpisodeCall) :
    (e.current calls).length ≤ calls.length := by
  induction calls using List.reverseRecOn with
  | nil => exact Nat.le_refl _
  | append_singleton calls call ih =>
      cases call with
      | recordFailure now =>
          rw [current_concat_failure, List.length_append, List.length_append]
          exact Nat.add_le_add_right ih 1
      | recordSuccess now => simp [current_concat_end]
      | reset => simp [current_concat_end]

/-- Two failures within the interval, one after it, and one with an earlier instant. -/
def fourFailures : List EpisodeCall :=
  [.recordFailure 0, .recordFailure 3000000000, .recordFailure 60000000000, .recordFailure 59000000000]

theorem failure_episodes_account_recovery :
    CallAccounts (byDefault.run fourFailures) (byDefault.current fourFailures)
      (.recordSuccess 61000000000) :=
  failure_episodes_account defaultSummaryInterval byDefault (dif_pos defaultSummaryInterval_positive)
    (fourFailures ++ [.recordSuccess 61000000000])
    (fun front before =>
      lt_of_le_of_lt ((current_length_le byDefault front).trans before.length_le) (by decide))
    fourFailures (.recordSuccess 61000000000) (List.prefix_refl _)

end FailureEpisode

end Pigs.Logger
