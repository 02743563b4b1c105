import Pigs.Logger.Episode

/-! The decisions that are emitted in an episode lie an interval apart, and a failure that comes an
interval after the last of them is emitted. Nothing here needs the instants to grow. -/

namespace Pigs.Logger

open Pigs.Lib

namespace FailureEpisode

/-- The instants of the emitted decisions of an episode. -/
def emitted (episode : List (Nat × EpisodeDecision)) : List Nat :=
  (episode.filter fun failure => failure.2 ≠ .suppressed).map (·.1)

/-- Each instant lies at least `gap` behind every earlier one. -/
def Spaced (gap : Nat) (instants : List Nat) : Prop :=
  instants.Pairwise fun earlier later => earlier + gap ≤ later

/-- What the fields say about the emitted decisions. -/
structure Rated (e : FailureEpisode) (episode : List (Nat × EpisodeDecision)) : Prop where
  active : e.startedAt = none ↔ episode = []
  last : e.lastSummaryAt = (emitted episode).getLast?
  first : (emitted episode).head? = (episode.head?).map (·.1)
  spaced : Spaced e.summaryInterval.asNanos (emitted episode)

theorem emitted_concat_suppressed (episode : List (Nat × EpisodeDecision)) (now : Nat) :
    emitted (episode ++ [(now, .suppressed)]) = emitted episode := by
  simp [emitted, List.filter_append]

theorem emitted_concat (episode : List (Nat × EpisodeDecision)) (now : Nat) (decision : EpisodeDecision)
    (loud : decision ≠ .suppressed) :
    emitted (episode ++ [(now, decision)]) = emitted episode ++ [now] := by
  simp [emitted, List.filter_append, loud]

/-- The instants of a spaced list are at most its last one. -/
theorem Spaced.le_last {gap last : Nat} {instants : List Nat} (spaced : Spaced gap instants)
    (final : instants.getLast? = some last) : ∀ instant ∈ instants, instant ≤ last := by
  intro instant member
  obtain ⟨front, rfl⟩ := List.getLast?_eq_some_iff.mp final
  rcases List.mem_append.mp member with earlier | same
  · have apart := (List.pairwise_append.mp spaced).2.2 instant earlier last (List.mem_singleton_self _)
    omega
  · exact Nat.le_of_eq (List.mem_singleton.mp same)

theorem Spaced.concat {gap last now : Nat} {instants : List Nat} (spaced : Spaced gap instants)
    (final : instants.getLast? = some last) (late : last + gap ≤ now) : Spaced gap (instants ++ [now]) := by
  refine List.pairwise_append.mpr ⟨spaced, List.pairwise_singleton .., ?_⟩
  intro instant member next single
  rw [List.mem_singleton.mp single]
  have before := spaced.le_last final instant member
  omega

/-- A spaced list whose instants lie between `first` and `last` fills the time between them. -/
theorem Spaced.length_mul_le {gap first last : Nat} {instants : List Nat}
    (spaced : Spaced gap (first :: instants)) (bound : ∀ instant ∈ first :: instants, instant ≤ last) :
    first + instants.length * gap ≤ last := by
  induction instants generalizing first with
  | nil => simpa using bound first (List.mem_singleton_self _)
  | cons next later ih =>
      obtain ⟨apart, rest⟩ := List.pairwise_cons.mp spaced
      have step : first + gap ≤ next := apart next (List.mem_cons_self ..)
      have filled := ih rest fun instant member => bound instant (List.mem_cons_of_mem _ member)
      calc first + (later.length + 1) * gap = first + gap + later.length * gap := by ring
        _ ≤ next + later.length * gap := Nat.add_le_add_right step _
        _ ≤ last := filled

theorem Spaced.length_le {gap first last : Nat} {instants : List Nat} (positive : 0 < gap)
    (spaced : Spaced gap (first :: instants)) (bound : ∀ instant ∈ first :: instants, instant ≤ last) :
    (first :: instants).length ≤ 1 + (last - first) / gap := by
  have filled := spaced.length_mul_le bound
  have share : instants.length ≤ (last - first) / gap := by
    rw [Nat.le_div_iff_mul_le positive]
    omega
  rw [List.length_cons]
  omega

theorem rated_nil (e : FailureEpisode) (inactive : e.startedAt = none) (none : e.lastSummaryAt = none) :
    Rated e [] :=
  ⟨iff_of_true inactive rfl, none, rfl, List.Pairwise.nil⟩

theorem reset_rated (e : FailureEpisode) : Rated e.reset [] := rated_nil e.reset rfl rfl

theorem recordFailure_interval (e : FailureEpisode) (now : Nat) :
    (e.recordFailure now).1.summaryInterval = e.summaryInterval := by
  simp only [recordFailure]
  split
  · rfl
  · split <;> rfl

/-- The decision in an active episode. -/
theorem recordFailure_active (e : FailureEpisode) (now startedAt last : Nat)
    (active : e.startedAt = some startedAt) (final : e.lastSummaryAt = some last) :
    (last + e.summaryInterval.asNanos ≤ now ∧ (e.recordFailure now).2 ≠ .suppressed ∧
        (e.recordFailure now).1.startedAt = some startedAt ∧
        (e.recordFailure now).1.lastSummaryAt = some now) ∨
      (now < last + e.summaryInterval.asNanos ∧ (e.recordFailure now).2 = .suppressed ∧
        (e.recordFailure now).1.startedAt = some startedAt ∧
        (e.recordFailure now).1.lastSummaryAt = some last) := by
  have positive := e.positive
  simp only [recordFailure, active, final, Option.getD_some, elapsed, Duration.ofNanos_asNanos]
  split
  case isTrue late => exact Or.inl ⟨by omega, by simp, rfl, rfl⟩
  case isFalse early => exact Or.inr ⟨by omega, rfl, rfl, rfl⟩

theorem Rated.last_some {e : FailureEpisode} {episode : List (Nat × EpisodeDecision)}
    (rated : Rated e episode) (nonempty : episode ≠ []) : ∃ last, e.lastSummaryAt = some last := by
  obtain ⟨failure, rest, rfl⟩ := List.exists_cons_of_ne_nil nonempty
  have first := rated.first
  rw [rated.last]
  cases emissions : emitted (failure :: rest) with
  | nil =>
      rw [emissions] at first
      cases first
  | cons instant later => exact ⟨_, List.getLast?_eq_some_getLast (by simp)⟩

theorem Rated.failure {e : FailureEpisode} {episode : List (Nat × EpisodeDecision)}
    (rated : Rated e episode) (now : Nat) :
    Rated (e.recordFailure now).1 (episode ++ [(now, (e.recordFailure now).2)]) := by
  cases active : e.startedAt with
  | none =>
      obtain rfl := rated.active.mp active
      simp only [recordFailure, active]
      exact ⟨by simp, rfl, rfl, List.pairwise_singleton ..⟩
  | some startedAt =>
      have nonempty : episode ≠ [] := by
        intro empty
        rw [rated.active.mpr empty] at active
        cases active
      obtain ⟨last, final⟩ := rated.last_some nonempty
      have head : ∀ failure, (episode ++ [failure]).head? = episode.head? := by
        intro failure
        rw [List.head?_append_of_ne_nil _ nonempty]
      have lastEmitted : (emitted episode).getLast? = some last := rated.last.symm.trans final
      rcases recordFailure_active e now startedAt last active final with
        ⟨late, loud, started, moved⟩ | ⟨_, quiet, started, kept⟩
      · refine ⟨by simp [started], ?_, ?_, ?_⟩
        · rw [moved, emitted_concat _ _ _ loud, List.getLast?_concat]
        · rw [emitted_concat _ _ _ loud, head, ← rated.first, List.head?_append_of_ne_nil]
          intro empty
          rw [empty] at lastEmitted
          cases lastEmitted
        · rw [recordFailure_interval, emitted_concat _ _ _ loud]
          exact rated.spaced.concat lastEmitted late
      · rw [quiet]
        refine ⟨by simp [started], ?_, ?_, ?_⟩
        · rw [kept, emitted_concat_suppressed, lastEmitted]
        · rw [emitted_concat_suppressed, head, rated.first]
        · rw [recordFailure_interval, emitted_concat_suppressed]
          exact rated.spaced

theorem recordSuccess_rated {e : FailureEpisode} {episode : List (Nat × EpisodeDecision)}
    (rated : Rated e episode) (now : Nat) : Rated (e.recordSuccess now).1 [] := by
  cases active : e.startedAt with
  | none =>
      obtain rfl := rated.active.mp active
      simpa only [recordSuccess, active] using rated
  | some startedAt =>
      simp only [recordSuccess, active]
      exact reset_rated e

theorem step_interval (e : FailureEpisode) (call : EpisodeCall) :
    (e.step call).summaryInterval = e.summaryInterval := by
  cases call with
  | recordFailure now => exact recordFailure_interval e now
  | recordSuccess now =>
      simp only [FailureEpisode.step, recordSuccess]
      split <;> rfl
  | reset => rfl

theorem run_rated (interval : Duration) (e : FailureEpisode) (made : new interval = some e)
    (calls : List EpisodeCall) :
    Rated (e.run calls) (e.current calls) ∧ (e.run calls).summaryInterval = interval := by
  induction calls using List.reverseRecOn with
  | nil =>
      simp only [new, Option.dite_none_right_eq_some, Option.some.injEq] at made
      obtain ⟨positive, rfl⟩ := made
      exact ⟨rated_nil _ rfl rfl, rfl⟩
  | append_singleton calls call ih =>
      obtain ⟨rated, same⟩ := ih
      rw [run_concat, step_interval]
      refine ⟨?_, same⟩
      cases call with
      | recordFailure now =>
          rw [current_concat_failure]
          exact rated.failure now
      | recordSuccess now =>
          rw [current_concat_end e calls _ (by simp)]
          exact recordSuccess_rated rated now
      | reset =>
          rw [current_concat_end e calls _ (by simp)]
          exact reset_rated (e.run calls)

/-- Spaced instants that begin with `first`, counted up to an instant. -/
theorem Spaced.count_le {gap first : Nat} {instants : List Nat} (positive : 0 < gap)
    (spaced : Spaced gap instants) (begins : instants.head? = some first) (bound : Nat) :
    (instants.filter fun instant => instant ≤ bound).length ≤ 1 + (bound - first) / gap := by
  obtain ⟨later, rfl⟩ := List.head?_eq_some_iff.mp begins
  by_cases reached : first ≤ bound
  · have kept : (first :: later).filter (fun instant => instant ≤ bound) =
        first :: later.filter fun instant => instant ≤ bound :=
      List.filter_cons_of_pos (by simpa using reached)
    have part : Spaced gap ((first :: later).filter fun instant => instant ≤ bound) := spaced.filter _
    rw [kept] at part ⊢
    refine part.length_le positive ?_
    intro instant member
    rcases List.mem_cons.mp member with rfl | inside
    · exact reached
    · simpa using (List.mem_filter.mp inside).2
  · have none : (first :: later).filter (fun instant => instant ≤ bound) = [] := by
      refine List.filter_eq_nil_iff.mpr ?_
      intro instant member
      have behind : first ≤ instant := by
        rcases List.mem_cons.mp member with rfl | inside
        · exact Nat.le_refl _
        · have apart := (List.pairwise_cons.mp spaced).1 instant inside
          omega
      simp only [decide_eq_true_eq]
      omega
    rw [none]
    exact Nat.zero_le _

theorem recordFailure_inactive (e : FailureEpisode) (now : Nat) (inactive : e.startedAt = none) :
    (e.recordFailure now).2 = .started := by
  simp only [recordFailure, inactive]

/-- In every episode of every run the first failure is emitted, the emitted decisions lie an interval
apart, a failure an interval after the last of them is emitted too, and there are at most as many as
intervals have begun. -/
theorem failure_logging_is_spaced (interval : Duration) (e : FailureEpisode)
    (made : new interval = some e) (calls : List EpisodeCall) :
    (∀ now, e.current calls = [] → ((e.run calls).recordFailure now).2 = .started) ∧
      (emitted (e.current calls)).head? = (e.current calls).head?.map (·.1) ∧
      Spaced interval.asNanos (emitted (e.current calls)) ∧
      (∀ last now, (emitted (e.current calls)).getLast? = some last → last + interval.asNanos ≤ now →
        ((e.run calls).recordFailure now).2 ≠ .suppressed) ∧
      ∀ started decision later instant, e.current calls = (started, decision) :: later →
        ((emitted (e.current calls)).filter fun emission => emission ≤ instant).length ≤
          1 + (instant - started) / interval.asNanos := by
  obtain ⟨rated, same⟩ := run_rated interval e made calls
  have positive := (e.run calls).positive
  have spaced := rated.spaced
  rw [same] at positive spaced
  refine ⟨?_, rated.first, spaced, ?_, ?_⟩
  · intro now fresh
    exact recordFailure_inactive (e.run calls) now (rated.active.mpr fresh)
  · intro last now final late
    have active : ∃ startedAt, (e.run calls).startedAt = some startedAt := by
      refine Option.ne_none_iff_exists'.mp fun inactive => ?_
      rw [rated.active.mp inactive] at final
      cases final
    obtain ⟨startedAt, active⟩ := active
    rcases recordFailure_active _ now startedAt last active (rated.last.trans final) with
      ⟨_, loud, _⟩ | ⟨early, _⟩
    · exact loud
    · rw [same] at early
      omega
  · intro started decision later instant begins
    have head := rated.first
    rw [begins] at head spaced ⊢
    exact spaced.count_le positive head instant

/-- Of failures at 5 s, 64 s and 65 s the first and the last are emitted, and so is one at 125 s. -/
theorem failure_logging_is_spaced_by_default :
    let calls : List EpisodeCall :=
      [.recordFailure 5000000000, .recordFailure 64000000000, .recordFailure 65000000000]
    emitted (byDefault.current calls) = [5000000000, 65000000000] ∧
      Spaced defaultSummaryInterval.asNanos (emitted (byDefault.current calls)) ∧
      ((byDefault.run calls).recordFailure 125000000000).2 ≠ .suppressed := by
  intro calls
  have spec := failure_logging_is_spaced defaultSummaryInterval byDefault
    (dif_pos defaultSummaryInterval_positive) calls
  exact ⟨by decide, spec.2.2.1, spec.2.2.2.1 65000000000 125000000000 (by decide) (by decide)⟩

end FailureEpisode

end Pigs.Logger
