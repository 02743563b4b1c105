import Pigs.Logger.Rules

/-! The level gate of the main logger lets through what its rules admit, and which targets a rule text
matches. -/

set_option linter.dupNamespace false

namespace Pigs.Logger

theorem LevelFilter.le_max_left (first second : LevelFilter) : first.rank ≤ (first.max second).rank := by
  rw [LevelFilter.max]
  split_ifs with below
  · exact below
  · exact Nat.le_refl _

theorem LevelFilter.le_max_right (first second : LevelFilter) :
    second.rank ≤ (first.max second).rank := by
  rw [LevelFilter.max]
  split_ifs with below
  · exact Nat.le_refl _
  · omega

theorem matchTarget_append (target : String) (first second : List String) :
    matchTarget target (first ++ second) = (matchTarget target first || matchTarget target second) :=
  List.any_append

namespace Specify

def targets (s : Specify) : List String := parseTargets s.crateName

def matchesTarget (s : Specify) (target : String) : Bool := matchTarget target s.targets

/-- The rule that an entry without a file prefix becomes. -/
def rule (s : Specify) : LogRule := ⟨s.targets, s.level.map LevelText.filter⟩

end Specify

namespace Logger

def ruleEntries (log : Logger) : List Specify := log.entries.filter fun s => s.fileNamePrefix.isNone

/-- The level of the first entry without a file prefix that matches, or the default level. -/
def admittedLevel (log : Logger) (target : String) : LevelFilter :=
  match log.ruleEntries.find? fun s => s.matchesTarget target with
  | some s => (s.level.map LevelText.filter).getD log.level.filter
  | none => log.level.filter

/-- What the loop over the entries has put together. -/
structure Collected (log : Logger) (entries : List Specify) (setup : Setup) : Prop where
  excluded : ∀ target, matchTarget target setup.excludeTargets =
    entries.any fun s => s.fileNamePrefix.isSome && s.matchesTarget target
  rules : setup.mainRules = (entries.filter fun s => s.fileNamePrefix.isNone).map Specify.rule
  default : log.level.filter.rank ≤ setup.mainMaxLevel.rank
  gate : ∀ rule ∈ setup.mainRules,
    (rule.level.getD log.level.filter).rank ≤ setup.mainMaxLevel.rank

theorem Collected.add {log : Logger} {entries : List Specify} {setup : Setup}
    (collected : Collected log entries setup) (s : Specify) :
    Collected log (entries ++ [s]) (log.addSpecify setup s) := by
  cases named : s.fileNamePrefix with
  | some filePrefix =>
      simp only [addSpecify, named]
      refine ⟨?_, ?_, collected.default, collected.gate⟩
      · intro target
        rw [matchTarget_append, collected.excluded, List.any_append]
        simp [named, Specify.matchesTarget, Specify.targets]
      · rw [List.filter_append]
        simp [named, collected.rules]
  | none =>
      simp only [addSpecify, named]
      have grown := LevelFilter.le_max_left setup.mainMaxLevel
        ((s.level.map LevelText.filter).getD log.level.filter)
      refine ⟨?_, ?_, collected.default.trans grown, ?_⟩
      · intro target
        rw [collected.excluded, List.any_append]
        simp [named]
      · rw [List.filter_append, List.map_append, collected.rules]
        simp [named, Specify.rule, Specify.targets]
      · intro rule member
        rcases List.mem_append.mp member with earlier | last
        · exact (collected.gate rule earlier).trans grown
        · rw [List.mem_singleton.mp last]
          exact LevelFilter.le_max_right _ _

theorem foldl_collected (log : Logger) (done rest : List Specify) (setup : Setup)
    (collected : Collected log done setup) :
    Collected log (done ++ rest) (rest.foldl (addSpecify log) setup) := by
  induction rest generalizing done setup with
  | nil => simpa using collected
  | cons s rest ih =>
      have next := ih (done ++ [s]) (log.addSpecify setup s) (collected.add s)
      rwa [List.append_assoc, List.singleton_append] at next

theorem collected_nil (log : Logger) (level : LevelFilter)
    (above : log.level.filter.rank ≤ level.rank) : Collected log [] ⟨[], [], level, []⟩ where
  excluded _ := rfl
  rules := rfl
  default := above
  gate _ member := by cases member

theorem setup_collected (log : Logger) : Collected log log.entries log.setup :=
  foldl_collected log [] log.entries _ (log.collected_nil log.level.filter (Nat.le_refl _))

/-- The search through the rules finds the level of the first matching entry. -/
theorem effectiveLevel_setup (log : Logger) (target : String) :
    effectiveLevel target log.level.filter log.setup.mainRules = log.admittedLevel target := by
  rw [effectiveLevel, log.setup_collected.rules, List.find?_map, admittedLevel, ruleEntries]
  have same : ((fun rule : LogRule => matchTarget target rule.targets) ∘ Specify.rule) =
      fun s : Specify => s.matchesTarget target := rfl
  rw [same]
  cases (log.entries.filter fun s => s.fileNamePrefix.isNone).find? fun s => s.matchesTarget target with
  | none => rw [Option.map_none, Option.bind_none, Option.getD_none]
  | some s => rw [Option.map_some, Option.bind_some, Specify.rule]

/-- The gate is at no rule's level short. -/
theorem effectiveLevel_le_gate (log : Logger) (target : String) :
    (effectiveLevel target log.level.filter log.setup.mainRules).rank ≤ log.setup.mainMaxLevel.rank := by
  rw [effectiveLevel]
  cases found : log.setup.mainRules.find? fun rule => matchTarget target rule.targets with
  | none =>
      rw [Option.bind_none, Option.getD_none]
      exact log.setup_collected.default
  | some rule =>
      rw [Option.bind_some]
      exact log.setup_collected.gate rule (List.mem_of_find?_eq_some found)

/-- The main logger accepts a record exactly when no entry with a file of its own matches the target and
the level is within that of the first other entry that matches. -/
theorem main_logger_accepts_iff (log : Logger) (target : String) (level : Level) :
    log.mainLogger.accepts target level = true ↔
      (∀ s ∈ log.entries, s.fileNamePrefix.isSome → matchTarget target (parseTargets s.crateName) = false) ∧
        level.rank ≤ (log.admittedLevel target).rank := by
  have gate := log.effectiveLevel_le_gate target
  have excluded : matchTarget target log.setup.excludeTargets = false ↔
      ∀ s ∈ log.entries, s.fileNamePrefix.isSome →
        matchTarget target (parseTargets s.crateName) = false := by
    rw [log.setup_collected.excluded, List.any_eq_false]
    simp [Specify.matchesTarget, Specify.targets]
  rw [effectiveLevel_setup] at gate
  simp only [Dispatch.accepts, mainLogger, effectiveLevel_setup, Bool.and_eq_true, decide_eq_true_eq,
    Bool.not_eq_true']
  rw [excluded]
  constructor
  · rintro ⟨_, alone, within⟩
    exact ⟨alone, within⟩
  · rintro ⟨alone, within⟩
    exact ⟨within.trans gate, alone, within⟩

end Logger

/-- A target belongs to a rule text when it is that path or goes on from it with another segment. -/
def BelongsTo (target rule : String) : Prop :=
  target = rule ∨ (rule ++ "::").toList <+: target.toList

theorem matchRule_iff (target rule : String) (openEnded : rule.toList.getLast? ≠ some '$') :
    matchRule target rule = true ↔ rule.toList <+: target.toList := by
  rw [matchRule, if_neg openEnded, List.isPrefixOf_iff_prefix]

theorem matchTarget_singleton (target rule : String) :
    matchTarget target [rule] = matchRule target rule := by
  simp [matchTarget]

/-- A text without `$` selects what belongs to it, except that it also takes every target that goes on
from it inside a name. -/
theorem match_target_selects_path_iff (rule target : String) (openEnded : rule.toList.getLast? ≠ some '$') :
    (matchTarget target [rule] = true ↔ BelongsTo target rule) ↔
      ¬∃ rest, target.toList = rule.toList ++ rest ∧ rest ≠ [] ∧ ¬"::".toList <+: rest := by
  rw [matchTarget_singleton, matchRule_iff target rule openEnded, BelongsTo, String.toList_append]
  constructor
  · rintro agrees ⟨rest, continued, longer, inside⟩
    rcases agrees.mp ⟨rest, continued.symm⟩ with same | path
    · rw [same, List.self_eq_append_right] at continued
      exact longer continued
    · rw [continued, List.prefix_append_right_inj] at path
      exact inside path
  · intro bounded
    constructor
    · rintro ⟨rest, continued⟩
      by_cases longer : rest = []
      · left
        rw [longer, List.append_nil] at continued
        exact String.toList_inj.mp continued.symm
      · right
        have path : "::".toList <+: rest := by
          by_contra inside
          exact bounded ⟨rest, continued.symm, longer, inside⟩
        rw [← continued]
        exact (List.prefix_append_right_inj _).mpr path
    · rintro (same | path)
      · rw [same]
      · exact (List.prefix_append _ _).trans path

theorem match_target_selects_path_of_module :
    (matchTarget "base::utils" ["base"] = true ↔ BelongsTo "base::utils" "base") ↔
      ¬∃ rest, "base::utils".toList = "base".toList ++ rest ∧ rest ≠ [] ∧ ¬"::".toList <+: rest :=
  match_target_selects_path_iff "base" "base::utils" (by decide)

/-- The rule for `base` takes the records of `base_db`. -/
theorem match_target_takes_sibling_crate :
    ¬∀ crateName, ∀ rule ∈ parseTargets crateName, rule.toList.getLast? ≠ some '$' →
      ∀ target, matchTarget target [rule] = true ↔ BelongsTo target rule := by
  intro selects
  have agrees := selects "base" "base" (by decide) (by decide) "base_db"
  have other : ¬BelongsTo "base_db" "base" := by
    rw [BelongsTo]
    decide
  exact other (agrees.mp (by decide))

end Pigs.Logger
