import Pigs.Utils.Rt.Graceful
import Pigs.Utils.Rt.Order

/-! The whole application around `order_shutdown`: the registry, the tasks of every runtime, the handles
that were given out, and the shared `failed` flag. -/

namespace Pigs.Utils.Rt

open Pigs.Lib

/-- `handles` are the types of the `GlobalRuntime` handles that somebody has, and `raised` the tasks whose
wrapper has stored `failed` behind a panic. `outcome` is that of the returned `ShutdownReport`. -/
structure Application where
  registry : RuntimeRegistry
  tasks : RuntimeType → TaskState
  handles : List RuntimeType
  raised : List (RuntimeType × Nat)
  failed : Bool
  outcome : Option ShutdownOutcome

/-- `stage`, `stageWaited`, `stageRemoves`, `stageDown` and `stageReports` are the steps of the stage that
`shutdown` is in. -/
inductive AppAct where
  | registry (act : RegistryAct)
  | getRuntime (type : RuntimeType)
  | takeHandle (call : Nat)
  | spawn (type : RuntimeType) (call : Nat) (name : String)
  | task (type : RuntimeType) (act : TaskAct)
  | raise (type : RuntimeType) (id : Nat)
  | stage
  | stageWaited (ok : Bool)
  | stageRemoves
  | stageDown (ok : Bool)
  | stageReports
  | requestShutdownWithError
  | conclude

/-- The runtime whose stage is under way. -/
def ShutdownPc.stageType : ShutdownPc → Option RuntimeType
  | .waiting _ type _ => some type
  | .stopping _ type => some type
  | .waitingMain _ _ => some .main
  | _ => none

/-- The `outcome` of `order_shutdown`. -/
def applicationOutcome (failed : Bool) (reports : List TypedReport) : ShutdownOutcome :=
  if failed then
    .incomplete
  else if reports.all fun report => report.report.outcome = .graceful then
    .graceful
  else if reports.any fun report => report.report.outcome = .timedOut then
    .timedOut
  else
    .incomplete

namespace Application

def new : Application where
  registry := .new
  tasks _ := .new
  handles := []
  raised := []
  failed := false
  outcome := none

variable {shards taskShards : Nat} (orders : List RuntimeType) (total : Duration)
  (shardOf : RuntimeType → Fin shards) (taskShardOf : Nat → Fin taskShards)

def stepTask (s : Application) (type : RuntimeType) (act : TaskAct) : Application :=
  { s with
    tasks := Function.update s.tasks type
      ((s.tasks type).step type.asThreadName (decide (type = .main)) taskShardOf act) }

def stepRegistry (s : Application) (act : RegistryAct) : Application :=
  { s with registry := s.registry.step orders total shardOf act }

/-- What tasks and callers do on a handle. A panicked task has stored `failed` when its guard goes. -/
def onHandle (s : Application) (type : RuntimeType) : TaskAct → Application
  | .advanceSpawn call => s.stepTask taskShardOf type (.advanceSpawn call)
  | .finish id => s.stepTask taskShardOf type (.finish id)
  | .panics id => s.stepTask taskShardOf type (.panics id)
  | .dropTask id => s.stepTask taskShardOf type (.dropTask id)
  | .advanceGuard id =>
      if (s.tasks type).status id = .dropping (some .panicked) ∧ (type, id) ∉ s.raised then
        s
      else
        s.stepTask taskShardOf type (.advanceGuard id)
  | .cancel => s.stepTask taskShardOf type .cancel
  | _ => s

/-- The steps of the registry outside its stages, and `self.runtimes.remove` in a stage. -/
def onRegistry (s : Application) (act : RegistryAct) : Application :=
  match act with
  | .waited => s
  | .runtimeDown _ => s
  | .mainWaited _ => s
  | .advanceShutdown =>
      match s.registry.shutdown with
      | .removing _ type =>
          (s.stepTask taskShardOf type (.removed 0 (decide (type ∈ s.registry.runtimes)))).stepRegistry
            orders total shardOf .advanceShutdown
      | _ => s.stepRegistry orders total shardOf .advanceShutdown
  | _ => s.stepRegistry orders total shardOf act

/-- The next step of the stage on the runtime's own tasks. -/
def stage (s : Application) (act : TaskAct) : Application :=
  match s.registry.shutdown.stageType with
  | some type => s.stepTask taskShardOf type act
  | none => s

def stageRemoves (s : Application) : Application :=
  match s.registry.shutdown with
  | .waiting _ type _ =>
      match (s.tasks type).stages 0 with
      | .removing _ => s.stepRegistry orders total shardOf .waited
      | _ => s
  | _ => s

def stageReports (s : Application) : Application :=
  match s.registry.shutdown with
  | .stopping _ type =>
      match (s.tasks type).stages 0 with
      | .returned (some report) => s.stepRegistry orders total shardOf (.runtimeDown report)
      | _ => s
  | .waitingMain _ _ =>
      match (s.tasks .main).stages 0 with
      | .returned (some report) => s.stepRegistry orders total shardOf (.mainWaited report)
      | _ => s
  | _ => s

/-- `order_shutdown` reads `failed` and returns. -/
def conclude (s : Application) : Application :=
  match s.registry.shutdown, s.outcome with
  | .finished reports, none => { s with outcome := some (applicationOutcome s.failed reports) }
  | _, _ => s

def step (s : Application) : AppAct → Application
  | .registry act => s.onRegistry orders total shardOf taskShardOf act
  | .getRuntime type => if type ∈ s.registry.runtimes then { s with handles := type :: s.handles } else s
  | .takeHandle call =>
      match s.registry.registers call with
      | .returned (.ok type) => { s with handles := type :: s.handles }
      | _ => s
  | .spawn type call name =>
      if type ∈ s.handles then s.stepTask taskShardOf type (.spawn call name) else s
  | .task type act => s.onHandle taskShardOf type act
  | .raise type id =>
      if (s.tasks type).status id = .dropping (some .panicked) then
        { s with raised := (type, id) :: s.raised, failed := true }
      else
        s
  | .stage =>
      match s.registry.shutdown.stageType with
      | none => s
      | some type =>
          match (s.tasks type).stages 0 with
          | .idle => s.stage taskShardOf (.shutdown 0)
          | _ => s.stage taskShardOf (.advanceStage 0)
  | .stageWaited ok => s.stage taskShardOf (.waited 0 ok)
  | .stageRemoves => s.stageRemoves orders total shardOf
  | .stageDown ok => s.stage taskShardOf (.runtimeDown 0 ok)
  | .stageReports => s.stageReports orders total shardOf
  | .requestShutdownWithError => { s with failed := true }
  | .conclude => s.conclude

def run (acts : List AppAct) : Application := runFrom (step orders total shardOf taskShardOf) new acts

end Application

/-! A stage that has returned its report stays there. -/

namespace TaskState

theorem advanceSpawn_stages (threadName : String) (s : TaskState) (call : Nat) :
    (s.advanceSpawn threadName call).stages = s.stages := by
  rw [advanceSpawn]
  split
  · split <;> rfl
  · split <;> rfl
  all_goals rfl

theorem advanceGuard_stages (s : TaskState) (id : Nat) : (s.advanceGuard id).stages = s.stages := by
  have counted (fate : Fate) : (s.count fate).stages = s.stages := by cases fate <;> rfl
  rw [advanceGuard]
  split
  · exact counted _
  · rfl
  · split
    · rfl
    · exact counted _
  all_goals rfl

theorem step_returned {shards : Nat} (threadName : String) (main : Bool) (shardOf : Nat → Fin shards)
    (s : TaskState) (act : TaskAct) (call : Nat) (report : Option RuntimeShutdownReport)
    (returned : s.stages call = .returned report) :
    (s.step threadName main shardOf act).stages call = .returned report := by
  have others (other : Nat) (pc : StagePc) (moves : ∀ result, s.stages other ≠ .returned result) :
      (s.setStage other pc).stages call = .returned report := by
    have apart : call ≠ other := by
      rintro rfl
      exact moves report returned
    exact (Function.update_of_ne apart ..).trans returned
  cases act with
  | spawn other name =>
      simp only [step]
      split <;> exact returned
  | advanceSpawn other => exact (congrFun (advanceSpawn_stages threadName s other) call).trans returned
  | finish id =>
      simp only [step]
      split <;> exact returned
  | panics id =>
      simp only [step]
      split <;> exact returned
  | dropTask id =>
      simp only [step]
      split <;> exact returned
  | advanceGuard id => exact (congrFun (advanceGuard_stages s id) call).trans returned
  | shutdown other =>
      simp only [step]
      split
      · rename_i idle
        exact others other _ fun result same => by rw [idle] at same; cases same
      · exact returned
  | advanceStage other =>
      cases at_ : s.stages other with
      | idle => simpa [step, advanceStage, at_] using returned
      | waiting => simpa [step, advanceStage, at_] using returned
      | removing view => simpa [step, advanceStage, at_] using returned
      | shuttingDown view => simpa [step, advanceStage, at_] using returned
      | returned result => simpa [step, advanceStage, at_] using returned
      | locking =>
          simp only [step, advanceStage, at_]
          split
          · exact returned
          · exact others other _ fun result same => by rw [at_] at same; cases same
      | listingBefore view shard =>
          simp only [step, advanceStage, at_]
          split <;> exact others other _ fun result same => by rw [at_] at same; cases same
      | listing view shard =>
          simp only [step, advanceStage, at_]
          split <;> exact others other _ fun result same => by rw [at_] at same; cases same
      | _ =>
          simp only [step, advanceStage, at_]
          exact others other _ fun result same => by rw [at_] at same; cases same
  | waited other ok =>
      simp only [step]
      split
      · rename_i waiting
        split
        · exact returned
        · exact others other _ fun result same => by rw [waiting] at same; cases same
      · exact returned
  | removed other found =>
      simp only [step]
      split
      · rename_i view removing
        exact others other _ fun result same => by rw [removing] at same; cases same
      · exact returned
  | runtimeDown other ok =>
      simp only [step]
      split
      · rename_i view down
        exact others other _ fun result same => by rw [down] at same; cases same
      · exact returned
  | cancel => exact returned

end TaskState

/-! The registry and the handles. -/

namespace RuntimeRegistry

variable {shards : Nat} (orders : List RuntimeType) (total : Duration) (shardOf : RuntimeType → Fin shards)

/-- Nothing leaves the registry before the flag. -/
theorem step_runtimes_of_clear {s : RuntimeRegistry} (gated : Gated s) (clear : s.shuttingDown = false)
    (act : RegistryAct) (type : RuntimeType) (present : type ∈ s.runtimes) :
    type ∈ (s.step orders total shardOf act).runtimes := by
  have early : s.shutdown.flagged = false := gated.flag.symm.trans clear
  cases act with
  | register call other =>
      simp only [RuntimeRegistry.step]
      split <;> exact present
  | advanceRegister call =>
      simp only [RuntimeRegistry.step, RuntimeRegistry.advanceRegister]
      split
      · split <;> exact present
      · split <;> exact present
      · split
        · exact present
        · exact List.mem_append_left _ present
      all_goals exact present
  | shutdown =>
      simp only [RuntimeRegistry.step]
      split <;> exact present
  | advanceShutdown =>
      cases at_ : s.shutdown with
      | idle => simpa [RuntimeRegistry.step, RuntimeRegistry.advanceShutdown, at_] using present
      | locking =>
          simp only [RuntimeRegistry.step, RuntimeRegistry.advanceShutdown, at_]
          split <;> exact present
      | storing => simpa [RuntimeRegistry.step, RuntimeRegistry.advanceShutdown, at_] using present
      | _ =>
          rw [at_] at early
          cases early
  | listed keys =>
      simp only [RuntimeRegistry.step, RuntimeRegistry.listShard]
      split
      · split <;> exact present
      · exact present
  | elapse nanos => exact present
  | _ =>
      simp only [RuntimeRegistry.step]
      split <;> exact present

theorem Passed.subset {registered runtimes stopped gone : List RuntimeType} {reports : List TypedReport}
    (passed : Passed registered runtimes stopped reports gone) : runtimes ⊆ registered :=
  fun type present => ((passed.mem_runtimes type).mp present).1

/-- Nothing enters the registry behind the flag. -/
theorem Frozen.subset {mid s : RuntimeRegistry} (frozen : Frozen orders shardOf mid s) :
    s.runtimes ⊆ mid.runtimes := by
  have progress := frozen.progress
  cases at_ : s.shutdown with
  | idle => rw [at_] at progress; exact progress.elim
  | locking => rw [at_] at progress; exact progress.elim
  | storing => rw [at_] at progress; exact progress.elim
  | unlocking => rw [at_] at progress; exact progress.1 ▸ List.Subset.refl _
  | starting => rw [at_] at progress; exact progress.1 ▸ List.Subset.refl _
  | listing deadline ordered remaining shard =>
      rw [at_] at progress
      exact progress.1 ▸ List.Subset.refl _
  | visiting stages => rw [at_] at progress; exact progress.2.subset
  | waiting stages type timeout => rw [at_] at progress; exact progress.2.1.subset
  | removing stages type => rw [at_] at progress; exact progress.2.1.subset
  | stopping stages type =>
      rw [at_] at progress
      obtain ⟨_, before, passed, _, _, erased⟩ := progress
      rw [erased]
      exact List.Subset.trans List.erase_subset passed.subset
  | waitingMain reports timeout =>
      rw [at_] at progress
      obtain ⟨_, _, passed⟩ := progress
      exact passed.subset
  | takingMain reports =>
      rw [at_] at progress
      obtain ⟨_, _, _, _, _, passed⟩ := progress
      exact passed.subset
  | stoppingMain reports =>
      rw [at_] at progress
      obtain ⟨_, _, _, before, _, _, passed, erased⟩ := progress
      rw [erased]
      exact List.Subset.trans List.erase_subset passed.subset
  | finished reports =>
      rw [at_] at progress
      obtain ⟨_, _, passed⟩ := progress
      exact passed.subset

/-- Every handle is that of a runtime in the registry, behind the flag of one that was there at the flag. -/
structure Handled (s : RuntimeRegistry) (handles : List RuntimeType) : Prop where
  gated : Gated s
  early : s.shuttingDown = false → ∀ type ∈ handles, type ∈ s.runtimes
  late : s.shuttingDown = true → ∃ mid, Gated mid ∧ mid.shutdown.flagged = false ∧
    Frozen orders shardOf mid s ∧ ∀ type ∈ handles, type ∈ mid.runtimes

variable {s : RuntimeRegistry} {handles : List RuntimeType}

theorem Handled.step (handled : Handled orders shardOf s handles) (act : RegistryAct) :
    Handled orders shardOf (s.step orders total shardOf act) handles where
  gated := handled.gated.step orders total shardOf act
  early clear := by
    cases before : s.shuttingDown with
    | false =>
        intro type held
        exact step_runtimes_of_clear orders total shardOf handled.gated before act type
          (handled.early before type held)
    | true =>
        obtain ⟨mid, midGated, midEarly, frozen, _⟩ := handled.late before
        have after := frozen.step orders total shardOf (midGated.main midEarly) midGated.nodup handled.gated act
        rw [(handled.gated.step orders total shardOf act).flag, after.late] at clear
        cases clear
  late set := by
    cases before : s.shuttingDown with
    | false =>
        obtain ⟨storing, stored⟩ := flag_stored orders total shardOf s act before set
        rw [stored]
        exact ⟨s, handled.gated, by rw [storing]; rfl, frozen_start orders shardOf handled.gated storing,
          handled.early before⟩
    | true =>
        obtain ⟨mid, midGated, midEarly, frozen, held⟩ := handled.late before
        exact ⟨mid, midGated, midEarly,
          frozen.step orders total shardOf (midGated.main midEarly) midGated.nodup handled.gated act, held⟩

theorem Handled.cons (handled : Handled orders shardOf s handles) (type : RuntimeType)
    (known : type ∈ s.runtimes ∨ ∃ call, (s.registers call).accepted = some type) :
    Handled orders shardOf s (type :: handles) where
  gated := handled.gated
  early clear := by
    rintro other (_ | ⟨_, held⟩)
    · rcases known with present | ⟨call, accepted⟩
      · exact present
      · exact handled.gated.kept call type accepted (handled.gated.flag.symm.trans clear)
    · exact handled.early clear other held
  late set := by
    obtain ⟨mid, midGated, midEarly, frozen, held⟩ := handled.late set
    refine ⟨mid, midGated, midEarly, frozen, ?_⟩
    rintro other (_ | ⟨_, member⟩)
    · rcases known with present | ⟨call, accepted⟩
      · exact frozen.subset orders shardOf present
      · exact midGated.kept call type (by rw [frozen.calls call type accepted]; rfl) midEarly
    · exact held other member

end RuntimeRegistry

/-! The reports of the stages so far. -/

def ShutdownPc.soFar : ShutdownPc → List TypedReport
  | .visiting stages => stages.reports
  | .waiting stages _ _ => stages.reports
  | .removing stages _ => stages.reports
  | .stopping stages _ => stages.reports
  | .waitingMain reports _ => reports
  | .takingMain reports => reports
  | .stoppingMain reports => reports
  | .finished reports => reports
  | _ => []

namespace RuntimeRegistry

variable {shards : Nat} (orders : List RuntimeType) (total : Duration) (shardOf : RuntimeType → Fin shards)

/-- The report that a step of the registry takes in. -/
def reported (s : RuntimeRegistry) : RegistryAct → List TypedReport
  | .runtimeDown report =>
      match s.shutdown with
      | .stopping _ type => [⟨type, report⟩]
      | _ => []
  | .mainWaited report =>
      match s.shutdown with
      | .waitingMain _ _ => [⟨.main, report⟩]
      | _ => []
  | _ => []

theorem advanceRegister_shutdown (s : RuntimeRegistry) (call : Nat) :
    (s.advanceRegister call).shutdown = s.shutdown := by
  rw [advanceRegister]
  split
  · split <;> rfl
  · split <;> rfl
  · split <;> rfl
  all_goals rfl

theorem visit_soFar (s : RuntimeRegistry) (stages : Stages) :
    (s.visit stages).shutdown.soFar = stages.reports := by
  rw [visit]
  split
  · split <;> rfl
  · split <;> rfl

theorem step_soFar (s : RuntimeRegistry) (act : RegistryAct) :
    (s.step orders total shardOf act).shutdown.soFar = s.shutdown.soFar ++ s.reported act := by
  cases act with
  | register call type =>
      simp only [step, reported, List.append_nil]
      split <;> rfl
  | advanceRegister call =>
      rw [step, advanceRegister_shutdown]
      exact (List.append_nil _).symm
  | shutdown =>
      simp only [step, reported, List.append_nil]
      split
      · rename_i idle
        rw [idle]
        rfl
      · rfl
  | advanceShutdown =>
      rw [show s.reported .advanceShutdown = [] from rfl, List.append_nil]
      cases at_ : s.shutdown with
      | locking =>
          simp only [step, advanceShutdown, at_]
          split
          · rw [at_]
          · rfl
      | listing deadline ordered remaining shard =>
          simp only [step, advanceShutdown, at_]
          split
          · rw [at_]
          · rfl
      | visiting stages =>
          simp only [step, advanceShutdown, at_]
          exact visit_soFar s stages
      | removing stages type =>
          simp only [step, advanceShutdown, at_]
          split <;> rfl
      | takingMain reports =>
          simp only [step, advanceShutdown, at_]
          split <;> rfl
      | _ => simp [step, advanceShutdown, at_, ShutdownPc.soFar]
  | listed keys =>
      simp only [step, listShard, reported, List.append_nil]
      split
      · rename_i at_
        split
        · rw [at_]
          rfl
        · rfl
      · rfl
  | waited =>
      simp only [step, reported, List.append_nil]
      split
      · rename_i at_
        rw [at_]
        rfl
      · rfl
  | runtimeDown report =>
      cases at_ : s.shutdown with
      | stopping stages type =>
          simp only [step, reported, at_]
          rfl
      | _ => simp [step, reported, at_]
  | mainWaited report =>
      cases at_ : s.shutdown with
      | waitingMain reports timeout =>
          simp only [step, reported, at_]
          rfl
      | _ => simp [step, reported, at_]
  | elapse nanos => exact (List.append_nil _).symm

end RuntimeRegistry

/-! Tasks of a runtime that nobody has a handle of. -/

namespace TaskState

/-- No `spawn` was ever called. -/
def Untouched (s : TaskState) : Prop := s.accepted = [] ∧ ∀ call, s.spawns call = .idle

theorem advanceGuard_untouched (s : TaskState) (id : Nat) (untouched : s.Untouched) :
    (s.advanceGuard id).Untouched := by
  have counted (fate : Fate) : (s.count fate).Untouched := by cases fate <;> exact untouched
  rw [advanceGuard]
  split
  · exact counted _
  · exact untouched
  · split
    · exact untouched
    · exact counted _
  all_goals exact untouched

theorem advanceStage_untouched {shards : Nat} (main : Bool) (shardOf : Nat → Fin shards) (s : TaskState)
    (call : Nat) (untouched : s.Untouched) : (s.advanceStage main shardOf call).Untouched := by
  rw [advanceStage]
  split
  · split <;> exact untouched
  · exact untouched
  · exact untouched
  · exact untouched
  · split <;> exact untouched
  · split <;> exact untouched
  all_goals exact untouched

theorem step_untouched {shards : Nat} (threadName : String) (main : Bool) (shardOf : Nat → Fin shards)
    (s : TaskState) (act : TaskAct) (untouched : s.Untouched) (other : ∀ call name, act ≠ .spawn call name) :
    (s.step threadName main shardOf act).Untouched := by
  cases act with
  | spawn call name => exact absurd rfl (other call name)
  | advanceSpawn call =>
      have idle := untouched.2 call
      simpa [step, advanceSpawn, idle] using untouched
  | advanceGuard id => exact advanceGuard_untouched s id untouched
  | advanceStage call => exact advanceStage_untouched main shardOf s call untouched
  | waited call ok =>
      simp only [step]
      split
      · split <;> exact untouched
      · exact untouched
  | cancel => exact untouched
  | _ =>
      simp only [step]
      split <;> exact untouched

end TaskState

namespace Application

variable {shards taskShards : Nat} (orders : List RuntimeType) (total : Duration)
  (shardOf : RuntimeType → Fin shards) (taskShardOf : Nat → Fin taskShards)

/-- The runtimes keep their books, the registry its order, and each report is that of its runtime's stage. -/
structure Sane (s : Application) : Prop where
  handled : RuntimeRegistry.Handled orders shardOf s.registry s.handles
  owned : ∀ type, (s.tasks type).Owned
  untouched : ∀ type, type ∉ s.handles → (s.tasks type).Untouched
  reports : ∀ report ∈ s.registry.shutdown.soFar,
    (s.tasks report.runtimeType).stages 0 = .returned (some report.report)
  outcome : ∀ outcome, s.outcome = some outcome →
    ∃ failed reports, s.registry.shutdown = .finished reports ∧ outcome = applicationOutcome failed reports

theorem new_sane : Sane orders shardOf new where
  handled :=
    { gated := RuntimeRegistry.new_gated
      early := fun _ _ held => absurd held List.not_mem_nil
      late := fun set => by cases set }
  owned _ := .new
  untouched _ _ := ⟨rfl, fun _ => rfl⟩
  reports _ member := absurd member List.not_mem_nil
  outcome _ same := by cases same

variable {s : Application}

theorem Sane.stepTask (sane : Sane orders shardOf s) (type : RuntimeType) (act : TaskAct)
    (held : type ∈ s.handles ∨ ∀ call name, act ≠ .spawn call name) :
    Sane orders shardOf (s.stepTask taskShardOf type act) := by
  have each (P : TaskState → Prop) (other : RuntimeType) (before : P (s.tasks other))
      (stepped : other = type → P ((s.tasks type).step type.asThreadName (decide (type = .main)) taskShardOf act)) :
      P ((s.stepTask taskShardOf type act).tasks other) := by
    by_cases here : other = type
    · subst here
      simpa [Application.stepTask] using stepped rfl
    · simpa [Application.stepTask, here] using before
  constructor
  · exact sane.handled
  · intro other
    exact each TaskState.Owned other (sane.owned other) fun _ => TaskState.Owned.step _ _ _ _ act (sane.owned type)
  · intro other absent
    apply each TaskState.Untouched other (sane.untouched other absent)
    rintro rfl
    exact TaskState.step_untouched _ _ _ _ act (sane.untouched other absent) (held.resolve_left absent)
  · intro report member
    have before := sane.reports report member
    refine each (fun t => t.stages 0 = .returned (some report.report)) report.runtimeType before ?_
    intro same
    rw [same] at before
    exact TaskState.step_returned _ _ _ _ act 0 _ before
  · exact sane.outcome

/-- The end of `order_shutdown` is the end of the registry's work. -/
theorem step_finished (registry : RuntimeRegistry) (act : RegistryAct) (reports : List TypedReport)
    (finished : registry.shutdown = .finished reports) :
    (registry.step orders total shardOf act).shutdown = .finished reports := by
  cases act with
  | advanceRegister call => exact (RuntimeRegistry.advanceRegister_shutdown registry call).trans finished
  | register call type =>
      simp only [RuntimeRegistry.step]
      split <;> exact finished
  | _ => simp [RuntimeRegistry.step, RuntimeRegistry.advanceShutdown, RuntimeRegistry.listShard, finished]

theorem Sane.stepRegistry (sane : Sane orders shardOf s) (act : RegistryAct)
    (own : ∀ report ∈ s.registry.reported act,
      (s.tasks report.runtimeType).stages 0 = .returned (some report.report)) :
    Sane orders shardOf (s.stepRegistry orders total shardOf act) where
  handled := sane.handled.step orders total shardOf act
  owned := sane.owned
  untouched := sane.untouched
  reports report member := by
    have inside : report ∈ s.registry.shutdown.soFar ++ s.registry.reported act := by
      rw [← RuntimeRegistry.step_soFar orders total shardOf]
      exact member
    rcases List.mem_append.mp inside with before | now
    · exact sane.reports report before
    · exact own report now
  outcome outcome same := by
    obtain ⟨failed, reports, finished, value⟩ := sane.outcome outcome same
    exact ⟨failed, reports, step_finished orders total shardOf s.registry act reports finished, value⟩

theorem Sane.addHandle (sane : Sane orders shardOf s) (type : RuntimeType)
    (known : type ∈ s.registry.runtimes ∨ ∃ call, (s.registry.registers call).accepted = some type) :
    Sane orders shardOf { s with handles := type :: s.handles } where
  handled := sane.handled.cons orders shardOf type known
  owned := sane.owned
  untouched other absent := sane.untouched other fun held => absent (List.mem_cons_of_mem type held)
  reports := sane.reports
  outcome := sane.outcome

theorem Sane.flags (sane : Sane orders shardOf s) (raised : List (RuntimeType × Nat)) (failed : Bool) :
    Sane orders shardOf { s with raised := raised, failed := failed } :=
  ⟨sane.handled, sane.owned, sane.untouched, sane.reports, sane.outcome⟩

theorem Sane.onHandle (sane : Sane orders shardOf s) (type : RuntimeType) (act : TaskAct) :
    Sane orders shardOf (s.onHandle taskShardOf type act) := by
  have plain (act : TaskAct) (other : ∀ call name, act ≠ .spawn call name) :=
    sane.stepTask orders shardOf taskShardOf type act (.inr other)
  cases act with
  | advanceSpawn call => exact plain _ fun _ _ => nofun
  | finish id => exact plain _ fun _ _ => nofun
  | panics id => exact plain _ fun _ _ => nofun
  | dropTask id => exact plain _ fun _ _ => nofun
  | advanceGuard id =>
      simp only [Application.onHandle]
      split
      · exact sane
      · exact plain _ fun _ _ => nofun
  | cancel => exact plain _ fun _ _ => nofun
  | _ => exact sane

theorem Sane.onRegistry (sane : Sane orders shardOf s) (act : RegistryAct) :
    Sane orders shardOf (s.onRegistry orders total shardOf taskShardOf act) := by
  have silent (t : Application) (sane : Sane orders shardOf t) (act : RegistryAct)
      (none : t.registry.reported act = []) : Sane orders shardOf (t.stepRegistry orders total shardOf act) :=
    sane.stepRegistry orders total shardOf act fun report member => by
      rw [none] at member
      exact absurd member List.not_mem_nil
  cases act with
  | waited => exact sane
  | runtimeDown report => exact sane
  | mainWaited report => exact sane
  | advanceShutdown =>
      simp only [Application.onRegistry]
      split
      · rename_i type _
        have removed := sane.stepTask orders shardOf taskShardOf type
          (.removed 0 (decide (type ∈ s.registry.runtimes))) (.inr fun _ _ => nofun)
        exact silent _ removed _ rfl
      · exact silent _ sane _ rfl
  | _ => exact silent _ sane _ rfl

theorem Sane.stage (sane : Sane orders shardOf s) (act : TaskAct) (other : ∀ call name, act ≠ .spawn call name) :
    Sane orders shardOf (s.stage taskShardOf act) := by
  rw [Application.stage]
  split
  · exact sane.stepTask orders shardOf taskShardOf _ act (.inr other)
  · exact sane

theorem Sane.stageRemoves (sane : Sane orders shardOf s) :
    Sane orders shardOf (s.stageRemoves orders total shardOf) := by
  rw [Application.stageRemoves]
  split
  · split
    · exact sane.stepRegistry orders total shardOf _ fun report member => absurd member List.not_mem_nil
    · exact sane
  · exact sane

theorem Sane.stageReports (sane : Sane orders shardOf s) :
    Sane orders shardOf (s.stageReports orders total shardOf) := by
  rw [Application.stageReports]
  split
  · rename_i stages type at_
    split
    · rename_i report returned
      apply sane.stepRegistry
      simp [RuntimeRegistry.reported, at_, returned]
    · exact sane
  · rename_i reports timeout at_
    split
    · rename_i report returned
      apply sane.stepRegistry
      simp [RuntimeRegistry.reported, at_, returned]
    · exact sane
  · exact sane

theorem Sane.conclude (sane : Sane orders shardOf s) : Sane orders shardOf s.conclude := by
  rw [Application.conclude]
  split
  · rename_i reports finished _
    refine ⟨sane.handled, sane.owned, sane.untouched, sane.reports, ?_⟩
    intro outcome same
    cases same
    exact ⟨s.failed, reports, finished, rfl⟩
  · exact sane

theorem Sane.step (sane : Sane orders shardOf s) (act : AppAct) :
    Sane orders shardOf (s.step orders total shardOf taskShardOf act) := by
  cases act with
  | registry act => exact sane.onRegistry orders total shardOf taskShardOf act
  | getRuntime type =>
      simp only [Application.step]
      split
      · rename_i present
        exact sane.addHandle orders shardOf type (.inl present)
      · exact sane
  | takeHandle call =>
      simp only [Application.step]
      split
      · rename_i type returned
        exact sane.addHandle orders shardOf type (.inr ⟨call, by rw [returned]; rfl⟩)
      · exact sane
  | spawn type call name =>
      simp only [Application.step]
      split
      · rename_i held
        exact sane.stepTask orders shardOf taskShardOf type _ (.inl held)
      · exact sane
  | task type act => exact sane.onHandle orders shardOf taskShardOf type act
  | raise type id =>
      simp only [Application.step]
      split
      · exact sane.flags orders shardOf _ _
      · exact sane
  | stage =>
      simp only [Application.step]
      split
      · exact sane
      · split <;> exact sane.stage orders shardOf taskShardOf _ fun _ _ => nofun
  | stageWaited ok => exact sane.stage orders shardOf taskShardOf _ fun _ _ => nofun
  | stageRemoves => exact sane.stageRemoves orders total shardOf
  | stageDown ok => exact sane.stage orders shardOf taskShardOf _ fun _ _ => nofun
  | stageReports => exact sane.stageReports orders total shardOf
  | requestShutdownWithError => exact sane.flags orders shardOf s.raised true
  | conclude => exact sane.conclude orders shardOf

theorem run_sane (acts : List AppAct) :
    Sane orders shardOf (run orders total shardOf taskShardOf acts) :=
  invariant_run (step orders total shardOf taskShardOf) (Sane orders shardOf)
    (fun _ act sane => sane.step orders total shardOf taskShardOf act) new acts (new_sane orders shardOf)

theorem outcome_graceful {failed : Bool} {reports : List TypedReport}
    (graceful : applicationOutcome failed reports = .graceful) :
    failed = false ∧ ∀ report ∈ reports, report.report.outcome = .graceful := by
  rw [applicationOutcome] at graceful
  split at graceful
  · cases graceful
  · rename_i clear
    split at graceful
    · rename_i all
      exact ⟨by simpa using clear, by simpa using all⟩
    · split at graceful <;> cases graceful

/-- A runtime that was in the registry at the flag has its report once `order_shutdown` is through. -/
theorem Sane.reported (sane : Sane orders shardOf s) (reports : List TypedReport)
    (finished : s.registry.shutdown = .finished reports) (type : RuntimeType) (held : type ∈ s.handles) :
    (∃ report ∈ reports, report.runtimeType = type) ∧ type ∈ s.registry.stopped ∧
      type ∉ s.registry.runtimes := by
  have set : s.registry.shuttingDown = true := by
    rw [sane.handled.gated.flag, finished]
    rfl
  obtain ⟨mid, gated, early, frozen, known⟩ := sane.handled.late set
  have visited := frozen.visitedOnce orders shardOf (gated.main early) reports (by rw [finished]; rfl)
  refine ⟨?_, visited.finished finished type (known type held)⟩
  obtain ⟨ordered, omitted, types, first, _, second, _⟩ := visited.order
  have listed : type ∈ reports.map TypedReport.runtimeType := by
    rw [types]
    by_cases main : type = .main
    · exact List.mem_append_right _ (List.mem_singleton.mpr main)
    · apply List.mem_append_left
      by_cases declared : type ∈ orders
      · exact List.mem_append_left _ ((first type).mpr ⟨declared, known type held, main⟩)
      · exact List.mem_append_right _ ((second type).mpr ⟨declared, known type held, main⟩)
  exact List.mem_map.mp listed

/-- `order_shutdown` reports `Graceful` only if every task that any handle was ever given is over for good,
none of them by a panic, and every runtime that has a handle is stopped and out of the registry. -/
theorem graceful_application_lost_nothing (acts : List AppAct)
    (graceful : (run orders total shardOf taskShardOf acts).outcome = some .graceful) :
    let s := run orders total shardOf taskShardOf acts
    (∀ type, ∀ id ∈ (s.tasks type).accepted, ∃ fate, (s.tasks type).status id = .gone fate ∧ fate ≠ .panicked) ∧
    ∀ type ∈ s.handles, type ∈ s.registry.stopped ∧ type ∉ s.registry.runtimes := by
  intro s
  have sane : Sane orders shardOf s := run_sane orders total shardOf taskShardOf acts
  obtain ⟨failed, reports, finished, value⟩ := sane.outcome _ graceful
  obtain ⟨_, all⟩ := outcome_graceful value.symm
  constructor
  · intro type id member
    have held : type ∈ s.handles := by
      by_contra absent
      rw [(sane.untouched type absent).1] at member
      exact absurd member List.not_mem_nil
    obtain ⟨⟨report, listed, rfl⟩, _⟩ := sane.reported orders shardOf reports finished type held
    have returned := sane.reports report (by rw [finished]; exact listed)
    exact ((sane.owned report.runtimeType).sound.graceful returned (all report listed)).1 id member
  · intro type held
    exact (sane.reported orders shardOf reports finished type held).2

/-- One task of the main runtime ends, and the application is shut down behind it. -/
def oneTaskDown : List AppAct :=
  List.flatten
    [[.getRuntime .main, .spawn .main 0 "a"], List.replicate 6 (.task .main (.advanceSpawn 0)),
      [.task .main (.finish 0)], List.replicate 4 (.task .main (.advanceGuard 0)), [.registry .shutdown],
      List.replicate 4 (.registry .advanceShutdown),
      [.registry (.listed [.main]), .registry .advanceShutdown, .registry .advanceShutdown],
      List.replicate 5 .stage, [.stageWaited true], List.replicate 5 .stage,
      [.stageReports, .registry .advanceShutdown, .registry .advanceShutdown, .conclude]]

theorem graceful_application_lost_nothing_one_task :
    let s := run [] (.ofNanos 10000000000) (fun _ => (0 : Fin 1)) (fun _ => (0 : Fin 1)) oneTaskDown
    (s.tasks .main).accepted = [0] ∧
      ∀ type, ∀ id ∈ (s.tasks type).accepted, ∃ fate, (s.tasks type).status id = .gone fate ∧ fate ≠ .panicked := by
  intro s
  have graceful : s.outcome = some .graceful := by decide +kernel
  have lost := graceful_application_lost_nothing [] (.ofNanos 10000000000) (fun _ => (0 : Fin 1))
    (fun _ => (0 : Fin 1)) oneTaskDown graceful
  constructor
  · decide +kernel
  · exact lost.1

end Application

end Pigs.Utils.Rt
