import Pigs.Lib.Run

/-! The managed tasks of one `GlobalRuntime`: `TaskState` with its gate, `spawn` and `spawn_blocking`
on any handle, the guard of each task, and the shutdown stages `shutdown_runtime` and
`prepare_main_shutdown`. -/

namespace Pigs.Utils.Rt

/-- The counter that a task ends up in. -/
inductive Fate where
  | completed
  | cancelled
  | panicked
  deriving DecidableEq

/-- The way of a task: put into `active`, handed to the tracker, in `complete` or `panic` of its guard
(`ending` and then `counted`), in the `drop` of its guard (`dropping`, with what was counted before, and
then `dropCounted`), and let go by the guard and by the tracker. -/
inductive TaskStatus where
  | absent
  | started
  | tracked
  | ending (fate : Fate)
  | counted (fate : Fate)
  | dropping (before : Option Fate)
  | dropCounted
  | finished (fate : Fate)
  | gone (fate : Fate)
  deriving DecidableEq

namespace TaskStatus

def inActive : TaskStatus → Bool
  | .started => true
  | .tracked => true
  | .ending _ => true
  | .counted _ => true
  | .dropping none => true
  | .dropCounted => true
  | _ => false

/-- A token of the tracker is held for the task. -/
def onTracker : TaskStatus → Bool
  | .tracked => true
  | .ending _ => true
  | .counted _ => true
  | .dropping _ => true
  | .dropCounted => true
  | .finished _ => true
  | _ => false

def countedAs (fate : Fate) : TaskStatus → Bool
  | .counted counter => counter = fate
  | .dropping (some counter) => counter = fate
  | .dropCounted => .cancelled = fate
  | .finished counter => counter = fate
  | .gone counter => counter = fate
  | _ => false

/-- The guard has counted the task and not removed it yet. -/
def halfDone : TaskStatus → Bool
  | .counted _ => true
  | .dropCounted => true
  | _ => false

end TaskStatus

inductive Holder where
  | spawn (call : Nat)
  | stage (call : Nat)
  deriving DecidableEq

/-- A `spawn` or `spawn_blocking`. From `checking` to `unlocking` it holds the gate; `starting` and
`inserting` are `start_locked`. -/
inductive SpawnPc where
  | idle
  | locking (name : String)
  | checking (name : String)
  | starting (name : String)
  | inserting (id : Nat) (name : String)
  | tracking (id : Nat)
  | unlocking (id : Nat)
  | returned (result : Except String Nat)

/-- The task that a `spawn` has put into `active`. -/
def SpawnPc.task : SpawnPc → Option Nat
  | .tracking id => some id
  | .unlocking id => some id
  | .returned (.ok id) => some id
  | _ => none

inductive ShutdownOutcome where
  | graceful
  | timedOut
  | incomplete
  deriving DecidableEq

structure RuntimeShutdownReport where
  outcome : ShutdownOutcome
  completedTasks : Nat
  cancelledTasks : Nat
  panickedTasks : Nat
  remainingTasks : List String

/-- What a stage has read so far. `before` is `remaining_before_shutdown`. -/
structure StageView where
  waited : Bool
  before : List String
  shutdownOk : Bool
  remaining : List String
  panicked : Nat
  completed : Nat
  cancelled : Nat

def StageView.new (waited : Bool) : StageView where
  waited := waited
  before := []
  shutdownOk := true
  remaining := []
  panicked := 0
  completed := 0
  cancelled := 0

namespace StageView

def shutdownRuntimeOutcome (v : StageView) : ShutdownOutcome :=
  if !v.waited then
    .timedOut
  else if !v.shutdownOk || !v.remaining.isEmpty || 0 < v.panicked then
    .incomplete
  else
    .graceful

def shutdownRuntimeReport (v : StageView) : RuntimeShutdownReport where
  outcome := v.shutdownRuntimeOutcome
  completedTasks := v.completed
  cancelledTasks := v.cancelled
  panickedTasks := v.panicked
  remainingTasks :=
    if v.remaining.isEmpty then
      v.before.filter fun _ => v.shutdownRuntimeOutcome ≠ .graceful
    else
      v.remaining

def prepareMainOutcome (v : StageView) : ShutdownOutcome :=
  if !v.waited then
    .timedOut
  else if v.remaining.isEmpty && v.panicked = 0 then
    .graceful
  else
    .incomplete

def prepareMainReport (v : StageView) : RuntimeShutdownReport where
  outcome := v.prepareMainOutcome
  completedTasks := v.completed
  cancelledTasks := v.cancelled
  panickedTasks := v.panicked
  remainingTasks := v.remaining

end StageView

/-- A shutdown stage. `closing` and `closingTracker` hold the gate. The map of active tasks is listed
shard by shard. -/
inductive StagePc where
  | idle
  | locking
  | closing
  | closingTracker
  | cancelling
  | waiting
  | listingBefore (view : StageView) (shard : Nat)
  | removing (view : StageView)
  | shuttingDown (view : StageView)
  | listing (view : StageView) (shard : Nat)
  | loadingPanicked (view : StageView)
  | loadingCompleted (view : StageView)
  | loadingCancelled (view : StageView)
  | returned (report : Option RuntimeShutdownReport)

/-- The stage has closed the gate. -/
def StagePc.closed : StagePc → Bool
  | .idle => false
  | .locking => false
  | .closing => false
  | _ => true

/-- `finished` is the field of each task's guard. `status` and `accepted` tell what has become of each
task and which were put into `active`. -/
structure TaskState where
  gate : Option Holder
  accepting : Bool
  nextId : Nat
  active : List (Nat × String)
  completed : Nat
  cancelled : Nat
  panicked : Nat
  trackerClosed : Bool
  cancel : Bool
  finished : Nat → Bool
  status : Nat → TaskStatus
  accepted : List Nat
  spawns : Nat → SpawnPc
  stages : Nat → StagePc

/-- `finish` is the end of a task's future, `panics` a panic of it that `catch_unwind` sees and
`dropTask` its drop, polled or not. -/
inductive TaskAct where
  | spawn (call : Nat) (name : String)
  | advanceSpawn (call : Nat)
  | finish (id : Nat)
  | panics (id : Nat)
  | dropTask (id : Nat)
  | advanceGuard (id : Nat)
  | shutdown (call : Nat)
  | advanceStage (call : Nat)
  | waited (call : Nat) (ok : Bool)
  | removed (call : Nat) (found : Bool)
  | runtimeDown (call : Nat) (ok : Bool)
  | cancel

namespace TaskState

def new : TaskState where
  gate := none
  accepting := true
  nextId := 0
  active := []
  completed := 0
  cancelled := 0
  panicked := 0
  trackerClosed := false
  cancel := false
  finished _ := false
  status _ := .absent
  accepted := []
  spawns _ := .idle
  stages _ := .idle

def counter (s : TaskState) : Fate → Nat
  | .completed => s.completed
  | .cancelled => s.cancelled
  | .panicked => s.panicked

def count (s : TaskState) : Fate → TaskState
  | .completed => { s with completed := s.completed + 1 }
  | .cancelled => { s with cancelled := s.cancelled + 1 }
  | .panicked => { s with panicked := s.panicked + 1 }

/-- `active.insert(id, name)` and the new guard. -/
def activate (s : TaskState) (id : Nat) (name : String) : TaskState :=
  { s with
    active := (s.active.filter fun entry => entry.1 ≠ id) ++ [(id, name)]
    finished := Function.update s.finished id false
    accepted := s.accepted ++ [id] }

/-- `active.remove(&id)` -/
def deactivate (s : TaskState) (id : Nat) : TaskState :=
  { s with active := s.active.filter fun entry => entry.1 ≠ id }

/-- `self.finished = true` -/
def setFinished (s : TaskState) (id : Nat) : TaskState :=
  { s with finished := Function.update s.finished id true }

def setStatus (s : TaskState) (id : Nat) (status : TaskStatus) : TaskState :=
  { s with status := Function.update s.status id status }

def setSpawn (s : TaskState) (call : Nat) (pc : SpawnPc) : TaskState :=
  { s with spawns := Function.update s.spawns call pc }

def setStage (s : TaskState) (call : Nat) (pc : StagePc) : TaskState :=
  { s with stages := Function.update s.stages call pc }

/-- The error of `runtime_task_rejected`. -/
def rejected (threadName name : String) : String :=
  s!"runtime no longer accepts tasks: runtime_type={threadName}, task={name}"

/-- The next step of a `spawn`. -/
def advanceSpawn (threadName : String) (s : TaskState) (call : Nat) : TaskState :=
  match s.spawns call with
  | .locking name =>
      match s.gate with
      | some _ => s
      | none => { s with gate := some (.spawn call) }.setSpawn call (.checking name)
  | .checking name =>
      if s.accepting then
        s.setSpawn call (.starting name)
      else
        { s with gate := none }.setSpawn call (.returned (.error (rejected threadName name)))
  | .starting name => { s with nextId := s.nextId + 1 }.setSpawn call (.inserting s.nextId name)
  | .inserting id name =>
      ((s.activate id name).setStatus id .started).setSpawn call (.tracking id)
  | .tracking id => (s.setStatus id .tracked).setSpawn call (.unlocking id)
  | .unlocking id => { s with gate := none }.setSpawn call (.returned (.ok id))
  | _ => s

/-- The next step of the guard of a task: of `complete` or `panic`, of its `drop`, and then the tracker's
token. -/
def advanceGuard (s : TaskState) (id : Nat) : TaskState :=
  match s.status id with
  | .ending fate => (s.count fate).setStatus id (.counted fate)
  | .counted fate => ((s.setFinished id).deactivate id).setStatus id (.dropping (some fate))
  | .dropping before =>
      if s.finished id then
        s.setStatus id (.finished (before.getD .cancelled))
      else
        (s.count .cancelled).setStatus id .dropCounted
  | .dropCounted => (s.deactivate id).setStatus id (.finished .cancelled)
  | .finished fate => s.setStatus id (.gone fate)
  | _ => s

/-- `active_names` of one shard. -/
def shardNames {shards : Nat} (shardOf : Nat → Fin shards) (s : TaskState) (shard : Nat) : List String :=
  (s.active.filter fun entry => (shardOf entry.1).val = shard).map (·.2)

/-- The next step of a stage. -/
def advanceStage {shards : Nat} (main : Bool) (shardOf : Nat → Fin shards) (s : TaskState) (call : Nat) :
    TaskState :=
  match s.stages call with
  | .locking =>
      match s.gate with
      | some _ => s
      | none => { s with gate := some (.stage call) }.setStage call .closing
  | .closing => { s with accepting := false }.setStage call .closingTracker
  | .closingTracker => { s with trackerClosed := true, gate := none }.setStage call .cancelling
  | .cancelling => { s with cancel := true }.setStage call .waiting
  | .listingBefore view shard =>
      if shard < shards then
        s.setStage call
          (.listingBefore { view with before := view.before ++ s.shardNames shardOf shard } (shard + 1))
      else
        s.setStage call (.removing { view with before := view.before.mergeSort })
  | .listing view shard =>
      if shard < shards then
        s.setStage call
          (.listing { view with remaining := view.remaining ++ s.shardNames shardOf shard } (shard + 1))
      else
        s.setStage call (.loadingPanicked { view with remaining := view.remaining.mergeSort })
  | .loadingPanicked view => s.setStage call (.loadingCompleted { view with panicked := s.panicked })
  | .loadingCompleted view => s.setStage call (.loadingCancelled { view with completed := s.completed })
  | .loadingCancelled view =>
      let view := { view with cancelled := s.cancelled }
      s.setStage call
        (.returned (some (if main then view.prepareMainReport else view.shutdownRuntimeReport)))
  | _ => s

/-- `TaskTracker::wait` is over only when the tracker is closed and no task is on it. -/
def trackerDone (s : TaskState) : Bool :=
  s.trackerClosed && s.accepted.all fun id => !(s.status id).onTracker

variable {shards : Nat} (threadName : String) (main : Bool) (shardOf : Nat → Fin shards)

def step (s : TaskState) : TaskAct → TaskState
  | .spawn call name =>
      match s.spawns call with
      | .idle => s.setSpawn call (.locking name)
      | _ => s
  | .advanceSpawn call => s.advanceSpawn threadName call
  | .finish id =>
      match s.status id with
      | .tracked => s.setStatus id (.ending (if s.cancel then .cancelled else .completed))
      | _ => s
  | .panics id =>
      match s.status id with
      | .tracked => s.setStatus id (.ending .panicked)
      | _ => s
  | .dropTask id =>
      match s.status id with
      | .tracked => s.setStatus id (.dropping none)
      | _ => s
  | .advanceGuard id => s.advanceGuard id
  | .shutdown call =>
      match s.stages call with
      | .idle => s.setStage call .locking
      | _ => s
  | .advanceStage call => s.advanceStage main shardOf call
  | .waited call ok =>
      match s.stages call with
      | .waiting =>
          if ok && !s.trackerDone then
            s
          else
            let view := StageView.new ok
            s.setStage call (if main then .listing view 0 else .listingBefore view 0)
      | _ => s
  | .removed call found =>
      match s.stages call with
      | .removing view => s.setStage call (if found then .shuttingDown view else .returned none)
      | _ => s
  | .runtimeDown call ok =>
      match s.stages call with
      | .shuttingDown view => s.setStage call (.listing { view with shutdownOk := ok } 0)
      | _ => s
  | .cancel => { s with cancel := true }

def run (s : TaskState) (acts : List TaskAct) : TaskState :=
  Lib.runFrom (step threadName main shardOf) s acts

end TaskState

end Pigs.Utils.Rt
