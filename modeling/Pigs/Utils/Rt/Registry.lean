import Mathlib.Data.String.Basic
import Pigs.Lib.FirstSeen
import Pigs.Utils.Rt.Budget
import Pigs.Utils.Rt.Tasks

/-! `RuntimeRegistry`: calls of `register` on any thread and the one `shutdown` that `order_shutdown`
awaits, with the main runtime that it takes afterwards. What a stage reports of its tasks is that of
`TaskState`. -/

namespace Pigs.Utils.Rt

open Pigs.Lib

inductive RuntimeType where
  | main
  | commonNetwork
  | httpApi
  | webSocket
  | rpcService
  | messageQueue
  | commonIo
  | fileProcessing
  | database
  | cacheService
  | commonCompute
  | dataProcessing
  | imageProcessing
  | machineLearning
  | custom (name : String)
  deriving DecidableEq

def RuntimeType.asThreadName : RuntimeType → String
  | .main => "main"
  | .commonNetwork => "common-network"
  | .httpApi => "http-api"
  | .webSocket => "websocket"
  | .rpcService => "rpc-service"
  | .messageQueue => "message-queue"
  | .commonIo => "common-io"
  | .fileProcessing => "file-processing"
  | .database => "database"
  | .cacheService => "cache-service"
  | .commonCompute => "common-compute"
  | .dataProcessing => "data-processing"
  | .imageProcessing => "image-processing"
  | .machineLearning => "machine-learning"
  | .custom name => "custom-" ++ name

inductive RegistryHolder where
  | register (call : Nat)
  | shutdown
  deriving DecidableEq

/-- A `register`. From `checking` to `unlocking` it holds the gate. -/
inductive RegisterPc where
  | idle
  | locking (type : RuntimeType)
  | checking (type : RuntimeType)
  | entering (type : RuntimeType)
  | unlocking (result : Except String RuntimeType)
  | returned (result : Except String RuntimeType)

/-- A report of `shutdown`: its `runtime_type` and the rest of it. -/
structure TypedReport where
  runtimeType : RuntimeType
  report : RuntimeShutdownReport

/-- The variables of the loop over `ordered`. -/
structure Stages where
  deadline : Nat
  ordered : List RuntimeType
  index : Nat
  reports : List TypedReport

/-- `order_shutdown` once the exit signal is there. `waiting`, `removing` and `stopping` are
`shutdown_runtime` behind its `get`, and `waitingMain` is `prepare_main_shutdown`. -/
inductive ShutdownPc where
  | idle
  | locking
  | storing
  | unlocking
  | starting
  | listing (deadline : Nat) (ordered remaining : List RuntimeType) (shard : Nat)
  | visiting (stages : Stages)
  | waiting (stages : Stages) (type : RuntimeType) (timeout : Duration)
  | removing (stages : Stages) (type : RuntimeType)
  | stopping (stages : Stages) (type : RuntimeType)
  | waitingMain (reports : List TypedReport) (timeout : Duration)
  | takingMain (reports : List TypedReport)
  | stoppingMain (reports : List TypedReport)
  | finished (reports : List TypedReport)

/-- What `shutdown` has returned. -/
def ShutdownPc.reports : ShutdownPc → Option (List TypedReport)
  | .takingMain reports => some reports
  | .stoppingMain reports => some reports
  | .finished reports => some reports
  | _ => none

/-- `runtimes` are the keys of the map. `stopped` lists the runtimes on which `shutdown_timeout` has been
called. -/
structure RuntimeRegistry where
  gate : Option RegistryHolder
  runtimes : List RuntimeType
  shuttingDown : Bool
  now : Nat
  stopped : List RuntimeType
  registers : Nat → RegisterPc
  shutdown : ShutdownPc

/-- `listed` is the next shard of the map in the order of its iterator, `waited` the end of
`shutdown_runtime`'s wait and `runtimeDown` of its `shutdown_timeout`. -/
inductive RegistryAct where
  | register (call : Nat) (type : RuntimeType)
  | advanceRegister (call : Nat)
  | shutdown
  | advanceShutdown
  | listed (keys : List RuntimeType)
  | waited
  | runtimeDown (report : RuntimeShutdownReport)
  | mainWaited (report : RuntimeShutdownReport)
  | elapse (nanos : Nat)

namespace RuntimeRegistry

def new : RuntimeRegistry where
  gate := none
  runtimes := [.main]
  shuttingDown := false
  now := 0
  stopped := []
  registers _ := .idle
  shutdown := .idle

def setRegister (s : RuntimeRegistry) (call : Nat) (pc : RegisterPc) : RuntimeRegistry :=
  { s with registers := Function.update s.registers call pc }

def alreadyExists (type : RuntimeType) : String := "runtime already exists: " ++ type.asThreadName

/-- The next step of a `register`. -/
def advanceRegister (s : RuntimeRegistry) (call : Nat) : RuntimeRegistry :=
  match s.registers call with
  | .locking type =>
      match s.gate with
      | some _ => s
      | none => { s with gate := some (.register call) }.setRegister call (.checking type)
  | .checking type =>
      if s.shuttingDown then
        s.setRegister call (.unlocking (.error "application is shutting down"))
      else
        s.setRegister call (.entering type)
  | .entering type =>
      if type ∈ s.runtimes then
        s.setRegister call (.unlocking (.error (alreadyExists type)))
      else
        { s with runtimes := s.runtimes ++ [type] }.setRegister call (.unlocking (.ok type))
  | .unlocking result => { s with gate := none }.setRegister call (.returned result)
  | _ => s

/-- The first loop of `shutdown`: the orders without the main runtime and repetitions. -/
def declared (orders : List RuntimeType) : List RuntimeType :=
  pushNew (fun type => decide (type ≠ .main)) [] orders

/-- The order of `sort_by_key(RuntimeType::as_thread_name)`. -/
def byThreadName (first second : RuntimeType) : Bool :=
  decide (first.asThreadName ≤ second.asThreadName)

/-- The second loop of `shutdown`: what is listed and omitted from the order, by thread name. -/
def appendOmitted (ordered remaining : List RuntimeType) : List RuntimeType :=
  pushNew (fun _ => true) ordered (remaining.mergeSort byThreadName)

variable {shards : Nat} (orders : List RuntimeType) (total : Duration)
  (shardOf : RuntimeType → Fin shards)

def shardTypes (s : RuntimeRegistry) (shard : Nat) : List RuntimeType :=
  s.runtimes.filter fun type => decide ((shardOf type).val = shard)

def next (stages : Stages) : ShutdownPc := .visiting { stages with index := stages.index + 1 }

def pushReport (stages : Stages) (type : RuntimeType) (report : RuntimeShutdownReport) : Stages :=
  { stages with reports := stages.reports ++ [⟨type, report⟩] }

/-- The head of the loop over `ordered`, up to the `get` of the stage, and the end of the loop up to
the `get` of the main runtime. -/
def visit (s : RuntimeRegistry) (stages : Stages) : RuntimeRegistry :=
  match stages.ordered[stages.index]? with
  | some type =>
      if type ∈ s.runtimes then
        let timeout := stageTimeout stages.deadline s.now (stagesLeft stages.ordered.length stages.index)
        { s with shutdown := .waiting stages type timeout }
      else
        { s with shutdown := next stages }
  | none =>
      if .main ∈ s.runtimes then
        { s with shutdown := .waitingMain stages.reports (saturatingDurationSince stages.deadline s.now) }
      else
        { s with shutdown := .takingMain stages.reports }

/-- The next step of `order_shutdown`. -/
def advanceShutdown (s : RuntimeRegistry) : RuntimeRegistry :=
  match s.shutdown with
  | .locking =>
      match s.gate with
      | some _ => s
      | none => { s with gate := some .shutdown, shutdown := .storing }
  | .storing => { s with shuttingDown := true, shutdown := .unlocking }
  | .unlocking => { s with gate := none, shutdown := .starting }
  | .starting => { s with shutdown := .listing (s.now + total.asNanos) (declared orders) [] 0 }
  | .listing deadline ordered remaining shard =>
      if shard < shards then
        s
      else
        { s with shutdown := .visiting ⟨deadline, appendOmitted ordered remaining, 0, []⟩ }
  | .visiting stages => s.visit stages
  | .removing stages type =>
      if type ∈ s.runtimes then
        { s with runtimes := s.runtimes.erase type, shutdown := .stopping stages type }
      else
        { s with shutdown := next stages }
  | .takingMain reports =>
      if .main ∈ s.runtimes then
        { s with runtimes := s.runtimes.erase .main, shutdown := .stoppingMain reports }
      else
        { s with shutdown := .finished reports }
  | .stoppingMain reports => { s with stopped := s.stopped ++ [.main], shutdown := .finished reports }
  | _ => s

/-- `runtime_types` goes through one shard more. -/
def listShard (s : RuntimeRegistry) (keys : List RuntimeType) : RuntimeRegistry :=
  match s.shutdown with
  | .listing deadline ordered remaining shard =>
      if shard < shards ∧ keys.Perm (s.shardTypes shardOf shard) then
        let remaining := remaining ++ keys.filter fun type => decide (type ≠ .main)
        { s with shutdown := .listing deadline ordered remaining (shard + 1) }
      else
        s
  | _ => s

def step (s : RuntimeRegistry) : RegistryAct → RuntimeRegistry
  | .register call type =>
      match s.registers call with
      | .idle => s.setRegister call (.locking type)
      | _ => s
  | .advanceRegister call => s.advanceRegister call
  | .shutdown =>
      match s.shutdown with
      | .idle => { s with shutdown := .locking }
      | _ => s
  | .advanceShutdown => @advanceShutdown shards orders total s
  | .listed keys => s.listShard shardOf keys
  | .waited =>
      match s.shutdown with
      | .waiting stages type _ => { s with shutdown := .removing stages type }
      | _ => s
  | .runtimeDown report =>
      match s.shutdown with
      | .stopping stages type =>
          { s with
            stopped := s.stopped ++ [type]
            shutdown := next (pushReport stages type report) }
      | _ => s
  | .mainWaited report =>
      match s.shutdown with
      | .waitingMain reports _ => { s with shutdown := .takingMain (reports ++ [⟨.main, report⟩]) }
      | _ => s
  | .elapse nanos => { s with now := s.now + nanos }

def run (s : RuntimeRegistry) (acts : List RegistryAct) : RuntimeRegistry :=
  runFrom (step orders total shardOf) s acts

end RuntimeRegistry

end Pigs.Utils.Rt
