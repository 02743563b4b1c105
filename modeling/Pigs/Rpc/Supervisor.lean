import Pigs.Lib.Run

/-! `StreamSupervisor` with its watch channel and the `ConnectionReporter`s it hands out. The
supervisor task is cut at every access to the cancellation token and to the channel, a call of
`connected()` between its read and its send. -/

namespace Pigs.Rpc

def u32Max : Nat := 2 ^ 32 - 1

def u64Max : Nat := 2 ^ 64 - 1

def saturatingAdd (limit value : Nat) : Nat := min (value + 1) limit

inductive ConnectionState where
  | idle
  | connecting (generation attempt : Nat)
  | connected (generation : Nat)
  | disconnected (generation : Nat) (reason : String)
  | stopped
  deriving DecidableEq

/-- `delayReturns` tells for each call of `retry.delay` whether it returns: it computes with floats and
panics where they are out of range. `generation` is what the reporter of a call of `connected()`
carries. -/
structure Setting where
  maxAttempts : Option Nat
  delayReturns : Nat → Bool
  generation : Nat → Nat

def Setting.permits (c : Setting) (attempt : Nat) : Bool :=
  match c.maxAttempts with
  | none => true
  | some most => attempt ≤ most

/-- No limit on the attempts; every reporter is of the first generation. -/
def unlimited : Setting where
  maxAttempts := none
  delayReturns _ := true
  generation _ := 1

/-- The supervisor is at the top of its loop in `entering`. `running` is inside the call of
`connect_and_run` with the given index, `ended` behind it. The task is dead in `panicked`. -/
inductive SupervisorPc where
  | entering
  | permitting
  | publishing
  | calling
  | running (connection : Nat)
  | ended (connection : Nat) (result : Option String)
  | checking (result : Option String)
  | disconnecting (reason : String)
  | waiting
  | stopping
  | stopped
  | panicked
  deriving DecidableEq

inductive ReportPc where
  | idle
  | checked (current : ConnectionState)
  | returned
  deriving DecidableEq

/-- `watched` says that a receiver of the channel is left; without one a send fails. `connections`
has the generation of each call of `connect_and_run`, `finished` and `tokens` tell which calls have
returned and which of their tokens were cancelled. `published` is what the channel took, `sends`
what the supervisor itself sent, `delays` the attempts it waited for. -/
structure Supervisor where
  cancelled : Bool
  generation : Nat
  attempt : Nat
  pc : SupervisorPc
  state : ConnectionState
  watched : Bool
  connections : List Nat
  finished : Nat → Bool
  tokens : Nat → Bool
  reports : Nat → ReportPc
  published : List ConnectionState
  sends : List ConnectionState
  delays : List Nat

inductive SupervisorAct where
  | advance
  | finish (result : Option String)
  | elapse
  | cancel
  | read (call : Nat)
  | send (call : Nat)
  | unwatch

/-- The check of `connected()` on the state it has read. -/
def isCurrent (generation : Nat) : ConnectionState → Bool
  | .connecting current _ => current = generation
  | .connected current => current = generation
  | _ => false

/-- A connection ends with an error or without one. -/
def reason (result : Option String) : String := result.getD "connection ended"

namespace Supervisor

def init : Supervisor where
  cancelled := false
  generation := 0
  attempt := 0
  pc := .entering
  state := .idle
  watched := true
  connections := []
  finished _ := false
  tokens _ := false
  reports _ := .idle
  published := []
  sends := []
  delays := []

/-- `state.send` -/
def publish (s : Supervisor) (state : ConnectionState) : Supervisor :=
  if s.watched then
    { s with state := state, published := s.published ++ [state] }
  else
    s

/-- A token is a child of the supervisor's own. -/
def tokenCancelled (s : Supervisor) (connection : Nat) : Bool := s.cancelled || s.tokens connection

variable (c : Setting)

/-- The next step of the supervisor task. -/
def advance (s : Supervisor) : Supervisor :=
  match s.pc with
  | .entering => if s.cancelled then { s with pc := .stopping } else { s with pc := .permitting }
  | .permitting =>
      if c.permits (saturatingAdd u32Max s.attempt) then
        { s with
          attempt := saturatingAdd u32Max s.attempt
          generation := saturatingAdd u64Max s.generation
          pc := .publishing }
      else
        { s with attempt := saturatingAdd u32Max s.attempt, pc := .stopping }
  | .publishing =>
      { s.publish (.connecting s.generation s.attempt) with
        sends := s.sends ++ [.connecting s.generation s.attempt]
        pc := .calling }
  | .calling =>
      { s with connections := s.connections ++ [s.generation], pc := .running s.connections.length }
  | .running _ => s
  | .ended connection result =>
      { s with tokens := Function.update s.tokens connection true, pc := .checking result }
  | .checking result =>
      if s.cancelled then { s with pc := .stopping } else { s with pc := .disconnecting (reason result) }
  | .disconnecting reason =>
      { s.publish (.disconnected s.generation reason) with
        sends := s.sends ++ [.disconnected s.generation reason]
        delays := s.delays ++ [s.attempt]
        pc := if c.delayReturns s.delays.length then .waiting else .panicked }
  | .waiting => if s.cancelled then { s with pc := .stopping } else s
  | .stopping => { s.publish .stopped with sends := s.sends ++ [.stopped], pc := .stopped }
  | .stopped => s
  | .panicked => s

def step (s : Supervisor) : SupervisorAct → Supervisor
  | .advance => s.advance c
  | .finish result =>
      match s.pc with
      | .running connection =>
          { s with
            finished := Function.update s.finished connection true
            pc := .ended connection result }
      | _ => s
  | .elapse =>
      match s.pc with
      | .waiting => { s with pc := .entering }
      | _ => s
  | .cancel => { s with cancelled := true }
  | .read call =>
      match s.reports call with
      | .idle =>
          if c.generation call ∈ s.connections then
            { s with reports := Function.update s.reports call (.checked s.state) }
          else
            s
      | _ => s
  | .send call =>
      match s.reports call with
      | .checked current =>
          let returned := { s with reports := Function.update s.reports call .returned }
          if isCurrent (c.generation call) current then
            returned.publish (.connected (c.generation call))
          else
            returned
      | _ => s
  | .unwatch => { s with watched := false }

def run (s : Supervisor) (acts : List SupervisorAct) : Supervisor := Lib.runFrom (step c) s acts

end Supervisor

end Pigs.Rpc
