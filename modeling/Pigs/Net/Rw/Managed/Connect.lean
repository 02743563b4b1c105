import Mathlib.Data.Finset.Insert
import Pigs.Net.Rw.Displaced

/-! `connect_tcp` on an open endpoint: the reservation of the remote address, the spawned connection
task that registers its writer, and callers that drop the future. -/

namespace Pigs.Net.Rw.Managed

/-- Where a `connect_tcp` is. `checked` holds the lock of `connecting_tcp_peers` and has seen no writer
for its address; from `reaping` to `lockingState` it holds the reservation. -/
inductive ConnectPc where
  | idle
  | starting
  | checked
  | reaping
  | connecting
  | awaitingReady
  | unready
  | lockingState
  | returned (ok : Bool)
  | dropped
  deriving DecidableEq

namespace ConnectPc

def holds : ConnectPc → Bool
  | .reaping => true
  | .connecting => true
  | .awaitingReady => true
  | .unready => true
  | .lockingState => true
  | _ => false

/-- Before the connection task is spawned. -/
def early : ConnectPc → Bool
  | .idle => true
  | .starting => true
  | .checked => true
  | .reaping => true
  | .connecting => true
  | _ => false

end ConnectPc

/-- The task of `run_managed_tcp_connection`. Its first poll runs up to the registration. -/
inductive TaskPc where
  | absent
  | spawned
  | polled
  | gone
  deriving DecidableEq

/-- Call `i` and its task are the numbers `i`, and the task registers by the registry call `2 * i`. -/
structure Connects (Addr Ip Token : Type) where
  world : World Addr Ip Token
  peersLock : Option Nat
  connectingTcpPeers : Finset Addr
  calls : Nat → ConnectPc
  tasks : Nat → TaskPc

inductive ConnectsAct (Addr Token : Type) where
  | registry (act : Act Addr Token)
  | connect (call : Nat)
  | advance (call : Nat)
  | fail (call : Nat)
  | spawn (call : Nat)
  | poll (call : Nat)
  | dropTask (call : Nat)
  | ready (call : Nat)
  | drop (call : Nat)

/-- Registry calls of others, while the endpoint is open. -/
def whileOpen {Addr Token : Type} : Act Addr Token → Bool
  | .invoke _ .close => false
  | .invoke id _ => id % 2 = 1
  | .advance _ _ => true
  | .cancel _ => true

namespace Connects

variable {Addr Ip Token : Type}

def init : Connects Addr Ip Token where
  world := World.new
  peersLock := none
  connectingTcpPeers := ∅
  calls _ := .idle
  tasks _ := .absent

def setCall (s : Connects Addr Ip Token) (call : Nat) (pc : ConnectPc) : Connects Addr Ip Token :=
  { s with calls := Function.update s.calls call pc }

@[simp] theorem setCall_self (s : Connects Addr Ip Token) (call : Nat) (pc : ConnectPc) :
    (s.setCall call pc).calls call = pc :=
  Function.update_self ..

theorem setCall_of_ne (s : Connects Addr Ip Token) (call : Nat) (pc : ConnectPc) (other : Nat)
    (ne : other ≠ call) : (s.setCall call pc).calls other = s.calls other :=
  Function.update_of_ne ne ..

variable [DecidableEq Addr]

/-- `has_tcp_writer` -/
def hasTcpWriter (s : Connects Addr Ip Token) (remoteAddr : Addr) : Bool :=
  (s.world.shared.registry.tcpWriters.lookup remoteAddr).isSome

variable (addr : Nat → Addr)

/-- The call returns or is dropped, and its reservation with it. The drop of the reservation waits for
the lock. -/
def release (s : Connects Addr Ip Token) (call : Nat) (pc : ConnectPc) : Connects Addr Ip Token :=
  match s.peersLock with
  | some _ => s
  | none =>
      { s with connectingTcpPeers := s.connectingTcpPeers.erase (addr call) }.setCall call pc

/-- The next step of a call. `reserve_tcp_connect` is `starting` and `checked`. -/
def advance (s : Connects Addr Ip Token) (call : Nat) : Connects Addr Ip Token :=
  match s.calls call with
  | .starting =>
      match s.peersLock with
      | some _ => s
      | none =>
          if s.hasTcpWriter (addr call) then
            s.setCall call (.returned false)
          else
            { s with peersLock := some call }.setCall call .checked
  | .checked =>
      if addr call ∈ s.connectingTcpPeers then
        { s with peersLock := none }.setCall call (.returned false)
      else
        { s with
          peersLock := none
          connectingTcpPeers := insert (addr call) s.connectingTcpPeers }.setCall call .reaping
  | .reaping => s.setCall call .connecting
  | .lockingState => s.release addr call (.returned true)
  | _ => s

/-- A check of the options, the socket, the spawn or the connection itself has failed. -/
def fail (s : Connects Addr Ip Token) (call : Nat) : Connects Addr Ip Token :=
  match s.calls call with
  | .starting => s.setCall call (.returned false)
  | .connecting => s.release addr call (.returned false)
  | .unready => s.release addr call (.returned false)
  | _ => s

/-- The task has sent `ready`, or its sender is gone. -/
def ready (s : Connects Addr Ip Token) (call : Nat) : Connects Addr Ip Token :=
  match s.calls call, s.tasks call with
  | .awaitingReady, .gone => s.setCall call .unready
  | .awaitingReady, .polled =>
      match s.world.calls (2 * call) with
      | some (.insertTcpSink _ _ (.returned (some _))) => s.setCall call .lockingState
      | some (.insertTcpSink _ _ (.returned none)) => s.setCall call .unready
      | _ => s
  | _, _ => s

variable [DecidableEq Ip] [DecidableEq Token] (ip : Addr → Ip) (sink : Nat → TcpPacketSink Token)

def step (s : Connects Addr Ip Token) : ConnectsAct Addr Token → Connects Addr Ip Token
  | .registry act => if whileOpen act then { s with world := s.world.step ip act } else s
  | .connect call =>
      match s.calls call with
      | .idle => s.setCall call .starting
      | _ => s
  | .advance call => s.advance addr call
  | .fail call => s.fail addr call
  | .spawn call =>
      match s.calls call with
      | .connecting =>
          { s with tasks := Function.update s.tasks call .spawned }.setCall call .awaitingReady
      | _ => s
  | .poll call =>
      match s.tasks call with
      | .spawned =>
          { s with
            world := s.world.step ip (.invoke (2 * call) (.insertTcpSink (addr call) (sink call)))
            tasks := Function.update s.tasks call .polled }
      | _ => s
  | .dropTask call =>
      match s.tasks call with
      | .spawned => { s with tasks := Function.update s.tasks call .gone }
      | _ => s
  | .ready call => s.ready call
  | .drop call => if (s.calls call).holds then s.release addr call .dropped else s

def run (s : Connects Addr Ip Token) (acts : List (ConnectsAct Addr Token)) : Connects Addr Ip Token :=
  Lib.runFrom (step addr ip sink) s acts

end Connects

end Pigs.Net.Rw.Managed
