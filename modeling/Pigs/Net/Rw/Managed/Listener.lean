import Pigs.Net.Rw.Managed.Endpoint

/-! `run_managed_packet_io` with its protocol tasks: the TCP listener with the connections that it has
spawned, and the UDP receiver. `ManagedTaskReport` has the fields and the `merge` of the endpoint's
report. A task is cut wherever the token can be cancelled in between; whatever a poll finds ready is an
action, and an `advance` at a poll finds nothing. -/

namespace Pigs.Net.Rw.Managed

inductive ProtocolTask where
  | tcpListener
  | udpReceiver
  deriving DecidableEq

/-- `checking` has accepted a stream and is about to look at the token; `backingOff` and `sleeping` are
the inner `select!`; `closing` and `draining` come after the loop. -/
inductive ListenerPc where
  | polling
  | joining
  | accepting
  | checking
  | backingOff
  | sleeping
  | closing
  | draining
  | returned
  deriving DecidableEq

/-- `connections` is the `JoinSet`: a task with its end once it has ended. The backoff is in
milliseconds. -/
structure Listener where
  pc : ListenerPc
  report : NetworkCloseReport
  connections : List (Nat × Option (Except JoinError Bool))
  backoff : Nat

inductive ReceiverPc where
  | polling
  | receiving
  | returned
  deriving DecidableEq

structure Receiver where
  pc : ReceiverPc
  report : NetworkCloseReport

inductive RootPc where
  | watching
  | joining
  | returned
  deriving DecidableEq

/-- `tasks` is the `JoinSet` of the root, `spawned` the number of connections so far. -/
structure PacketIo where
  cancelled : Bool
  external : Bool
  watchExternal : Bool
  tasks : List ProtocolTask
  listener : Listener
  receiver : Receiver
  spawned : Nat
  report : NetworkCloseReport
  pc : RootPc

inductive ListenerAct where
  | advance
  | join (id : Nat)
  | accepted
  | acceptFailed
  | slept

inductive ReceiverAct where
  | advance
  | received (ok : Bool)

inductive RootAct where
  | advance
  | join (task : ProtocolTask)

inductive PacketIoAct where
  | listener (act : ListenerAct)
  | receiver (act : ReceiverAct)
  | root (act : RootAct)
  | connectionEnds (id : Nat) (result : Except JoinError Bool)
  | cancel
  | cancelExternal

def oneCompleted : NetworkCloseReport := { (0 : NetworkCloseReport) with completed := 1 }

def oneCancelled : NetworkCloseReport := { (0 : NetworkCloseReport) with cancelled := 1 }

def oneFailed : NetworkCloseReport := { (0 : NetworkCloseReport) with failed := 1 }

def nextAcceptErrorBackoff (current : Nat) : Nat := if current = 0 then 10 else min (current * 2) 1000

namespace PacketIo

/-- The tasks are spawned; with no socket at all the root returns at once. -/
def new (tcpListener udpSocket : Bool) : PacketIo where
  cancelled := false
  external := false
  watchExternal := true
  tasks := (if tcpListener then [.tcpListener] else []) ++ if udpSocket then [.udpReceiver] else []
  listener := ⟨.polling, 0, [], 0⟩
  receiver := ⟨.polling, 0⟩
  spawned := 0
  report := if tcpListener || udpSocket then 0 else oneCompleted
  pc := if tcpListener || udpSocket then .watching else .returned

def setListener (s : PacketIo) (listener : Listener) : PacketIo := { s with listener := listener }

def setReceiver (s : PacketIo) (receiver : Receiver) : PacketIo := { s with receiver := receiver }

/-- The next step of `run_tcp_listener`. -/
def advanceListener (s : PacketIo) : PacketIo :=
  let listener := s.listener
  match listener.pc with
  | .polling =>
      if s.cancelled then
        s.setListener { listener with pc := .closing, report := listener.report + oneCancelled }
      else
        s.setListener { listener with pc := .joining }
  | .joining => s.setListener { listener with pc := .accepting }
  | .accepting => s.setListener { listener with pc := .polling }
  | .checking =>
      if s.cancelled then
        s.setListener { listener with pc := .closing }
      else
        { s with spawned := s.spawned + 1 }.setListener
          { listener with
            pc := .polling
            connections := listener.connections ++ [(s.spawned, none)]
            backoff := 0 }
  | .backingOff =>
      if s.cancelled then
        s.setListener { listener with pc := .closing, report := listener.report + oneCancelled }
      else
        s.setListener { listener with pc := .sleeping }
  | .sleeping => s.setListener { listener with pc := .backingOff }
  | .closing => { s with cancelled := true }.setListener { listener with pc := .draining }
  | .draining =>
      if listener.connections.isEmpty then s.setListener { listener with pc := .returned } else s
  | .returned => s

/-- `join_next` is ready with the task `id`, whose end `record_connection_join` adds. -/
def joinConnection (s : PacketIo) (id : Nat) (pc : ListenerPc) : PacketIo :=
  match s.listener.connections.lookup id with
  | some (some result) =>
      s.setListener { s.listener with
        pc := pc
        report := s.listener.report + taskReport result
        connections := s.listener.connections.eraseP fun task => task.1 = id }
  | _ => s

def stepListener (s : PacketIo) : ListenerAct → PacketIo
  | .advance => s.advanceListener
  | .join id =>
      match s.listener.pc with
      | .joining => s.joinConnection id .polling
      | .draining => s.joinConnection id .draining
      | _ => s
  | .accepted =>
      match s.listener.pc with
      | .accepting => s.setListener { s.listener with pc := .checking }
      | _ => s
  | .acceptFailed =>
      match s.listener.pc with
      | .accepting =>
          s.setListener { s.listener with
            pc := .backingOff
            backoff := nextAcceptErrorBackoff s.listener.backoff }
      | _ => s
  | .slept =>
      match s.listener.pc with
      | .sleeping => s.setListener { s.listener with pc := .polling }
      | _ => s

/-- `run_udp_receiver`. An empty datagram and an error of the dispatcher change nothing. -/
def stepReceiver (s : PacketIo) : ReceiverAct → PacketIo
  | .advance =>
      match s.receiver.pc with
      | .polling =>
          if s.cancelled then
            s.setReceiver ⟨.returned, s.receiver.report + oneCancelled⟩
          else
            s.setReceiver { s.receiver with pc := .receiving }
      | .receiving => s.setReceiver { s.receiver with pc := .polling }
      | .returned => s
  | .received ok =>
      match s.receiver.pc with
      | .receiving =>
          if ok then
            s.setReceiver { s.receiver with pc := .polling }
          else
            s.setReceiver ⟨.returned, s.receiver.report + oneFailed⟩
      | _ => s

/-- The report of a protocol task that has returned. -/
def taskResult (s : PacketIo) : ProtocolTask → Option NetworkCloseReport
  | .tcpListener => if s.listener.pc = .returned then some s.listener.report else none
  | .udpReceiver => if s.receiver.pc = .returned then some s.receiver.report else none

/-- The loop of `run_managed_packet_io`. -/
def stepRoot (s : PacketIo) : RootAct → PacketIo
  | .advance =>
      match s.pc with
      | .watching =>
          if s.tasks.isEmpty then
            { s with pc := .returned }
          else if s.watchExternal && s.external then
            { s with watchExternal := false, cancelled := true }
          else
            { s with pc := .joining }
      | .joining => { s with pc := .watching }
      | .returned => s
  | .join task =>
      match s.pc with
      | .joining =>
          if task ∈ s.tasks then
            match s.taskResult task with
            | some report =>
                { s with
                  tasks := s.tasks.erase task
                  report := s.report + rootReport (.ok report)
                  pc := .watching }
            | none => s
          else
            s
      | _ => s

/-- The task of a connection ends. -/
def endConnection (id : Nat) (result : Except JoinError Bool) (task : Nat × Option (Except JoinError Bool)) :
    Nat × Option (Except JoinError Bool) :=
  if task.1 = id then (id, task.2.orElse fun _ => some result) else task

def step (s : PacketIo) : PacketIoAct → PacketIo
  | .listener act => if .tcpListener ∈ s.tasks then s.stepListener act else s
  | .receiver act => if .udpReceiver ∈ s.tasks then s.stepReceiver act else s
  | .root act => s.stepRoot act
  | .connectionEnds id result =>
      s.setListener { s.listener with
        connections := s.listener.connections.map (endConnection id result) }
  | .cancel => { s with cancelled := true }
  | .cancelExternal => { s with external := true }

def run (s : PacketIo) (acts : List PacketIoAct) : PacketIo := Lib.runFrom step s acts

end PacketIo

end Pigs.Net.Rw.Managed
