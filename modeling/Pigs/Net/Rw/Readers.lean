import Pigs.Net.Rw.Reading
import Pigs.Net.Rw.Managed.Listener

/-! `reader` and `owned_reader`: the accept loop with the handlers that it spawns, and the UDP loop, under
one cancellation token. A loop is cut at every poll of its `select!`, which finds what is ready then. -/

open Pigs.Lib

namespace Pigs.Net.Rw

def UDP_MAX_DATAGRAM_SIZE : Nat := 65535

/-- `recv_from`: the datagram is put at the front of the buffer, cut to its size. -/
def recvFrom (buf datagram : Bytes) : Bytes × Nat :=
  (datagram.take buf.length ++ buf.drop datagram.length, min datagram.length buf.length)

/-- `dispatched` are the packets that the dispatcher got, whatever it returned for them. -/
structure UdpLoop (Addr : Type) where
  running : Bool
  receiveBuf : Bytes
  dispatched : List (Bytes × Addr)

inductive AcceptPc where
  | polling
  | backingOff
  | ended
  deriving DecidableEq

/-- The backoff is in milliseconds. -/
structure AcceptLoop where
  pc : AcceptPc
  backoff : Nat

/-- `connections` are the streams accepted so far with their handlers. -/
structure ReaderIo (Addr S : Type) where
  cancelled : Bool
  accept : Option AcceptLoop
  udp : Option (UdpLoop Addr)
  connections : List (Addr × TcpReader S)

/-- `ready` is what `accept` or `recv_from` has when it is polled. -/
inductive ReaderIoAct (Addr : Type) where
  | accept (ready : Option (Except Unit Addr))
  | backoff (slept : Bool)
  | connection (id : Nat) (turn : ReaderTurn)
  | datagram (cancelFirst : Bool) (ready : Option (Except Unit (Bytes × Addr)))
  | cancel

variable {Addr S : Type}

namespace UdpLoop

def new : UdpLoop Addr := ⟨true, List.replicate UDP_MAX_DATAGRAM_SIZE 0, []⟩

/-- An empty datagram is passed over, and an error ends the loop. -/
def receive (u : UdpLoop Addr) : Except Unit (Bytes × Addr) → UdpLoop Addr
  | .error _ => { u with running := false }
  | .ok (datagram, addr) =>
      let (receiveBuf, n) := recvFrom u.receiveBuf datagram
      if n ≠ 0 then
        { u with receiveBuf, dispatched := u.dispatched ++ [(receiveBuf.take n, addr)] }
      else
        { u with receiveBuf }

/-- One poll. `cancelFirst` is the branch that it looks at first: any here, the token in
`run_udp_receiver`. -/
def poll (cancelFirst cancelled : Bool) (u : UdpLoop Addr) (ready : Option (Except Unit (Bytes × Addr))) :
    UdpLoop Addr :=
  if !u.running then
    u
  else if cancelFirst && cancelled then
    { u with running := false }
  else
    match ready with
    | some received => u.receive received
    | none => if cancelled then { u with running := false } else u

/-- The size of the buffer, and what was dispatched. -/
def outline (u : UdpLoop Addr) : Nat × List (Bytes × Addr) := (u.receiveBuf.length, u.dispatched)

end UdpLoop

namespace ReaderIo

/-- The sockets are those of `tu`. -/
def reader (tcp udp : Bool) : ReaderIo Addr S where
  cancelled := false
  accept := if tcp then some ⟨.polling, 0⟩ else none
  udp := if udp then some .new else none
  connections := []

section Loops

variable (feed : Splitter S Bytes UInt8) (fresh : S) (dispatchOwned : Nat → Nat → Bool) (closeOk : Nat → Bool)

/-- A poll of the accept loop, which looks at the listener before it looks at the token. -/
def pollAccept (s : ReaderIo Addr S) (loop : AcceptLoop) : Option (Except Unit Addr) → ReaderIo Addr S
  | some (.ok remoteAddr) =>
      { s with
        accept := some { loop with backoff := 0 }
        connections := s.connections ++ [(remoteAddr, .new fresh)] }
  | some (.error _) =>
      { s with accept := some ⟨.backingOff, Managed.nextAcceptErrorBackoff loop.backoff⟩ }
  | none => if s.cancelled then { s with accept := some { loop with pc := .ended } } else s

/-- A poll of the inner `select!` after a failed accept. -/
def pollBackoff (s : ReaderIo Addr S) (loop : AcceptLoop) (slept : Bool) : ReaderIo Addr S :=
  if s.cancelled then
    { s with accept := some { loop with pc := .ended } }
  else if slept then
    { s with accept := some { loop with pc := .polling } }
  else
    s

/-- What the handler `id` wakes up with: a cancellation only when there was one. -/
def turns (id : Nat) (s : ReaderIo Addr S) : ReaderIoAct Addr → List ReaderTurn
  | .connection other turn =>
      if other = id ∧ id < s.connections.length ∧ (turn = .cancelled → s.cancelled = true) then [turn] else []
  | _ => []

def turnConnection (s : ReaderIo Addr S) (id : Nat) (turn : ReaderTurn) : ReaderIo Addr S :=
  if turn = .cancelled → s.cancelled = true then
    { s with
      connections := s.connections.modify id fun connection =>
        (connection.1, connection.2.turn feed (dispatchOwned id) (closeOk id) turn) }
  else
    s

def step (s : ReaderIo Addr S) : ReaderIoAct Addr → ReaderIo Addr S
  | .accept ready =>
      match s.accept with
      | some ⟨.polling, backoff⟩ => s.pollAccept fresh ⟨.polling, backoff⟩ ready
      | _ => s
  | .backoff slept =>
      match s.accept with
      | some ⟨.backingOff, backoff⟩ => s.pollBackoff ⟨.backingOff, backoff⟩ slept
      | _ => s
  | .connection id turn => s.turnConnection feed dispatchOwned closeOk id turn
  | .datagram cancelFirst ready => { s with udp := s.udp.map fun u => u.poll cancelFirst s.cancelled ready }
  | .cancel => { s with cancelled := true }

def run (s : ReaderIo Addr S) (acts : List (ReaderIoAct Addr)) : ReaderIo Addr S :=
  runFrom (step feed fresh dispatchOwned closeOk) s acts

/-- The peers whose streams a step accepts. -/
def accepted (s : ReaderIo Addr S) : ReaderIoAct Addr → List Addr
  | .accept (some (.ok remoteAddr)) =>
      match s.accept with
      | some ⟨.polling, _⟩ => [remoteAddr]
      | _ => []
  | _ => []

end Loops

section Parts

variable {feed : Splitter S Bytes UInt8} {fresh : S} {dispatchOwned : Nat → Nat → Bool} {closeOk : Nat → Bool}

/-- What a datagram adds. -/
def take (out : Nat × List (Bytes × Addr)) (datagram : Bytes × Addr) : Nat × List (Bytes × Addr) :=
  (out.1, if min datagram.1.length out.1 ≠ 0 then out.2 ++ [(datagram.1.take out.1, datagram.2)] else out.2)

/-- No loop and no handler goes on. -/
structure Ended (s : ReaderIo Addr S) : Prop where
  accept : ∀ loop, s.accept = some loop → loop.pc = .ended
  udp : ∀ u, s.udp = some u → u.running = false
  connections : ∀ connection ∈ s.connections, connection.2.result ≠ none

variable (feed fresh dispatchOwned closeOk) in
theorem Ended.step {s : ReaderIo Addr S} (ended : Ended s) (act : ReaderIoAct Addr) :
    (s.step feed fresh dispatchOwned closeOk act).accept = s.accept ∧
      (s.step feed fresh dispatchOwned closeOk act).udp = s.udp ∧
        (s.step feed fresh dispatchOwned closeOk act).connections = s.connections := by
  cases act with
  | accept ready =>
      rw [ReaderIo.step]
      split
      case h_1 backoff polling => cases ended.accept _ polling
      case h_2 => exact ⟨rfl, rfl, rfl⟩
  | backoff slept =>
      rw [ReaderIo.step]
      split
      case h_1 backoff waiting => cases ended.accept _ waiting
      case h_2 => exact ⟨rfl, rfl, rfl⟩
  | connection id turn =>
      rw [ReaderIo.step, turnConnection]
      split_ifs
      · refine ⟨rfl, rfl, ?_⟩
        apply List.ext_getElem?
        intro place
        rw [List.getElem?_modify]
        cases found : s.connections[place]? with
        | none => rfl
        | some connection =>
            have left := ended.connections connection (List.mem_of_getElem? found)
            rw [Option.map_eq_map, Option.map_some]
            by_cases here : id = place
            · rw [if_pos here, (TcpReader.turn_ended feed _ _ left turn).1]
            · rw [if_neg here]
      · exact ⟨rfl, rfl, rfl⟩
  | datagram cancelFirst ready =>
      refine ⟨rfl, ?_, rfl⟩
      rw [ReaderIo.step]
      cases udp : s.udp with
      | none => rfl
      | some u =>
          have stopped := ended.udp u udp
          simp only [Option.map_some, UdpLoop.poll, stopped, Bool.not_false, if_true]
  | cancel => exact ⟨rfl, rfl, rfl⟩

/-- Nothing is dispatched any more. -/
theorem Ended.run {s : ReaderIo Addr S} (ended : Ended s) (acts : List (ReaderIoAct Addr)) :
    (s.run feed fresh dispatchOwned closeOk acts).accept = s.accept ∧
      (s.run feed fresh dispatchOwned closeOk acts).udp = s.udp ∧
        (s.run feed fresh dispatchOwned closeOk acts).connections = s.connections := by
  apply invariant_run (ReaderIo.step feed fresh dispatchOwned closeOk) (fun t : ReaderIo Addr S =>
    t.accept = s.accept ∧ t.udp = s.udp ∧ t.connections = s.connections)
  · intro t act same
    have still : Ended t := by
      constructor
      · rw [same.1]
        exact ended.accept
      · rw [same.2.1]
        exact ended.udp
      · rw [same.2.2]
        exact ended.connections
    have step := still.step feed fresh dispatchOwned closeOk act
    exact ⟨step.1.trans same.1, step.2.1.trans same.2.1, step.2.2.trans same.2.2⟩
  · exact ⟨rfl, rfl, rfl⟩

/-- What the tasks find when nothing more arrives after the cancellation. -/
def closing (connections : Nat) : List (ReaderIoAct Addr) :=
  [.accept none, .backoff false, .datagram false none] ++
    (List.range connections).map fun id => .connection id .cancelled

end Parts

end ReaderIo

end Pigs.Net.Rw
