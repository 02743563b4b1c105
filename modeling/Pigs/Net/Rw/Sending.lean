import Pigs.Net.Rw.Encoder
import Pigs.Net.Rw.Waiting

/-! The writes of a `PacketWriter` beside its registry calls and its `close`, which takes the UDP socket
under the write lock once the sinks are closed. A write is cut at the closed flag, at the lock of the
socket and inside a poll of its `select!`; who gets the lock first is left open. -/

namespace Pigs.Net.Rw

inductive Protocol where
  | udp
  | tcp
  | all
  deriving DecidableEq

inductive WriteRequest (Addr Ip : Type) where
  | writeTo (data : Bytes) (remoteAddr : Addr) (protocol : Protocol)
  | writeSliceTo (data : Bytes) (remoteAddr : Addr) (protocol : Protocol)
  | writeTcpToIp (data : Bytes) (remoteIp : Ip)
  | tryWriteTo (data : Bytes) (remoteAddr : Addr) (protocol : Protocol)
  deriving DecidableEq

/-- A write over TCP goes on as the write of the sink that it found. -/
inductive SendResult (Token : Type) where
  | datagram
  | handed (sink : TcpPacketSink Token)

/-- `locked` has the read lock and is about to look at the socket; `sending` has found the writer open in
this poll, and `trying` is `try_write_to` with the lock. -/
inductive SendPc (Addr Token : Type) where
  | start
  | opened
  | locking (packet : Bytes) (remoteAddr : Addr)
  | locked (packet : Bytes) (remoteAddr : Addr)
  | polling (packet : Bytes) (remoteAddr : Addr)
  | sending (packet : Bytes) (remoteAddr : Addr)
  | trying (packet : Bytes) (remoteAddr : Addr)
  | returned (result : Except String (SendResult Token))
  | dropped

structure SendCall (Addr Ip Token : Type) where
  request : WriteRequest Addr Ip
  pc : SendPc Addr Token

/-- Where a `close` that is through with the sinks is with the socket. -/
inductive SocketPc where
  | idle
  | waiting
  | done
  | dropped
  deriving DecidableEq

/-- `readers` hold the read lock of the socket, and the calls of `waiting` wait for the write lock. `wire`
is what the socket has sent. -/
structure SendWorld (Addr Ip Token : Type) where
  world : World Addr Ip Token
  socket : Bool
  readers : List Nat
  waiting : List Nat
  closing : Nat → SocketPc
  calls : Nat → Option (SendCall Addr Ip Token)
  wire : List (Nat × Bytes × Addr)

/-- What the socket answers to a send. -/
inductive SendOutcome where
  | sent
  | failed (error : String)
  | pending
  deriving DecidableEq

inductive SendAct (Addr Ip Token : Type) where
  | call (act : Act Addr Token)
  | write (id : Nat) (request : WriteRequest Addr Ip)
  | advance (id : Nat) (outcome : SendOutcome)
  | drop (id : Nat)
  | takeSocket (id : Nat)
  | dropClose (id : Nat)

def udpSocketNotAvailable : String := "udp socket is not available"

def tcpWriterNotAvailable : String := "tcp writer is not available"

def protocolAll : String := "protocol ALL cannot be used to write a packet"

namespace SendWorld

variable {Addr Ip Token : Type}

def new (socket : Bool) : SendWorld Addr Ip Token where
  world := World.new
  socket := socket
  readers := []
  waiting := []
  closing _ := .idle
  calls _ := none
  wire := []

def setPc (s : SendWorld Addr Ip Token) (id : Nat) (call : SendCall Addr Ip Token) (pc : SendPc Addr Token) :
    SendWorld Addr Ip Token :=
  { s with calls := Function.update s.calls id (some { call with pc := pc }) }

/-- The call takes the read lock. -/
def enter (s : SendWorld Addr Ip Token) (id : Nat) (call : SendCall Addr Ip Token) (pc : SendPc Addr Token) :
    SendWorld Addr Ip Token :=
  { s.setPc id call pc with readers := s.readers ++ [id] }

/-- The call releases the read lock. -/
def leave (s : SendWorld Addr Ip Token) (id : Nat) (call : SendCall Addr Ip Token) (pc : SendPc Addr Token) :
    SendWorld Addr Ip Token :=
  { s.setPc id call pc with readers := s.readers.erase id }

/-- The socket has sent the packet. -/
def send (s : SendWorld Addr Ip Token) (id : Nat) (call : SendCall Addr Ip Token) (packet : Bytes)
    (remoteAddr : Addr) : SendWorld Addr Ip Token :=
  { s.leave id call (.returned (.ok .datagram)) with wire := s.wire ++ [(id, packet, remoteAddr)] }

/-- What a lookup in the registry makes of the call. -/
def handOver (s : SendWorld Addr Ip Token) (id : Nat) (call : SendCall Addr Ip Token) :
    Option (TcpPacketSink Token) → SendWorld Addr Ip Token
  | none => s.setPc id call (.returned (.error tcpWriterNotAvailable))
  | some sink => s.setPc id call (.returned (.ok (.handed sink)))

variable [DecidableEq Addr] [DecidableEq Ip] [DecidableEq Token] (ip : Addr → Ip)
  (encodeUdp : Bytes → Except String Bytes)

/-- A write that has found the writer open. -/
def route (s : SendWorld Addr Ip Token) (id : Nat) (call : SendCall Addr Ip Token) : SendWorld Addr Ip Token :=
  match call.request with
  | .writeTo data remoteAddr .udp =>
      match encodeUdp data with
      | .ok packet => s.setPc id call (.locking packet remoteAddr)
      | .error error => s.setPc id call (.returned (.error error))
  | .writeTo _ remoteAddr .tcp => s.handOver id call (s.world.shared.registry.tcpSink remoteAddr)
  | .writeTo _ _ .all => s.setPc id call (.returned (.error protocolAll))
  | .writeSliceTo data remoteAddr .udp => s.setPc id call (.locking data remoteAddr)
  | .writeSliceTo _ _ .tcp =>
      s.setPc id call
        (.returned (.error "write_slice_to cannot write TCP without copy; use write_to with Bytes"))
  | .writeSliceTo _ _ .all => s.setPc id call (.returned (.error protocolAll))
  | .writeTcpToIp _ remoteIp => s.handOver id call (s.world.shared.registry.tcpSinkByIp remoteIp)
  | .tryWriteTo data remoteAddr .udp =>
      match encodeUdp data with
      | .ok packet =>
          if s.waiting.isEmpty then
            s.enter id call (.trying packet remoteAddr)
          else
            s.setPc id call (.returned (.error "udp socket is closing"))
      | .error error => s.setPc id call (.returned (.error error))
  | .tryWriteTo _ remoteAddr .tcp => s.handOver id call (s.world.shared.registry.tcpSink remoteAddr)
  | .tryWriteTo _ _ .all => s.setPc id call (.returned (.error protocolAll))

/-- The next step of a write. -/
def advance (s : SendWorld Addr Ip Token) (id : Nat) (outcome : SendOutcome) (call : SendCall Addr Ip Token) :
    SendWorld Addr Ip Token :=
  match call.pc with
  | .start =>
      s.setPc id call (if s.world.shared.closed then .returned (.error packetWriterClosed) else .opened)
  | .opened => s.route encodeUdp id call
  | .locking packet remoteAddr => s.enter id call (.locked packet remoteAddr)
  | .locked packet remoteAddr =>
      if s.socket then
        s.setPc id call (.polling packet remoteAddr)
      else
        s.leave id call (.returned (.error udpSocketNotAvailable))
  | .polling packet remoteAddr =>
      if s.world.shared.closed then
        s.leave id call (.returned (.error packetWriterClosed))
      else
        s.setPc id call (.sending packet remoteAddr)
  | .sending packet remoteAddr =>
      match outcome with
      | .sent => s.send id call packet remoteAddr
      | .failed error => s.leave id call (.returned (.error error))
      | .pending => s.setPc id call (.polling packet remoteAddr)
  | .trying packet remoteAddr =>
      if s.socket then
        match outcome with
        | .sent => s.send id call packet remoteAddr
        | .failed error => s.leave id call (.returned (.error error))
        | .pending => s
      else
        s.leave id call (.returned (.error udpSocketNotAvailable))
  | .returned _ => s
  | .dropped => s

/-- The future of a write is dropped at one of its awaits, or before its first poll. -/
def dropWrite (s : SendWorld Addr Ip Token) (id : Nat) (call : SendCall Addr Ip Token) : SendWorld Addr Ip Token :=
  match call.pc with
  | .start => s.setPc id call .dropped
  | .locking _ _ => s.setPc id call .dropped
  | .polling _ _ => s.leave id call .dropped
  | _ => s

/-- A `close` that is through with the sinks asks for the write lock, and takes the socket when it has it. -/
def takeSocket (s : SendWorld Addr Ip Token) (id : Nat) : SendWorld Addr Ip Token :=
  match s.closing id, s.world.calls id with
  | .idle, some (.close .returned) =>
      { s with closing := Function.update s.closing id .waiting, waiting := s.waiting ++ [id] }
  | .waiting, _ =>
      if s.readers.isEmpty then
        { s with
          socket := false
          closing := Function.update s.closing id .done
          waiting := s.waiting.erase id }
      else
        s
  | _, _ => s

def dropClose (s : SendWorld Addr Ip Token) (id : Nat) : SendWorld Addr Ip Token :=
  match s.closing id with
  | .waiting => { s with closing := Function.update s.closing id .dropped, waiting := s.waiting.erase id }
  | _ => s

def step (s : SendWorld Addr Ip Token) : SendAct Addr Ip Token → SendWorld Addr Ip Token
  | .call act => { s with world := s.world.step ip act }
  | .write id request =>
      match s.calls id with
      | none => { s with calls := Function.update s.calls id (some ⟨request, .start⟩) }
      | some _ => s
  | .advance id outcome =>
      match s.calls id with
      | none => s
      | some call => s.advance encodeUdp id outcome call
  | .drop id =>
      match s.calls id with
      | none => s
      | some call => s.dropWrite id call
  | .takeSocket id => s.takeSocket id
  | .dropClose id => s.dropClose id

def run (s : SendWorld Addr Ip Token) (acts : List (SendAct Addr Ip Token)) : SendWorld Addr Ip Token :=
  Lib.runFrom (step ip encodeUdp) s acts

end SendWorld

/-! What a write holds and what becomes of it. -/

namespace SendPc

variable {Addr Token : Type}

def holds : SendPc Addr Token → Bool
  | .locked _ _ => true
  | .polling _ _ => true
  | .sending _ _ => true
  | .trying _ _ => true
  | _ => false

/-- The write has seen the socket. -/
def bound : SendPc Addr Token → Bool
  | .polling _ _ => true
  | .sending _ _ => true
  | _ => false

def packet : SendPc Addr Token → Option (Bytes × Addr)
  | .locking packet remoteAddr => some (packet, remoteAddr)
  | .locked packet remoteAddr => some (packet, remoteAddr)
  | .polling packet remoteAddr => some (packet, remoteAddr)
  | .sending packet remoteAddr => some (packet, remoteAddr)
  | .trying packet remoteAddr => some (packet, remoteAddr)
  | _ => none

def sent : SendPc Addr Token → Option (SendResult Token)
  | .returned (.ok sent) => some sent
  | _ => none

end SendPc

namespace WriteRequest

variable {Addr Ip : Type}

/-- The datagram that a write over UDP is about. -/
def datagram (encodeUdp : Bytes → Except String Bytes) : WriteRequest Addr Ip → Option (Bytes × Addr)
  | .writeTo data remoteAddr .udp => (encodeUdp data).toOption.map (·, remoteAddr)
  | .writeSliceTo data remoteAddr .udp => some (data, remoteAddr)
  | .tryWriteTo data remoteAddr .udp => (encodeUdp data).toOption.map (·, remoteAddr)
  | _ => none

/-- The peers that a write over TCP may go to. -/
def Reaches (ip : Addr → Ip) : WriteRequest Addr Ip → Addr → Prop
  | .writeTo _ remoteAddr .tcp, peer => peer = remoteAddr
  | .tryWriteTo _ remoteAddr .tcp, peer => peer = remoteAddr
  | .writeTcpToIp _ remoteIp, peer => ip peer = remoteIp
  | _, _ => False

def isTry : WriteRequest Addr Ip → Bool
  | .tryWriteTo _ _ _ => true
  | _ => false

end WriteRequest

section Turns

variable {Addr Ip Token : Type} (ip : Addr → Ip) (encodeUdp : Bytes → Except String Bytes)

/-- The sink was registered for a peer that the write may go to. -/
def SendWorld.Handed (s : SendWorld Addr Ip Token) (request : WriteRequest Addr Ip) (sink : TcpPacketSink Token) :
    Prop :=
  ∃ entry ∈ insertions s.world.shared.sections, entry.sink = sink ∧ request.Reaches ip entry.remoteAddr

/-- Everything a step of a write can do. -/
inductive Turn (s : SendWorld Addr Ip Token) (id : Nat) (call : SendCall Addr Ip Token) :
    SendWorld Addr Ip Token → Prop where
  | stay : Turn s id call s
  | pass (pc : SendPc Addr Token) (outside : call.pc.holds = false) (remains : pc.holds = false)
      (packet : ∀ found, pc.packet = some found → call.request.datagram encodeUdp = some found)
      (unsent : call.pc.sent = none)
      (handed : ∀ sent, pc.sent = some sent → ∃ sink, sent = .handed sink ∧ s.Handed ip call.request sink) :
      Turn s id call (s.setPc id call pc)
  | enter (pc : SendPc Addr Token) (outside : call.pc.holds = false) (holds : pc.holds = true)
      (unbound : pc.bound = false) (unsent : call.pc.sent = none)
      (packet : ∀ found, pc.packet = some found → call.request.datagram encodeUdp = some found) :
      Turn s id call (s.enter id call pc)
  | keep (pc : SendPc Addr Token) (held : call.pc.holds = true) (holds : pc.holds = true)
      (bound : s.socket = true ∨ call.pc.bound = true) (same : pc.packet = call.pc.packet) :
      Turn s id call (s.setPc id call pc)
  | leave (pc : SendPc Addr Token) (held : call.pc.holds = true) (free : pc.holds = false)
      (packet : pc.packet = none) (unsent : pc.sent = none) : Turn s id call (s.leave id call pc)
  | send (packet : Bytes) (remoteAddr : Addr)
      (ready : call.pc = .sending packet remoteAddr ∨ call.pc = .trying packet remoteAddr ∧ s.socket = true) :
      Turn s id call (s.send id call packet remoteAddr)

variable {ip encodeUdp} {s : SendWorld Addr Ip Token} {id : Nat} {call : SendCall Addr Ip Token}

theorem unsent_error (error : String) (sent : SendResult Token)
    (same : (.returned (.error error) : SendPc Addr Token).sent = some sent) : False := by
  cases same

theorem refused_turn (outside : call.pc.holds = false) (unsent : call.pc.sent = none) (error : String) :
    Turn ip encodeUdp s id call (s.setPc id call (.returned (.error error))) := by
  apply Turn.pass _ outside rfl _ unsent
  · exact fun sent same => (unsent_error error sent same).elim
  · intro found same
    cases same

theorem handOver_turn (outside : call.pc.holds = false) (unsent : call.pc.sent = none)
    (found : Option (TcpPacketSink Token)) (known : ∀ sink, found = some sink → s.Handed ip call.request sink) :
    Turn ip encodeUdp s id call (s.handOver id call found) := by
  cases found with
  | none => exact refused_turn outside unsent _
  | some sink =>
      apply Turn.pass _ outside rfl _ unsent
      · intro sent same
        cases same
        exact ⟨sink, rfl, known sink rfl⟩
      · intro found same
        cases same

theorem dropWrite_turn : Turn ip encodeUdp s id call (s.dropWrite id call) := by
  have given_up (outside : call.pc.holds = false) (unsent : call.pc.sent = none) :
      Turn ip encodeUdp s id call (s.setPc id call .dropped) := by
    apply Turn.pass _ outside rfl _ unsent
    · intro sent same
      cases same
    · intro found same
      cases same
  rw [SendWorld.dropWrite]
  cases at_ : call.pc with
  | start => exact given_up (by rw [at_]; rfl) (by rw [at_]; rfl)
  | locking packet remoteAddr => exact given_up (by rw [at_]; rfl) (by rw [at_]; rfl)
  | polling packet remoteAddr => exact .leave _ (by rw [at_]; rfl) rfl rfl rfl
  | _ => exact .stay

variable [DecidableEq Addr] [DecidableEq Ip]

theorem Coherent.tcpSink_inserted {w : World Addr Ip Token} (coh : Coherent ip w) (a : Addr)
    (sink : TcpPacketSink Token) (found : w.shared.registry.tcpSink a = some sink) :
    ∃ entry ∈ insertions w.shared.sections, entry.sink = sink ∧ entry.remoteAddr = a := by
  obtain ⟨entry, stored, same⟩ := Option.map_eq_some_iff.mp found
  obtain ⟨member, addr⟩ := (coh.represents.lookup_eq_some_iff a entry).mp stored
  exact ⟨entry, (live_sublist _).subset member, same, addr⟩

theorem Coherent.tcpSinkByIp_inserted {w : World Addr Ip Token} (coh : Coherent ip w) (p : Ip)
    (sink : TcpPacketSink Token) (found : w.shared.registry.tcpSinkByIp p = some sink) :
    ∃ entry ∈ insertions w.shared.sections, entry.sink = sink ∧ ip entry.remoteAddr = p := by
  rw [coh.represents.tcpSinkByIp p] at found
  obtain ⟨entry, last, same⟩ := Option.map_eq_some_iff.mp found
  obtain ⟨member, group⟩ := List.mem_filter.mp (List.mem_of_getLast? last)
  exact ⟨entry, (live_sublist _).subset member, same, by simpa using group⟩

theorem route_turn (coh : Coherent ip s.world) (opened : call.pc = .opened) :
    Turn ip encodeUdp s id call (s.route encodeUdp id call) := by
  have outside : call.pc.holds = false := by rw [opened]; rfl
  have unsent : call.pc.sent = none := by rw [opened]; rfl
  have locking (packet : Bytes) (remoteAddr : Addr)
      (own : call.request.datagram encodeUdp = some (packet, remoteAddr)) :
      Turn ip encodeUdp s id call (s.setPc id call (.locking packet remoteAddr)) := by
    apply Turn.pass _ outside rfl _ unsent
    · intro sent same
      cases same
    · intro found same
      cases same
      exact own
  rw [SendWorld.route]
  cases asked : call.request with
  | writeTo data remoteAddr protocol =>
      cases protocol with
      | udp =>
          simp only
          cases encoded : encodeUdp data with
          | error error => exact refused_turn outside unsent error
          | ok packet => exact locking packet remoteAddr (by rw [asked, WriteRequest.datagram, encoded]; rfl)
      | tcp =>
          apply handOver_turn outside unsent
          intro sink found
          rw [asked]
          exact coh.tcpSink_inserted remoteAddr sink found
      | all => exact refused_turn outside unsent _
  | writeSliceTo data remoteAddr protocol =>
      cases protocol with
      | udp => exact locking data remoteAddr (by rw [asked, WriteRequest.datagram])
      | tcp => exact refused_turn outside unsent _
      | all => exact refused_turn outside unsent _
  | writeTcpToIp data remoteIp =>
      apply handOver_turn outside unsent
      intro sink found
      rw [asked]
      exact coh.tcpSinkByIp_inserted remoteIp sink found
  | tryWriteTo data remoteAddr protocol =>
      cases protocol with
      | udp =>
          simp only
          cases encoded : encodeUdp data with
          | error error => exact refused_turn outside unsent error
          | ok packet =>
              simp only
              split
              · apply Turn.enter _ outside rfl rfl unsent
                intro found same
                cases same
                rw [asked, WriteRequest.datagram, encoded]
                rfl
              · exact refused_turn outside unsent _
      | tcp =>
          apply handOver_turn outside unsent
          intro sink found
          rw [asked]
          exact coh.tcpSink_inserted remoteAddr sink found
      | all => exact refused_turn outside unsent _

theorem advance_turn (coh : Coherent ip s.world) (outcome : SendOutcome)
    (packets : ∀ found, call.pc.packet = some found → call.request.datagram encodeUdp = some found) :
    Turn ip encodeUdp s id call (s.advance encodeUdp id outcome call) := by
  rw [SendWorld.advance]
  cases at_ : call.pc with
  | start =>
      simp only
      split
      · exact refused_turn (by rw [at_]; rfl) (by rw [at_]; rfl) _
      · apply Turn.pass _ (by rw [at_]; rfl) rfl _ (by rw [at_]; rfl)
        · intro sent same
          cases same
        · intro found same
          cases same
  | opened => exact route_turn coh at_
  | locking packet remoteAddr =>
      apply Turn.enter _ (by rw [at_]; rfl) rfl rfl (by rw [at_]; rfl)
      intro found same
      rw [at_] at packets
      exact packets found same
  | locked packet remoteAddr =>
      simp only
      split_ifs with socket
      · exact .keep _ (by rw [at_]; rfl) rfl (.inl socket) (by rw [at_]; rfl)
      · exact .leave _ (by rw [at_]; rfl) rfl rfl rfl
  | polling packet remoteAddr =>
      simp only
      split
      · exact .leave _ (by rw [at_]; rfl) rfl rfl rfl
      · exact .keep _ (by rw [at_]; rfl) rfl (.inr (by rw [at_]; rfl)) (by rw [at_]; rfl)
  | sending packet remoteAddr =>
      cases outcome with
      | sent => exact .send packet remoteAddr (.inl at_)
      | failed error => exact .leave _ (by rw [at_]; rfl) rfl rfl rfl
      | pending => exact .keep _ (by rw [at_]; rfl) rfl (.inr (by rw [at_]; rfl)) (by rw [at_]; rfl)
  | trying packet remoteAddr =>
      simp only
      split_ifs with socket
      · cases outcome with
        | sent => exact .send packet remoteAddr (.inr ⟨at_, socket⟩)
        | failed error => exact .leave _ (by rw [at_]; rfl) rfl rfl rfl
        | pending => exact .stay
      · exact .leave _ (by rw [at_]; rfl) rfl rfl rfl
  | returned result => exact .stay
  | dropped => exact .stay

end Turns

/-! The invariant of a run. -/

section Sound

variable {Addr Ip Token : Type} (ip : Addr → Ip) (encodeUdp : Bytes → Except String Bytes)

/-- A write, its lock, its packet and what has been sent for it. -/
structure CallSound (s : SendWorld Addr Ip Token) (id : Nat) (found : Option (SendCall Addr Ip Token)) :
    Prop where
  holding : id ∈ s.readers ↔ ∃ call, found = some call ∧ call.pc.holds = true
  packets : ∀ call datagram, found = some call → call.pc.packet = some datagram →
    call.request.datagram encodeUdp = some datagram
  bound : ∀ call, found = some call → call.pc.bound = true → s.socket = true
  handed : ∀ call sink, found = some call → call.pc.sent = some (.handed sink) → s.Handed ip call.request sink
  wired : ∀ datagram, (id, datagram) ∈ s.wire ↔ ∃ call, found = some call ∧ call.pc.sent = some .datagram ∧
    call.request.datagram encodeUdp = some datagram

variable {ip encodeUdp} {s t : SendWorld Addr Ip Token} {id : Nat} {call : SendCall Addr Ip Token}

theorem CallSound.frame {found : Option (SendCall Addr Ip Token)} (sound : CallSound ip encodeUdp s id found)
    (readers : id ∈ t.readers ↔ id ∈ s.readers)
    (socket : (∃ call, found = some call ∧ call.pc.bound = true) → s.socket = true → t.socket = true)
    (insertions : ∀ entry ∈ insertions s.world.shared.sections, entry ∈ insertions t.world.shared.sections)
    (wire : ∀ datagram, (id, datagram) ∈ t.wire ↔ (id, datagram) ∈ s.wire) :
    CallSound ip encodeUdp t id found where
  holding := readers.trans sound.holding
  packets := sound.packets
  bound call present bound := socket ⟨call, present, bound⟩ (sound.bound call present bound)
  handed call sink present handed := by
    obtain ⟨entry, member, same, reaches⟩ := sound.handed call sink present handed
    exact ⟨entry, insertions entry member, same, reaches⟩
  wired datagram := (wire datagram).trans (sound.wired datagram)

theorem holds_of_bound {pc : SendPc Addr Token} (bound : pc.bound = true) : pc.holds = true := by
  cases pc with
  | polling packet remoteAddr => rfl
  | sending packet remoteAddr => rfl
  | _ => cases bound

theorem unsent_of_holds {pc : SendPc Addr Token} (holds : pc.holds = true) : pc.sent = none := by
  cases pc with
  | returned result => cases holds
  | _ => rfl

/-- No datagram is on the wire for a write that has not sent any. -/
theorem CallSound.unwired (sound : CallSound ip encodeUdp s id (some call)) (unsent : call.pc.sent = none)
    (datagram : Bytes × Addr) : (id, datagram) ∉ s.wire := by
  rw [sound.wired]
  intro found
  obtain ⟨other, same, sent, _⟩ := found
  cases same
  rw [unsent] at sent
  cases sent

/-- A write for which nothing is on the wire. -/
theorem CallSound.quiet {request : WriteRequest Addr Ip} {pc : SendPc Addr Token}
    (after : t.calls id = some ⟨request, pc⟩) (unwired : ∀ datagram, (id, datagram) ∉ t.wire)
    (readers : id ∈ t.readers ↔ pc.holds = true)
    (packet : ∀ found, pc.packet = some found → request.datagram encodeUdp = some found)
    (bound : pc.bound = true → t.socket = true)
    (handed : ∀ sent, pc.sent = some sent → ∃ sink, sent = .handed sink ∧ t.Handed ip request sink) :
    CallSound ip encodeUdp t id (t.calls id) := by
  rw [after]
  refine ⟨?_, ?_, ?_, ?_, ?_⟩
  · rw [readers]
    simp
  · intro other datagram same packed
    cases same
    exact packet datagram packed
  · intro other same found
    cases same
    exact bound found
  · intro other sink same sent
    cases same
    obtain ⟨found, equal, own⟩ := handed _ sent
    cases equal
    exact own
  · intro datagram
    apply iff_of_false (unwired datagram)
    intro found
    obtain ⟨other, same, sent, _⟩ := found
    cases same
    obtain ⟨sink, equal, _⟩ := handed _ sent
    cases equal

/-- The write itself after its turn. -/
theorem CallSound.turn (sound : CallSound ip encodeUdp s id (some call)) (nodup : s.readers.Nodup)
    (present : s.calls id = some call) (turn : Turn ip encodeUdp s id call t) :
    CallSound ip encodeUdp t id (t.calls id) := by
  have after (pc : SendPc Addr Token) : (s.setPc id call pc).calls id = some { call with pc := pc } :=
    Function.update_self ..
  have silent (pc : SendPc Addr Token) (none : pc.sent = none) (sent : SendResult Token) (same : pc.sent = some sent) :
      ∃ sink, sent = .handed sink ∧ t.Handed ip call.request sink := by
    rw [none] at same
    cases same
  have free (pc : SendPc Addr Token) (free : pc.holds = false) (bound : pc.bound = true) : t.socket = true := by
    rw [holds_of_bound bound] at free
    cases free
  cases turn with
  | stay =>
      rw [present]
      exact sound
  | pass pc outside remains packet unsent handed =>
      apply CallSound.quiet (after pc) (sound.unwired unsent) _ packet (free pc remains) handed
      change id ∈ s.readers ↔ _
      rw [sound.holding]
      simp [outside, remains]
  | enter pc outside holds unbound unsent packet =>
      apply CallSound.quiet (t := s.enter id call pc) (after pc) (sound.unwired unsent) _ packet _
        (silent pc (unsent_of_holds holds))
      · exact iff_of_true (List.mem_append_right _ List.mem_cons_self) holds
      · intro bound
        rw [unbound] at bound
        cases bound
  | keep pc held holds bound same =>
      apply CallSound.quiet (after pc) (sound.unwired (unsent_of_holds held)) _ _ _
        (silent pc (unsent_of_holds holds))
      · exact iff_of_true (sound.holding.mpr ⟨call, rfl, held⟩) holds
      · intro found packed
        rw [same] at packed
        exact sound.packets call found rfl packed
      · intro _
        rcases bound with socket | bound
        · exact socket
        · exact sound.bound call rfl bound
  | leave pc held remains packet unsent =>
      apply CallSound.quiet (t := s.leave id call pc) (after pc) (sound.unwired (unsent_of_holds held)) _ _
        (free pc remains) (silent pc unsent)
      · apply iff_of_false nodup.not_mem_erase
        rw [remains]
        exact Bool.false_ne_true
      · intro found packed
        rw [packet] at packed
        cases packed
  | send packet remoteAddr ready =>
      have held : call.pc.holds = true := by
        rcases ready with at_ | ⟨at_, _⟩ <;> rw [at_] <;> rfl
      have own : call.request.datagram encodeUdp = some (packet, remoteAddr) := by
        apply sound.packets call _ rfl
        rcases ready with at_ | ⟨at_, _⟩ <;> rw [at_] <;> rfl
      rw [show (s.send id call packet remoteAddr).calls id = _ from after _]
      refine ⟨?_, ?_, ?_, ?_, ?_⟩
      · apply iff_of_false nodup.not_mem_erase
        intro found
        obtain ⟨other, same, holds⟩ := found
        cases same
        cases holds
      · intro other datagram same packed
        cases same
        cases packed
      · intro other same bound
        cases same
        cases bound
      · intro other sink same sent
        cases same
        cases sent
      · intro datagram
        change (id, datagram) ∈ s.wire ++ [(id, packet, remoteAddr)] ↔ _
        rw [List.mem_append, or_iff_right (sound.unwired (unsent_of_holds held) datagram), List.mem_singleton]
        constructor
        · intro same
          cases same
          exact ⟨_, rfl, rfl, own⟩
        · intro found
          obtain ⟨other, same, _, equal⟩ := found
          cases same
          rw [own] at equal
          cases equal
          rfl

/-- The other writes after the turn. -/
theorem CallSound.others (turn : Turn ip encodeUdp s id call t) (other : Nat) (ne : other ≠ id)
    (sound : CallSound ip encodeUdp s other (s.calls other)) : CallSound ip encodeUdp t other (t.calls other) := by
  have kept (pc : SendPc Addr Token) : (s.setPc id call pc).calls other = s.calls other :=
    Function.update_of_ne ne ..
  have erased : other ∈ s.readers.erase id ↔ other ∈ s.readers := List.mem_erase_of_ne ne
  cases turn with
  | stay => exact sound
  | pass pc _ _ _ _ _ =>
      rw [kept]
      exact sound.frame Iff.rfl (fun _ socket => socket) (fun _ member => member) fun _ => Iff.rfl
  | enter pc _ _ _ _ _ =>
      rw [show (s.enter id call pc).calls other = _ from kept pc]
      apply sound.frame (t := s.enter id call pc) _ (fun _ socket => socket) (fun _ member => member)
        fun _ => Iff.rfl
      change other ∈ s.readers ++ [id] ↔ _
      simp [ne]
  | keep pc _ _ _ _ =>
      rw [kept]
      exact sound.frame Iff.rfl (fun _ socket => socket) (fun _ member => member) fun _ => Iff.rfl
  | leave pc _ _ _ _ =>
      rw [show (s.leave id call pc).calls other = _ from kept pc]
      exact sound.frame erased (fun _ socket => socket) (fun _ member => member) fun _ => Iff.rfl
  | send packet remoteAddr _ =>
      rw [show (s.send id call packet remoteAddr).calls other = _ from kept _]
      apply sound.frame (t := s.send id call packet remoteAddr) erased (fun _ socket => socket)
        fun _ member => member
      intro datagram
      change (other, datagram) ∈ s.wire ++ [(id, packet, remoteAddr)] ↔ _
      simp [ne]

variable [DecidableEq Addr] [DecidableEq Ip]

variable (ip encodeUdp) in
structure SendSound (s : SendWorld Addr Ip Token) : Prop where
  coherent : Coherent ip s.world
  accounted : Accounted s.world
  readers : s.readers.Nodup
  calls : ∀ id, CallSound ip encodeUdp s id (s.calls id)
  wired : (s.wire.map Prod.fst).Nodup
  closers : ∀ id, s.closing id ≠ .idle → s.world.calls id = some (.close .returned)
  taken : ∀ id, s.closing id = .done → s.socket = false

namespace SendSound

theorem new (socket : Bool) : SendSound ip encodeUdp (SendWorld.new socket : SendWorld Addr Ip Token) where
  coherent := .new
  accounted := .new
  readers := .nil
  calls id := by
    refine ⟨?_, ?_, ?_, ?_, ?_⟩
    · exact iff_of_false List.not_mem_nil fun found => nomatch found.choose_spec.1
    · exact fun _ _ absent => nomatch absent
    · exact fun _ absent => nomatch absent
    · exact fun _ _ absent => nomatch absent
    · exact fun _ => iff_of_false List.not_mem_nil fun found => nomatch found.choose_spec.1
  wired := .nil
  closers _ moved := absurd rfl moved
  taken _ absent := nomatch absent

theorem turn (sound : SendSound ip encodeUdp s) (present : s.calls id = some call)
    (turn : Turn ip encodeUdp s id call t) : SendSound ip encodeUdp t := by
  have own : CallSound ip encodeUdp s id (some call) := by
    rw [← present]
    exact sound.calls id
  have calls : ∀ other, CallSound ip encodeUdp t other (t.calls other) := by
    intro other
    by_cases same : other = id
    · rw [same]
      exact own.turn sound.readers present turn
    · exact CallSound.others turn other same (sound.calls other)
  cases turn with
  | stay => exact sound
  | pass pc _ _ _ _ _ =>
      exact ⟨sound.coherent, sound.accounted, sound.readers, calls, sound.wired, sound.closers, sound.taken⟩
  | enter pc outside _ _ _ _ =>
      refine ⟨sound.coherent, sound.accounted, ?_, calls, sound.wired, sound.closers, sound.taken⟩
      have fresh : id ∉ s.readers := by
        rw [own.holding]
        simp [outside]
      have grown := sound.readers.concat fresh
      rwa [List.concat_eq_append] at grown
  | keep pc _ _ _ _ =>
      exact ⟨sound.coherent, sound.accounted, sound.readers, calls, sound.wired, sound.closers, sound.taken⟩
  | leave pc _ _ _ _ =>
      exact ⟨sound.coherent, sound.accounted, sound.readers.erase id, calls, sound.wired, sound.closers,
        sound.taken⟩
  | send packet remoteAddr ready =>
      refine ⟨sound.coherent, sound.accounted, sound.readers.erase id, calls, ?_, sound.closers, sound.taken⟩
      have held : call.pc.holds = true := by
        rcases ready with at_ | ⟨at_, _⟩ <;> rw [at_] <;> rfl
      change ((s.wire ++ [(id, packet, remoteAddr)]).map Prod.fst).Nodup
      have fresh : id ∉ s.wire.map Prod.fst := by
        intro member
        obtain ⟨⟨_, datagram⟩, inside, rfl⟩ := List.mem_map.mp member
        exact own.unwired (unsent_of_holds held) datagram inside
      have grown := sound.wired.concat fresh
      rw [List.map_append]
      rwa [List.concat_eq_append] at grown

theorem write (sound : SendSound ip encodeUdp s) (fresh : s.calls id = none) (request : WriteRequest Addr Ip) :
    SendSound ip encodeUdp { s with calls := Function.update s.calls id (some ⟨request, .start⟩) } where
  coherent := sound.coherent
  accounted := sound.accounted
  readers := sound.readers
  calls other := by
    have before := sound.calls other
    by_cases same : other = id
    · subst same
      rw [fresh] at before
      apply CallSound.quiet (Function.update_self ..)
      · intro datagram
        change (other, datagram) ∉ s.wire
        rw [before.wired]
        exact fun found => nomatch found.choose_spec.1
      · refine iff_of_false ?_ Bool.false_ne_true
        change other ∉ s.readers
        rw [before.holding]
        exact fun found => nomatch found.choose_spec.1
      · exact fun _ absent => nomatch absent
      · exact fun absent => nomatch absent
      · exact fun _ absent => nomatch absent
    · change CallSound ip encodeUdp _ other (Function.update s.calls id (some ⟨request, .start⟩) other)
      rw [Function.update_of_ne same]
      exact before.frame Iff.rfl (fun _ socket => socket) (fun _ member => member) fun _ => Iff.rfl
  wired := sound.wired
  closers := sound.closers
  taken := sound.taken

/-- The next step of a `close` that is through with the sinks. -/
theorem advanceClose (sound : SendSound ip encodeUdp s) (pc : SocketPc) (waiting : List Nat) (socket : Bool)
    (through : s.world.calls id = some (.close .returned)) (shut : pc = .done → socket = false)
    (free : socket = s.socket ∨ socket = false ∧ s.readers = []) :
    SendSound ip encodeUdp
      { s with socket := socket, closing := Function.update s.closing id pc, waiting := waiting } where
  coherent := sound.coherent
  accounted := sound.accounted
  readers := sound.readers
  calls other := by
    refine (sound.calls other).frame Iff.rfl ?_ (fun _ member => member) fun _ => Iff.rfl
    intro found before
    rcases free with same | ⟨_, none⟩
    · exact same.trans before
    · obtain ⟨call, present, bound⟩ := found
      have holder := (sound.calls other).holding.mpr ⟨call, present, holds_of_bound bound⟩
      rw [none] at holder
      cases holder
  wired := sound.wired
  closers other moved := by
    have moved : Function.update s.closing id pc other ≠ .idle := moved
    by_cases same : other = id
    · rw [same]
      exact through
    · rw [Function.update_of_ne same] at moved
      exact sound.closers other moved
  taken other done := by
    have done : Function.update s.closing id pc other = .done := done
    by_cases same : other = id
    · rw [same, Function.update_self] at done
      exact shut done
    · rw [Function.update_of_ne same] at done
      rcases free with kept | ⟨gone, _⟩
      · exact kept.trans (sound.taken other done)
      · exact gone

theorem takeSocket (sound : SendSound ip encodeUdp s) (id : Nat) : SendSound ip encodeUdp (s.takeSocket id) := by
  rw [SendWorld.takeSocket]
  split
  case h_1 through => exact sound.advanceClose .waiting _ s.socket through nofun (.inl rfl)
  case h_2 at_ =>
    have through : s.world.calls id = some (.close .returned) := sound.closers id (by rw [at_]; exact nofun)
    split_ifs with empty
    · exact sound.advanceClose .done _ false through (fun _ => rfl) (.inr ⟨rfl, List.isEmpty_iff.mp empty⟩)
    · exact sound
  case h_3 => exact sound

theorem dropClose (sound : SendSound ip encodeUdp s) (id : Nat) : SendSound ip encodeUdp (s.dropClose id) := by
  rw [SendWorld.dropClose]
  split
  case h_1 at_ =>
    have through : s.world.calls id = some (.close .returned) := sound.closers id (by rw [at_]; exact nofun)
    exact sound.advanceClose .dropped _ s.socket through nofun (.inl rfl)
  case h_2 => exact sound

variable [DecidableEq Token]

/-- A call that has returned stays so. -/
theorem World.close_stays {w : World Addr Ip Token} (present : w.calls id = some (.close .returned))
    (act : Act Addr Token) : (w.step ip act).calls id = some (.close .returned) := by
  rcases w.step_calls ip act id with same | ⟨_, _, idle, _⟩ | ⟨pick, call, found, _, after⟩
  · rw [same]
    exact present
  · rw [present] at idle
    cases idle
  · rw [present] at found
    cases found
    exact after

theorem callStep (sound : SendSound ip encodeUdp s) (act : Act Addr Token) :
    SendSound ip encodeUdp { s with world := s.world.step ip act } where
  coherent := sound.coherent.step act
  accounted := sound.accounted.step sound.coherent act
  readers := sound.readers
  calls id := by
    refine (sound.calls id).frame Iff.rfl (fun _ socket => socket) ?_ fun _ => Iff.rfl
    intro entry member
    rcases s.world.step_sections ip act with same | ⟨last, grown⟩
    · rwa [same]
    · rw [grown, insertions_append]
      exact List.mem_append_left _ member
  wired := sound.wired
  closers id moved := World.close_stays (sound.closers id moved) act
  taken := sound.taken

theorem step (sound : SendSound ip encodeUdp s) (act : SendAct Addr Ip Token) :
    SendSound ip encodeUdp (s.step ip encodeUdp act) := by
  cases act with
  | call act => exact sound.callStep act
  | write id request =>
      rw [SendWorld.step]
      cases present : s.calls id with
      | none => exact sound.write present request
      | some call => exact sound
  | advance id outcome =>
      rw [SendWorld.step]
      cases present : s.calls id with
      | none => exact sound
      | some call =>
          have packets := fun found => (sound.calls id).packets call found present
          exact sound.turn present (advance_turn sound.coherent outcome packets)
  | drop id =>
      rw [SendWorld.step]
      cases present : s.calls id with
      | none => exact sound
      | some call => exact sound.turn present dropWrite_turn
  | takeSocket id => exact sound.takeSocket id
  | dropClose id => exact sound.dropClose id

theorem run (sound : SendSound ip encodeUdp s) (acts : List (SendAct Addr Ip Token)) :
    SendSound ip encodeUdp (s.run ip encodeUdp acts) :=
  Lib.invariant_run (SendWorld.step ip encodeUdp) (SendSound ip encodeUdp) (fun _ act inner => inner.step act) s
    acts sound

end SendSound

end Sound

/-! A closed writer. -/

section Closed

variable {Addr Ip Token : Type}

/-- The write is past its last look at the closed flag and may still send. -/
def SendCall.unstoppable (call : SendCall Addr Ip Token) : Bool :=
  match call.pc with
  | .sending _ _ => true
  | .trying _ _ => true
  | .opened => call.request.isTry
  | _ => false

/-- The write has not got past its first look at the closed flag. -/
def SendPc.outside : SendPc Addr Token → Bool
  | .start => true
  | .dropped => true
  | .returned (.error error) => error = packetWriterClosed
  | _ => false

/-- The step takes the write to a `pc` of the given kind, and sends nothing. -/
def Moved (s : SendWorld Addr Ip Token) (id : Nat) (call : SendCall Addr Ip Token)
    (kind : SendCall Addr Ip Token → Prop) (t : SendWorld Addr Ip Token) : Prop :=
  t.wire = s.wire ∧ ∃ pc, t.calls = Function.update s.calls id (some { call with pc := pc }) ∧
    kind { call with pc := pc }

variable {encodeUdp : Bytes → Except String Bytes} {s : SendWorld Addr Ip Token} {id : Nat}
  {call : SendCall Addr Ip Token} {kind : SendCall Addr Ip Token → Prop}

theorem Moved.of_eq (present : s.calls id = some call) (own : kind call) : Moved s id call kind s := by
  refine ⟨rfl, call.pc, ?_, own⟩
  rw [← present, Function.update_eq_self]

theorem handOver_moved (found : Option (TcpPacketSink Token))
    (refused : ∀ error, kind { call with pc := .returned (.error error) })
    (handed : ∀ sink, found = some sink → kind { call with pc := .returned (.ok (.handed sink)) }) :
    Moved s id call kind (s.handOver id call found) := by
  cases found with
  | none => exact ⟨rfl, _, rfl, refused _⟩
  | some sink => exact ⟨rfl, _, rfl, handed sink rfl⟩

theorem dropWrite_moved (present : s.calls id = some call) (stoppable : call.unstoppable = false) :
    Moved s id call (fun next => next.unstoppable = false ∧ (call.pc.outside = true → next.pc.outside = true))
      (s.dropWrite id call) := by
  rw [SendWorld.dropWrite]
  split
  case h_4 => exact .of_eq present ⟨stoppable, fun outside => outside⟩
  all_goals exact ⟨rfl, _, rfl, rfl, fun _ => rfl⟩

variable [DecidableEq Addr]

theorem route_moved (refused : ∀ error, kind { call with pc := .returned (.error error) })
    (locking : call.request.isTry = false → ∀ packet remoteAddr, kind { call with pc := .locking packet remoteAddr })
    (trying : call.request.isTry = true → ∀ packet remoteAddr, kind { call with pc := .trying packet remoteAddr })
    (handed : s.world.shared.registry ≠ Registry.empty →
      ∀ sink, kind { call with pc := .returned (.ok (.handed sink)) }) :
    Moved s id call kind (s.route encodeUdp id call) := by
  have byAddr (remoteAddr : Addr) (sink : TcpPacketSink Token)
      (found : s.world.shared.registry.tcpSink remoteAddr = some sink) :
      kind { call with pc := .returned (.ok (.handed sink)) } := by
    apply handed _ sink
    intro empty
    rw [empty] at found
    cases found
  have byIp (remoteIp : Ip) (sink : TcpPacketSink Token)
      (found : s.world.shared.registry.tcpSinkByIp remoteIp = some sink) :
      kind { call with pc := .returned (.ok (.handed sink)) } := by
    apply handed _ sink
    intro empty
    rw [empty] at found
    cases found
  rw [SendWorld.route]
  cases asked : call.request with
  | writeTo data remoteAddr protocol =>
      have async : call.request.isTry = false := by rw [asked]; rfl
      cases protocol with
      | udp =>
          simp only
          cases encodeUdp data with
          | error error => exact ⟨rfl, _, rfl, refused error⟩
          | ok packet => exact ⟨rfl, _, rfl, locking async packet remoteAddr⟩
      | tcp => exact handOver_moved _ refused (byAddr remoteAddr)
      | all => exact ⟨rfl, _, rfl, refused _⟩
  | writeSliceTo data remoteAddr protocol =>
      have async : call.request.isTry = false := by rw [asked]; rfl
      cases protocol with
      | udp => exact ⟨rfl, _, rfl, locking async data remoteAddr⟩
      | tcp => exact ⟨rfl, _, rfl, refused _⟩
      | all => exact ⟨rfl, _, rfl, refused _⟩
  | writeTcpToIp data remoteIp => exact handOver_moved _ refused (byIp remoteIp)
  | tryWriteTo data remoteAddr protocol =>
      have isTry : call.request.isTry = true := by rw [asked]; rfl
      cases protocol with
      | udp =>
          simp only
          cases encodeUdp data with
          | error error => exact ⟨rfl, _, rfl, refused error⟩
          | ok packet =>
              simp only
              split
              · exact ⟨rfl, _, rfl, trying isTry packet remoteAddr⟩
              · exact ⟨rfl, _, rfl, refused _⟩
      | tcp => exact handOver_moved _ refused (byAddr remoteAddr)
      | all => exact ⟨rfl, _, rfl, refused _⟩

/-- In a closed writer a write that has to look at the flag again sends nothing any more, and one that had
not begun is told so. -/
theorem advance_closed (closed : s.world.shared.closed = true) (present : s.calls id = some call)
    (stoppable : call.unstoppable = false) (outcome : SendOutcome) :
    Moved s id call (fun next => next.unstoppable = false ∧ (call.pc.outside = true → next.pc.outside = true))
      (s.advance encodeUdp id outcome call) := by
  rw [SendWorld.advance]
  rw [SendCall.unstoppable] at stoppable
  cases at_ : call.pc with
  | start =>
      simp only [closed, if_true]
      exact ⟨rfl, _, rfl, rfl, fun _ => rfl⟩
  | opened =>
      simp only [at_] at stoppable
      apply route_moved
      · exact fun error => ⟨rfl, nofun⟩
      · exact fun _ packet remoteAddr => ⟨rfl, nofun⟩
      · intro isTry
        rw [stoppable] at isTry
        cases isTry
      · exact fun _ sink => ⟨rfl, nofun⟩
  | locking packet remoteAddr => exact ⟨rfl, _, rfl, rfl, nofun⟩
  | locked packet remoteAddr =>
      simp only
      split <;> exact ⟨rfl, _, rfl, rfl, nofun⟩
  | polling packet remoteAddr =>
      simp only [closed, if_true]
      exact ⟨rfl, _, rfl, rfl, nofun⟩
  | sending packet remoteAddr =>
      rw [at_] at stoppable
      cases stoppable
  | trying packet remoteAddr =>
      rw [at_] at stoppable
      cases stoppable
  | returned result =>
      apply Moved.of_eq present
      rw [SendCall.unstoppable, at_]
      exact ⟨rfl, fun outside => outside⟩
  | dropped =>
      apply Moved.of_eq present
      rw [SendCall.unstoppable, at_]
      exact ⟨rfl, fun _ => rfl⟩

end Closed

section Barrier

variable {Addr Ip Token : Type} {ip : Addr → Ip} {encodeUdp : Bytes → Except String Bytes}
  {s t : SendWorld Addr Ip Token} {id : Nat} {call : SendCall Addr Ip Token}

theorem Turn.calls_of_ne (turn : Turn ip encodeUdp s id call t) (other : Nat) (ne : other ≠ id) :
    t.calls other = s.calls other := by
  cases turn with
  | stay => rfl
  | _ => exact Function.update_of_ne ne ..

theorem Turn.wire_of_ne (turn : Turn ip encodeUdp s id call t) (other : Nat) (ne : other ≠ id)
    (datagram : Bytes × Addr) (member : (other, datagram) ∈ t.wire) : (other, datagram) ∈ s.wire := by
  cases turn with
  | send packet remoteAddr ready =>
      rcases List.mem_append.mp member with before | now
      · exact before
      · cases List.mem_singleton.mp now
        exact absurd rfl ne
  | _ => exact member

/-- The write can no longer send, or has not begun. -/
def SendWorld.Behind (s : SendWorld Addr Ip Token) (id : Nat) : Prop :=
  ∀ call, s.calls id = some call → call.unstoppable = false

def SendWorld.Outside (s : SendWorld Addr Ip Token) (id : Nat) : Prop :=
  ∀ call, s.calls id = some call → call.pc.outside = true

variable [DecidableEq Addr] [DecidableEq Ip]

/-- After a `close` that has returned there is neither a socket nor a sink. -/
theorem SendSound.shut (sound : SendSound ip encodeUdp s) (close : Nat) (done : s.closing close = .done) :
    s.socket = false ∧ s.world.shared.registry = Registry.empty := by
  have returned := sound.closers close (by rw [done]; exact nofun)
  have cleared := sound.accounted.closers close .returned returned trivial
  exact ⟨sound.taken close done, (sound.accounted.cleared cleared).2⟩

variable [DecidableEq Token]

/-- One write of a closed writer over one step. -/
theorem SendSound.step_closed (sound : SendSound ip encodeUdp s) (closed : s.world.shared.closed = true)
    (id : Nat) (behind : s.Behind id) (act : SendAct Addr Ip Token) :
    (s.step ip encodeUdp act).Behind id ∧ (s.Outside id → (s.step ip encodeUdp act).Outside id) ∧
      ∀ datagram, (id, datagram) ∈ (s.step ip encodeUdp act).wire → (id, datagram) ∈ s.wire := by
  have same (t : SendWorld Addr Ip Token) (calls : t.calls id = s.calls id)
      (wire : ∀ datagram, (id, datagram) ∈ t.wire → (id, datagram) ∈ s.wire) :
      t.Behind id ∧ (s.Outside id → t.Outside id) ∧
        ∀ datagram, (id, datagram) ∈ t.wire → (id, datagram) ∈ s.wire := by
    refine ⟨?_, ?_, wire⟩
    · rw [SendWorld.Behind, calls]
      exact behind
    · intro outside
      rw [SendWorld.Outside, calls]
      exact outside
  have moved (t : SendWorld Addr Ip Token) (call : SendCall Addr Ip Token) (present : s.calls id = some call)
      (moved : Moved s id call
        (fun next => next.unstoppable = false ∧ (call.pc.outside = true → next.pc.outside = true)) t) :
      t.Behind id ∧ (s.Outside id → t.Outside id) ∧
        ∀ datagram, (id, datagram) ∈ t.wire → (id, datagram) ∈ s.wire := by
    obtain ⟨wire, pc, calls, stoppable, outside⟩ := moved
    have after : t.calls id = some { call with pc := pc } := by
      rw [calls]
      exact Function.update_self ..
    refine ⟨?_, ?_, fun datagram member => wire ▸ member⟩
    · intro found same
      rw [after] at same
      cases same
      exact stoppable
    · intro before found same
      rw [after] at same
      cases same
      exact outside (before call present)
  cases act with
  | call act => exact same _ rfl fun _ member => member
  | write other request =>
      rw [SendWorld.step]
      cases present : s.calls other with
      | some call => exact same _ rfl fun _ member => member
      | none =>
          by_cases equal : id = other
          · subst equal
            have after : Function.update s.calls id (some ⟨request, .start⟩) id = some ⟨request, .start⟩ :=
              Function.update_self ..
            refine ⟨?_, ?_, fun _ member => member⟩
            · intro found same
              cases after.symm.trans same
              rfl
            · intro _ found same
              cases after.symm.trans same
              rfl
          · exact same _ (Function.update_of_ne equal ..) fun _ member => member
  | advance other outcome =>
      rw [SendWorld.step]
      cases present : s.calls other with
      | none => exact same _ rfl fun _ member => member
      | some call =>
          have packets := fun found => (sound.calls other).packets call found present
          have turn : Turn ip encodeUdp s other call (s.advance encodeUdp other outcome call) :=
            advance_turn sound.coherent outcome packets
          by_cases equal : id = other
          · subst equal
            exact moved _ call present (advance_closed closed present (behind call present) outcome)
          · exact same _ (turn.calls_of_ne id equal) (turn.wire_of_ne id equal)
  | drop other =>
      rw [SendWorld.step]
      cases present : s.calls other with
      | none => exact same _ rfl fun _ member => member
      | some call =>
          have turn : Turn ip encodeUdp s other call (s.dropWrite other call) := dropWrite_turn
          by_cases equal : id = other
          · subst equal
            exact moved _ call present (dropWrite_moved present (behind call present))
          · exact same _ (turn.calls_of_ne id equal) (turn.wire_of_ne id equal)
  | takeSocket other =>
      rw [SendWorld.step, SendWorld.takeSocket]
      split
      · exact same _ rfl fun _ member => member
      · split_ifs <;> exact same _ rfl fun _ member => member
      · exact same _ rfl fun _ member => member
  | dropClose other =>
      rw [SendWorld.step, SendWorld.dropClose]
      split <;> exact same _ rfl fun _ member => member

theorem World.stays_closed {w : World Addr Ip Token} (closed : w.shared.closed = true) (act : Act Addr Token) :
    (w.step ip act).shared.closed = true := by
  apply World.step_elim (motive := fun t => t.shared.closed = true) ip w act closed
  · exact fun _ _ _ => closed
  · exact fun id pick call _ => (call.advance_touch ip w.shared pick).closed closed
  · exact fun _ => closed

/-- What a step leaves alone. -/
theorem SendSound.step_frame (sound : SendSound ip encodeUdp s) (act : SendAct Addr Ip Token) :
    (s.world.shared.closed = true → (s.step ip encodeUdp act).world.shared.closed = true) ∧
      ∀ close, s.closing close = .done → (s.step ip encodeUdp act).closing close = .done := by
  have turned {id : Nat} {call : SendCall Addr Ip Token} {t : SendWorld Addr Ip Token}
      (turn : Turn ip encodeUdp s id call t) : (s.world.shared.closed = true → t.world.shared.closed = true) ∧
        ∀ close, s.closing close = .done → t.closing close = .done := by
    cases turn with
    | _ => exact ⟨fun closed => closed, fun _ done => done⟩
  have same (t : SendWorld Addr Ip Token) (world : t.world = s.world) (closing : t.closing = s.closing) :
      (s.world.shared.closed = true → t.world.shared.closed = true) ∧
        ∀ close, s.closing close = .done → t.closing close = .done := by
    rw [world, closing]
    exact ⟨fun closed => closed, fun _ done => done⟩
  have moved (id : Nat) (pc : SocketPc) (before : s.closing id ≠ .done) (close : Nat)
      (done : s.closing close = .done) : Function.update s.closing id pc close = .done := by
    have ne : close ≠ id := fun equal => before (equal ▸ done)
    rw [Function.update_of_ne ne]
    exact done
  cases act with
  | call act => exact ⟨fun closed => World.stays_closed closed act, fun _ done => done⟩
  | write id request =>
      rw [SendWorld.step]
      split <;> exact same _ rfl rfl
  | advance id outcome =>
      rw [SendWorld.step]
      cases present : s.calls id with
      | none => exact same _ rfl rfl
      | some call =>
          have packets := fun found => (sound.calls id).packets call found present
          exact turned (advance_turn sound.coherent outcome packets)
  | drop id =>
      rw [SendWorld.step]
      cases present : s.calls id with
      | none => exact same _ rfl rfl
      | some call =>
          have turn : Turn ip encodeUdp s id call (s.dropWrite id call) := dropWrite_turn
          exact turned turn
  | takeSocket id =>
      rw [SendWorld.step, SendWorld.takeSocket]
      split
      case h_1 at_ _ => exact ⟨fun closed => closed, moved id _ (by rw [at_]; exact nofun)⟩
      case h_2 at_ =>
        split_ifs
        · exact ⟨fun closed => closed, moved id _ (by rw [at_]; exact nofun)⟩
        · exact same _ rfl rfl
      case h_3 => exact same _ rfl rfl
  | dropClose id =>
      rw [SendWorld.step, SendWorld.dropClose]
      split
      case h_1 at_ => exact ⟨fun closed => closed, moved id _ (by rw [at_]; exact nofun)⟩
      case h_2 => exact same _ rfl rfl

theorem SendSound.run_closed (sound : SendSound ip encodeUdp s) (closed : s.world.shared.closed = true)
    (id : Nat) (behind : s.Behind id) (more : List (SendAct Addr Ip Token)) :
    (s.Outside id → (s.run ip encodeUdp more).Outside id) ∧
      ∀ datagram, (id, datagram) ∈ (s.run ip encodeUdp more).wire → (id, datagram) ∈ s.wire := by
  have kept := Lib.invariant_run (SendWorld.step ip encodeUdp)
    (fun t => SendSound ip encodeUdp t ∧ t.world.shared.closed = true ∧ t.Behind id ∧
      (s.Outside id → t.Outside id) ∧ ∀ datagram, (id, datagram) ∈ t.wire → (id, datagram) ∈ s.wire) ?_ s more
    ⟨sound, closed, behind, fun outside => outside, fun _ member => member⟩
  · exact ⟨kept.2.2.2.1, kept.2.2.2.2⟩
  · intro t act inner
    obtain ⟨inv, shut, waits, outside, wire⟩ := inner
    obtain ⟨behind, still, sent⟩ := inv.step_closed shut id waits act
    refine ⟨inv.step act, (inv.step_frame act).1 shut, behind, fun before => still (outside before), ?_⟩
    exact fun datagram member => wire datagram (sent datagram member)

end Barrier

section Closing

variable {Addr Ip Token : Type} [DecidableEq Addr] [DecidableEq Ip] [DecidableEq Token]

end Closing

end Pigs.Net.Rw
