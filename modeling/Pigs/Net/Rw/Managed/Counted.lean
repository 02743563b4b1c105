import Pigs.Net.Rw.Managed.Listener

/-! The report of `run_managed_packet_io` counts every listener, receiver and connection once, unless a
listener finds its token cancelled with an accepted stream in hand. -/

namespace Pigs.Net.Rw.Managed

namespace NetworkCloseReport

def counted (report : NetworkCloseReport) : Nat :=
  report.completed + report.cancelled + report.failed + report.panicked

@[simp] theorem counted_add (report other : NetworkCloseReport) :
    (report + other).counted = report.counted + other.counted := by
  change report.completed + other.completed + (report.cancelled + other.cancelled) +
    (report.failed + other.failed) + (report.panicked + other.panicked) = _
  simp only [counted]
  omega

@[simp] theorem counted_taskReport (result : Except JoinError Bool) : (taskReport result).counted = 1 := by
  cases result with
  | ok done => cases done <;> rfl
  | error joinError => cases joinError <;> rfl

@[simp] theorem counted_oneCancelled : oneCancelled.counted = 1 := rfl

@[simp] theorem counted_oneFailed : oneFailed.counted = 1 := rfl

end NetworkCloseReport

/-- The listener has not left its loop. -/
def ListenerPc.inLoop : ListenerPc → Bool
  | .closing => false
  | .draining => false
  | .returned => false
  | _ => true

/-- What a listener has counted and what it still has to count: the connections that it has not joined,
and itself while it is in its loop. -/
def Listener.units (listener : Listener) : Nat :=
  listener.report.counted + listener.connections.length + if listener.pc.inLoop then 1 else 0

def Receiver.units (receiver : Receiver) : Nat :=
  receiver.report.counted + if receiver.pc = .returned then 0 else 1

namespace PacketIo

/-- A listener that has accepted a stream finds the token cancelled. -/
def careless (s : PacketIo) : PacketIoAct → Bool
  | .listener .advance => decide (.tcpListener ∈ s.tasks) && decide (s.listener.pc = .checking) && s.cancelled
  | _ => false

/-- One entry for each listener that leaves its loop without counting itself. -/
def missed (s : PacketIo) (act : PacketIoAct) : List Unit := if s.careless act then [()] else []

/-- A step of the listener, of which `lost` units are never counted. -/
structure ListenerMove (s t : PacketIo) (lost : Nat) : Prop where
  others : t.tasks = s.tasks ∧ t.receiver = s.receiver ∧ t.report = s.report ∧ t.pc = s.pc
  units : t.listener.units + lost + s.spawned = s.listener.units + t.spawned
  returned : t.listener.pc = .returned → t.listener.connections = []

theorem ListenerMove.same (s : PacketIo) (returned : s.listener.pc = .returned → s.listener.connections = []) :
    ListenerMove s s 0 :=
  ⟨⟨rfl, rfl, rfl, rfl⟩, rfl, returned⟩

theorem joinConnection_move (s : PacketIo) (id : Nat) (pc : ListenerPc) (loop : pc.inLoop = s.listener.pc.inLoop)
    (on : pc ≠ .returned) (returned : s.listener.pc = .returned → s.listener.connections = []) :
    ListenerMove s (s.joinConnection id pc) 0 := by
  unfold joinConnection
  split
  case h_1 result found =>
    obtain ⟨front, back, split, fresh⟩ := List.lookup_eq_some_iff.mp found
    refine ⟨⟨rfl, rfl, rfl, rfl⟩, ?_, fun there => absurd there on⟩
    have joined : (s.listener.connections.eraseP fun task => task.1 = id).length + 1 =
        s.listener.connections.length :=
      List.length_eraseP_add_one (a := (id, some result)) (by rw [split]; simp) (by simp)
    simp only [setListener, Listener.units, NetworkCloseReport.counted_add,
      NetworkCloseReport.counted_taskReport, loop]
    omega
  case h_2 => exact ListenerMove.same s returned

/-- The listener only changes its place. -/
theorem setPc_move (s : PacketIo) (pc : ListenerPc) (backoff : Nat) (loop : pc.inLoop = s.listener.pc.inLoop)
    (on : pc ≠ .returned) :
    ListenerMove s (s.setListener { s.listener with pc := pc, backoff := backoff }) 0 := by
  refine ⟨⟨rfl, rfl, rfl, rfl⟩, ?_, fun there => absurd there on⟩
  simp only [setListener, Listener.units, loop]
  omega

/-- The listener sees the token and leaves its loop. -/
theorem leave_move (s : PacketIo) (loop : s.listener.pc.inLoop = true) :
    ListenerMove s (s.setListener
      { s.listener with pc := .closing, report := s.listener.report + oneCancelled }) 0 := by
  refine ⟨⟨rfl, rfl, rfl, rfl⟩, ?_, fun there => by cases there⟩
  have left : ListenerPc.closing.inLoop = false := rfl
  simp only [setListener, Listener.units, loop, left, NetworkCloseReport.counted_add,
    NetworkCloseReport.counted_oneCancelled, Bool.false_eq_true, if_true, if_false]
  omega

/-- The listener drops the stream that it has in hand and counts nothing. -/
theorem careless_move (s : PacketIo) (careless : s.careless (.listener .advance) = true) :
    ListenerMove s s.advanceListener 1 := by
  simp only [PacketIo.careless, Bool.and_eq_true, decide_eq_true_eq] at careless
  obtain ⟨⟨_, atPc⟩, token⟩ := careless
  simp only [advanceListener, atPc, token, if_pos]
  refine ⟨⟨rfl, rfl, rfl, rfl⟩, ?_, fun there => by cases there⟩
  simp [setListener, Listener.units, ListenerPc.inLoop, atPc]

theorem careful_move (s : PacketIo) (inside : .tcpListener ∈ s.tasks)
    (careful : s.careless (.listener .advance) = false)
    (returned : s.listener.pc = .returned → s.listener.connections = []) :
    ListenerMove s s.advanceListener 0 := by
  cases atPc : s.listener.pc with
  | polling =>
      simp only [advanceListener, atPc]
      split
      · exact leave_move s (by rw [atPc]; rfl)
      · exact setPc_move s .joining _ (by rw [atPc]; rfl) (by simp)
  | joining =>
      simp only [advanceListener, atPc]
      exact setPc_move s .accepting _ (by rw [atPc]; rfl) (by simp)
  | accepting =>
      simp only [advanceListener, atPc]
      exact setPc_move s .polling _ (by rw [atPc]; rfl) (by simp)
  | checking =>
      have token : s.cancelled = false := by simpa [careless, inside, atPc] using careful
      simp only [advanceListener, atPc, token, Bool.false_eq_true, if_false]
      refine ⟨⟨rfl, rfl, rfl, rfl⟩, ?_, fun there => by cases there⟩
      simp only [setListener, Listener.units, ListenerPc.inLoop, atPc, List.length_append,
        List.length_singleton, if_true]
      omega
  | backingOff =>
      simp only [advanceListener, atPc]
      split
      · exact leave_move s (by rw [atPc]; rfl)
      · exact setPc_move s .sleeping _ (by rw [atPc]; rfl) (by simp)
  | sleeping =>
      simp only [advanceListener, atPc]
      exact setPc_move s .backingOff _ (by rw [atPc]; rfl) (by simp)
  | closing =>
      simp only [advanceListener, atPc]
      have moved := setPc_move s .draining s.listener.backoff (by rw [atPc]; rfl) (by simp)
      exact ⟨moved.others, moved.units, moved.returned⟩
  | draining =>
      simp only [advanceListener, atPc]
      split
      case isTrue empty =>
        refine ⟨⟨rfl, rfl, rfl, rfl⟩, ?_, fun _ => List.isEmpty_iff.mp empty⟩
        simp [setListener, Listener.units, ListenerPc.inLoop, atPc]
      case isFalse => exact ListenerMove.same s returned
  | returned =>
      simp only [advanceListener, atPc]
      exact ListenerMove.same s returned

theorem advanceListener_move (s : PacketIo) (inside : .tcpListener ∈ s.tasks)
    (returned : s.listener.pc = .returned → s.listener.connections = []) :
    ListenerMove s s.advanceListener (s.missed (.listener .advance)).length := by
  cases late : s.careless (.listener .advance) with
  | true =>
      rw [missed, if_pos late]
      exact careless_move s late
  | false =>
      rw [missed, if_neg (by simp [late])]
      exact careful_move s inside late returned

theorem stepListener_move (s : PacketIo) (act : ListenerAct) (inside : .tcpListener ∈ s.tasks)
    (returned : s.listener.pc = .returned → s.listener.connections = []) :
    ListenerMove s (s.stepListener act) (s.missed (.listener act)).length := by
  cases act with
  | advance => exact advanceListener_move s inside returned
  | join id =>
      simp only [stepListener]
      split
      case h_1 atPc => exact joinConnection_move s id .polling (by rw [atPc]; rfl) (by simp) returned
      case h_2 atPc => exact joinConnection_move s id .draining (by rw [atPc]) (by simp) returned
      case h_3 => exact ListenerMove.same s returned
  | accepted =>
      simp only [stepListener]
      split
      case h_1 atPc => exact setPc_move s .checking _ (by rw [atPc]; rfl) (by simp)
      case h_2 => exact ListenerMove.same s returned
  | acceptFailed =>
      simp only [stepListener]
      split
      case h_1 atPc => exact setPc_move s .backingOff _ (by rw [atPc]; rfl) (by simp)
      case h_2 => exact ListenerMove.same s returned
  | slept =>
      simp only [stepListener]
      split
      case h_1 atPc => exact setPc_move s .polling _ (by rw [atPc]; rfl) (by simp)
      case h_2 => exact ListenerMove.same s returned

/-- A step of the receiver. -/
theorem stepReceiver_units (s : PacketIo) (act : ReceiverAct) :
    (s.stepReceiver act).receiver.units = s.receiver.units ∧
      s.stepReceiver act = s.setReceiver (s.stepReceiver act).receiver := by
  cases act with
  | advance =>
      simp only [stepReceiver]
      cases atPc : s.receiver.pc with
      | polling =>
          cases s.cancelled with
          | true => exact ⟨by simp [setReceiver, Receiver.units, atPc], rfl⟩
          | false => exact ⟨by simp [setReceiver, Receiver.units, atPc], rfl⟩
      | receiving => exact ⟨by simp [setReceiver, Receiver.units, atPc], rfl⟩
      | returned => exact ⟨rfl, rfl⟩
  | received ok =>
      simp only [stepReceiver]
      cases atPc : s.receiver.pc with
      | receiving =>
          cases ok with
          | true => exact ⟨by simp [setReceiver, Receiver.units, atPc], rfl⟩
          | false => exact ⟨by simp [setReceiver, Receiver.units, atPc], rfl⟩
      | polling => exact ⟨rfl, rfl⟩
      | returned => exact ⟨rfl, rfl⟩

/-- The units of a protocol task that the root has not joined. -/
def taskUnits (s : PacketIo) : ProtocolTask → Nat
  | .tcpListener => if .tcpListener ∈ s.tasks then s.listener.units else 0
  | .udpReceiver => if .udpReceiver ∈ s.tasks then s.receiver.units else 0

/-- What has been counted, what is still to be counted and what never will be is everything that the
run has started. -/
structure Balanced (started : Nat) (s : PacketIo) (lost : List Unit) : Prop where
  once : s.tasks.Nodup
  drained : s.listener.pc = .returned → s.listener.connections = []
  units : s.report.counted + s.taskUnits .tcpListener + s.taskUnits .udpReceiver + lost.length =
    started + s.spawned
  ended : s.pc = .returned → s.tasks = []

theorem new_balanced (tcpListener udpSocket : Bool) (nonempty : tcpListener || udpSocket) :
    Balanced (tcpListener.toNat + udpSocket.toNat) (new tcpListener udpSocket) [] := by
  cases tcpListener with
  | true => cases udpSocket <;> exact ⟨by decide, by decide, by decide, by decide⟩
  | false =>
      cases udpSocket with
      | true => exact ⟨by decide, by decide, by decide, by decide⟩
      | false => cases nonempty

theorem Balanced.moveListener {started : Nat} {s t : PacketIo} {lost : List Unit} {missed : List Unit}
    (balanced : Balanced started s lost) (inside : .tcpListener ∈ s.tasks)
    (move : ListenerMove s t missed.length) : Balanced started t (lost ++ missed) := by
  obtain ⟨tasks, receiver, report, pc⟩ := move.others
  refine ⟨by rw [tasks]; exact balanced.once, move.returned, ?_, by rw [pc, tasks]; exact balanced.ended⟩
  have before := balanced.units
  have units := move.units
  simp only [taskUnits, if_pos inside] at before
  simp only [taskUnits, tasks, receiver, report, if_pos inside, List.length_append]
  omega

theorem Balanced.receive {started : Nat} {s : PacketIo} {lost : List Unit}
    (balanced : Balanced started s lost) (act : ReceiverAct) :
    Balanced started (s.stepReceiver act) lost := by
  obtain ⟨units, whole⟩ := stepReceiver_units s act
  rw [whole]
  refine ⟨balanced.once, balanced.drained, ?_, balanced.ended⟩
  have same : (s.setReceiver (s.stepReceiver act).receiver).taskUnits .udpReceiver =
      s.taskUnits .udpReceiver := by
    simp only [taskUnits, setReceiver, units]
  rw [same]
  exact balanced.units

/-- A protocol task is joined when it has nothing left to count. -/
theorem taskResult_units (s : PacketIo) (task : ProtocolTask) (report : NetworkCloseReport)
    (drained : s.listener.pc = .returned → s.listener.connections = []) (inside : task ∈ s.tasks)
    (result : s.taskResult task = some report) : report.counted = s.taskUnits task := by
  cases task with
  | tcpListener =>
      simp only [taskResult] at result
      split at result
      case isTrue returned =>
        cases result
        simp [taskUnits, inside, Listener.units, returned, drained returned, ListenerPc.inLoop]
      case isFalse => cases result
  | udpReceiver =>
      simp only [taskResult] at result
      split at result
      case isTrue returned =>
        cases result
        simp [taskUnits, inside, Receiver.units, returned]
      case isFalse => cases result

theorem Balanced.join {started : Nat} {s : PacketIo} {lost : List Unit}
    (balanced : Balanced started s lost) (task : ProtocolTask) (report : NetworkCloseReport)
    (inside : task ∈ s.tasks) (result : s.taskResult task = some report) :
    Balanced started
      { s with
        tasks := s.tasks.erase task
        report := s.report + rootReport (.ok report)
        pc := .watching } lost := by
  refine ⟨balanced.once.erase task, balanced.drained, ?_, fun returned => by cases returned⟩
  have counted := taskResult_units s task report balanced.drained inside result
  have gone : task ∉ s.tasks.erase task := balanced.once.not_mem_erase
  have units := balanced.units
  cases task with
  | tcpListener =>
      have other : .udpReceiver ∈ s.tasks.erase .tcpListener ↔ .udpReceiver ∈ s.tasks :=
        List.mem_erase_of_ne (by decide)
      simp only [taskUnits, rootReport, NetworkCloseReport.counted_add, if_neg gone, other] at units counted ⊢
      omega
  | udpReceiver =>
      have other : .tcpListener ∈ s.tasks.erase .udpReceiver ↔ .tcpListener ∈ s.tasks :=
        List.mem_erase_of_ne (by decide)
      simp only [taskUnits, rootReport, NetworkCloseReport.counted_add, if_neg gone, other] at units counted ⊢
      omega

theorem Balanced.root {started : Nat} {s : PacketIo} {lost : List Unit}
    (balanced : Balanced started s lost) (act : RootAct) : Balanced started (s.stepRoot act) lost := by
  cases act with
  | advance =>
      simp only [stepRoot]
      cases atPc : s.pc with
      | watching =>
          simp only
          split
          case isTrue empty =>
            exact ⟨balanced.once, balanced.drained, balanced.units, fun _ => List.isEmpty_iff.mp empty⟩
          case isFalse =>
            split
            · exact ⟨balanced.once, balanced.drained, balanced.units, fun there => by cases there⟩
            · exact ⟨balanced.once, balanced.drained, balanced.units, fun there => by cases there⟩
      | joining => exact ⟨balanced.once, balanced.drained, balanced.units, fun there => by cases there⟩
      | returned => exact balanced
  | join task =>
      simp only [stepRoot]
      split
      case h_1 =>
        split
        case isTrue inside =>
          split
          case h_1 report result => exact balanced.join task report inside result
          case h_2 => exact balanced
        case isFalse => exact balanced
      case h_2 => exact balanced

theorem missed_eq_nil_iff (s : PacketIo) (act : PacketIoAct) : s.missed act = [] ↔ s.careless act = false := by
  cases careless : s.careless act <;> simp [missed, careless]

/-- A careful step adds nothing to what is lost. -/
theorem Balanced.careful {started : Nat} {s t : PacketIo} {lost : List Unit} {act : PacketIoAct}
    (balanced : Balanced started t lost) (careful : s.careless act = false) :
    Balanced started t (lost ++ s.missed act) := by
  rw [(missed_eq_nil_iff s act).mpr careful, List.append_nil]
  exact balanced

theorem Balanced.endConnection {started : Nat} {s : PacketIo} {lost : List Unit}
    (balanced : Balanced started s lost) (id : Nat) (result : Except JoinError Bool) :
    Balanced started (s.step (.connectionEnds id result)) lost := by
  refine ⟨balanced.once, ?_, ?_, balanced.ended⟩
  · intro returned
    change s.listener.connections.map _ = []
    rw [balanced.drained returned]
    rfl
  · have units := balanced.units
    simp only [taskUnits, PacketIo.step, setListener, Listener.units, List.length_map] at units ⊢
    exact units

theorem Balanced.step {started : Nat} {s : PacketIo} {lost : List Unit}
    (balanced : Balanced started s lost) (act : PacketIoAct) :
    Balanced started (s.step act) (lost ++ s.missed act) := by
  cases act with
  | listener act =>
      simp only [PacketIo.step]
      split
      case isTrue inside =>
        exact balanced.moveListener inside (stepListener_move s act inside balanced.drained)
      case isFalse outside => exact balanced.careful (by cases act <;> simp [careless, outside])
  | receiver act =>
      simp only [PacketIo.step]
      split
      · exact (balanced.receive act).careful rfl
      · exact balanced.careful rfl
  | root act => exact (balanced.root act).careful rfl
  | connectionEnds id result => exact (balanced.endConnection id result).careful rfl
  | cancel =>
      have same : Balanced started (s.step .cancel) lost :=
        ⟨balanced.once, balanced.drained, balanced.units, balanced.ended⟩
      exact same.careful rfl
  | cancelExternal =>
      have same : Balanced started (s.step .cancelExternal) lost :=
        ⟨balanced.once, balanced.drained, balanced.units, balanced.ended⟩
      exact same.careful rfl

theorem run_balanced (tcpListener udpSocket : Bool) (nonempty : tcpListener || udpSocket)
    (acts : List PacketIoAct) :
    Balanced (tcpListener.toNat + udpSocket.toNat) ((new tcpListener udpSocket).run acts)
      (Lib.traceFrom PacketIo.step missed (new tcpListener udpSocket) acts) := by
  have along : Lib.Along PacketIo.step (fun _ _ => True) (new tcpListener udpSocket) acts :=
    Lib.along_of_mem PacketIo.step _ acts fun _ _ _ => trivial
  exact Lib.invariant_trace PacketIo.step missed (Balanced (tcpListener.toNat + udpSocket.toNat))
    (fun _ _ act _ balanced => balanced.step act) (new tcpListener udpSocket) [] acts along
    (new_balanced tcpListener udpSocket nonempty)

/-- The returned report counts the protocol tasks and the connections exactly when no listener has found
its token cancelled with an accepted stream in hand. -/
theorem managed_report_counts_once_iff (tcpListener udpSocket : Bool) (acts : List PacketIoAct)
    (nonempty : tcpListener || udpSocket)
    (returned : ((new tcpListener udpSocket).run acts).pc = .returned) :
    ((new tcpListener udpSocket).run acts).report.counted =
        tcpListener.toNat + udpSocket.toNat + ((new tcpListener udpSocket).run acts).spawned ↔
      Lib.Along PacketIo.step (fun s act => s.careless act = false) (new tcpListener udpSocket) acts := by
  have balanced := run_balanced tcpListener udpSocket nonempty acts
  have units := balanced.units
  have settled : ∀ task, ((new tcpListener udpSocket).run acts).taskUnits task = 0 := by
    intro task
    cases task <;> simp [taskUnits, balanced.ended returned]
  rw [settled, settled] at units
  have careful := Lib.traceFrom_eq_nil_iff PacketIo.step missed (new tcpListener udpSocket) acts
  simp only [missed_eq_nil_iff] at careful
  rw [← careful, ← List.length_eq_zero_iff]
  omega

/-- A listener and a receiver, with one connection that outlives the loop. -/
def oneConnection : List PacketIoAct :=
  [.listener .advance, .listener .advance, .listener .accepted, .listener .advance, .receiver .advance,
    .cancelExternal, .root .advance, .listener .advance, .listener .advance, .connectionEnds 0 (.ok true),
    .listener (.join 0), .listener .advance, .receiver (.received true), .receiver .advance,
    .root .advance, .root (.join .udpReceiver), .root .advance, .root (.join .tcpListener), .root .advance]

theorem managed_report_of_one_connection :
    ((new true true).run oneConnection).report.counted = 1 + 1 + ((new true true).run oneConnection).spawned ↔
      Lib.Along PacketIo.step (fun s act => s.careless act = false) (new true true) oneConnection :=
  managed_report_counts_once_iff true true oneConnection rfl (by decide)

/-- A stream is accepted, and the token is cancelled before the listener looks at it. -/
def lateCancel : List PacketIoAct :=
  [.listener .advance, .listener .advance, .listener .accepted, .cancel, .listener .advance,
    .listener .advance, .listener .advance, .root .advance, .root (.join .tcpListener), .root .advance]

theorem managed_report_misses_listener :
    ¬ ∀ (tcpListener udpSocket : Bool) (acts : List PacketIoAct), tcpListener || udpSocket →
        ((new tcpListener udpSocket).run acts).pc = .returned →
        ((new tcpListener udpSocket).run acts).report.counted =
          tcpListener.toNat + udpSocket.toNat + ((new tcpListener udpSocket).run acts).spawned := by
  intro always
  have counted := always true false lateCancel rfl (by decide)
  revert counted
  decide

end PacketIo

end Pigs.Net.Rw.Managed
