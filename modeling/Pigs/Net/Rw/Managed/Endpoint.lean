import Pigs.Lib.Run

/-! `ManagedPacketIo` with the active TCP connections it owns: `connect_tcp` up to the registration,
`ManagedTcpConnection::close_and_wait`, the reaping of finished connections and the endpoint's
`close_and_wait`. A call is cut at every await point and at every access to shared state. -/

namespace Pigs.Net.Rw.Managed

@[ext]
structure NetworkCloseReport where
  completed : Nat
  cancelled : Nat
  failed : Nat
  panicked : Nat
  remaining : Nat
  deriving DecidableEq

namespace NetworkCloseReport

instance : Zero NetworkCloseReport := ⟨⟨0, 0, 0, 0, 0⟩⟩

/-- `merge` and `merge_network` -/
instance : Add NetworkCloseReport where
  add report other :=
    { completed := report.completed + other.completed
      cancelled := report.cancelled + other.cancelled
      failed := report.failed + other.failed
      panicked := report.panicked + other.panicked
      remaining := report.remaining + other.remaining }

instance : AddCommMonoid NetworkCloseReport where
  add_assoc a b c := by
    ext <;> exact Nat.add_assoc ..
  zero_add a := by
    ext <;> exact Nat.zero_add _
  add_zero a := by
    ext <;> exact Nat.add_zero _
  add_comm a b := by
    ext <;> exact Nat.add_comm ..
  nsmul := nsmulRec

def isComplete (report : NetworkCloseReport) : Bool :=
  report.failed = 0 && report.panicked = 0 && report.remaining = 0

end NetworkCloseReport

inductive JoinError where
  | panic
  | cancelled
  | other
  deriving DecidableEq

/-- What `record_join_error` adds to a report. -/
def joinErrorReport : JoinError → NetworkCloseReport
  | .panic => { (0 : NetworkCloseReport) with panicked := 1 }
  | .cancelled => { (0 : NetworkCloseReport) with cancelled := 1, remaining := 1 }
  | .other => { (0 : NetworkCloseReport) with failed := 1 }

/-- What the end of a connection's task adds: it returned `Ok` or `Err`, or the join failed. -/
def taskReport : Except JoinError Bool → NetworkCloseReport
  | .ok true => { (0 : NetworkCloseReport) with completed := 1 }
  | .ok false => { (0 : NetworkCloseReport) with failed := 1 }
  | .error joinError => joinErrorReport joinError

/-- The root task returns the report of the tasks it has joined. -/
def rootReport : Except JoinError NetworkCloseReport → NetworkCloseReport
  | .ok report => report
  | .error joinError => joinErrorReport joinError

def closeReportResult (report : NetworkCloseReport) : Except String NetworkCloseReport :=
  if report.isComplete then
    .ok report
  else
    .error s!"managed network close incomplete: completed={report.completed}, cancelled={report.cancelled}, failed={report.failed}, panicked={report.panicked}, remaining={report.remaining}"

/-- `lock` is the call that holds `close_state`, `task` the join handle with the end of the task once
it has ended, `owned` the flag `owner_registered`. -/
structure Connection where
  lock : Option Nat
  task : Option (Option (Except JoinError Bool))
  report : NetworkCloseReport
  completed : Bool
  owned : Bool

/-- The connection that `connect_tcp` makes around a spawned task. -/
def Connection.new : Connection where
  lock := none
  task := some none
  report := 0
  completed := false
  owned := false

/-- Where a `close_and_wait` of a connection is. `checking` and `awaiting` hold the lock,
`finalizing`, `merging` and `removing` are the three accesses of `finalize_owner`. -/
inductive ClosePc where
  | idle
  | locking (connection : Nat)
  | checking (connection : Nat)
  | awaiting (connection : Nat)
  | finalizing (connection : Nat) (report : NetworkCloseReport)
  | merging (connection : Nat) (report : NetworkCloseReport)
  | removing (connection : Nat) (report : NetworkCloseReport)

/-- The body of a call around the connections it closes. From `starting` to `rejecting` it is
`connect_tcp`, from `lockingClose` to `awaitingRoot` the endpoint's `close_and_wait`. -/
inductive Stage where
  | idle
  | closing (connection : Nat)
  | starting
  | listing
  | reaping (rest : List Nat)
  | connecting
  | awaitingReady (connection : Nat)
  | lockingState (connection : Nat)
  | checkingState (connection : Nat)
  | registering (connection : Nat)
  | inserting (connection : Nat)
  | rejecting (connection : Nat)
  | lockingClose
  | checkingClose
  | cancelling
  | closingWriter
  | collecting
  | closingAll (rest : List Nat)
  | taking
  | awaitingRoot
  | closed (connection : Nat) (result : Except String NetworkCloseReport)
  | connected (connection : Nat)
  | refused
  | endpointClosed (result : Except String NetworkCloseReport)
  | dropped

/-- A `close_and_wait` of a connection has returned to its caller. -/
def Stage.afterClose (report : NetworkCloseReport) : Stage → Stage
  | .closing connection => .closed connection (closeReportResult report)
  | .rejecting _ => .refused
  | stage => stage

structure Call where
  stage : Stage
  close : ClosePc

/-- `connections` has every connection that `connect_tcp` has made, `active` the keys of
`active_connections`, `collected` is `completed_connection_report`. The rest of the fields tells what
has happened: `begun` that a close has cancelled the endpoint, `registered` what was put into
`active`, `pending` and `taken` whose reports are in `collected` and in `report`, and `own` what the
endpoint has counted for its writer and its root task. -/
structure Endpoint where
  cancelled : Bool
  lock : Option Nat
  root : Option (Option (Except JoinError NetworkCloseReport))
  report : NetworkCloseReport
  writerClosed : Bool
  completed : Bool
  active : List Nat
  collected : NetworkCloseReport
  connections : Nat → Connection
  nextId : Nat
  calls : Nat → Call
  begun : Bool
  registered : List Nat
  pending : List Nat
  taken : List Nat
  own : NetworkCloseReport

inductive EndpointAct where
  | close (call connection : Nat)
  | connect (call : Nat)
  | closeEndpoint (call : Nat)
  | advance (call : Nat)
  | pick (call connection : Nat)
  | connected (call : Nat)
  | fail (call : Nat)
  | ready (call : Nat) (registered : Bool)
  | writerClosed (call : Nat) (ok : Bool)
  | drop (call : Nat)
  | taskEnds (connection : Nat) (result : Except JoinError Bool)
  | rootEnds (result : Except JoinError NetworkCloseReport)
  | cancel

namespace Endpoint

def init : Endpoint where
  cancelled := false
  lock := none
  root := some none
  report := 0
  writerClosed := false
  completed := false
  active := []
  collected := 0
  connections _ := Connection.new
  nextId := 0
  calls _ := ⟨.idle, .idle⟩
  begun := false
  registered := []
  pending := []
  taken := []
  own := 0

def setCall (s : Endpoint) (call : Nat) (stage : Stage) (close : ClosePc) : Endpoint :=
  { s with calls := Function.update s.calls call ⟨stage, close⟩ }

def setConnection (s : Endpoint) (id : Nat) (connection : Connection) : Endpoint :=
  { s with connections := Function.update s.connections id connection }

/-- `task_is_finished`, whose `try_lock` fails while someone holds the lock. -/
def taskIsFinished (s : Endpoint) (id : Nat) : Bool :=
  (s.connections id).lock.isNone &&
    ((s.connections id).completed ||
      match (s.connections id).task with
      | some none => false
      | _ => true)

def afterClose (s : Endpoint) (call : Nat) (report : NetworkCloseReport) : Endpoint :=
  s.setCall call ((s.calls call).stage.afterClose report) .idle

/-- The next step of a `close_and_wait` of a connection. -/
def advanceClose (s : Endpoint) (call : Nat) : Endpoint :=
  match (s.calls call).close with
  | .idle => s
  | .locking id =>
      match (s.connections id).lock with
      | some _ => s
      | none =>
          (s.setConnection id { s.connections id with lock := some call }).setCall call
            (s.calls call).stage (.checking id)
  | .checking id =>
      if (s.connections id).completed then
        (s.setConnection id { s.connections id with lock := none }).setCall call (s.calls call).stage
          (.finalizing id (s.connections id).report)
      else
        s.setCall call (s.calls call).stage (.awaiting id)
  | .awaiting id =>
      match (s.connections id).task with
      | some none => s
      | some (some result) =>
          let report := (s.connections id).report + taskReport result
          (s.setConnection id
            { s.connections id with lock := none, task := none, report := report, completed := true }).setCall
            call (s.calls call).stage (.finalizing id report)
      | none =>
          (s.setConnection id { s.connections id with lock := none, completed := true }).setCall call
            (s.calls call).stage (.finalizing id (s.connections id).report)
  | .finalizing id report =>
      if (s.connections id).owned then
        (s.setConnection id { s.connections id with owned := false }).setCall call
          (s.calls call).stage (.merging id report)
      else
        s.afterClose call report
  | .merging id report =>
      { s with collected := s.collected + report, pending := s.pending ++ [id] }.setCall call
        (s.calls call).stage (.removing id report)
  | .removing id report => { s with active := s.active.erase id }.afterClose call report

/-- The next step of a call that is not closing a connection. The filter of `listing` reads the
connections one by one; here it reads them at once. -/
def advanceStage (s : Endpoint) (call : Nat) : Endpoint :=
  match (s.calls call).stage with
  | .starting =>
      if s.cancelled then s.setCall call .refused .idle else s.setCall call .listing .idle
  | .listing => s.setCall call (.reaping (s.active.filter s.taskIsFinished)) .idle
  | .reaping [] => s.setCall call .connecting .idle
  | .lockingState id =>
      match s.lock with
      | some _ => s
      | none => { s with lock := some call }.setCall call (.checkingState id) .idle
  | .checkingState id =>
      if s.cancelled || s.completed then
        { s with lock := none }.setCall call (.rejecting id) (.locking id)
      else
        s.setCall call (.registering id) .idle
  | .registering id =>
      (s.setConnection id { s.connections id with owned := true }).setCall call (.inserting id) .idle
  | .inserting id =>
      { s with lock := none, active := s.active ++ [id], registered := s.registered ++ [id] }.setCall
        call (.connected id) .idle
  | .lockingClose =>
      match s.lock with
      | some _ => s
      | none => { s with lock := some call }.setCall call .checkingClose .idle
  | .checkingClose =>
      if s.completed then
        { s with lock := none }.setCall call (.endpointClosed (closeReportResult s.report)) .idle
      else
        s.setCall call .cancelling .idle
  | .cancelling =>
      { s with cancelled := true, begun := true }.setCall call
        (if s.writerClosed then .collecting else .closingWriter) .idle
  | .collecting =>
      match s.active with
      | [] => s.setCall call .taking .idle
      | _ => s.setCall call (.closingAll s.active) .idle
  | .closingAll [] => s.setCall call .collecting .idle
  | .taking =>
      { s with
        report := s.report + s.collected
        collected := 0
        taken := s.taken ++ s.pending
        pending := [] }.setCall call .awaitingRoot .idle
  | .awaitingRoot =>
      match s.root with
      | some none => s
      | some (some result) =>
          let report := s.report + rootReport result
          { s with
            root := none
            report := report
            own := s.own + rootReport result
            completed := true
            lock := none }.setCall call (.endpointClosed (closeReportResult report)) .idle
      | none =>
          { s with completed := true, lock := none }.setCall call
            (.endpointClosed (closeReportResult s.report)) .idle
  | _ => s

/-- The call is at an await point. -/
def atAwait (s : Endpoint) (call : Nat) : Bool :=
  match (s.calls call).close with
  | .locking _ => true
  | .awaiting _ => true
  | .idle =>
      match (s.calls call).stage with
      | .connecting => true
      | .awaitingReady _ => true
      | .lockingState _ => true
      | .lockingClose => true
      | .closingWriter => true
      | .awaitingRoot => true
      | _ => false
  | _ => false

/-- The future of a call is dropped, with the guards it holds. -/
def drop (s : Endpoint) (call : Nat) : Endpoint :=
  let released := { s with lock := if s.lock = some call then none else s.lock }
  match (s.calls call).close with
  | .awaiting id =>
      (released.setConnection id { s.connections id with lock := none }).setCall call .dropped .idle
  | _ => released.setCall call .dropped .idle

def step (s : Endpoint) : EndpointAct → Endpoint
  | .close call id =>
      match (s.calls call).stage with
      | .idle => if id ∈ s.registered then s.setCall call (.closing id) (.locking id) else s
      | _ => s
  | .connect call =>
      match (s.calls call).stage with
      | .idle => s.setCall call .starting .idle
      | _ => s
  | .closeEndpoint call =>
      match (s.calls call).stage with
      | .idle => s.setCall call .lockingClose .idle
      | _ => s
  | .advance call =>
      match (s.calls call).close with
      | .idle => s.advanceStage call
      | _ => s.advanceClose call
  | .pick call id =>
      match s.calls call with
      | ⟨.reaping rest, .idle⟩ =>
          if id ∈ rest then s.setCall call (.reaping (rest.erase id)) (.locking id) else s
      | ⟨.closingAll rest, .idle⟩ =>
          if id ∈ rest then s.setCall call (.closingAll (rest.erase id)) (.locking id) else s
      | _ => s
  | .connected call =>
      match (s.calls call).stage with
      | .connecting =>
          { s.setConnection s.nextId Connection.new with nextId := s.nextId + 1 }.setCall call
            (.awaitingReady s.nextId) .idle
      | _ => s
  | .fail call =>
      match (s.calls call).stage with
      | .connecting => s.setCall call .refused .idle
      | _ => s
  | .ready call registered =>
      match (s.calls call).stage with
      | .awaitingReady id =>
          if registered then
            s.setCall call (.lockingState id) .idle
          else
            s.setCall call (.rejecting id) (.locking id)
      | _ => s
  | .writerClosed call ok =>
      match (s.calls call).stage with
      | .closingWriter =>
          let failure : NetworkCloseReport := if ok then 0 else { (0 : NetworkCloseReport) with failed := 1 }
          { s with
            writerClosed := true
            report := s.report + failure
            own := s.own + failure }.setCall call .collecting .idle
      | _ => s
  | .drop call => if s.atAwait call then s.drop call else s
  | .taskEnds id result =>
      if id < s.nextId then
        match (s.connections id).task with
        | some none => s.setConnection id { s.connections id with task := some (some result) }
        | _ => s
      else
        s
  | .rootEnds result =>
      match s.root with
      | some none => { s with root := some (some result) }
      | _ => s
  | .cancel => { s with cancelled := true }

def run (s : Endpoint) (acts : List EndpointAct) : Endpoint := Lib.runFrom step s acts

end Endpoint

end Pigs.Net.Rw.Managed
