import Pigs.Net.Rw.NoLeak
import Pigs.Net.Rw.Managed.Endpoint

/-! `PacketWriter::close` as it runs inside the endpoint's `close_and_wait`, among any other calls on
the same writer. A token stands for its sink here: only `close()` of that sink cancels it. -/

namespace Pigs.Net.Rw.Managed

/-- Where a `PacketWriter::close` is. `failed` tells that a shutdown has returned an error, and `udp`
waits for the lock of the UDP socket. -/
inductive WriterClosePc (Token : Type) where
  | start
  | flagged
  | closing (sinks : List (TcpPacketSink Token)) (failed : Bool)
  | shutdown (sink : TcpPacketSink Token) (sinks : List (TcpPacketSink Token)) (failed : Bool)
  | udp (failed : Bool)
  | returned (failed : Bool)

namespace WriterClosePc

variable {Token : Type}

def atAwait : WriterClosePc Token → Bool
  | .shutdown _ _ _ => true
  | .udp _ => true
  | _ => false

/-- The sinks that are collected and not dealt with yet. -/
def left : WriterClosePc Token → List (TcpPacketSink Token)
  | .closing sinks _ => sinks
  | .shutdown sink sinks _ => sink :: sinks
  | _ => []

def failed : WriterClosePc Token → Bool
  | .closing _ failed => failed
  | .shutdown _ _ failed => failed
  | .udp failed => failed
  | .returned failed => failed
  | _ => false

end WriterClosePc

/-- Whether a call of the endpoint's `close_and_wait` is inside `writer.close()` or past it. -/
inductive Place where
  | outside
  | within
  | past
  deriving DecidableEq

def Stage.place : Stage → Place
  | .closingWriter => .within
  | .collecting => .past
  | .closingAll _ => .past
  | .taking => .past
  | .awaitingRoot => .past
  | _ => .outside

/-- `writers` has the `writer.close()` of each call. The rest tells what has happened: `atCancel` has
the sinks that were registered when a close first cancelled the endpoint, `shutdowns` the shutdowns
that ran to completion with their outcomes, and `counted` that the report has a failure of the
writer. -/
structure WriterEndpoint (Addr Ip Token : Type) where
  endpoint : Endpoint
  world : World Addr Ip Token
  writers : Nat → WriterClosePc Token
  atCancel : List (TcpPacketSink Token)
  shutdowns : List (TcpPacketSink Token × Bool)
  counted : Bool

/-- `writer call pick ok` is the next step of a `writer.close()`, which takes the sink at `pick` next
and whose shutdown answers `ok`. -/
inductive WriterEndpointAct (Addr Token : Type) where
  | endpoint (act : EndpointAct)
  | registry (act : Act Addr Token)
  | writer (call pick : Nat) (ok : Bool)

/-- `PacketWriter::close` is private to the endpoint. -/
def fromOutside {Addr Token : Type} : Act Addr Token → Bool
  | .invoke _ .close => false
  | .invoke _ _ => true
  | .advance _ _ => true
  | .cancel _ => false

namespace WriterEndpoint

variable {Addr Ip Token : Type}

def init : WriterEndpoint Addr Ip Token where
  endpoint := .init
  world := .new
  writers _ := .start
  atCancel := []
  shutdowns := []
  counted := false

/-- The sinks in the registry. -/
def sinks (s : WriterEndpoint Addr Ip Token) : List (TcpPacketSink Token) :=
  s.world.shared.registry.close.2

def place (s : WriterEndpoint Addr Ip Token) (call : Nat) : Place := (s.endpoint.calls call).stage.place

/-- The next step of the call cancels the endpoint. -/
def cancels (s : WriterEndpoint Addr Ip Token) (call : Nat) : Bool :=
  match s.endpoint.calls call with
  | ⟨.cancelling, .idle⟩ => true
  | _ => false

def setWriter (s : WriterEndpoint Addr Ip Token) (call : Nat) (shared : Shared Addr Ip Token)
    (pc : WriterClosePc Token) : WriterEndpoint Addr Ip Token :=
  { s with
    world := { s.world with shared := shared }
    writers := Function.update s.writers call pc }

variable [DecidableEq Token]

/-- The next step of a `writer.close()`. -/
def advanceWriter (s : WriterEndpoint Addr Ip Token) (call pick : Nat) (ok : Bool) :
    WriterEndpoint Addr Ip Token :=
  let shared := s.world.shared
  match s.writers call with
  | .start => s.setWriter call { shared with closed := true } .flagged
  | .flagged =>
      let updated := shared.registry.close
      s.setWriter call
        { shared with registry := updated.1, sections := shared.sections ++ [.cleared] }
        (.closing updated.2 false)
  | .closing sinks failed =>
      match sinks[pick]? with
      | none => if sinks.isEmpty then s.setWriter call shared (.udp failed) else s
      | some (.queued token) =>
          s.setWriter call (shared.close (.queued token)) (.closing (sinks.eraseIdx pick) failed)
      | some (.direct token) =>
          s.setWriter call (shared.close (.direct token))
            (.shutdown (.direct token) (sinks.eraseIdx pick) failed)
  | .shutdown sink sinks failed =>
      { s.setWriter call (shared.close sink) (.closing sinks (failed || !ok)) with
        shutdowns := s.shutdowns ++ [(sink, ok)] }
  | .udp failed => s.setWriter call shared (.returned failed)
  | .returned failed =>
      { s with
        endpoint := s.endpoint.step (.writerClosed call (!failed))
        counted := s.counted || failed }

def endpointStep (s : WriterEndpoint Addr Ip Token) : EndpointAct → WriterEndpoint Addr Ip Token
  | .writerClosed _ _ => s
  | .drop call =>
      if s.place call = .within ∧ (s.writers call).atAwait = false then
        s
      else
        { s with endpoint := s.endpoint.step (.drop call) }
  | .advance call =>
      if s.cancels call then
        { s with
          endpoint := s.endpoint.step (.advance call)
          writers := Function.update s.writers call .start
          atCancel := if s.endpoint.begun then s.atCancel else s.sinks }
      else
        { s with endpoint := s.endpoint.step (.advance call) }
  | act => { s with endpoint := s.endpoint.step act }

variable [DecidableEq Addr] [DecidableEq Ip] (ip : Addr → Ip)

def step (s : WriterEndpoint Addr Ip Token) :
    WriterEndpointAct Addr Token → WriterEndpoint Addr Ip Token
  | .endpoint act => s.endpointStep act
  | .registry act => if fromOutside act then { s with world := s.world.step ip act } else s
  | .writer call pick ok => if s.place call = .within then s.advanceWriter call pick ok else s

def run (s : WriterEndpoint Addr Ip Token) (acts : List (WriterEndpointAct Addr Token)) :
    WriterEndpoint Addr Ip Token :=
  Lib.runFrom (step ip) s acts

end WriterEndpoint

/-! What the endpoint's steps mean to its writer. -/

namespace Endpoint

variable {s : Endpoint}

/-- Everything a step of the endpoint can do to its writer, apart from `step_cancelling` and
`step_writerClosed`. -/
inductive WriterView (s : Endpoint) : EndpointAct → Endpoint → Prop where
  | quiet (act : EndpointAct) (t : Endpoint)
      (places : ∀ call, (t.calls call).stage.place = (s.calls call).stage.place)
      (writerClosed : t.writerClosed = s.writerClosed) (completed : t.completed = s.completed)
      (failed : s.report.failed ≤ t.report.failed) : WriterView s act t
  | cancels (call : Nat) (t : Endpoint) (here : s.calls call = ⟨.cancelling, .idle⟩) :
      WriterView s (.advance call) t
  | completes (call : Nat) (t : Endpoint) (result : Except String NetworkCloseReport)
      (here : (s.calls call).stage = .awaitingRoot) (ended : s.root ≠ some none)
      (calls : t.calls = Function.update s.calls call ⟨.endpointClosed result, .idle⟩)
      (writerClosed : t.writerClosed = s.writerClosed) (completed : t.completed = true)
      (failed : s.report.failed ≤ t.report.failed) : WriterView s (.advance call) t
  | writer (call : Nat) (ok : Bool) (t : Endpoint) : WriterView s (.writerClosed call ok) t
  | drops (call : Nat) (t : Endpoint)
      (calls : t.calls = Function.update s.calls call ⟨.dropped, .idle⟩)
      (writerClosed : t.writerClosed = s.writerClosed) (completed : t.completed = s.completed)
      (failed : t.report = s.report) : WriterView s (.drop call) t

namespace WriterView

theorem same (act : EndpointAct) : WriterView s act s :=
  .quiet act s (fun _ => rfl) rfl rfl le_rfl

/-- A call moves on without coming to its writer. -/
theorem moves (act : EndpointAct) (t : Endpoint) (call : Nat) {was stage : Stage} {close : ClosePc}
    (here : (s.calls call).stage = was) (calls : t.calls = Function.update s.calls call ⟨stage, close⟩)
    (places : stage.place = was.place)
    (same : (t.writerClosed, t.completed) = (s.writerClosed, s.completed))
    (failed : s.report.failed ≤ t.report.failed) : WriterView s act t := by
  subst here
  refine .quiet act t ?_ (congrArg Prod.fst same) (congrArg Prod.snd same) failed
  intro other
  rw [calls]
  by_cases mine : other = call
  · subst mine
    rw [Function.update_self]
    exact places
  · rw [Function.update_of_ne mine]

theorem place_afterClose (report : NetworkCloseReport) (stage : Stage) :
    (stage.afterClose report).place = stage.place := by
  cases stage <;> rfl

theorem advanceClose (s : Endpoint) (act : EndpointAct) (call : Nat) :
    WriterView s act (s.advanceClose call) := by
  simp only [Endpoint.advanceClose]
  split
  · exact same act
  · split
    · exact same act
    · exact moves act _ call rfl rfl rfl rfl le_rfl
  · split
    · exact moves act _ call rfl rfl rfl rfl le_rfl
    · exact moves act _ call rfl rfl rfl rfl le_rfl
  · split
    · exact same act
    · exact moves act _ call rfl rfl rfl rfl le_rfl
    · exact moves act _ call rfl rfl rfl rfl le_rfl
  · split
    · exact moves act _ call rfl rfl rfl rfl le_rfl
    · exact moves act _ call rfl rfl (place_afterClose _ _) rfl le_rfl
  · exact moves act _ call rfl rfl rfl rfl le_rfl
  · exact moves act _ call rfl rfl (place_afterClose _ _) rfl le_rfl

theorem advanceStage (s : Endpoint) (call : Nat) (idle : (s.calls call).close = .idle) :
    WriterView s (.advance call) (s.advanceStage call) := by
  simp only [Endpoint.advanceStage]
  split
  · next here =>
      split
      · exact moves _ _ call here rfl rfl rfl le_rfl
      · exact moves _ _ call here rfl rfl rfl le_rfl
  · next here => exact moves _ _ call here rfl rfl rfl le_rfl
  · next here => exact moves _ _ call here rfl rfl rfl le_rfl
  · next id here =>
      split
      · exact same _
      · exact moves _ _ call here rfl rfl rfl le_rfl
  · next id here =>
      split
      · exact moves _ _ call here rfl rfl rfl le_rfl
      · exact moves _ _ call here rfl rfl rfl le_rfl
  · next id here => exact moves _ _ call here rfl rfl rfl le_rfl
  · next id here => exact moves _ _ call here rfl rfl rfl le_rfl
  · next here =>
      split
      · exact same _
      · exact moves _ _ call here rfl rfl rfl le_rfl
  · next here =>
      split
      · exact moves _ _ call here rfl rfl rfl le_rfl
      · exact moves _ _ call here rfl rfl rfl le_rfl
  · next here =>
      refine .cancels call _ ?_
      rw [← here, ← idle]
  · next here =>
      split
      · exact moves _ _ call here rfl rfl rfl le_rfl
      · exact moves _ _ call here rfl rfl rfl le_rfl
  · next here => exact moves _ _ call here rfl rfl rfl le_rfl
  · next here => exact moves _ _ call here rfl rfl rfl (Nat.le_add_right ..)
  · next here =>
      split
      · exact same _
      · next result ended =>
          exact .completes call _ _ here (by rw [ended]; exact nofun) rfl rfl rfl (Nat.le_add_right ..)
      · next ended => exact .completes call _ _ here (by rw [ended]; exact nofun) rfl rfl rfl le_rfl
  · exact same _

end WriterView

theorem step_view (s : Endpoint) (act : EndpointAct) : WriterView s act (s.step act) := by
  cases act with
  | advance call =>
      simp only [step]
      split
      · next idle => exact .advanceStage s call idle
      · exact .advanceClose s _ call
  | close call id =>
      simp only [step]
      split
      · next here =>
          split
          · exact .moves _ _ call here rfl rfl rfl le_rfl
          · exact .same _
      · exact .same _
  | connect call =>
      simp only [step]
      split
      · next here => exact .moves _ _ call here rfl rfl rfl le_rfl
      · exact .same _
  | closeEndpoint call =>
      simp only [step]
      split
      · next here => exact .moves _ _ call here rfl rfl rfl le_rfl
      · exact .same _
  | pick call id =>
      simp only [step]
      split
      · next rest here =>
          split
          · exact .moves _ _ call (congrArg Call.stage here) rfl rfl rfl le_rfl
          · exact .same _
      · next rest here =>
          split
          · exact .moves _ _ call (congrArg Call.stage here) rfl rfl rfl le_rfl
          · exact .same _
      · exact .same _
  | connected call =>
      simp only [step]
      split
      · next here => exact .moves _ _ call here rfl rfl rfl le_rfl
      · exact .same _
  | fail call =>
      simp only [step]
      split
      · next here => exact .moves _ _ call here rfl rfl rfl le_rfl
      · exact .same _
  | ready call registered =>
      simp only [step]
      split
      · next id here =>
          split
          · exact .moves _ _ call here rfl rfl rfl le_rfl
          · exact .moves _ _ call here rfl rfl rfl le_rfl
      · exact .same _
  | writerClosed call ok => exact .writer call ok _
  | drop call =>
      simp only [step]
      split
      · simp only [drop]
        split
        · exact .drops call _ rfl rfl rfl rfl
        · exact .drops call _ rfl rfl rfl rfl
      · exact .same _
  | taskEnds id result =>
      simp only [step]
      split
      · split
        · exact .quiet _ _ (fun _ => rfl) rfl rfl le_rfl
        · exact .same _
      · exact .same _
  | rootEnds result =>
      simp only [step]
      split
      · exact .quiet _ _ (fun _ => rfl) rfl rfl le_rfl
      · exact .same _
  | cancel => exact .quiet _ _ (fun _ => rfl) rfl rfl le_rfl

theorem step_cancelling (s : Endpoint) (call : Nat) (here : s.calls call = ⟨.cancelling, .idle⟩) :
    let t := s.step (.advance call)
    t.calls = Function.update s.calls call
        ⟨if s.writerClosed then .collecting else .closingWriter, .idle⟩ ∧
      t.writerClosed = s.writerClosed ∧ t.completed = s.completed ∧ t.report = s.report := by
  simp only [step, advanceStage, here]
  exact ⟨rfl, rfl, rfl, rfl⟩

theorem step_writerClosed (s : Endpoint) (call : Nat) (ok : Bool)
    (here : (s.calls call).stage = .closingWriter) :
    let t := s.step (.writerClosed call ok)
    t.calls = Function.update s.calls call ⟨.collecting, .idle⟩ ∧ t.writerClosed = true ∧
      t.completed = s.completed ∧ t.report.failed = s.report.failed + if ok then 0 else 1 := by
  simp only [step, here]
  refine ⟨rfl, rfl, rfl, ?_⟩
  cases ok <;> rfl

end Endpoint

end Pigs.Net.Rw.Managed
