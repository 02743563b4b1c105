import Pigs.Lib.Run
import Pigs.Net.Rw.FrameSplitter
import Pigs.Net.Rw.ReadHandler

/-! The bytes that a connection reads: the loop of `handle_tcp`, which `handle_tcp_owned` and
`handle_tcp_read_owned_half` share, from the chunks of the stream to the packets that the dispatcher gets. -/

open Pigs.Lib

namespace Pigs.Net.Rw

/-- What the `select!` of the loop wakes up with. No bytes are the end of the stream. -/
inductive ReaderTurn where
  | read (result : Except Unit Bytes)
  | cancelled
  deriving DecidableEq

/-- `dispatched` are the packets handed to the dispatcher, and `closes` counts its `close` calls. -/
structure TcpReader (S : Type) where
  buf : Bytes
  splitter : S
  dispatched : List Bytes
  closes : Nat
  result : Option (Except HandlerError Unit)

def ReaderTurn.bytes : ReaderTurn → Bytes
  | .read (.ok data) => data
  | _ => []

/-- The bytes that the turns have read. -/
def received (turns : List ReaderTurn) : Bytes := turns.flatMap ReaderTurn.bytes

namespace TcpReader

variable {S : Type}

def new (splitter : S) : TcpReader S where
  buf := []
  splitter := splitter
  dispatched := []
  closes := 0
  result := none

section Loop

variable (feed : Splitter S Bytes UInt8) (dispatchOwned : Nat → Bool) (closeOk : Bool)

def leave (r : TcpReader S) : TcpReader S :=
  { r with closes := r.closes + 1, result := some (if closeOk then .ok () else .error .close) }

/-- The splitter gets the buffer, and the dispatcher its packets. -/
def feedOwned (r : TcpReader S) (buf : Bytes) : TcpReader S :=
  match (feed r.splitter buf).run dispatchOwned r.dispatched.length with
  | (packets, none) =>
      { r with buf := buf, dispatched := r.dispatched ++ packets, result := some (.error .feed) }
  | (packets, some left) =>
      { r with buf := left.2, splitter := left.1, dispatched := r.dispatched ++ packets }

def turn (r : TcpReader S) (event : ReaderTurn) : TcpReader S :=
  match r.result with
  | some _ => r
  | none =>
      match event with
      | .read (.ok data) =>
          if data = [] then
            r.leave closeOk
          else if MAX_BUF_SIZE < (r.buf ++ data).length then
            r.leave closeOk
          else
            r.feedOwned feed dispatchOwned (r.buf ++ data)
      | .read (.error _) => r.leave closeOk
      | .cancelled => r.leave closeOk

def run (r : TcpReader S) (turns : List ReaderTurn) : TcpReader S :=
  runFrom (turn feed dispatchOwned closeOk) r turns

/-- The chunk that the splitter gets to see in a turn. -/
def seen (r : TcpReader S) : ReaderTurn → List Bytes
  | .read (.ok data) =>
      if r.result = none ∧ data ≠ [] ∧ (r.buf ++ data).length ≤ MAX_BUF_SIZE then [data] else []
  | _ => []

def chunks (r : TcpReader S) (turns : List ReaderTurn) : List Bytes :=
  traceFrom (turn feed dispatchOwned closeOk) seen r turns

variable {r : TcpReader S}

/-- What a turn of a loop that still runs does, with the chunk it shows the splitter. -/
inductive Turned (feed : Splitter S Bytes UInt8) (dispatchOwned : Nat → Bool) (closeOk : Bool) (r : TcpReader S)
    (event : ReaderTurn) : TcpReader S → List Bytes → Prop where
  | left : Turned feed dispatchOwned closeOk r event (r.leave closeOk) []
  | failed (data : Bytes) (packets : List Bytes) (bytes : event.bytes = data)
      (fed : (feed r.splitter (r.buf ++ data)).run dispatchOwned r.dispatched.length = (packets, none)) :
      Turned feed dispatchOwned closeOk r event
        { r with buf := r.buf ++ data, dispatched := r.dispatched ++ packets, result := some (.error .feed) } [data]
  | fed (data : Bytes) (packets : List Bytes) (left : S × Bytes) (bytes : event.bytes = data)
      (fed : (feed r.splitter (r.buf ++ data)).run dispatchOwned r.dispatched.length = (packets, some left)) :
      Turned feed dispatchOwned closeOk r event
        { r with buf := left.2, splitter := left.1, dispatched := r.dispatched ++ packets } [data]

theorem turn_cases (running : r.result = none) (event : ReaderTurn) :
    Turned feed dispatchOwned closeOk r event (r.turn feed dispatchOwned closeOk event) (r.seen event) := by
  cases event with
  | cancelled =>
      simp only [turn, running, seen]
      exact .left
  | read result =>
      cases result with
      | error failure =>
          simp only [turn, running, seen]
          exact .left
      | ok data =>
          simp only [turn, running, seen, true_and]
          by_cases none : data = []
          · simp only [none, if_true, ne_eq, not_true, false_and, if_false]
            exact .left
          · by_cases large : MAX_BUF_SIZE < (r.buf ++ data).length
            · simp only [none, large, if_false, if_true, not_le.mpr large, and_false]
              exact .left
            · simp only [none, large, if_false, ne_eq, not_false_eq_true, not_lt.mp large, true_and, if_true, feedOwned]
              cases fed : (feed r.splitter (r.buf ++ data)).run dispatchOwned r.dispatched.length with
              | mk packets outcome =>
                  cases outcome with
                  | none => exact .failed data packets rfl fed
                  | some left => exact .fed data packets left rfl fed

theorem feedOwned_result (running : r.result = none) (buf : Bytes) :
    (r.feedOwned feed dispatchOwned buf).result = none ∨
      (r.feedOwned feed dispatchOwned buf).result = some (.error .feed) := by
  rw [feedOwned]
  cases (feed r.splitter buf).run dispatchOwned r.dispatched.length with
  | mk packets outcome =>
      cases outcome with
      | none => exact Or.inr rfl
      | some left => exact Or.inl running

theorem turn_ended (ended : r.result ≠ none) (event : ReaderTurn) :
    r.turn feed dispatchOwned closeOk event = r ∧ r.seen event = [] := by
  cases result : r.result with
  | none => exact absurd result ended
  | some outcome =>
      refine ⟨by simp [turn, result], ?_⟩
      cases event with
      | cancelled => rfl
      | read data => cases data <;> simp [seen, result]

/-- After the loop nothing more is read. -/
theorem run_ended (ended : r.result ≠ none) (turns : List ReaderTurn) :
    r.run feed dispatchOwned closeOk turns = r ∧ r.chunks feed dispatchOwned closeOk turns = [] := by
  induction turns with
  | nil => exact ⟨rfl, rfl⟩
  | cons event turns ih =>
      have first := turn_ended feed dispatchOwned closeOk ended event
      rw [run, runFrom_cons, chunks, traceFrom, first.1, first.2]
      exact ih

theorem leave_result : (r.leave closeOk).result ≠ none ∧ (r.leave closeOk).result ≠ some (.error .feed) := by
  refine ⟨Option.some_ne_none _, fun impossible => ?_⟩
  cases closeOk <;> cases impossible

theorem run_cons (event : ReaderTurn) (turns : List ReaderTurn) :
    r.run feed dispatchOwned closeOk (event :: turns) =
      (r.turn feed dispatchOwned closeOk event).run feed dispatchOwned closeOk turns := rfl

theorem chunks_cons (event : ReaderTurn) (turns : List ReaderTurn) :
    r.chunks feed dispatchOwned closeOk (event :: turns) =
      r.seen event ++ (r.turn feed dispatchOwned closeOk event).chunks feed dispatchOwned closeOk turns := rfl

/-- The loop hands on what the splitter makes of the chunks, one behind the other. -/
theorem run_feedAll (running : r.result = none) (turns : List ReaderTurn) :
    let outcome := feed.feedAll dispatchOwned r.splitter r.buf r.dispatched.length
      (r.chunks feed dispatchOwned closeOk turns)
    let after := r.run feed dispatchOwned closeOk turns
    after.dispatched = r.dispatched ++ outcome.1 ∧ (outcome.2 = none ↔ after.result = some (.error .feed)) ∧
      (after.result = none → outcome.2 = some (after.splitter, after.buf)) := by
  induction turns generalizing r with
  | nil =>
      refine ⟨(List.append_nil _).symm, iff_of_false (fun impossible => by cases impossible) ?_, fun _ => rfl⟩
      intro failed
      rw [show r.run feed dispatchOwned closeOk [] = r from rfl, running] at failed
      cases failed
  | cons event turns ih =>
      have turned := turn_cases feed dispatchOwned closeOk running event
      rw [run_cons, chunks_cons]
      generalize r.turn feed dispatchOwned closeOk event = next at turned
      generalize r.seen event = chunk at turned
      cases turned with
      | left =>
          have ended := leave_result closeOk (r := r)
          obtain ⟨stays, none⟩ := run_ended feed dispatchOwned closeOk ended.1 turns
          rw [stays, none, List.append_nil]
          exact ⟨(List.append_nil _).symm, iff_of_false (fun impossible => by cases impossible) ended.2,
            fun result => absurd result ended.1⟩
      | failed data packets bytes fed =>
          obtain ⟨stays, none⟩ := run_ended feed dispatchOwned closeOk
            (r := { r with buf := r.buf ++ data, dispatched := r.dispatched ++ packets, result := some (.error .feed) })
            (fun impossible => by cases impossible) turns
          rw [stays, none, List.append_nil]
          simp [Splitter.feedAll, fed]
      | fed data packets left bytes fed =>
          have later := ih (r := { r with buf := left.2, splitter := left.1, dispatched := r.dispatched ++ packets })
            running
          simp only [List.singleton_append, Splitter.feedAll, fed]
          rw [List.length_append] at later
          exact ⟨later.1.trans (List.append_assoc ..), later.2.1, later.2.2⟩

/-- The splitter sees the stream from its start, and all of it as long as the loop runs. -/
theorem chunks_received (running : r.result = none) (turns : List ReaderTurn) :
    (r.chunks feed dispatchOwned closeOk turns).flatten <+: received turns ∧
      ((r.run feed dispatchOwned closeOk turns).result = none →
        (r.chunks feed dispatchOwned closeOk turns).flatten = received turns) := by
  induction turns generalizing r with
  | nil => exact ⟨List.prefix_refl _, fun _ => rfl⟩
  | cons event turns ih =>
      have turned := turn_cases feed dispatchOwned closeOk running event
      have split : received (event :: turns) = event.bytes ++ received turns := List.flatMap_cons
      rw [run_cons, chunks_cons, split]
      generalize r.turn feed dispatchOwned closeOk event = next at turned
      generalize r.seen event = chunk at turned
      cases turned with
      | left =>
          have ended := leave_result closeOk (r := r)
          obtain ⟨stays, none⟩ := run_ended feed dispatchOwned closeOk ended.1 turns
          rw [stays, none]
          exact ⟨List.nil_prefix, fun result => absurd result ended.1⟩
      | failed data packets bytes fed =>
          obtain ⟨stays, none⟩ := run_ended feed dispatchOwned closeOk
            (r := { r with buf := r.buf ++ data, dispatched := r.dispatched ++ packets, result := some (.error .feed) })
            (Option.some_ne_none _) turns
          rw [stays, none, bytes]
          exact ⟨by simp, fun impossible => by cases impossible⟩
      | fed data packets left bytes fed =>
          have later := ih (r := { r with buf := left.2, splitter := left.1, dispatched := r.dispatched ++ packets })
            running
          rw [List.singleton_append, List.flatten_cons, bytes]
          exact ⟨(List.prefix_append_right_inj _).mpr later.1, fun result => by rw [later.2 result]⟩

/-- The dispatcher gets what the splitter finds in the bytes that the loop has shown it. -/
theorem dispatched_split (streaming : Streaming feed) (splitter : S) (turns : List ReaderTurn) :
    let after := (new splitter).run feed dispatchOwned closeOk turns
    let bytes := ((new splitter).chunks feed dispatchOwned closeOk turns).flatten
    after.dispatched = ((feed splitter bytes).run dispatchOwned 0).1 ∧
      (((feed splitter bytes).run dispatchOwned 0).2 = none ↔ after.result = some (.error .feed)) := by
  intro after bytes
  have all := run_feedAll feed dispatchOwned closeOk (r := new splitter) rfl turns
  rw [← Splitter.feedAll_flatten streaming]
  exact ⟨all.1, all.2.1⟩

/-- The dispatcher is told once that the connection is closed, unless the loop was left by a failed feed. -/
theorem closes_once (turns : List ReaderTurn) (splitter : S) :
    let after := (new splitter).run feed dispatchOwned closeOk turns
    after.closes = if after.result = none ∨ after.result = some (.error .feed) then 0 else 1 := by
  refine invariant_run (turn feed dispatchOwned closeOk)
    (fun r => r.closes = if r.result = none ∨ r.result = some (.error .feed) then 0 else 1) ?_ (new splitter) turns rfl
  intro r event inv
  by_cases running : r.result = none
  · rw [if_pos (Or.inl running)] at inv
    have turned := turn_cases feed dispatchOwned closeOk running event
    generalize r.turn feed dispatchOwned closeOk event = next at turned
    generalize r.seen event = chunk at turned
    cases turned with
    | left =>
        have ended := leave_result closeOk (r := r)
        rw [if_neg (not_or.mpr ended)]
        exact congrArg (· + 1) inv
    | failed data packets bytes fed => exact inv
    | fed data packets left bytes fed =>
        rw [if_pos (Or.inl running)]
        exact inv
  · rwa [(turn_ended feed dispatchOwned closeOk running event).1]

/-- The turn as `readTurn` sees it, which knows the lengths only. -/
def outline (feed : Splitter S Bytes UInt8) (dispatchOwned : Nat → Bool) (r : TcpReader S) : ReaderTurn → ReadTurn
  | .cancelled => .cancelled
  | .read (.error _) => .read (.error ()) (.ok 0)
  | .read (.ok data) =>
      .read (.ok data.length)
        (match ((feed r.splitter (r.buf ++ data)).run dispatchOwned r.dispatched.length).2 with
        | none => .error ()
        | some left => .ok left.2.length)

/-- What a turn does agrees with the turn over lengths, which the connection's registry calls hang on. -/
def TurnsAsOutlined (feed : Splitter S Bytes UInt8) (dispatchOwned : Nat → Bool) (closeOk : Bool) (r : TcpReader S)
    (event : ReaderTurn) : Prop :=
  match readTurn r.buf.length (r.outline feed dispatchOwned event) with
  | .again bufLen =>
      (r.turn feed dispatchOwned closeOk event).result = none ∧
        (r.turn feed dispatchOwned closeOk event).buf.length = bufLen
  | .broke => r.turn feed dispatchOwned closeOk event = r.leave closeOk
  | .failed => (r.turn feed dispatchOwned closeOk event).result = some (.error .feed)

theorem turn_is_readTurn (running : r.result = none) (event : ReaderTurn) :
    r.TurnsAsOutlined feed dispatchOwned closeOk event := by
  cases event with
  | cancelled => simp [TurnsAsOutlined, outline, readTurn, turn, running]
  | read result =>
      cases result with
      | error failure => simp [TurnsAsOutlined, outline, readTurn, turn, running]
      | ok data =>
          cases data with
          | nil => simp [TurnsAsOutlined, outline, readTurn, turn, running]
          | cons byte data =>
              simp only [TurnsAsOutlined, outline, List.length_cons, readTurn, turn, running, List.length_append,
                reduceCtorEq, if_false]
              by_cases large : MAX_BUF_SIZE < r.buf.length + (data.length + 1)
              · simp [large]
              · simp only [large, if_false, feedOwned]
                cases (feed r.splitter (r.buf ++ byte :: data)).run dispatchOwned r.dispatched.length with
                | mk packets outcome => cases outcome <;> simp [running]

end Loop

/-- However the stream is cut into reads, the dispatcher gets the packets that the splitter finds in the
bytes up to the end of the loop, in order, up to the first that it refuses, and every turn ends as the
connection's model of it over lengths does. -/
theorem reader_splits_the_stream (feed : Splitter S Bytes UInt8) (streaming : Streaming feed)
    (dispatchOwned : Nat → Bool) (closeOk : Bool) (splitter : S) (turns : List ReaderTurn) :
    let after := (new splitter).run feed dispatchOwned closeOk turns
    let bytes := ((new splitter).chunks feed dispatchOwned closeOk turns).flatten
    after.dispatched = ((feed splitter bytes).run dispatchOwned 0).1 ∧
      (((feed splitter bytes).run dispatchOwned 0).2 = none ↔ after.result = some (.error .feed)) ∧
      bytes <+: received turns ∧ (after.result = none → bytes = received turns) ∧
      after.closes = (if after.result = none ∨ after.result = some (.error .feed) then 0 else 1) ∧
      (∀ others, ((new splitter).chunks feed dispatchOwned closeOk others).flatten = bytes →
        ((new splitter).run feed dispatchOwned closeOk others).dispatched = after.dispatched) ∧
      (after.result = none → ∀ event, after.TurnsAsOutlined feed dispatchOwned closeOk event) := by
  intro after bytes
  have found := dispatched_split feed dispatchOwned closeOk streaming splitter turns
  have stream := chunks_received feed dispatchOwned closeOk (r := new splitter) rfl turns
  have told := closes_once feed dispatchOwned closeOk turns splitter
  refine ⟨found.1, found.2, stream.1, stream.2, told, ?_, turn_is_readTurn feed dispatchOwned closeOk⟩
  intro others same
  rw [(dispatched_split feed dispatchOwned closeOk streaming splitter others).1, same]
  exact found.1.symm

/-- A frame of one byte that comes in two reads, and the cancellation. -/
theorem reader_splits_the_stream_two_reads :
    let turns : List ReaderTurn := [.read (.ok [0, 1]), .read (.ok [9]), .cancelled]
    let r := (new ()).run u16FrameSplitter (fun _ => true) true turns
    r.dispatched = [[9]] ∧ r.closes = 1 ∧ r.result = some (.ok ()) := by
  intro turns r
  have part := u16FrameSplitter_part 0 1 [] (by decide)
  have whole := u16FrameSplitter_whole 0 1 [9] (by decide)
  have empty := u16FrameSplitter_short [] (by decide)
  obtain ⟨split, -, -, -, closed, -⟩ := reader_splits_the_stream u16FrameSplitter u16FrameSplitter_streaming
    (fun _ => true) true () turns
  have shown : ((new ()).chunks u16FrameSplitter (fun _ => true) true turns).flatten = [0, 1, 9] := by
    simp [turns, chunks, traceFrom, seen, turn, new, feedOwned, part, Feed.run, MAX_BUF_SIZE]
  have left : ((new ()).run u16FrameSplitter (fun _ => true) true turns).result = some (.ok ()) := by
    simp [turns, run, turn, new, feedOwned, part, whole, empty, Feed.run, leave, MAX_BUF_SIZE]
  refine ⟨?_, ?_, left⟩
  · rw [shown, whole] at split
    simpa [Feed.run, empty] using split
  · simpa [left] using closed

end TcpReader

end Pigs.Net.Rw
