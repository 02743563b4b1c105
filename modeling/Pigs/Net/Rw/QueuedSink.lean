import Pigs.Lib.Run
import Pigs.Net.Rw.Frames

/-! Writes on the clones of one `QueuedTcpSink` and the task `handle_tcp_write` that drains their
channel. -/

namespace Pigs.Net.Rw

/-- `sending` waits in the `select!` of `write`, `trySending` is before the `try_send`. -/
inductive QueuedPc where
  | idle
  | start (isTry : Bool)
  | sending (packet : EncodedPacket)
  | trySending (packet : EncodedPacket)
  | returned (isOk : Bool)
  | dropped

def QueuedPc.ended : QueuedPc → Bool
  | .returned _ => true
  | .dropped => true
  | _ => false

/-- Where `handle_tcp_write` stands: in its `select!`, inside `write_encoded_packet`, after the
loop, in the shutdown of the stream, or returned. -/
inductive TaskPc where
  | selecting
  | writing (call : Nat) (left : Slices)
  | leaving
  | shuttingDown
  | returned

/-- `accepted` are the calls whose packets the channel has taken, in order, and `started` those
that have begun. -/
structure QueuedTcpSink where
  cancelled : Bool
  released : Bool
  queue : List (Nat × EncodedPacket)
  task : TaskPc
  failed : Bool
  emitted : List (Nat × UInt8)
  accepted : List Nat
  started : List Nat
  calls : Nat → QueuedPc

/-- `observe` is a poll of the `select!` of `write` that finds the token cancelled, `release` the
drop of the last clone, `receive` and `leave` the branches of the `select!` of the task, and
`advanceTask` its steps outside of it. -/
inductive QueuedAct where
  | write (call : Nat)
  | tryWrite (call : Nat)
  | advance (call : Nat)
  | observe (call : Nat)
  | drop (call : Nat)
  | close
  | release
  | receive
  | leave
  | advanceTask (result : StreamResult)

namespace QueuedTcpSink

def new : QueuedTcpSink where
  cancelled := false
  released := false
  queue := []
  task := .selecting
  failed := false
  emitted := []
  accepted := []
  started := []
  calls _ := .idle

def set (s : QueuedTcpSink) (call : Nat) (pc : QueuedPc) : QueuedTcpSink :=
  { s with calls := Function.update s.calls call pc }

/-- The receiver lives until `handle_tcp_write` returns. -/
def receiverClosed (s : QueuedTcpSink) : Bool :=
  match s.task with
  | .returned => true
  | _ => false

def begin (s : QueuedTcpSink) (call : Nat) (isTry : Bool) : QueuedTcpSink :=
  if s.released then
    s
  else
    match s.calls call with
    | .idle => { s with started := s.started ++ [call] }.set call (.start isTry)
    | _ => s

/-- The channel takes the packet of a call. -/
def accept (s : QueuedTcpSink) (call : Nat) (packet : EncodedPacket) : QueuedTcpSink :=
  { s with
    queue := s.queue ++ [(call, packet)]
    accepted := s.accepted ++ [call] }.set call (.returned true)

variable (encoder : PacketEncoder) (data : Nat → Bytes) (capacity : Nat)

/-- The next step of `write` or `try_write`. A send that finds the channel full stays where it is,
a `try_send` gives up. -/
def advance (s : QueuedTcpSink) (call : Nat) : QueuedTcpSink :=
  match s.calls call with
  | .start isTry =>
      if s.cancelled then
        s.set call (.returned false)
      else
        match encoder (data call) with
        | .error _ => s.set call (.returned false)
        | .ok packet => s.set call (if isTry then .trySending packet else .sending packet)
  | .sending packet =>
      if s.receiverClosed then
        s.set call (.returned false)
      else if s.queue.length < capacity then
        s.accept call packet
      else
        s
  | .trySending packet =>
      if s.receiverClosed then
        s.set call (.returned false)
      else if s.queue.length < capacity then
        s.accept call packet
      else
        s.set call (.returned false)
  | _ => s

/-- `rx.recv()`: the oldest packet, or `None` when there is none and no sender is left. -/
def receive (s : QueuedTcpSink) : QueuedTcpSink :=
  match s.task with
  | .selecting =>
      match s.queue with
      | (call, packet) :: rest => { s with queue := rest, task := .writing call packet.slices }
      | [] => if s.released then { s with task := .leaving } else s
  | _ => s

def advanceTask (s : QueuedTcpSink) (result : StreamResult) : QueuedTcpSink :=
  match s.task with
  | .writing call left =>
      if left.finished then
        { s with task := .selecting }
      else
        match left.turn result with
        | (out, .ok rest) =>
            { s with emitted := s.emitted ++ tag call out, task := .writing call rest }
        | (_, .error _) => { s with task := .leaving, failed := true }
  | .leaving => { s with cancelled := true, task := .shuttingDown }
  | .shuttingDown => { s with queue := [], task := .returned }
  | _ => s

def step (s : QueuedTcpSink) : QueuedAct → QueuedTcpSink
  | .write call => s.begin call false
  | .tryWrite call => s.begin call true
  | .advance call => s.advance encoder data capacity call
  | .observe call =>
      match s.calls call with
      | .sending _ => if s.cancelled then s.set call (.returned false) else s
      | _ => s
  | .drop call =>
      match s.calls call with
      | .start false => s.set call .dropped
      | .sending _ => s.set call .dropped
      | _ => s
  | .close => { s with cancelled := true }
  | .release => if s.started.all fun call => (s.calls call).ended then { s with released := true } else s
  | .receive => s.receive
  | .leave =>
      match s.task with
      | .selecting => if s.cancelled then { s with task := .leaving } else s
      | _ => s
  | .advanceTask result => s.advanceTask result

def run (s : QueuedTcpSink) (acts : List QueuedAct) : QueuedTcpSink :=
  Lib.runFrom (step encoder data capacity) s acts

end QueuedTcpSink

/-! Where the accepted packets are. -/

def TaskPc.Exited : TaskPc → Prop
  | .leaving => True
  | .shuttingDown => True
  | .returned => True
  | _ => False

namespace QueuedTcpSink

/-- The accepted packets are, in order, those on the stream, the one being written and those in
the channel. What the task leaves behind is lost. -/
inductive Delivery (encoder : PacketEncoder) (data : Nat → Bytes) (s : QueuedTcpSink) : Prop where
  | between (sent : List Nat) (task : s.task = .selecting)
      (order : s.accepted = sent ++ s.queue.map (·.1)) (stream : s.emitted = wholes encoder data sent)
  | within (sent : List Nat) (call : Nat) (left : Slices) (out : Bytes)
      (task : s.task = .writing call left) (order : s.accepted = sent ++ call :: s.queue.map (·.1))
      (split : out ++ left.bytes = frame encoder data call)
      (stream : s.emitted = wholes encoder data sent ++ tag call out)
  | gone (sent rest : List Nat) (task : s.task.Exited) (order : s.accepted = sent ++ rest)
      (stream : s.emitted = wholes encoder data sent)
  | broken (sent rest : List Nat) (call : Nat) (out : Bytes) (task : s.task.Exited)
      (failed : s.failed = true) (order : s.accepted = sent ++ call :: rest)
      (part : out <+: frame encoder data call)
      (stream : s.emitted = wholes encoder data sent ++ tag call out)

structure Conserved (encoder : PacketEncoder) (data : Nat → Bytes) (s : QueuedTcpSink) : Prop where
  packets : ∀ i packet, s.calls i = .sending packet ∨ s.calls i = .trySending packet →
    encoder (data i) = .ok packet
  queued : ∀ item ∈ s.queue, encoder (data item.1) = .ok item.2
  encoded : ∀ i ∈ s.accepted, ∃ packet, encoder (data i) = .ok packet
  answered : ∀ i, i ∈ s.accepted ↔ s.calls i = .returned true
  distinct : s.accepted.Nodup
  delivery : Delivery encoder data s

variable {encoder : PacketEncoder} {data : Nat → Bytes} {capacity : Nat} {s t : QueuedTcpSink}

namespace Delivery

theorem congr (delivery : Delivery encoder data s) (task : t.task = s.task)
    (failed : t.failed = s.failed) (accepted : t.accepted = s.accepted) (queue : t.queue = s.queue)
    (emitted : t.emitted = s.emitted) : Delivery encoder data t := by
  cases delivery with
  | between sent selecting order stream =>
      exact .between sent (task.trans selecting) (by rw [accepted, queue]; exact order)
        (emitted.trans stream)
  | within sent call left out writing order split stream =>
      exact .within sent call left out (task.trans writing) (by rw [accepted, queue]; exact order)
        split (emitted.trans stream)
  | gone sent rest exited order stream =>
      exact .gone sent rest (by rw [task]; exact exited) (accepted.trans order) (emitted.trans stream)
  | broken sent rest call out exited failure order part stream =>
      exact .broken sent rest call out (by rw [task]; exact exited) (failed.trans failure)
        (accepted.trans order) part (emitted.trans stream)

theorem accept (delivery : Delivery encoder data s) (call : Nat) (packet : EncodedPacket) :
    Delivery encoder data (s.accept call packet) := by
  cases delivery with
  | between sent task order stream =>
      refine .between sent task ?_ stream
      simp [QueuedTcpSink.accept, set, order]
  | within sent other left out task order split stream =>
      refine .within sent other left out task ?_ split stream
      simp [QueuedTcpSink.accept, set, order]
  | gone sent rest task order stream =>
      refine .gone sent (rest ++ [call]) task ?_ stream
      simp [QueuedTcpSink.accept, set, order]
  | broken sent rest other out task failed order part stream =>
      refine .broken sent (rest ++ [call]) other out task failed ?_ part stream
      simp [QueuedTcpSink.accept, set, order]

/-- After its loop the task leaves the stream alone. -/
theorem leave (delivery : Delivery encoder data s) (before : s.task = .selecting ∨ s.task.Exited)
    (after : t.task.Exited) (failed : t.failed = s.failed) (accepted : t.accepted = s.accepted)
    (emitted : t.emitted = s.emitted) : Delivery encoder data t := by
  cases delivery with
  | between sent task order stream =>
      exact .gone sent (s.queue.map (·.1)) after (accepted.trans order) (emitted.trans stream)
  | within sent call left out task order split stream =>
      rw [task] at before
      rcases before with selecting | exited
      · cases selecting
      · exact exited.elim
  | gone sent rest task order stream =>
      exact .gone sent rest after (accepted.trans order) (emitted.trans stream)
  | broken sent rest call out task failure order part stream =>
      exact .broken sent rest call out after (failed.trans failure) (accepted.trans order) part
        (emitted.trans stream)

theorem receive (delivery : Delivery encoder data s)
    (queued : ∀ item ∈ s.queue, encoder (data item.1) = .ok item.2) :
    Delivery encoder data s.receive := by
  simp only [QueuedTcpSink.receive]
  split
  · next task =>
      split
      · next call packet rest queue =>
          cases delivery with
          | between sent selecting order stream =>
              have encoded := queued (call, packet) (by rw [queue]; exact List.mem_cons_self ..)
              refine .within sent call packet.slices [] rfl ?_ ?_ ?_
              · simp [order, queue]
              · exact (frame_of_ok call packet encoded).symm
              · simpa [tag] using stream
          | within sent other left out writing order split stream => simp [task] at writing
          | gone sent lost exited order stream => simp [task, TaskPc.Exited] at exited
          | broken sent lost other out exited failed order part stream =>
              simp [task, TaskPc.Exited] at exited
      · split_ifs with released
        · exact delivery.leave (Or.inl task) trivial rfl rfl rfl
        · exact delivery
  · exact delivery

theorem write (delivery : Delivery encoder data s) (call : Nat) (left : Slices)
    (task : s.task = .writing call left) :
    ∃ sent out, s.accepted = sent ++ call :: s.queue.map (·.1) ∧
      out ++ left.bytes = frame encoder data call ∧
      s.emitted = wholes encoder data sent ++ tag call out := by
  cases delivery with
  | between sent selecting order stream =>
      rw [task] at selecting
      cases selecting
  | within sent other rest out writing order split stream =>
      rw [task] at writing
      cases writing
      exact ⟨sent, out, order, split, stream⟩
  | gone sent rest exited order stream =>
      rw [task] at exited
      exact exited.elim
  | broken sent rest other out exited failed order part stream =>
      rw [task] at exited
      exact exited.elim

theorem advanceTask (delivery : Delivery encoder data s) (result : StreamResult) :
    Delivery encoder data (s.advanceTask result) := by
  simp only [QueuedTcpSink.advanceTask]
  cases task : s.task with
  | selecting => exact delivery
  | writing call left =>
      rcases delivery.write call left task with ⟨sent, out, order, split, stream⟩
      simp only
      split_ifs with finished
      · have whole : out = frame encoder data call := by
          rw [← split, (left.finished_iff).mp finished, List.append_nil]
        refine .between (sent ++ [call]) rfl ?_ ?_
        · simp [order]
        · rw [wholes_concat, ← whole]
          exact stream
      · split
        · next more rest turned =>
            have moved := (left.turn_ok rest result more turned).1
            refine .within sent call rest (out ++ more) rfl order ?_ ?_
            · rw [List.append_assoc, moved, split]
            · simp only [stream, tag_append, List.append_assoc]
        · exact .broken sent _ call out trivial rfl order ⟨left.bytes, split⟩ stream
  | leaving => exact delivery.leave (Or.inr (by rw [task]; trivial)) trivial rfl rfl rfl
  | shuttingDown => exact delivery.leave (Or.inr (by rw [task]; trivial)) trivial rfl rfl rfl
  | returned => exact delivery

/-- What is on the stream is the front of the accepted packets. -/
theorem stream_front (delivery : Delivery encoder data s) :
    s.emitted <+: wholes encoder data s.accepted := by
  cases delivery with
  | between sent task order stream =>
      rw [order, stream, wholes_append]
      exact List.prefix_append ..
  | within sent call left out task order split stream =>
      rw [order, stream, wholes_append, wholes_cons, ← split, tag_append]
      simp
  | gone sent rest task order stream =>
      rw [order, stream, wholes_append]
      exact List.prefix_append ..
  | broken sent rest call out task failed order part stream =>
      rcases part with ⟨left, split⟩
      rw [order, stream, wholes_append, wholes_cons, ← split, tag_append]
      simp

theorem stream_boundary (delivery : Delivery encoder data s) (intact : s.failed = false)
    (still : ∀ call left, s.task ≠ .writing call left) :
    ∃ sent, sent <+: s.accepted ∧ s.emitted = wholes encoder data sent := by
  cases delivery with
  | between sent task order stream => exact ⟨sent, ⟨_, order.symm⟩, stream⟩
  | within sent call left out task order split stream => exact absurd task (still call left)
  | gone sent rest task order stream => exact ⟨sent, ⟨_, order.symm⟩, stream⟩
  | broken sent rest call out task failed order part stream =>
      rw [intact] at failed
      cases failed

end Delivery

namespace Conserved

theorem new : Conserved encoder data QueuedTcpSink.new where
  packets _ _ waiting := by rcases waiting with absent | absent <;> cases absent
  queued := nofun
  encoded := nofun
  answered _ := ⟨nofun, nofun⟩
  distinct := List.nodup_nil
  delivery := .between [] rfl rfl rfl

/-- A step of a call that sends nothing. -/
theorem quiet (con : Conserved encoder data s) (call : Nat) (pc : QueuedPc)
    (before : s.calls call ≠ .returned true) (after : pc ≠ .returned true)
    (own : ∀ packet, pc = .sending packet ∨ pc = .trySending packet →
      encoder (data call) = .ok packet) : Conserved encoder data (s.set call pc) where
  packets i packet waiting := by
    simp only [set] at waiting
    by_cases same : i = call
    · subst same
      rw [Function.update_self] at waiting
      exact own packet waiting
    · rw [Function.update_of_ne same] at waiting
      exact con.packets i packet waiting
  queued := con.queued
  encoded := con.encoded
  answered i := by
    simp only [set]
    by_cases same : i = call
    · subst same
      rw [Function.update_self, con.answered]
      exact iff_of_false before after
    · rw [Function.update_of_ne same, con.answered]
  distinct := con.distinct
  delivery := con.delivery.congr rfl rfl rfl rfl rfl

/-- A step of the task or of the environment. -/
theorem aside (con : Conserved encoder data s) (calls : t.calls = s.calls)
    (accepted : t.accepted = s.accepted) (queue : t.queue ⊆ s.queue)
    (delivery : Delivery encoder data t) : Conserved encoder data t where
  packets i packet waiting := con.packets i packet (by rw [← calls]; exact waiting)
  queued item member := con.queued item (queue member)
  encoded i member := con.encoded i (by rw [← accepted]; exact member)
  answered i := by rw [accepted, calls, con.answered]
  distinct := by rw [accepted]; exact con.distinct
  delivery := delivery

theorem accept (con : Conserved encoder data s) (call : Nat) (packet : EncodedPacket)
    (waiting : s.calls call = .sending packet ∨ s.calls call = .trySending packet) :
    Conserved encoder data (s.accept call packet) := by
  have encoded := con.packets call packet waiting
  have fresh : call ∉ s.accepted := by
    rw [con.answered]
    rcases waiting with pc | pc <;> rw [pc] <;> exact nofun
  refine ⟨?_, ?_, ?_, ?_, ?_, con.delivery.accept call packet⟩
  · intro i other sending
    simp only [QueuedTcpSink.accept, set] at sending
    by_cases same : i = call
    · subst same
      rw [Function.update_self] at sending
      rcases sending with absent | absent <;> cases absent
    · rw [Function.update_of_ne same] at sending
      exact con.packets i other sending
  · intro item member
    rcases List.mem_append.mp member with old | last
    · exact con.queued item old
    · obtain rfl := List.mem_singleton.mp last
      exact encoded
  · intro i member
    rcases List.mem_append.mp member with old | last
    · exact con.encoded i old
    · obtain rfl := List.mem_singleton.mp last
      exact ⟨packet, encoded⟩
  · intro i
    simp only [QueuedTcpSink.accept, set, List.mem_append, List.mem_singleton]
    by_cases same : i = call
    · subst same
      rw [Function.update_self]
      exact iff_of_true (Or.inr rfl) rfl
    · rw [Function.update_of_ne same, con.answered]
      exact ⟨fun member => member.resolve_right same, Or.inl⟩
  · exact List.nodup_append.mpr ⟨con.distinct, List.nodup_singleton call, by
      intro i member j single equal
      subst equal
      exact fresh (List.mem_singleton.mp single ▸ member)⟩

theorem advance (con : Conserved encoder data s) (call : Nat) :
    Conserved encoder data (s.advance encoder data capacity call) := by
  have refuse : s.calls call ≠ .returned true →
      Conserved encoder data (s.set call (.returned false)) := fun before =>
    con.quiet call (.returned false) before nofun (fun _ waiting => waiting.elim nofun nofun)
  simp only [QueuedTcpSink.advance]
  cases pc : s.calls call with
  | start isTry =>
      have before : s.calls call ≠ .returned true := by rw [pc]; exact nofun
      simp only
      by_cases closed : s.cancelled = true
      · rw [if_pos closed]
        exact refuse before
      · rw [if_neg closed]
        cases encoded : encoder (data call) with
        | error message => exact refuse before
        | ok packet =>
            cases isTry with
            | false =>
                exact con.quiet call (.sending packet) before nofun
                  (by rintro other (same | same) <;> cases same; exact encoded)
            | true =>
                exact con.quiet call (.trySending packet) before nofun
                  (by rintro other (same | same) <;> cases same; exact encoded)
  | sending packet =>
      have before : s.calls call ≠ .returned true := by rw [pc]; exact nofun
      simp only
      split_ifs with closed room
      · exact refuse before
      · exact con.accept call packet (Or.inl pc)
      · exact con
  | trySending packet =>
      have before : s.calls call ≠ .returned true := by rw [pc]; exact nofun
      simp only
      split_ifs with closed room
      · exact refuse before
      · exact con.accept call packet (Or.inr pc)
      · exact refuse before
  | idle => exact con
  | returned isOk => exact con
  | dropped => exact con

theorem begin (con : Conserved encoder data s) (call : Nat) (isTry : Bool) :
    Conserved encoder data (s.begin call isTry) := by
  simp only [QueuedTcpSink.begin]
  split_ifs with released
  · exact con
  · split
    · next pc =>
        have noted : Conserved encoder data { s with started := s.started ++ [call] } :=
          con.aside rfl rfl (List.Subset.refl _) (con.delivery.congr rfl rfl rfl rfl rfl)
        exact noted.quiet call (.start isTry) (by simp [pc]) nofun
          (fun _ waiting => waiting.elim nofun nofun)
    · exact con

theorem receive_fields (s : QueuedTcpSink) : s.receive.calls = s.calls ∧
    s.receive.accepted = s.accepted ∧ s.receive.queue ⊆ s.queue := by
  simp only [QueuedTcpSink.receive]
  split
  · split
    · next queue =>
        refine ⟨rfl, rfl, ?_⟩
        rw [queue]
        exact List.subset_cons_self ..
    · split_ifs <;> exact ⟨rfl, rfl, List.Subset.refl _⟩
  · exact ⟨rfl, rfl, List.Subset.refl _⟩

theorem advanceTask_fields (s : QueuedTcpSink) (result : StreamResult) :
    (s.advanceTask result).calls = s.calls ∧ (s.advanceTask result).accepted = s.accepted ∧
      (s.advanceTask result).queue ⊆ s.queue := by
  simp only [QueuedTcpSink.advanceTask]
  split
  · split_ifs
    · exact ⟨rfl, rfl, List.Subset.refl _⟩
    · split <;> exact ⟨rfl, rfl, List.Subset.refl _⟩
  · exact ⟨rfl, rfl, List.Subset.refl _⟩
  · exact ⟨rfl, rfl, List.nil_subset _⟩
  · exact ⟨rfl, rfl, List.Subset.refl _⟩

theorem step (con : Conserved encoder data s) (act : QueuedAct) :
    Conserved encoder data (s.step encoder data capacity act) := by
  have dropCall : ∀ call, s.calls call ≠ .returned true →
      Conserved encoder data (s.set call .dropped) := fun call before =>
    con.quiet call .dropped before nofun (fun _ waiting => waiting.elim nofun nofun)
  cases act with
  | write call => exact con.begin call false
  | tryWrite call => exact con.begin call true
  | advance call => exact con.advance call
  | observe call =>
      simp only [QueuedTcpSink.step]
      split
      · next packet pc =>
          split_ifs with closed
          · exact con.quiet call (.returned false) (by rw [pc]; exact nofun) nofun
              (fun _ waiting => waiting.elim nofun nofun)
          · exact con
      · exact con
  | drop call =>
      simp only [QueuedTcpSink.step]
      split
      · next pc => exact dropCall call (by rw [pc]; exact nofun)
      · next packet pc => exact dropCall call (by rw [pc]; exact nofun)
      · exact con
  | close => exact con.aside rfl rfl (List.Subset.refl _) (con.delivery.congr rfl rfl rfl rfl rfl)
  | release =>
      simp only [QueuedTcpSink.step]
      split_ifs
      · exact con.aside rfl rfl (List.Subset.refl _) (con.delivery.congr rfl rfl rfl rfl rfl)
      · exact con
  | receive =>
      rcases receive_fields s with ⟨calls, accepted, queue⟩
      exact con.aside calls accepted queue (con.delivery.receive con.queued)
  | leave =>
      simp only [QueuedTcpSink.step]
      split
      · next task =>
          split_ifs
          · exact con.aside rfl rfl (List.Subset.refl _)
              (con.delivery.leave (Or.inl task) trivial rfl rfl rfl)
          · exact con
      · exact con
  | advanceTask result =>
      rcases advanceTask_fields s result with ⟨calls, accepted, queue⟩
      exact con.aside calls accepted queue (con.delivery.advanceTask result)

theorem run (con : Conserved encoder data s) (acts : List QueuedAct) :
    Conserved encoder data (s.run encoder data capacity acts) :=
  Lib.invariant_run (QueuedTcpSink.step encoder data capacity) (Conserved encoder data)
    (fun _ act inner => inner.step act) s acts con

end Conserved

/-! The length-prefixed stream. -/

/-- The frames of the calls' payloads, one behind the other. -/
def u16Frames (data : Nat → Bytes) (calls : List Nat) : List (Nat × UInt8) :=
  calls.flatMap fun call => tag call (u16Frame (data call))

theorem wholes_u16Frames (calls : List Nat)
    (encoded : ∀ i ∈ calls, ∃ packet, u16BeLengthPrefixEncoder (data i) = .ok packet) :
    wholes u16BeLengthPrefixEncoder data calls = u16Frames data calls := by
  refine List.flatMap_congr fun i member => ?_
  rcases encoded i member with ⟨packet, ok⟩
  rw [frame, ok]
  simp only [(u16BeLengthPrefixEncoder_ok (data i) packet ok).2]

theorem Conserved.fits (con : Conserved u16BeLengthPrefixEncoder data s) :
    ∀ payload ∈ s.accepted.map data, payload.length ≤ U16_MAX := by
  intro payload member
  rcases List.mem_map.mp member with ⟨i, accepted, rfl⟩
  rcases con.encoded i accepted with ⟨packet, ok⟩
  exact (u16BeLengthPrefixEncoder_ok (data i) packet ok).1

/-- A call that has handed nothing to the channel. -/
def Unsent (s : QueuedTcpSink) (call : Nat) : Prop :=
  match s.calls call with
  | .sending _ => False
  | .trySending _ => False
  | .returned true => False
  | _ => True

theorem Conserved.unsent (con : Conserved u16BeLengthPrefixEncoder data s) (call : Nat)
    (large : U16_MAX < (data call).length) : s.Unsent call ∧ call ∉ s.accepted := by
  have rejected := u16BeLengthPrefixEncoder_rejects (data call) large
  have outside : call ∉ s.accepted := by
    intro member
    rcases con.encoded call member with ⟨packet, ok⟩
    rw [rejected] at ok
    cases ok
  refine ⟨?_, outside⟩
  simp only [Unsent]
  split
  · next packet pc =>
      have ok := con.packets call packet (Or.inl pc)
      rw [rejected] at ok
      cases ok
  · next packet pc =>
      have ok := con.packets call packet (Or.inr pc)
      rw [rejected] at ok
      cases ok
  · next pc => exact outside ((con.answered call).mpr pc)
  · trivial

theorem Conserved.silent (con : Conserved encoder data s) (call : Nat) (outside : call ∉ s.accepted) :
    sentBy s.emitted call = [] := by
  rcases con.delivery.stream_front with ⟨rest, split⟩
  have all : sentBy (wholes encoder data s.accepted) call = _ :=
    sentBy_wholes s.accepted con.distinct call
  rw [if_neg outside, ← split, sentBy_append] at all
  exact (List.append_eq_nil_iff.mp all).1

/-- The step in which a call meets the encoder ends it there. -/
theorem advance_rejects (s : QueuedTcpSink) (call : Nat) (isTry : Bool)
    (pc : s.calls call = .start isTry) (large : U16_MAX < (data call).length) :
    s.advance u16BeLengthPrefixEncoder data capacity call = s.set call (.returned false) := by
  simp only [advance, pc, u16BeLengthPrefixEncoder_rejects (data call) large]
  split_ifs <;> rfl

/-- The stream gets the frames of the accepted packets in the order of acceptance, each once, cut short only
by the end of the stream, and no packet that is too large; what the frames carry can be read off them. -/
theorem queued_sink_delivers_in_order (data : Nat → Bytes) (capacity : Nat)
    (acts : List QueuedAct) :
    let s := new.run u16BeLengthPrefixEncoder data capacity acts
    s.accepted.Nodup ∧ (∀ call, call ∈ s.accepted ↔ s.calls call = .returned true) ∧
      s.emitted <+: u16Frames data s.accepted ∧
      (s.failed = false → (∀ call left, s.task ≠ .writing call left) →
        ∃ sent, sent <+: s.accepted ∧ s.emitted = u16Frames data sent) ∧
      (∀ call, U16_MAX < (data call).length →
        s.Unsent call ∧ call ∉ s.accepted ∧ sentBy s.emitted call = [] ∧
          ∀ isTry, s.calls call = .start isTry →
            s.step u16BeLengthPrefixEncoder data capacity (.advance call) =
              s.set call (.returned false)) ∧
      ∀ otherData otherCapacity otherActs,
        let t := new.run u16BeLengthPrefixEncoder otherData otherCapacity otherActs
        (s.accepted.map data).flatMap u16Frame = (t.accepted.map otherData).flatMap u16Frame →
          s.accepted.map data = t.accepted.map otherData := by
  intro s
  have con : Conserved u16BeLengthPrefixEncoder data s := Conserved.new.run acts
  have encoded : ∀ sent, sent <+: s.accepted →
      wholes u16BeLengthPrefixEncoder data sent = u16Frames data sent := fun sent front =>
    wholes_u16Frames sent fun i member => con.encoded i (front.subset member)
  refine ⟨con.distinct, con.answered, ?_, ?_, ?_, ?_⟩
  · rw [← encoded s.accepted (List.prefix_refl _)]
    exact con.delivery.stream_front
  · intro intact still
    rcases con.delivery.stream_boundary intact still with ⟨sent, front, stream⟩
    exact ⟨sent, front, stream.trans (encoded sent front)⟩
  · intro call large
    rcases con.unsent call large with ⟨unsent, outside⟩
    exact ⟨unsent, outside, con.silent call outside, fun isTry pc =>
      advance_rejects s call isTry pc large⟩
  · intro otherData otherCapacity otherActs t same
    have other : Conserved u16BeLengthPrefixEncoder otherData t := Conserved.new.run otherActs
    exact u16Frames_injective _ _ con.fits other.fits same

/-- A packet cut short on the stream and another one still in the channel. -/
theorem queued_sink_delivers_in_order_partial :
    let data : Nat → Bytes := fun call => if call = 0 then [7, 8] else [9]
    let acts : List QueuedAct := [.write 0, .tryWrite 1, .advance 0, .advance 1, .advance 0,
      .receive, .advance 1, .advanceTask (.accept 3)]
    let s := new.run u16BeLengthPrefixEncoder data 1 acts
    s.accepted = [0, 1] ∧ s.emitted = [(0, 0), (0, 2), (0, 7)] ∧
      s.emitted <+: u16Frames data s.accepted := by
  exact ⟨rfl, by decide, (queued_sink_delivers_in_order _ 1 _).2.2.1⟩

end QueuedTcpSink

end Pigs.Net.Rw
