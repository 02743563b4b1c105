import Pigs.Lib.Run
import Pigs.Net.Rw.Frames

/-! Concurrent writes on the clones of one `DirectTcpSink`. The clones share the stream behind a
mutex and the cancellation token. A write call is cut at its reads of the token, at the lock, and
at every answer of the stream; its future can be dropped wherever it waits. -/

namespace Pigs.Net.Rw

/-- `locking` waits for the stream, `holding` has just got it, `writing` is inside the `select!`,
`failing` has an error in hand and still the lock, and `unlocking` has cancelled the token. -/
inductive WritePc where
  | idle
  | start
  | locking (packet : EncodedPacket)
  | holding (packet : EncodedPacket)
  | writing (left : Slices)
  | failing
  | unlocking
  | returned (isOk : Bool)
  | dropped

inductive ShutdownPc where
  | idle
  | start
  | locking
  | holding
  | returned
  | dropped

inductive Owner where
  | write (call : Nat)
  | shutdown (call : Nat)
  deriving DecidableEq

/-- `written` is what has been sent on the stream, each byte with the write call that sent it. -/
structure DirectTcpSink where
  cancelled : Bool
  owner : Option Owner
  written : List (Nat × UInt8)
  writes : Nat → WritePc
  shutdowns : Nat → ShutdownPc

/-- `observe` is the poll of a `select!` that finds the token cancelled. A poll that has found it
alive may write several times before the next one. -/
inductive DirectAct where
  | write (call : Nat)
  | advance (call : Nat) (result : StreamResult)
  | observe (call : Nat)
  | drop (call : Nat)
  | close
  | shutdown (call : Nat)
  | advanceShutdown (call : Nat)
  | dropShutdown (call : Nat)

namespace DirectTcpSink

def new : DirectTcpSink where
  cancelled := false
  owner := none
  written := []
  writes _ := .idle
  shutdowns _ := .idle

def setWrite (s : DirectTcpSink) (call : Nat) (pc : WritePc) : DirectTcpSink :=
  { s with writes := Function.update s.writes call pc }

def setShutdown (s : DirectTcpSink) (call : Nat) (pc : ShutdownPc) : DirectTcpSink :=
  { s with shutdowns := Function.update s.shutdowns call pc }

variable (encoder : PacketEncoder) (data : Nat → Bytes)

/-- The next step of `write`. The end of the call drops the guard of the stream. -/
def advance (s : DirectTcpSink) (call : Nat) (result : StreamResult) : DirectTcpSink :=
  match s.writes call with
  | .start =>
      if s.cancelled then
        s.setWrite call (.returned false)
      else
        match encoder (data call) with
        | .error _ => s.setWrite call (.returned false)
        | .ok packet => s.setWrite call (.locking packet)
  | .locking packet =>
      match s.owner with
      | none => { s with owner := some (.write call) }.setWrite call (.holding packet)
      | some _ => s
  | .holding packet =>
      if s.cancelled then
        { s with owner := none }.setWrite call (.returned false)
      else
        s.setWrite call (.writing packet.slices)
  | .writing left =>
      if left.finished then
        { s with owner := none }.setWrite call (.returned true)
      else
        match left.turn result with
        | (out, .ok rest) =>
            { s with written := s.written ++ tag call out }.setWrite call (.writing rest)
        | (_, .error _) => s.setWrite call .failing
  | .failing => { s with cancelled := true }.setWrite call .unlocking
  | .unlocking => { s with owner := none }.setWrite call (.returned false)
  | _ => s

def advanceShutdown (s : DirectTcpSink) (call : Nat) : DirectTcpSink :=
  match s.shutdowns call with
  | .start => { s with cancelled := true }.setShutdown call .locking
  | .locking =>
      match s.owner with
      | none => { s with owner := some (.shutdown call) }.setShutdown call .holding
      | some _ => s
  | .holding => { s with owner := none }.setShutdown call .returned
  | _ => s

def step (s : DirectTcpSink) : DirectAct → DirectTcpSink
  | .write call =>
      match s.writes call with
      | .idle => s.setWrite call .start
      | _ => s
  | .advance call result => s.advance encoder data call result
  | .observe call =>
      match s.writes call with
      | .writing _ => if s.cancelled then s.setWrite call .failing else s
      | _ => s
  | .drop call =>
      match s.writes call with
      | .start => s.setWrite call .dropped
      | .locking _ => s.setWrite call .dropped
      | .writing _ => { s with owner := none }.setWrite call .dropped
      | _ => s
  | .close => { s with cancelled := true }
  | .shutdown call =>
      match s.shutdowns call with
      | .idle => s.setShutdown call .start
      | _ => s
  | .advanceShutdown call => s.advanceShutdown call
  | .dropShutdown call =>
      match s.shutdowns call with
      | .start => s.setShutdown call .dropped
      | .locking => s.setShutdown call .dropped
      | .holding => { s with owner := none }.setShutdown call .dropped
      | _ => s

def run (s : DirectTcpSink) (acts : List DirectAct) : DirectTcpSink :=
  Lib.runFrom (step encoder data) s acts

end DirectTcpSink

/-! Who holds the stream. -/

namespace WritePc

def Holds : WritePc → Prop
  | .holding _ => True
  | .writing _ => True
  | .failing => True
  | .unlocking => True
  | _ => False

/-- Inside the `select!`, or with its error in hand. -/
def Busy : WritePc → Prop
  | .writing _ => True
  | .failing => True
  | _ => False

def Done : WritePc → Prop
  | .returned _ => True
  | .dropped => True
  | _ => False

end WritePc

namespace DirectTcpSink

variable {encoder : PacketEncoder} {data : Nat → Bytes} {s t : DirectTcpSink}

structure Locked (s : DirectTcpSink) : Prop where
  writes : ∀ i, (s.writes i).Holds → s.owner = some (.write i)
  shutdowns : ∀ k, s.shutdowns k = .holding → s.owner = some (.shutdown k)

namespace Locked

theorem keep (locked : Locked s) (call : Nat) (pc : WritePc) (owner : t.owner = s.owner)
    (writes : t.writes = Function.update s.writes call pc) (shutdowns : t.shutdowns = s.shutdowns)
    (held : pc.Holds → (s.writes call).Holds) : Locked t where
  writes i holds := by
    rw [owner]
    rw [writes] at holds
    by_cases same : i = call
    · subst same
      rw [Function.update_self] at holds
      exact locked.writes i (held holds)
    · rw [Function.update_of_ne same] at holds
      exact locked.writes i holds
  shutdowns k holds := by
    rw [owner]
    rw [shutdowns] at holds
    exact locked.shutdowns k holds

theorem release (locked : Locked s) (call : Nat) (pc : WritePc) (held : (s.writes call).Holds)
    (writes : t.writes = Function.update s.writes call pc) (shutdowns : t.shutdowns = s.shutdowns)
    (free : ¬ pc.Holds) : Locked t where
  writes i holds := by
    rw [writes] at holds
    by_cases same : i = call
    · subst same
      rw [Function.update_self] at holds
      exact absurd holds free
    · rw [Function.update_of_ne same] at holds
      have both := (locked.writes i holds).symm.trans (locked.writes call held)
      exact absurd (Owner.write.inj (Option.some.inj both)) same
  shutdowns k holds := by
    rw [shutdowns] at holds
    have both := (locked.shutdowns k holds).symm.trans (locked.writes call held)
    cases both

theorem acquire (locked : Locked s) (call : Nat) (pc : WritePc) (free : s.owner = none)
    (owner : t.owner = some (.write call)) (writes : t.writes = Function.update s.writes call pc)
    (shutdowns : t.shutdowns = s.shutdowns) : Locked t where
  writes i holds := by
    rw [writes] at holds
    by_cases same : i = call
    · subst same
      exact owner
    · rw [Function.update_of_ne same] at holds
      have taken := locked.writes i holds
      rw [free] at taken
      cases taken
  shutdowns k holds := by
    rw [shutdowns] at holds
    have taken := locked.shutdowns k holds
    rw [free] at taken
    cases taken

theorem keepShutdown (locked : Locked s) (call : Nat) (pc : ShutdownPc) (owner : t.owner = s.owner)
    (writes : t.writes = s.writes) (shutdowns : t.shutdowns = Function.update s.shutdowns call pc)
    (free : pc ≠ .holding) : Locked t where
  writes i holds := by
    rw [owner]
    rw [writes] at holds
    exact locked.writes i holds
  shutdowns k holds := by
    rw [owner]
    rw [shutdowns] at holds
    by_cases same : k = call
    · subst same
      rw [Function.update_self] at holds
      exact absurd holds free
    · rw [Function.update_of_ne same] at holds
      exact locked.shutdowns k holds

theorem releaseShutdown (locked : Locked s) (call : Nat) (pc : ShutdownPc)
    (held : s.shutdowns call = .holding) (writes : t.writes = s.writes)
    (shutdowns : t.shutdowns = Function.update s.shutdowns call pc) (free : pc ≠ .holding) :
    Locked t where
  writes i holds := by
    rw [writes] at holds
    cases (locked.writes i holds).symm.trans (locked.shutdowns call held)
  shutdowns k holds := by
    rw [shutdowns] at holds
    by_cases same : k = call
    · subst same
      rw [Function.update_self] at holds
      exact absurd holds free
    · rw [Function.update_of_ne same] at holds
      have both := (locked.shutdowns k holds).symm.trans (locked.shutdowns call held)
      exact absurd (Owner.shutdown.inj (Option.some.inj both)) same

theorem acquireShutdown (locked : Locked s) (call : Nat) (free : s.owner = none)
    (owner : t.owner = some (.shutdown call)) (writes : t.writes = s.writes)
    (shutdowns : t.shutdowns = Function.update s.shutdowns call .holding) : Locked t where
  writes i holds := by
    rw [writes] at holds
    have taken := locked.writes i holds
    rw [free] at taken
    cases taken
  shutdowns k holds := by
    rw [shutdowns] at holds
    by_cases same : k = call
    · subst same
      exact owner
    · rw [Function.update_of_ne same] at holds
      have taken := locked.shutdowns k holds
      rw [free] at taken
      cases taken

end Locked

/-! What has been sent. -/

/-- After complete packets of `calls` the stream is between packets, inside the packet of the one
call that is writing, or ends in an incomplete packet and is not written to any more. -/
inductive Phase (encoder : PacketEncoder) (data : Nat → Bytes) (s : DirectTcpSink)
    (calls : List Nat) : Prop where
  | clean (sent : s.written = wholes encoder data calls)
      (still : ∀ i left, s.writes i ≠ .writing left)
  | busy (i : Nat) (left : Slices) (out : Bytes) (writing : s.writes i = .writing left)
      (split : out ++ left.bytes = frame encoder data i)
      (sent : s.written = wholes encoder data calls ++ tag i out)
  | broken (i : Nat) (out : Bytes) (apart : i ∉ calls) (part : out <+: frame encoder data i)
      (sent : s.written = wholes encoder data calls ++ tag i out)
      (halted : s.cancelled = true ∨ s.writes i = .failing)
      (still : ∀ j left, s.writes j ≠ .writing left)

structure Orderly (encoder : PacketEncoder) (data : Nat → Bytes) (s : DirectTcpSink) : Prop where
  locked : Locked s
  packets : ∀ i packet, s.writes i = .locking packet ∨ s.writes i = .holding packet →
    encoder (data i) = .ok packet
  phase : ∃ calls, calls.Nodup ∧ (∀ i ∈ calls, (s.writes i).Done) ∧ Phase encoder data s calls

/-- A call that is not inside the `select!` after its step does not bring anyone there. -/
theorem still_set (call : Nat) (pc : WritePc) (writes : t.writes = Function.update s.writes call pc)
    (out : ∀ left, pc ≠ .writing left) (still : ∀ i left, s.writes i ≠ .writing left) :
    ∀ i left, t.writes i ≠ .writing left := by
  rw [writes, Function.forall_update_iff s.writes fun _ pc => ∀ left, pc ≠ .writing left]
  exact ⟨out, fun i _ => still i⟩

namespace Orderly

theorem new : Orderly encoder data DirectTcpSink.new where
  locked := ⟨fun _ holds => holds.elim, fun _ absent => by cases absent⟩
  packets _ _ waiting := by rcases waiting with absent | absent <;> cases absent
  phase := by
    refine ⟨[], List.nodup_nil, ?_, .clean rfl ?_⟩
    · intro i absent
      cases absent
    · intro i left absent
      cases absent

/-- The packets of the waiting calls are those of their data. -/
theorem packets_set (ord : Orderly encoder data s) (call : Nat) (pc : WritePc)
    (writes : t.writes = Function.update s.writes call pc)
    (own : ∀ packet, pc = .locking packet ∨ pc = .holding packet →
      encoder (data call) = .ok packet) (i : Nat) (packet : EncodedPacket)
    (waiting : t.writes i = .locking packet ∨ t.writes i = .holding packet) :
    encoder (data i) = .ok packet := by
  rw [writes] at waiting
  by_cases same : i = call
  · subst same
    rw [Function.update_self] at waiting
    exact own packet waiting
  · rw [Function.update_of_ne same] at waiting
    exact ord.packets i packet waiting

theorem ended_set (calls : List Nat) (call : Nat) (pc : WritePc)
    (writes : t.writes = Function.update s.writes call pc) (done : (s.writes call).Done → pc.Done)
    (ended : ∀ i ∈ calls, (s.writes i).Done) : ∀ i ∈ calls, (t.writes i).Done := by
  intro i member
  rw [writes]
  by_cases same : i = call
  · subst same
    rw [Function.update_self]
    exact done (ended i member)
  · rw [Function.update_of_ne same]
    exact ended i member

/-- A step of a call outside the `select!` that stays outside. -/
theorem quiet (ord : Orderly encoder data s) (call : Nat) (pc : WritePc) (locked : Locked t)
    (writes : t.writes = Function.update s.writes call pc) (written : t.written = s.written)
    (cancelled : s.cancelled = true → t.cancelled = true) (before : ¬ (s.writes call).Busy)
    (after : ∀ left, pc ≠ .writing left) (done : (s.writes call).Done → pc.Done)
    (own : ∀ packet, pc = .locking packet ∨ pc = .holding packet →
      encoder (data call) = .ok packet) : Orderly encoder data t := by
  rcases ord.phase with ⟨calls, distinct, ended, phase⟩
  have still := still_set call pc writes after
  have kept : ∀ i, (s.writes i).Busy → t.writes i = s.writes i := by
    intro i busy
    have ne : i ≠ call := by
      intro equal
      subst equal
      exact before busy
    rw [writes, Function.update_of_ne ne]
  refine ⟨locked, ord.packets_set call pc writes own, calls, distinct,
    ended_set calls call pc writes done ended, ?_⟩
  cases phase with
  | clean sent old => exact .clean (written.trans sent) (still old)
  | busy i left out writing split sent =>
      have busy : (s.writes i).Busy := by rw [writing]; trivial
      exact .busy i left out ((kept i busy).trans writing) split (written.trans sent)
  | broken i out apart part sent halted old =>
      refine .broken i out apart part (written.trans sent) ?_ (still old)
      rcases halted with closed | failing
      · exact Or.inl (cancelled closed)
      · have busy : (s.writes i).Busy := by rw [failing]; trivial
        exact Or.inr ((kept i busy).trans failing)

/-- A call inside the `select!` is the one whose packet the stream is in. -/
theorem of_writing (ord : Orderly encoder data s) (call : Nat) (left : Slices)
    (writing : s.writes call = .writing left) :
    ∃ calls out, calls.Nodup ∧ (∀ i ∈ calls, (s.writes i).Done) ∧
      out ++ left.bytes = frame encoder data call ∧
      s.written = wholes encoder data calls ++ tag call out := by
  rcases ord.phase with ⟨calls, distinct, ended, phase⟩
  cases phase with
  | clean sent still => exact absurd writing (still call left)
  | broken i out apart part sent halted still => exact absurd writing (still call left)
  | busy i other out otherWriting split sent =>
      have own := ord.locked.writes call (by rw [writing]; trivial)
      have theirs := ord.locked.writes i (by rw [otherWriting]; trivial)
      obtain rfl : call = i := Owner.write.inj (Option.some.inj (own.symm.trans theirs))
      obtain rfl : left = other := WritePc.writing.inj (writing.symm.trans otherWriting)
      exact ⟨calls, out, distinct, ended, split, sent⟩

/-- While one call is inside the `select!` no other one is. -/
theorem writing_unique (ord : Orderly encoder data s) (call other : Nat) (left : Slices)
    (writing : s.writes call = .writing left) (busy : (s.writes other).Holds) : other = call := by
  have own := ord.locked.writes call (by rw [writing]; trivial)
  have theirs := ord.locked.writes other busy
  exact Owner.write.inj (Option.some.inj (theirs.symm.trans own))

/-- Leaving the `select!`, no call is inside it. -/
theorem still_of_leave (ord : Orderly encoder data s) (call : Nat) (left : Slices) (pc : WritePc)
    (writing : s.writes call = .writing left)
    (writes : t.writes = Function.update s.writes call pc) (out : ∀ rest, pc ≠ .writing rest)
    (i : Nat) (rest : Slices) : t.writes i ≠ .writing rest := by
  rw [writes]
  by_cases same : i = call
  · subst same
    rw [Function.update_self]
    exact out rest
  · rw [Function.update_of_ne same]
    intro other
    exact same (ord.writing_unique call i left writing (by rw [other]; trivial))

theorem enter (ord : Orderly encoder data s) (call : Nat) (packet : EncodedPacket)
    (holding : s.writes call = .holding packet) (alive : s.cancelled = false) :
    Orderly encoder data (s.setWrite call (.writing packet.slices)) := by
  have own := ord.locked.writes call (by rw [holding]; trivial)
  rcases ord.phase with ⟨calls, distinct, ended, phase⟩
  have bytes := frame_of_ok call packet (ord.packets call packet (Or.inr holding))
  have alone : ∀ i, (s.writes i).Busy → False := by
    intro i busy
    have theirs := ord.locked.writes i (by cases pc : s.writes i <;> rw [pc] at busy <;> trivial)
    obtain rfl : i = call := Owner.write.inj (Option.some.inj (theirs.symm.trans own))
    rw [holding] at busy
    exact busy
  refine ⟨ord.locked.keep call _ rfl rfl rfl (fun _ => by rw [holding]; trivial),
    ord.packets_set call _ rfl (fun _ waiting => waiting.elim nofun nofun),
    calls, distinct, ended_set calls call _ rfl (by rw [holding]; exact False.elim) ended, ?_⟩
  cases phase with
  | clean sent still =>
      refine .busy call packet.slices [] (Function.update_self ..) ?_ (by simpa [tag, setWrite] using sent)
      rw [List.nil_append, bytes]
  | busy i left out writing split sent => exact (alone i (by rw [writing]; trivial)).elim
  | broken i out apart part sent halted still =>
      rcases halted with closed | failing
      · rw [alive] at closed
        cases closed
      · exact (alone i (by rw [failing]; trivial)).elim

theorem emit (ord : Orderly encoder data s) (call : Nat) (left rest : Slices) (out : Bytes)
    (writing : s.writes call = .writing left) (moved : out ++ rest.bytes = left.bytes) :
    Orderly encoder data
      ({ s with written := s.written ++ tag call out }.setWrite call (.writing rest)) := by
  rcases ord.of_writing call left writing with ⟨calls, before, distinct, ended, split, sent⟩
  refine ⟨ord.locked.keep call (.writing rest) rfl rfl rfl (fun _ => by rw [writing]; trivial),
    ord.packets_set call (.writing rest) rfl (fun _ waiting => waiting.elim nofun nofun),
    calls, distinct, ended_set calls call (.writing rest) rfl (by rw [writing]; exact False.elim) ended, ?_⟩
  refine .busy call rest (before ++ out) (Function.update_self ..) ?_ ?_
  · rw [List.append_assoc, moved, split]
  · change s.written ++ tag call out = _
    rw [sent, List.append_assoc]
    simp [tag]

/-- The call leaves the `select!` with nothing of its packet sent, with all of it, or in a way
after which nobody writes. -/
theorem leave (ord : Orderly encoder data s) (call : Nat) (left : Slices) (pc : WritePc)
    (writing : s.writes call = .writing left) (locked : Locked t)
    (writes : t.writes = Function.update s.writes call pc) (written : t.written = s.written)
    (out : ∀ rest, pc ≠ .writing rest)
    (waits : ∀ packet, pc ≠ .locking packet ∧ pc ≠ .holding packet)
    (ends : (pc.Done ∧ (left.bytes = frame encoder data call ∨ left.bytes = [])) ∨
      t.cancelled = true ∨ pc = .failing) : Orderly encoder data t := by
  rcases ord.of_writing call left writing with ⟨calls, sentOwn, distinct, ended, split, sent⟩
  have notDone : ¬ (s.writes call).Done := by rw [writing]; exact id
  have endedT := ended_set calls call pc writes (fun done => (notDone done).elim) ended
  have still := ord.still_of_leave call left pc writing writes out
  have own : t.writes call = pc := by rw [writes, Function.update_self]
  have fresh : call ∉ calls := fun member => notDone (ended call member)
  refine ⟨locked, ord.packets_set call pc writes ?_, ?_⟩
  · intro packet found
    rcases found with absent | absent
    · exact absurd absent (waits packet).1
    · exact absurd absent (waits packet).2
  · rcases ends with ⟨done, untouched | finished⟩ | halted
    · have none : sentOwn = [] := by
        rw [untouched] at split
        simpa using split
      exact ⟨calls, distinct, endedT, .clean (by rw [written, sent, none]; simp [tag]) still⟩
    · have all : sentOwn = frame encoder data call := by
        rw [finished] at split
        simpa using split
      refine ⟨calls ++ [call], ?_, ?_, .clean ?_ still⟩
      · rw [List.nodup_append]
        exact ⟨distinct, List.nodup_singleton call, by
          intro a member b single equal
          subst equal
          exact fresh (List.mem_singleton.mp single ▸ member)⟩
      · intro i member
        rcases List.mem_append.mp member with old | new
        · exact endedT i old
        · rw [List.mem_singleton.mp new, own]
          exact done
      · rw [written, sent, all, wholes_concat]
    · refine ⟨calls, distinct, endedT, .broken call sentOwn fresh ⟨left.bytes, split⟩
        (written.trans sent) ?_ still⟩
      rw [own]
      exact halted

theorem halt (ord : Orderly encoder data s) (call : Nat) (failing : s.writes call = .failing) :
    Orderly encoder data ({ s with cancelled := true }.setWrite call .unlocking) := by
  rcases ord.phase with ⟨calls, distinct, ended, phase⟩
  have still : (∀ i left, s.writes i ≠ .writing left) →
      ∀ i left, ({ s with cancelled := true }.setWrite call .unlocking).writes i ≠ .writing left :=
    still_set call .unlocking rfl nofun
  refine ⟨ord.locked.keep call .unlocking rfl rfl rfl (fun _ => by rw [failing]; trivial),
    ord.packets_set call .unlocking rfl (fun _ waiting => waiting.elim nofun nofun),
    calls, distinct, ended_set calls call .unlocking rfl (by rw [failing]; exact False.elim) ended, ?_⟩
  cases phase with
  | clean sent old => exact .clean sent (still old)
  | busy i left out writing split sent =>
      have ne : i ≠ call := by
        intro equal
        subst equal
        rw [failing] at writing
        cases writing
      exact .busy i left out ((Function.update_of_ne ne ..).trans writing) split sent
  | broken i out apart part sent halted old =>
      exact .broken i out apart part sent (Or.inl rfl) (still old)

/-- Nothing of the writes changes. -/
theorem aside (ord : Orderly encoder data s) (locked : Locked t) (writes : t.writes = s.writes)
    (written : t.written = s.written) (cancelled : s.cancelled = true → t.cancelled = true) :
    Orderly encoder data t := by
  rcases ord.phase with ⟨calls, distinct, ended, phase⟩
  refine ⟨locked, by rw [writes]; exact ord.packets, calls, distinct, by rw [writes]; exact ended, ?_⟩
  cases phase with
  | clean sent still => exact .clean (written.trans sent) (by rw [writes]; exact still)
  | busy i left out writing split sent =>
      exact .busy i left out (by rw [writes]; exact writing) split (written.trans sent)
  | broken i out apart part sent halted still =>
      refine .broken i out apart part (written.trans sent) ?_ (by rw [writes]; exact still)
      rw [writes]
      exact halted.imp_left cancelled

theorem advance (ord : Orderly encoder data s) (call : Nat) (result : StreamResult) :
    Orderly encoder data (s.advance encoder data call result) := by
  have nowhere : ∀ {pc : WritePc}, (∀ packet, pc ≠ .locking packet ∧ pc ≠ .holding packet) →
      ∀ packet, pc = .locking packet ∨ pc = .holding packet → encoder (data call) = .ok packet := by
    intro pc waits packet waiting
    exact absurd waiting (by simp [waits packet])
  simp only [DirectTcpSink.advance]
  cases pc : s.writes call with
  | start =>
      have idle : ¬ (s.writes call).Busy := by rw [pc]; exact id
      have notDone : ¬ (s.writes call).Done := by rw [pc]; exact id
      dsimp only
      split_ifs
      · exact ord.quiet call (.returned false) (ord.locked.keep call _ rfl rfl rfl nofun) rfl rfl id
          idle nofun (fun done => absurd done notDone) (nowhere fun _ => ⟨nofun, nofun⟩)
      · cases encoded : encoder (data call) with
        | error failure =>
            exact ord.quiet call (.returned false) (ord.locked.keep call _ rfl rfl rfl nofun) rfl
              rfl id idle nofun (fun done => absurd done notDone) (nowhere fun _ => ⟨nofun, nofun⟩)
        | ok packet =>
            refine ord.quiet call (.locking packet) (ord.locked.keep call _ rfl rfl rfl nofun) rfl
              rfl id idle nofun (fun done => absurd done notDone) ?_
            intro other found
            rcases found with same | same
            · rw [encoded, WritePc.locking.inj same]
            · cases same
  | locking packet =>
      dsimp only
      cases free : s.owner with
      | some owner => exact ord
      | none =>
          refine ord.quiet call (.holding packet) (ord.locked.acquire call _ free rfl rfl rfl) rfl rfl
            id (by rw [pc]; exact id) nofun (by rw [pc]; exact False.elim) ?_
          intro other found
          rcases found with same | same
          · cases same
          · rw [← WritePc.holding.inj same]
            exact ord.packets call packet (Or.inl pc)
  | holding packet =>
      dsimp only
      split_ifs with closed
      · exact ord.quiet call (.returned false)
          (ord.locked.release call _ (by rw [pc]; trivial) rfl rfl id) rfl rfl id
          (by rw [pc]; exact id) nofun (by rw [pc]; exact False.elim)
          (nowhere fun _ => ⟨nofun, nofun⟩)
      · exact ord.enter call packet pc (by simpa using closed)
  | writing left =>
      dsimp only
      split_ifs with finished
      · exact ord.leave call left (.returned true) pc
          (ord.locked.release call _ (by rw [pc]; trivial) rfl rfl id) rfl rfl nofun
          (fun _ => ⟨nofun, nofun⟩)
          (Or.inl ⟨trivial, Or.inr ((Slices.finished_iff left).mp finished)⟩)
      · cases turned : left.turn result with
        | mk out after =>
            cases after with
            | ok rest => exact ord.emit call left rest out pc (Slices.turn_ok left rest result out turned).1
            | error failure =>
                exact ord.leave call left .failing pc
                  (ord.locked.keep call _ rfl rfl rfl fun _ => by rw [pc]; trivial) rfl rfl nofun
                  (fun _ => ⟨nofun, nofun⟩) (Or.inr (Or.inr rfl))
  | failing => exact ord.halt call pc
  | unlocking =>
      exact ord.quiet call (.returned false)
        (ord.locked.release call _ (by rw [pc]; trivial) rfl rfl id) rfl rfl id
        (by rw [pc]; exact id) nofun (by rw [pc]; exact False.elim)
        (nowhere fun _ => ⟨nofun, nofun⟩)
  | idle => exact ord
  | returned isOk => exact ord
  | dropped => exact ord

theorem advanceShutdown (ord : Orderly encoder data s) (call : Nat) :
    Orderly encoder data (s.advanceShutdown call) := by
  simp only [DirectTcpSink.advanceShutdown]
  cases pc : s.shutdowns call with
  | start =>
      exact ord.aside (ord.locked.keepShutdown call .locking rfl rfl rfl nofun) rfl rfl fun _ => rfl
  | locking =>
      dsimp only
      cases free : s.owner with
      | some owner => exact ord
      | none => exact ord.aside (ord.locked.acquireShutdown call free rfl rfl rfl) rfl rfl id
  | holding =>
      exact ord.aside (ord.locked.releaseShutdown call .returned pc rfl rfl nofun) rfl rfl id
  | idle => exact ord
  | returned => exact ord
  | dropped => exact ord

end Orderly

/-- A write future is dropped in the middle of its packet only if the token is cancelled. -/
def Careful (encoder : PacketEncoder) (data : Nat → Bytes) (s : DirectTcpSink) (act : DirectAct) :
    Prop :=
  ∀ call left, act = .drop call → s.writes call = .writing left → s.cancelled = false →
    left.bytes = frame encoder data call ∨ left.bytes = []

theorem Orderly.drop (ord : Orderly encoder data s) (call : Nat)
    (careful : Careful encoder data s (.drop call)) :
    Orderly encoder data (s.step encoder data (.drop call)) := by
  simp only [step]
  cases pc : s.writes call with
  | start =>
      exact ord.quiet call .dropped (ord.locked.keep call _ rfl rfl rfl nofun) rfl rfl id
        (by rw [pc]; exact id) nofun (fun _ => trivial) (fun _ waiting => waiting.elim nofun nofun)
  | locking packet =>
      exact ord.quiet call .dropped (ord.locked.keep call _ rfl rfl rfl nofun) rfl rfl id
        (by rw [pc]; exact id) nofun (fun _ => trivial) (fun _ waiting => waiting.elim nofun nofun)
  | writing left =>
      refine ord.leave call left .dropped pc
        (ord.locked.release call _ (by rw [pc]; trivial) rfl rfl id) rfl rfl nofun
        (fun _ => ⟨nofun, nofun⟩) ?_
      cases alive : s.cancelled with
      | true => exact Or.inr (Or.inl rfl)
      | false => exact Or.inl ⟨trivial, careful call left rfl pc alive⟩
  | idle => exact ord
  | holding packet => exact ord
  | failing => exact ord
  | unlocking => exact ord
  | returned isOk => exact ord
  | dropped => exact ord

theorem Orderly.step (ord : Orderly encoder data s) (act : DirectAct)
    (careful : Careful encoder data s act) : Orderly encoder data (s.step encoder data act) := by
  cases act with
  | write call =>
      simp only [DirectTcpSink.step]
      split
      · next pc =>
          exact ord.quiet call .start (ord.locked.keep call _ rfl rfl rfl nofun) rfl rfl id
            (by rw [pc]; exact id) nofun (by rw [pc]; exact False.elim)
            (fun _ waiting => waiting.elim nofun nofun)
      · exact ord
  | advance call result => exact ord.advance call result
  | observe call =>
      simp only [DirectTcpSink.step]
      split
      · next left pc =>
          split_ifs with closed
          · exact ord.leave call left .failing pc
              (ord.locked.keep call _ rfl rfl rfl fun _ => by rw [pc]; trivial) rfl rfl nofun
              (fun _ => ⟨nofun, nofun⟩) (Or.inr (Or.inr rfl))
          · exact ord
      · exact ord
  | drop call => exact ord.drop call careful
  | close => exact ord.aside ⟨ord.locked.writes, ord.locked.shutdowns⟩ rfl rfl fun _ => rfl
  | shutdown call =>
      simp only [DirectTcpSink.step]
      split
      · exact ord.aside (ord.locked.keepShutdown call .start rfl rfl rfl nofun) rfl rfl id
      · exact ord
  | advanceShutdown call => exact ord.advanceShutdown call
  | dropShutdown call =>
      simp only [DirectTcpSink.step]
      split
      · exact ord.aside (ord.locked.keepShutdown call .dropped rfl rfl rfl nofun) rfl rfl id
      · exact ord.aside (ord.locked.keepShutdown call .dropped rfl rfl rfl nofun) rfl rfl id
      · next pc =>
          exact ord.aside (ord.locked.releaseShutdown call .dropped pc rfl rfl nofun) rfl rfl id
      · exact ord

theorem Orderly.run (ord : Orderly encoder data s) (acts : List DirectAct)
    (careful : Lib.Along (DirectTcpSink.step encoder data) (Careful encoder data) s acts) :
    Orderly encoder data (s.run encoder data acts) :=
  Lib.invariant_along (DirectTcpSink.step encoder data) (Orderly encoder data)
    (fun _ act allowed inner => inner.step act allowed) s acts careful ord

/-! An incomplete packet is the end of the stream. -/

/-- Complete packets of distinct calls, then at most one incomplete packet. -/
def Framed (encoder : PacketEncoder) (data : Nat → Bytes) (s : DirectTcpSink) : Prop :=
  ∃ calls, calls.Nodup ∧
    (s.written = wholes encoder data calls ∨
      ∃ last part, last ∉ calls ∧ part <+: frame encoder data last ∧
        part ≠ frame encoder data last ∧ s.written = wholes encoder data calls ++ tag last part)

/-- A call is over and has left a part of its packet on the stream. -/
def LeftIncomplete (encoder : PacketEncoder) (data : Nat → Bytes) (s : DirectTcpSink) : Prop :=
  ∃ call, (s.writes call).Done ∧ sentBy s.written call ≠ [] ∧ sentBy s.written call ≠ frame encoder data call

theorem framed_of_part (calls : List Nat) (last : Nat) (part : Bytes) (distinct : calls.Nodup)
    (apart : last ∉ calls) (inside : part <+: frame encoder data last)
    (sent : s.written = wholes encoder data calls ++ tag last part) : s.Framed encoder data := by
  by_cases whole : part = frame encoder data last
  · refine ⟨calls ++ [last], ?_, Or.inl ?_⟩
    · rw [List.nodup_append]
      exact ⟨distinct, List.nodup_singleton last, by
        intro a member b single equal
        subst equal
        exact apart (List.mem_singleton.mp single ▸ member)⟩
    · rw [sent, whole, wholes_concat]
  · exact ⟨calls, distinct, Or.inr ⟨last, part, apart, inside, whole, sent⟩⟩

theorem Orderly.framed (ord : Orderly encoder data s) : s.Framed encoder data := by
  rcases ord.phase with ⟨calls, distinct, ended, phase⟩
  cases phase with
  | clean sent still => exact ⟨calls, distinct, Or.inl sent⟩
  | busy i left out writing split sent =>
      refine framed_of_part calls i out distinct ?_ ⟨left.bytes, split⟩ sent
      intro member
      have done := ended i member
      rw [writing] at done
      exact done
  | broken i out apart part sent halted still =>
      exact framed_of_part calls i out distinct apart part sent

/-- Nobody is inside the `select!` and nobody gets there again. -/
structure Halted (s : DirectTcpSink) : Prop where
  cause : s.cancelled = true ∨ ∃ i, s.writes i = .failing
  still : ∀ i left, s.writes i ≠ .writing left

theorem Orderly.halted (ord : Orderly encoder data s) (left : s.LeftIncomplete encoder data) :
    s.Halted := by
  rcases left with ⟨call, done, some, short⟩
  rcases ord.phase with ⟨calls, distinct, ended, phase⟩
  have none_or_all : ∀ part : Bytes, part = (if call ∈ calls then frame encoder data call else []) →
      sentBy s.written call ≠ part := by
    rintro part rfl same
    split_ifs at same
    · exact short same
    · exact some same
  cases phase with
  | clean sent still =>
      refine absurd ?_ (none_or_all _ rfl)
      rw [sent, sentBy_wholes calls distinct]
  | busy i left out writing split sent =>
      have ne : i ≠ call := by
        intro equal
        subst equal
        rw [writing] at done
        exact done
      refine absurd ?_ (none_or_all _ rfl)
      rw [sent, sentBy_append, sentBy_wholes calls distinct, sentBy_tag, if_neg ne, List.append_nil]
  | broken i out apart part sent halted still => exact ⟨halted.imp_right fun failing => ⟨i, failing⟩, still⟩

namespace Halted

theorem set (halted : s.Halted) (call : Nat) (pc : WritePc)
    (writes : t.writes = Function.update s.writes call pc)
    (cancelled : s.cancelled = true → t.cancelled = true) (out : ∀ left, pc ≠ .writing left)
    (cause : s.writes call = .failing → t.cancelled = true) : t.Halted where
  cause := by
    rcases halted.cause with closed | ⟨i, failing⟩
    · exact Or.inl (cancelled closed)
    · by_cases same : i = call
      · subst same
        exact Or.inl (cause failing)
      · refine Or.inr ⟨i, ?_⟩
        rw [writes, Function.update_of_ne same]
        exact failing
  still := still_set call pc writes out halted.still

theorem aside (halted : s.Halted) (writes : t.writes = s.writes)
    (cancelled : s.cancelled = true → t.cancelled = true) : t.Halted where
  cause := by
    rw [writes]
    exact halted.cause.imp_left cancelled
  still := by
    rw [writes]
    exact halted.still

theorem advance (halted : s.Halted) (locked : Locked s) (call : Nat) (result : StreamResult) :
    (s.advance encoder data call result).Halted ∧
      (s.advance encoder data call result).written = s.written := by
  simp only [DirectTcpSink.advance]
  cases pc : s.writes call with
  | start =>
      have notFailing : s.writes call ≠ .failing := by rw [pc]; exact nofun
      dsimp only
      split_ifs
      · exact ⟨halted.set call _ rfl id nofun fun failing => absurd failing notFailing, rfl⟩
      · cases encoder (data call) with
        | error failure =>
            exact ⟨halted.set call _ rfl id nofun fun failing => absurd failing notFailing, rfl⟩
        | ok packet =>
            exact ⟨halted.set call _ rfl id nofun fun failing => absurd failing notFailing, rfl⟩
  | locking packet =>
      dsimp only
      cases s.owner with
      | some owner => exact ⟨halted, rfl⟩
      | none => exact ⟨halted.set call (.holding packet) rfl id nofun (by rw [pc]; exact nofun), rfl⟩
  | holding packet =>
      dsimp only
      split_ifs with closed
      · exact ⟨halted.set call (.returned false) rfl id nofun (by rw [pc]; exact nofun), rfl⟩
      · -- a failing call would hold the stream itself
        rcases halted.cause with cancelled | ⟨i, failing⟩
        · exact absurd cancelled closed
        · have own := locked.writes call (by rw [pc]; trivial)
          have theirs := locked.writes i (by rw [failing]; trivial)
          obtain rfl : i = call := Owner.write.inj (Option.some.inj (theirs.symm.trans own))
          rw [pc] at failing
          cases failing
  | writing left => exact absurd pc (halted.still call left)
  | failing => exact ⟨halted.set call .unlocking rfl (fun _ => rfl) nofun fun _ => rfl, rfl⟩
  | unlocking =>
      exact ⟨halted.set call (.returned false) rfl id nofun (by rw [pc]; exact nofun), rfl⟩
  | idle => exact ⟨halted, rfl⟩
  | returned isOk => exact ⟨halted, rfl⟩
  | dropped => exact ⟨halted, rfl⟩

theorem step (halted : s.Halted) (locked : Locked s) (act : DirectAct) :
    (s.step encoder data act).Halted ∧ (s.step encoder data act).written = s.written := by
  cases act with
  | write call =>
      simp only [DirectTcpSink.step]
      split
      · next pc => exact ⟨halted.set call .start rfl id nofun (by rw [pc]; exact nofun), rfl⟩
      · exact ⟨halted, rfl⟩
  | advance call result => exact halted.advance locked call result
  | observe call =>
      simp only [DirectTcpSink.step]
      split
      · next left pc => exact absurd pc (halted.still call left)
      · exact ⟨halted, rfl⟩
  | drop call =>
      simp only [DirectTcpSink.step]
      split
      · next pc => exact ⟨halted.set call .dropped rfl id nofun (by rw [pc]; exact nofun), rfl⟩
      · next packet pc =>
          exact ⟨halted.set call .dropped rfl id nofun (by rw [pc]; exact nofun), rfl⟩
      · next left pc => exact absurd pc (halted.still call left)
      · exact ⟨halted, rfl⟩
  | close => exact ⟨halted.aside rfl fun _ => rfl, rfl⟩
  | shutdown call =>
      simp only [DirectTcpSink.step]
      split
      · exact ⟨halted.aside rfl id, rfl⟩
      · exact ⟨halted, rfl⟩
  | advanceShutdown call =>
      simp only [DirectTcpSink.step, DirectTcpSink.advanceShutdown]
      split
      · exact ⟨halted.aside rfl fun _ => rfl, rfl⟩
      · split
        · exact ⟨halted.aside rfl id, rfl⟩
        · exact ⟨halted, rfl⟩
      · exact ⟨halted.aside rfl id, rfl⟩
      · exact ⟨halted, rfl⟩
  | dropShutdown call =>
      simp only [DirectTcpSink.step]
      split
      · exact ⟨halted.aside rfl id, rfl⟩
      · exact ⟨halted.aside rfl id, rfl⟩
      · exact ⟨halted.aside rfl id, rfl⟩
      · exact ⟨halted, rfl⟩

theorem run (halted : s.Halted) (ord : Orderly encoder data s) (acts : List DirectAct)
    (careful : Lib.Along (DirectTcpSink.step encoder data) (Careful encoder data) s acts) :
    (s.run encoder data acts).written = s.written :=
  (Lib.invariant_along (DirectTcpSink.step encoder data)
    (fun t => Orderly encoder data t ∧ t.Halted ∧ t.written = s.written)
    (fun _ act allowed inner =>
      have next := inner.2.1.step inner.1.locked act
      ⟨inner.1.step act allowed, next.1, next.2.trans inner.2.2⟩)
    s acts careful ⟨ord, halted, rfl⟩).2.2

end Halted

/-- In every run in which no write future is dropped in the middle of its packet before the token
is cancelled, the stream carries complete packets and at most one incomplete one, and an
incomplete packet left by a call is the last thing ever written. -/
theorem direct_writes_never_splice (encoder : PacketEncoder) (data : Nat → Bytes)
    (acts : List DirectAct)
    (careful : Lib.Along (step encoder data) (Careful encoder data) new acts) :
    (new.run encoder data acts).Framed encoder data ∧
      ∀ more, Lib.Along (step encoder data) (Careful encoder data) (new.run encoder data acts) more →
        (new.run encoder data acts).LeftIncomplete encoder data →
          ((new.run encoder data acts).run encoder data more).written =
            (new.run encoder data acts).written := by
  have ord : Orderly encoder data (new.run encoder data acts) := Orderly.new.run acts careful
  refine ⟨ord.framed, ?_⟩
  intro more moreCareful left
  exact (ord.halted left).run ord more moreCareful

/-- Two writers, the first one dropped before its first byte. -/
theorem direct_writes_never_splice_early_drop :
    let acts : List DirectAct := [.write 0, .advance 0 .fail, .advance 0 .fail, .advance 0 .fail,
      .drop 0, .write 1, .advance 1 .fail, .advance 1 .fail, .advance 1 .fail,
      .advance 1 (.accept 2)]
    let s := new.run rawPacketEncoder (fun _ => [1, 2]) acts
    s.written = [(1, 1), (1, 2)] ∧ s.Framed rawPacketEncoder fun _ => [1, 2] := by
  intro acts s
  refine ⟨rfl, (direct_writes_never_splice rawPacketEncoder (fun _ => [1, 2]) acts ?_).1⟩
  refine ⟨nofun, nofun, nofun, nofun, ?_, nofun, nofun, nofun, nofun, nofun, trivial⟩
  intro call left dropped pc _
  cases dropped
  cases pc
  exact Or.inl rfl

/-- A write dropped after one of its two bytes leaves the token alone, and the next write goes on
behind the incomplete packet. -/
theorem direct_write_spliced_after_drop :
    let s := new.run rawPacketEncoder (fun _ => [1, 2]) [.write 0, .advance 0 .fail,
      .advance 0 .fail, .advance 0 .fail, .advance 0 (.accept 1), .drop 0]
    let t := s.run rawPacketEncoder (fun _ => [1, 2]) [.write 1, .advance 1 .fail,
      .advance 1 .fail, .advance 1 .fail, .advance 1 (.accept 2), .advance 1 .fail]
    s.LeftIncomplete rawPacketEncoder (fun _ => [1, 2]) ∧ s.written = [(0, 1)] ∧
      t.written = [(0, 1), (1, 1), (1, 2)] ∧
      ¬ t.Framed rawPacketEncoder fun _ => [1, 2] := by
  intro s t
  have sent : t.written = [(0, 1), (1, 1), (1, 2)] := rfl
  refine ⟨⟨0, trivial, by decide, by decide⟩, rfl, sent, ?_⟩
  intro found
  rcases found with ⟨calls, distinct, shape⟩
  have whole : sentBy (wholes rawPacketEncoder (fun _ => [1, 2]) calls) 0 = _ :=
    sentBy_wholes calls distinct 0
  have first : sentBy t.written 0 = [1] := rfl
  rcases shape with all | ⟨last, part, apart, -, -, split⟩
  · rw [all, whole] at first
    split_ifs at first
    cases first
  · rw [split, sentBy_append, whole, sentBy_tag] at first
    by_cases same : last = 0
    · subst same
      rw [if_neg apart, if_pos rfl, List.nil_append] at first
      subst first
      have tail := congrArg List.getLast? (sent.symm.trans split)
      rw [List.getLast?_append] at tail
      cases tail
    · rw [if_neg same, List.append_nil] at first
      split_ifs at first
      cases first

end DirectTcpSink

end Pigs.Net.Rw
