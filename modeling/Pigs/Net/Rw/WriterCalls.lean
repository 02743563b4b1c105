import Pigs.Lib.Run
import Pigs.Net.Rw.Registry

/-! Concurrent calls on one `PacketWriter`. A call is cut where other threads can get in between:
at the reads and writes of the closed flag, the draw of a writer id, the critical section, and
each `close` of a sink after the lock has been released. -/

namespace Pigs.Net.Rw

/-- `refused` has seen the closed flag before the lock, `numbered` is about to take the lock,
and `displacing` has released it and still has to close the sink it displaced. -/
inductive InsertPc (Addr Token : Type) where
  | start
  | refused
  | opened
  | numbered (writerId : Nat)
  | displacing (previous : Option (TcpPacketSink Token)) (registration : TcpWriterRegistration Addr)
  | returned (registration : Option (TcpWriterRegistration Addr))

inductive RemovePc (Token : Type) where
  | start
  | closing (sink : Option (TcpPacketSink Token))
  | returned

inductive ClosePc (Token : Type) where
  | start
  | flagged
  | closing (sinks : List (TcpPacketSink Token))
  | shutdown (sink : TcpPacketSink Token) (sinks : List (TcpPacketSink Token))
  | returned

inductive Call (Addr Token : Type) where
  | insertTcpSink (remoteAddr : Addr) (sink : TcpPacketSink Token) (pc : InsertPc Addr Token)
  | removeTcpWriter (remoteAddr : Addr) (expectedWriterId : Option Nat) (pc : RemovePc Token)
  | close (pc : ClosePc Token)

/-- A critical section that changed the registry. -/
inductive Section (Addr Token : Type) where
  | inserted (entry : RegisteredTcpSink Addr Token)
  | removed (remoteAddr : Addr)
  | cleared

/-- What the threads share. `sections` records the critical sections in the order of the lock. -/
structure Shared (Addr Ip Token : Type) where
  registry : Registry Addr Ip Token
  nextTcpWriterId : Nat
  closed : Bool
  cancelled : Token → Bool
  sections : List (Section Addr Token)

section Advance

variable {Addr Ip Token : Type} [DecidableEq Addr] [DecidableEq Ip] [DecidableEq Token]

/-- `sink.close()` cancels the token of the sink. -/
def Shared.close (s : Shared Addr Ip Token) (sink : TcpPacketSink Token) : Shared Addr Ip Token :=
  { s with cancelled := Function.update s.cancelled sink.token true }

def Shared.closeOption (s : Shared Addr Ip Token) :
    Option (TcpPacketSink Token) → Shared Addr Ip Token
  | none => s
  | some sink => s.close sink

variable (ip : Addr → Ip)

/-- The next step of a call. `pick` chooses the sink that `close` closes next, since the map it
collects the sinks from has no order. -/
def Call.advance (s : Shared Addr Ip Token) (pick : Nat) :
    Call Addr Token → Shared Addr Ip Token × Call Addr Token
  | .insertTcpSink remoteAddr sink .start =>
      (s, .insertTcpSink remoteAddr sink (if s.closed then .refused else .opened))
  | .insertTcpSink remoteAddr sink .refused =>
      (s.close sink, .insertTcpSink remoteAddr sink (.returned none))
  | .insertTcpSink remoteAddr sink .opened =>
      ({ s with nextTcpWriterId := s.nextTcpWriterId + 1 },
        .insertTcpSink remoteAddr sink (.numbered s.nextTcpWriterId))
  | .insertTcpSink remoteAddr sink (.numbered writerId) =>
      if s.closed then
        (s.close sink, .insertTcpSink remoteAddr sink (.returned none))
      else
        let registration := { remoteAddr := remoteAddr, writerId := writerId }
        let updated := s.registry.insertTcpSink ip registration sink
        ({ s with
            registry := updated.1
            sections := s.sections ++ [.inserted ⟨registration, sink⟩] },
          .insertTcpSink remoteAddr sink (.displacing (updated.2.map (·.sink)) registration))
  | .insertTcpSink remoteAddr sink (.displacing previous registration) =>
      (s.closeOption previous, .insertTcpSink remoteAddr sink (.returned (some registration)))
  | .insertTcpSink remoteAddr sink (.returned result) =>
      (s, .insertTcpSink remoteAddr sink (.returned result))
  | .removeTcpWriter remoteAddr expected .start =>
      let updated := s.registry.removeTcpWriterInner ip remoteAddr expected
      ({ s with
          registry := updated.1
          sections := if updated.2.isSome then s.sections ++ [.removed remoteAddr] else s.sections },
        .removeTcpWriter remoteAddr expected (.closing updated.2))
  | .removeTcpWriter remoteAddr expected (.closing sink) =>
      (s.closeOption sink, .removeTcpWriter remoteAddr expected .returned)
  | .removeTcpWriter remoteAddr expected .returned =>
      (s, .removeTcpWriter remoteAddr expected .returned)
  | .close .start => ({ s with closed := true }, .close .flagged)
  | .close .flagged =>
      let updated := s.registry.close
      ({ s with registry := updated.1, sections := s.sections ++ [.cleared] },
        .close (.closing updated.2))
  | .close (.closing sinks) =>
      match sinks[pick]? with
      | none => (s, .close (if sinks.isEmpty then .returned else .closing sinks))
      | some (.queued token) => (s.close (.queued token), .close (.closing (sinks.eraseIdx pick)))
      | some (.direct token) =>
          (s.close (.direct token), .close (.shutdown (.direct token) (sinks.eraseIdx pick)))
  | .close (.shutdown sink sinks) => (s.close sink, .close (.closing sinks))
  | .close .returned => (s, .close .returned)

/-- Everything the next step of a call can do to what the threads share. -/
inductive Touch (s : Shared Addr Ip Token) : Call Addr Token → Shared Addr Ip Token → Prop where
  | quiet (call : Call Addr Token) : Touch s call s
  | close (call : Call Addr Token) (sink : TcpPacketSink Token) : Touch s call (s.close sink)
  | number (remoteAddr : Addr) (sink : TcpPacketSink Token) :
      Touch s (.insertTcpSink remoteAddr sink .opened)
        { s with nextTcpWriterId := s.nextTcpWriterId + 1 }
  | insert (remoteAddr : Addr) (sink : TcpPacketSink Token) (writerId : Nat)
      (isOpen : s.closed = false) :
      Touch s (.insertTcpSink remoteAddr sink (.numbered writerId))
        { s with
          registry := (s.registry.insertTcpSink ip ⟨remoteAddr, writerId⟩ sink).1
          sections := s.sections ++ [.inserted ⟨⟨remoteAddr, writerId⟩, sink⟩] }
  | remove (remoteAddr : Addr) (expected : Option Nat) :
      Touch s (.removeTcpWriter remoteAddr expected .start)
        { s with
          registry := (s.registry.removeTcpWriterInner ip remoteAddr expected).1
          sections := if (s.registry.removeTcpWriterInner ip remoteAddr expected).2.isSome then
            s.sections ++ [.removed remoteAddr] else s.sections }
  | flag : Touch s (.close .start) { s with closed := true }
  | clear : Touch s (.close .flagged)
      { s with registry := Registry.empty, sections := s.sections ++ [.cleared] }

theorem Touch.closeOption (s : Shared Addr Ip Token) (call : Call Addr Token)
    (sink : Option (TcpPacketSink Token)) : Touch ip s call (s.closeOption sink) := by
  cases sink with
  | none => exact .quiet call
  | some sink => exact .close call sink

theorem Call.advance_touch (s : Shared Addr Ip Token) (pick : Nat) (call : Call Addr Token) :
    Touch ip s call (call.advance ip s pick).1 := by
  cases call with
  | insertTcpSink a sink pc =>
      cases pc with
      | start => exact .quiet _
      | refused => exact .close _ sink
      | opened => exact .number a sink
      | numbered id =>
          simp only [Call.advance]
          split_ifs with closed
          · exact .close _ sink
          · exact .insert a sink id (by simpa using closed)
      | displacing previous registration => exact .closeOption ip s _ previous
      | returned result => exact .quiet _
  | removeTcpWriter a expected pc =>
      cases pc with
      | start => exact .remove a expected
      | closing sink => exact .closeOption ip s _ sink
      | returned => exact .quiet _
  | close pc =>
      cases pc with
      | start => exact .flag
      | flagged => exact .clear
      | closing sinks =>
          simp only [Call.advance]
          cases sinks[pick]? with
          | none => exact .quiet _
          | some sink => cases sink <;> exact .close _ _
      | shutdown sink sinks => exact .close _ sink
      | returned => exact .quiet _

end Advance

/-- The public and internal entry points. -/
inductive Request (Addr Token : Type) where
  | insertTcpSink (remoteAddr : Addr) (sink : TcpPacketSink Token)
  | removeTcpWriter (remoteAddr : Addr)
  | removeRegisteredTcpWriter (registration : TcpWriterRegistration Addr)
  | close

def Request.call {Addr Token : Type} : Request Addr Token → Call Addr Token
  | .insertTcpSink remoteAddr sink => .insertTcpSink remoteAddr sink .start
  | .removeTcpWriter remoteAddr => .removeTcpWriter remoteAddr none .start
  | .removeRegisteredTcpWriter registration =>
      .removeTcpWriter registration.remoteAddr (some registration.writerId) .start
  | .close => .close .start

structure World (Addr Ip Token : Type) where
  shared : Shared Addr Ip Token
  calls : Nat → Option (Call Addr Token)

/-- One scheduling decision: a new call, the next step of a call, or a token cancelled by whoever
else holds it. -/
inductive Act (Addr Token : Type) where
  | invoke (id : Nat) (request : Request Addr Token)
  | advance (id pick : Nat)
  | cancel (token : Token)

namespace World

variable {Addr Ip Token : Type}

def new : World Addr Ip Token where
  shared :=
    { registry := Registry.empty
      nextTcpWriterId := 1
      closed := false
      cancelled := fun _ => false
      sections := [] }
  calls _ := none

def setCall (w : World Addr Ip Token) (s : Shared Addr Ip Token) (id : Nat)
    (call : Call Addr Token) : World Addr Ip Token :=
  { shared := s, calls := Function.update w.calls id (some call) }

@[simp] theorem setCall_shared (w : World Addr Ip Token) (s : Shared Addr Ip Token) (id : Nat)
    (call : Call Addr Token) : (w.setCall s id call).shared = s := rfl

@[simp] theorem setCall_self (w : World Addr Ip Token) (s : Shared Addr Ip Token) (id : Nat)
    (call : Call Addr Token) : (w.setCall s id call).calls id = some call :=
  Function.update_self ..

theorem setCall_of_ne (w : World Addr Ip Token) (s : Shared Addr Ip Token) (id : Nat)
    (call : Call Addr Token) (other : Nat) (ne : other ≠ id) :
    (w.setCall s id call).calls other = w.calls other :=
  Function.update_of_ne ne ..

theorem calls_of_invoke (w : World Addr Ip Token) (id : Nat) (request : Request Addr Token)
    (other : Nat) (call : Call Addr Token)
    (present : (w.setCall w.shared id request.call).calls other = some call) :
    w.calls other = some call ∨ call = request.call := by
  by_cases same : other = id
  · subst same
    rw [setCall_self] at present
    exact Or.inr (Option.some.inj present).symm
  · rw [setCall_of_ne _ _ _ _ other same] at present
    exact Or.inl present

variable [DecidableEq Addr] [DecidableEq Ip] [DecidableEq Token] (ip : Addr → Ip)

def step (w : World Addr Ip Token) : Act Addr Token → World Addr Ip Token
  | .invoke id request =>
      match w.calls id with
      | none => w.setCall w.shared id request.call
      | some _ => w
  | .advance id pick =>
      match w.calls id with
      | none => w
      | some call =>
          let next := call.advance ip w.shared pick
          w.setCall next.1 id next.2
  | .cancel token =>
      { w with shared := { w.shared with cancelled := Function.update w.shared.cancelled token true } }

theorem step_invoke (w : World Addr Ip Token) (id : Nat) (request : Request Addr Token)
    (idle : w.calls id = none) :
    w.step ip (.invoke id request) = w.setCall w.shared id request.call := by
  simp [step, idle]

theorem step_invoke_busy (w : World Addr Ip Token) (id : Nat) (request : Request Addr Token)
    (call : Call Addr Token) (busy : w.calls id = some call) :
    w.step ip (.invoke id request) = w := by
  simp [step, busy]

theorem step_advance (w : World Addr Ip Token) (id pick : Nat) (call : Call Addr Token)
    (present : w.calls id = some call) :
    w.step ip (.advance id pick) =
      w.setCall (call.advance ip w.shared pick).1 id (call.advance ip w.shared pick).2 := by
  simp [step, present]

theorem step_advance_idle (w : World Addr Ip Token) (id pick : Nat) (idle : w.calls id = none) :
    w.step ip (.advance id pick) = w := by
  simp [step, idle]

/-- Everything a step can do. -/
theorem step_elim {motive : World Addr Ip Token → Prop} (w : World Addr Ip Token)
    (act : Act Addr Token) (idle : motive w)
    (invoke : ∀ id request, w.calls id = none →
      motive (w.setCall w.shared id (Request.call request)))
    (advance : ∀ id pick call, w.calls id = some call →
      motive (w.setCall (call.advance ip w.shared pick).1 id (call.advance ip w.shared pick).2))
    (cancel : ∀ token, motive { w with shared :=
      { w.shared with cancelled := Function.update w.shared.cancelled token true } }) :
    motive (w.step ip act) := by
  cases act with
  | invoke id request =>
      cases present : w.calls id with
      | none =>
          rw [step_invoke ip w id request present]
          exact invoke id request present
      | some call =>
          rw [step_invoke_busy ip w id request call present]
          exact idle
  | advance id pick =>
      cases present : w.calls id with
      | none =>
          rw [step_advance_idle ip w id pick present]
          exact idle
      | some call =>
          rw [step_advance ip w id pick call present]
          exact advance id pick call present
  | cancel token => exact cancel token

/-- What a step does to one call. -/
theorem step_calls (w : World Addr Ip Token) (act : Act Addr Token) (id : Nat) :
    (w.step ip act).calls id = w.calls id ∨
      (∃ request, act = .invoke id request ∧ w.calls id = none ∧
        (w.step ip act).calls id = some (Request.call request)) ∨
      ∃ pick call, w.calls id = some call ∧
        (w.step ip act).shared = (call.advance ip w.shared pick).1 ∧
        (w.step ip act).calls id = some (call.advance ip w.shared pick).2 := by
  cases act with
  | invoke other request =>
      cases present : w.calls other with
      | none =>
          rw [step_invoke ip w other request present]
          by_cases same : id = other
          · subst same
            exact Or.inr (Or.inl ⟨request, rfl, present, setCall_self ..⟩)
          · exact Or.inl (setCall_of_ne _ _ _ _ id same)
      | some call =>
          rw [step_invoke_busy ip w other request call present]
          exact Or.inl rfl
  | advance other pick =>
      cases present : w.calls other with
      | none =>
          rw [step_advance_idle ip w other pick present]
          exact Or.inl rfl
      | some call =>
          rw [step_advance ip w other pick call present]
          by_cases same : id = other
          · subst same
            exact Or.inr (Or.inr ⟨pick, call, present, rfl, setCall_self ..⟩)
          · exact Or.inl (setCall_of_ne _ _ _ _ id same)
  | cancel token => exact Or.inl rfl

def run (w : World Addr Ip Token) (acts : List (Act Addr Token)) : World Addr Ip Token :=
  Lib.runFrom (step ip) w acts

end World

/-! Reading the record of the critical sections. -/

section Sections

variable {Addr Token : Type}

def insertedEntry : Section Addr Token → Option (RegisteredTcpSink Addr Token)
  | .inserted entry => some entry
  | .removed _ => none
  | .cleared => none

/-- The entries stored so far, in order of their critical sections. -/
def insertions (sections : List (Section Addr Token)) : List (RegisteredTcpSink Addr Token) :=
  sections.filterMap insertedEntry

theorem insertions_append (front back : List (Section Addr Token)) :
    insertions (front ++ back) = insertions front ++ insertions back := by
  simp [insertions]

variable [DecidableEq Addr]

def Section.apply (live : List (RegisteredTcpSink Addr Token)) :
    Section Addr Token → List (RegisteredTcpSink Addr Token)
  | .inserted entry => Lib.putLast (·.remoteAddr) entry live
  | .removed remoteAddr => Lib.dropKeyed (·.remoteAddr) remoteAddr live
  | .cleared => []

/-- The surviving entries, in order of their last insertion. -/
def live (sections : List (Section Addr Token)) : List (RegisteredTcpSink Addr Token) :=
  sections.foldl Section.apply []

@[simp] theorem live_concat (sections : List (Section Addr Token)) (last : Section Addr Token) :
    live (sections ++ [last]) = last.apply (live sections) := by
  simp [live]

/-- The survivors keep the order of the critical sections that stored them. -/
theorem live_sublist (sections : List (Section Addr Token)) :
    (live sections).Sublist (insertions sections) := by
  induction sections using List.reverseRecOn with
  | nil => exact List.Sublist.refl []
  | append_singleton front last ih =>
      rw [live_concat, insertions_append]
      cases last with
      | inserted entry => exact Lib.putLast_sublist entry _ _ ih
      | removed remoteAddr =>
          exact ((Lib.dropKeyed_sublist remoteAddr _).trans ih).trans
            (List.sublist_append_left _ _)
      | cleared => exact List.nil_sublist _

end Sections

end Pigs.Net.Rw
