import Pigs.Net.Rw.ReadHandler

/-! Any number of connection tasks on one `PacketWriter`, some of them for the same peer: what the
dispatcher hears of a connection whose registration has been displaced. -/

namespace Pigs.Net.Rw

/-- `pcs` has the read side of each task. Task `i` makes the registry calls `3 * i` and `3 * i + 1`. -/
structure Tasks (Addr Ip Token : Type) where
  world : World Addr Ip Token
  pcs : Nat → HandlerPc Addr

inductive TasksAct (Addr Token : Type) where
  | registry (act : Act Addr Token)
  | connect (task : Nat)
  | turn (task : Nat) (turn : ReadTurn)
  | proceed (task : Nat)
  | dispatcherClose (task : Nat) (result : Except Unit Unit)

/-- Calls of others, among them those of the write side of a connection. -/
def Act.ofOthers {Addr Token : Type} : Act Addr Token → Bool
  | .invoke id _ => id % 3 = 2
  | .advance _ _ => true
  | .cancel _ => true

namespace HandlerPc

variable {Addr : Type}

/-- The registration of a handler that has left its loop and has not told the dispatcher yet. -/
def leaving : HandlerPc Addr → Option (TcpWriterRegistration Addr)
  | .removing registration => some registration
  | .closing registration => some registration
  | _ => none

/-- The registration of a handler that has left its loop. -/
def ended : HandlerPc Addr → Option (TcpWriterRegistration Addr)
  | .removing registration => some registration
  | .closing registration => some registration
  | .returned registration _ => some registration
  | _ => none

end HandlerPc

namespace Tasks

variable {Addr Ip Token : Type}

def new : Tasks Addr Ip Token where
  world := World.new
  pcs _ := .idle

def setPc (s : Tasks Addr Ip Token) (world : World Addr Ip Token) (task : Nat) (pc : HandlerPc Addr) :
    Tasks Addr Ip Token :=
  { world := world, pcs := Function.update s.pcs task pc }

@[simp] theorem setPc_self (s : Tasks Addr Ip Token) (world : World Addr Ip Token) (task : Nat)
    (pc : HandlerPc Addr) : (s.setPc world task pc).pcs task = pc :=
  Function.update_self ..

theorem setPc_of_ne (s : Tasks Addr Ip Token) (world : World Addr Ip Token) (task : Nat)
    (pc : HandlerPc Addr) (other : Nat) (ne : other ≠ task) :
    (s.setPc world task pc).pcs other = s.pcs other :=
  Function.update_of_ne ne ..

variable [DecidableEq Addr] [DecidableEq Ip] [DecidableEq Token] (ip : Addr → Ip)
  (addr : Nat → Addr) (sink : Nat → TcpPacketSink Token)

/-- The exit of a turn. -/
def leaveTurn (s : Tasks Addr Ip Token) (task : Nat) (registration : TcpWriterRegistration Addr) :
    TurnEnd → Tasks Addr Ip Token
  | .again bufLen => s.setPc s.world task (.reading registration bufLen)
  | .broke =>
      s.setPc (s.world.step ip (.invoke (3 * task + 1) (.removeRegisteredTcpWriter registration))) task
        (.removing registration)
  | .failed => s.setPc s.world task (.returned registration (.error .feed))

def step (s : Tasks Addr Ip Token) : TasksAct Addr Token → Tasks Addr Ip Token
  | .registry act => if act.ofOthers then { s with world := s.world.step ip act } else s
  | .connect task =>
      match s.pcs task with
      | .idle =>
          s.setPc (s.world.step ip (.invoke (3 * task) (.insertTcpSink (addr task) (sink task)))) task
            .connecting
      | _ => s
  | .turn task turn =>
      match s.pcs task with
      | .reading registration bufLen =>
          if turn = .cancelled ∧ s.world.shared.cancelled (sink task).token = false then
            s
          else
            s.leaveTurn ip task registration (readTurn bufLen turn)
      | _ => s
  | .proceed task =>
      match s.pcs task with
      | .connecting =>
          match s.world.calls (3 * task) with
          | some (.insertTcpSink _ _ (.returned (some registration))) =>
              s.setPc s.world task (.reading registration 0)
          | some (.insertTcpSink _ _ (.returned none)) => s.setPc s.world task .rejected
          | _ => s
      | .removing registration =>
          match s.world.calls (3 * task + 1) with
          | some (.removeTcpWriter _ _ .returned) => s.setPc s.world task (.closing registration)
          | _ => s
      | _ => s
  | .dispatcherClose task result =>
      match s.pcs task with
      | .closing registration =>
          s.setPc s.world task (.returned registration (result.mapError fun _ => .close))
      | _ => s

def run (s : Tasks Addr Ip Token) (acts : List (TasksAct Addr Token)) : Tasks Addr Ip Token :=
  Lib.runFrom (step ip addr sink) s acts

/-- The calls of `dispatcher.close` that a step makes, each by the registration of its connection. -/
def reports (s : Tasks Addr Ip Token) : TasksAct Addr Token → List (TcpWriterRegistration Addr)
  | .dispatcherClose task _ =>
      match s.pcs task with
      | .closing registration => [registration]
      | _ => []
  | _ => []

end Tasks

section Displaced

variable {Addr Ip Token : Type} [DecidableEq Addr]

/-- The insert of `new` has displaced `old`. -/
def DisplacedBy (sections : List (Section Addr Token)) (old new : TcpWriterRegistration Addr) : Prop :=
  ∃ front back entry, sections = front ++ .inserted entry :: back ∧ entry.registration = new ∧
    old ∈ (live front).map (·.registration) ∧ old.remoteAddr = new.remoteAddr

theorem DisplacedBy.inserted {sections : List (Section Addr Token)} {old new : TcpWriterRegistration Addr}
    (displaced : DisplacedBy sections old new) : new ∈ (insertions sections).map (·.registration) := by
  rcases displaced with ⟨front, back, entry, rfl, rfl, -⟩
  refine List.mem_map.mpr ⟨entry, ?_, rfl⟩
  simp [insertions, insertedEntry]

theorem DisplacedBy.of_concat {sections : List (Section Addr Token)} {last : Section Addr Token}
    {old new : TcpWriterRegistration Addr} (displaced : DisplacedBy (sections ++ [last]) old new) :
    DisplacedBy sections old new ∨ ∃ entry, last = .inserted entry ∧ entry.registration = new ∧
      old ∈ (live sections).map (·.registration) ∧ old.remoteAddr = new.remoteAddr := by
  rcases displaced with ⟨front, back, entry, whole, same, member, addr⟩
  rcases List.eq_nil_or_concat back with rfl | ⟨rest, final, rfl⟩
  · obtain ⟨rfl, tail⟩ := List.append_inj' whole rfl
    exact Or.inr ⟨entry, (List.cons.inj tail).1, same, member, addr⟩
  · left
    rw [List.concat_eq_append, ← List.cons_append, ← List.append_assoc] at whole
    exact ⟨front, rest, entry, (List.append_inj' whole rfl).1, same, member, addr⟩

/-- The next step is the critical section of an insert that displaces `old`. -/
def World.Displaces (w : World Addr Ip Token) (act : Act Addr Token)
    (old : TcpWriterRegistration Addr) : Prop :=
  ∃ id pick remoteAddr sink writerId entry, act = .advance id pick ∧
    w.calls id = some (.insertTcpSink remoteAddr sink (.numbered writerId)) ∧ w.shared.closed = false ∧
    w.shared.registry.tcpWriters.lookup remoteAddr = some entry ∧ entry.registration = old

variable [DecidableEq Ip] [DecidableEq Token] {ip : Addr → Ip} {w : World Addr Ip Token}

theorem Touch.inserted {s t : Shared Addr Ip Token} {call : Call Addr Token} (touch : Touch ip s call t)
    (entry : RegisteredTcpSink Addr Token) (grown : t.sections = s.sections ++ [.inserted entry]) :
    ∃ sink writerId, call = .insertTcpSink entry.remoteAddr sink (.numbered writerId) ∧
      s.closed = false := by
  have never : s.sections ≠ s.sections ++ [.inserted entry] := by simp
  cases touch with
  | insert a sink id isOpen =>
      have same := List.append_cancel_left grown
      cases same
      exact ⟨sink, id, rfl, isOpen⟩
  | remove a expected =>
      simp only at grown
      split_ifs at grown
      · cases List.append_cancel_left grown
      · exact absurd grown never
  | clear => cases List.append_cancel_left grown
  | _ => exact absurd grown never

/-- A step that displaces a registration is the critical section of an insert. -/
theorem Coherent.displaces (coh : Coherent ip w) (act : Act Addr Token)
    (entry : RegisteredTcpSink Addr Token) (old : TcpWriterRegistration Addr)
    (grown : (w.step ip act).shared.sections = w.shared.sections ++ [.inserted entry])
    (member : old ∈ (live w.shared.sections).map (·.registration))
    (addr : old.remoteAddr = entry.remoteAddr) : w.Displaces act old := by
  rcases List.mem_map.mp member with ⟨former, stored, rfl⟩
  have found : w.shared.registry.tcpWriters.lookup entry.remoteAddr = some former :=
    (coh.represents.lookup_eq_some_iff _ _).mpr ⟨stored, addr⟩
  cases act with
  | invoke id request =>
      simp only [World.step] at grown
      split at grown <;> simp at grown
  | cancel token => simp [World.step] at grown
  | advance id pick =>
      cases present : w.calls id with
      | none =>
          rw [World.step_advance_idle ip w id pick present] at grown
          simp at grown
      | some call =>
          rw [World.step_advance ip w id pick call present, World.setCall_shared] at grown
          obtain ⟨sink, writerId, rfl, isOpen⟩ :=
            (call.advance_touch ip w.shared pick).inserted entry grown
          exact ⟨id, pick, entry.remoteAddr, sink, writerId, former, rfl, present, isOpen, found, rfl⟩

theorem World.step_invoke_shared (w : World Addr Ip Token) (id : Nat) (request : Request Addr Token) :
    (w.step ip (.invoke id request)).shared = w.shared := by
  simp only [World.step]
  split <;> rfl

end Displaced

namespace Tasks

variable {Addr Ip Token : Type}

/-- The connection of the registration has left its read loop. -/
def Ended (s : Tasks Addr Ip Token) (registration : TcpWriterRegistration Addr) : Prop :=
  ∃ task, (s.pcs task).ended = some registration

variable [DecidableEq Addr]

/-- The connection is registered, neither displaced nor removed, and has not ended. -/
def Live (s : Tasks Addr Ip Token) (registration : TcpWriterRegistration Addr) : Prop :=
  s.world.shared.registry.Holds registration ∧ ¬ s.Ended registration

/-- A live registration has displaced this one. -/
def Succeeded (s : Tasks Addr Ip Token) (old : TcpWriterRegistration Addr) : Prop :=
  ∃ new, DisplacedBy s.world.shared.sections old new ∧ s.Live new

theorem Succeeded.same {s t : Tasks Addr Ip Token} (shared : t.world.shared = s.world.shared)
    (ended : ∀ registration, s.Ended registration → t.Ended registration)
    (old : TcpWriterRegistration Addr) (after : t.Succeeded old) : s.Succeeded old := by
  rcases after with ⟨new, displaced, held, going⟩
  rw [shared] at displaced held
  exact ⟨new, displaced, held, fun finished => going (ended new finished)⟩

/-- The dispatcher hears of no connection that a live one has displaced. -/
def Undisturbed (s : Tasks Addr Ip Token) (act : TasksAct Addr Token) : Prop :=
  ∀ old ∈ s.reports act, ¬ s.Succeeded old

variable [DecidableEq Ip]

structure Silent (ip : Addr → Ip) (s : Tasks Addr Ip Token) : Prop where
  coherent : Coherent ip s.world
  leaving : ∀ task old, (s.pcs task).leaving = some old → ¬ s.Succeeded old

variable {ip : Addr → Ip} {s : Tasks Addr Ip Token}

theorem Silent.undisturbed (inv : Silent ip s) (act : TasksAct Addr Token) : s.Undisturbed act := by
  intro old reported
  cases act with
  | dispatcherClose task result =>
      simp only [reports] at reported
      split at reported
      · next registration here =>
          cases List.mem_singleton.mp reported
          refine inv.leaving task old ?_
          rw [here]
          rfl
      · cases reported
  | _ => cases reported

/-- A task moves on, and comes to its end only if no live registration has displaced its own. -/
theorem Silent.setPc (inv : Silent ip s) (world : World Addr Ip Token) (coh : Coherent ip world)
    (shared : world.shared = s.world.shared) (task : Nat) (pc : HandlerPc Addr)
    (ended : ∀ registration, (s.pcs task).ended = some registration → pc.ended = some registration)
    (leaving : ∀ old, pc.leaving = some old → ¬ s.Succeeded old) :
    Silent ip (s.setPc world task pc) := by
  have back : ∀ old, (s.setPc world task pc).Succeeded old → s.Succeeded old := by
    refine Succeeded.same shared ?_
    rintro registration ⟨other, finished⟩
    refine ⟨other, ?_⟩
    by_cases same : other = task
    · subst same
      rw [setPc_self]
      exact ended registration finished
    · rw [setPc_of_ne _ _ _ _ _ same]
      exact finished
  refine ⟨coh, ?_⟩
  intro other old out succeeded
  by_cases same : other = task
  · subst same
    rw [setPc_self] at out
    exact leaving old out (back old succeeded)
  · rw [setPc_of_ne _ _ _ _ _ same] at out
    exact inv.leaving other old out (back old succeeded)

variable [DecidableEq Token] {addr : Nat → Addr} {sink : Nat → TcpPacketSink Token}

/-- What a run must not do: let a handler break out of its loop while a live registration has displaced
its own, or displace a registration whose handler has left the loop and not told the dispatcher. -/
def Kept (sink : Nat → TcpPacketSink Token) (s : Tasks Addr Ip Token) : TasksAct Addr Token → Prop
  | .turn task turn => ∀ registration bufLen, s.pcs task = .reading registration bufLen →
      (turn = .cancelled → s.world.shared.cancelled (sink task).token = true) →
        readTurn bufLen turn = .broke → ¬ s.Succeeded registration
  | .registry act => ∀ task old, (s.pcs task).leaving = some old → ¬ s.world.Displaces act old
  | _ => True

/-- A registration is succeeded by a critical section only. -/
theorem Succeeded.back (coh : Coherent ip s.world) (act : Act Addr Token) (t : Tasks Addr Ip Token)
    (world : t.world = s.world.step ip act)
    (ended : ∀ registration, s.Ended registration → t.Ended registration)
    (old : TcpWriterRegistration Addr) (after : t.Succeeded old) :
    s.Succeeded old ∨ s.world.Displaces act old := by
  rcases after with ⟨new, displaced, held, going⟩
  rw [world] at displaced held
  have earlier : DisplacedBy s.world.shared.sections old new → s.Succeeded old := by
    intro before
    refine ⟨new, before, ?_, fun finished => going (ended new finished)⟩
    by_contra gone
    exact (World.Stale.step coh ⟨before.inserted, gone⟩ act).2 held
  rcases s.world.step_sections ip act with same | ⟨last, grown⟩
  · rw [same] at displaced
    exact Or.inl (earlier displaced)
  · rw [grown] at displaced
    rcases displaced.of_concat with before | ⟨entry, rfl, rfl, member, addr⟩
    · exact Or.inl (earlier before)
    · exact Or.inr (coh.displaces act entry old grown member addr)

theorem Silent.turn (inv : Silent ip s) (task : Nat) (turn : ReadTurn)
    (kept : s.Kept sink (.turn task turn)) : Silent ip (s.step ip addr sink (.turn task turn)) := by
  simp only [Tasks.step]
  split
  · next registration bufLen here =>
      have reading : ∀ pc : HandlerPc Addr, ∀ old, (s.pcs task).ended = some old → pc.ended = some old := by
        intro pc old absent
        rw [here] at absent
        cases absent
      split_ifs with idle
      · exact inv
      · cases turned : readTurn bufLen turn with
        | again rest => exact inv.setPc _ inv.coherent rfl task _ (reading _) nofun
        | failed => exact inv.setPc _ inv.coherent rfl task _ (reading _) nofun
        | broke =>
            refine inv.setPc _ (inv.coherent.step _) (World.step_invoke_shared _ _ _) task _ (reading _) ?_
            intro old same
            cases same
            refine kept registration bufLen here ?_ turned
            intro cancelled
            by_contra uncancelled
            exact idle ⟨cancelled, Bool.eq_false_iff.mpr uncancelled⟩
  · exact inv

theorem Silent.proceed (inv : Silent ip s) (task : Nat) :
    Silent ip (s.step ip addr sink (.proceed task)) := by
  simp only [Tasks.step]
  split
  · next here =>
      have connecting : ∀ pc : HandlerPc Addr, ∀ old, (s.pcs task).ended = some old →
          pc.ended = some old := by
        intro pc old absent
        rw [here] at absent
        cases absent
      split
      · exact inv.setPc _ inv.coherent rfl task _ (connecting _) nofun
      · exact inv.setPc _ inv.coherent rfl task _ (connecting _) nofun
      · exact inv
  · next registration here =>
      split
      · refine inv.setPc _ inv.coherent rfl task _ ?_ ?_
        · intro old finished
          rw [here] at finished
          exact finished
        · intro old out
          refine inv.leaving task old ?_
          rw [here]
          exact out
      · exact inv
  · exact inv

theorem Silent.step (inv : Silent ip s) (act : TasksAct Addr Token) (kept : s.Kept sink act) :
    Silent ip (s.step ip addr sink act) := by
  cases act with
  | turn task turn => exact inv.turn task turn kept
  | proceed task => exact inv.proceed task
  | registry act =>
      simp only [Tasks.step]
      split
      · refine ⟨inv.coherent.step act, ?_⟩
        intro task old out succeeded
        rcases Succeeded.back inv.coherent act { s with world := s.world.step ip act } rfl
          (fun _ finished => finished) old succeeded with before | displaces
        · exact inv.leaving task old out before
        · exact kept task old out displaces
      · exact inv
  | connect task =>
      simp only [Tasks.step]
      split
      · next here =>
          refine inv.setPc _ (inv.coherent.step _) (World.step_invoke_shared _ _ _) task _ ?_ nofun
          intro old absent
          rw [here] at absent
          cases absent
      · exact inv
  | dispatcherClose task result =>
      simp only [Tasks.step]
      split
      · next registration here =>
          refine inv.setPc _ inv.coherent rfl task _ ?_ nofun
          intro old finished
          rw [here] at finished
          exact finished
      · exact inv

/-- In a run that keeps to `Kept`, the dispatcher receives no close from a connection while the
connection that has displaced it is live. -/
theorem no_close_from_displaced (ip : Addr → Ip) (addr : Nat → Addr) (sink : Nat → TcpPacketSink Token)
    (acts : List (TasksAct Addr Token))
    (kept : Lib.Along (step ip addr sink) (Kept sink) (new : Tasks Addr Ip Token) acts) :
    Lib.Along (step ip addr sink) Undisturbed (new : Tasks Addr Ip Token) acts := by
  refine Lib.along_invariant (step ip addr sink) (Silent ip) (fun s act allowed inv => inv.step act allowed)
    (fun s act _ inv => inv.undisturbed act) new acts kept ⟨Coherent.new, ?_⟩
  exact nofun

/-- Two connections of one peer: the second registers while the first one reads. -/
def replaced : List (TasksAct Nat Nat) :=
  [.connect 0, .registry (.advance 0 0), .registry (.advance 0 0), .registry (.advance 0 0),
    .registry (.advance 0 0), .proceed 0, .connect 1, .registry (.advance 3 0), .registry (.advance 3 0),
    .registry (.advance 3 0), .registry (.advance 3 0), .proceed 1]

/-- The displaced handler leaves through an error of its splitter, which skips the close. -/
theorem no_close_from_displaced_feed_error :
    Lib.Along (step id (fun _ => 5) .queued) Undisturbed (new : Tasks Nat Nat Nat)
      (replaced ++ [.turn 0 (.read (.ok 1) (.error ())), .dispatcherClose 0 (.ok ())]) := by
  apply no_close_from_displaced
  have quiet : ∀ s : Tasks Nat Nat Nat, (∀ task, (s.pcs task).leaving = none) → ∀ act,
      s.Kept .queued (.registry act) := by
    intro s still act task old out
    rw [still task] at out
    cases out
  refine ⟨trivial, quiet _ ?_ _, quiet _ ?_ _, quiet _ ?_ _, quiet _ ?_ _, trivial, trivial, quiet _ ?_ _,
    quiet _ ?_ _, quiet _ ?_ _, quiet _ ?_ _, trivial, ?_, trivial, trivial⟩
  case refine_9 =>
    intro registration bufLen here _ broke
    cases here
    cases broke
  all_goals
    intro task
    rcases task with _ | _ | task <;> rfl

/-- The second registration closes the sink of the first, whose handler breaks out of its loop, finds
nothing to remove and reports the peer closed while the second connection is reading. -/
theorem displaced_handler_closes_peer :
    let s := (new : Tasks Nat Nat Nat).run id (fun _ => 5) .queued
      (replaced ++ [.turn 0 .cancelled, .registry (.advance 1 0), .registry (.advance 1 0), .proceed 0])
    s.reports (.dispatcherClose 0 (.ok ())) = [⟨5, 1⟩] ∧
      DisplacedBy s.world.shared.sections ⟨5, 1⟩ ⟨5, 2⟩ ∧ s.Live ⟨5, 2⟩ ∧
      s.pcs 1 = .reading ⟨5, 2⟩ 0 := by
  refine ⟨rfl, ⟨[.inserted ⟨⟨5, 1⟩, .queued 0⟩], [], ⟨⟨5, 2⟩, .queued 1⟩, rfl, rfl, ?_, rfl⟩,
    ⟨⟨.queued 1, rfl⟩, ?_⟩, rfl⟩
  · exact List.mem_singleton.mpr rfl
  · rintro ⟨task, finished⟩
    rcases task with _ | _ | task
    · cases finished
    · cases finished
    · cases finished

end Tasks

end Pigs.Net.Rw
