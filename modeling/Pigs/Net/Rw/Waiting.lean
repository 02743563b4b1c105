import Pigs.Net.Rw.NoLeak

/-! Waiters in `wait_tcp_sink` beside the concurrent calls of one `PacketWriter`. An insert of `World`
that has returned its registration still has to call `notify_waiters`; `announced` says that it has.
A `Notified` is the number of such calls before its creation, and the next one wakes it. -/

namespace Pigs.Net.Rw

/-- `creating` is between the first lookup and `notified()`, and `selecting` waits on the `select!`. -/
inductive WaitPc (Token : Type) where
  | checking
  | looking
  | creating
  | lookingAgain (notified : Nat)
  | selecting (notified : Nat)
  | returned (result : Except String (TcpPacketSink Token))

structure Waiter (Addr Token : Type) where
  remoteAddr : Addr
  deadline : Nat
  pc : WaitPc Token

structure WaitWorld (Addr Ip Token : Type) where
  world : World Addr Ip Token
  now : Nat
  version : Nat
  announced : Nat → Bool
  waiters : Nat → Option (Waiter Addr Token)

inductive WaitAct (Addr Token : Type) where
  | call (act : Act Addr Token)
  | notifyWaiters (id : Nat)
  | waitTcpSink (id : Nat) (remoteAddr : Addr) (timeout : Nat)
  | advance (id : Nat)
  | elapse (nanos : Nat)

def packetWriterClosed : String := "packet writer is closed"

namespace WaitWorld

variable {Addr Ip Token : Type}

def new : WaitWorld Addr Ip Token where
  world := World.new
  now := 0
  version := 0
  announced _ := false
  waiters _ := none

def setWaiter (s : WaitWorld Addr Ip Token) (id : Nat) (waiter : Waiter Addr Token) :
    WaitWorld Addr Ip Token :=
  { s with waiters := Function.update s.waiters id (some waiter) }

/-- The call up to its loop. -/
def waitTcpSink (s : WaitWorld Addr Ip Token) (remoteAddr : Addr) (timeout : Nat) : Waiter Addr Token where
  remoteAddr := remoteAddr
  deadline := s.now + timeout
  pc :=
    if timeout = 0 then
      .returned (.error "tcp writer wait timeout must be greater than zero")
    else
      .checking

variable [DecidableEq Addr] [DecidableEq Ip] [DecidableEq Token] (ip : Addr → Ip)

/-- The next step of the loop. The `select!` is biased, and `timeout_at` looks at the notification before
the deadline. -/
def advanceWait (s : WaitWorld Addr Ip Token) (waiter : Waiter Addr Token) : WaitPc Token :=
  match waiter.pc with
  | .checking => if s.world.shared.closed then .returned (.error packetWriterClosed) else .looking
  | .looking =>
      match s.world.shared.registry.tcpSink waiter.remoteAddr with
      | some sink => .returned (.ok sink)
      | none => .creating
  | .creating => .lookingAgain s.version
  | .lookingAgain notified =>
      match s.world.shared.registry.tcpSink waiter.remoteAddr with
      | some sink => .returned (.ok sink)
      | none => .selecting notified
  | .selecting notified =>
      if s.world.shared.closed then
        .returned (.error packetWriterClosed)
      else if notified < s.version then
        .checking
      else if waiter.deadline ≤ s.now then
        .returned (.error "tcp writer wait timed out")
      else
        .selecting notified
  | .returned result => .returned result

def step (s : WaitWorld Addr Ip Token) : WaitAct Addr Token → WaitWorld Addr Ip Token
  | .call act => { s with world := s.world.step ip act }
  | .notifyWaiters id =>
      match s.world.calls id with
      | some (.insertTcpSink _ _ (.returned (some _))) =>
          if s.announced id then
            s
          else
            { s with version := s.version + 1, announced := Function.update s.announced id true }
      | _ => s
  | .waitTcpSink id remoteAddr timeout =>
      match s.waiters id with
      | none => s.setWaiter id (s.waitTcpSink remoteAddr timeout)
      | some _ => s
  | .advance id =>
      match s.waiters id with
      | none => s
      | some waiter => s.setWaiter id { waiter with pc := s.advanceWait waiter }
  | .elapse nanos => { s with now := s.now + nanos }

def run (s : WaitWorld Addr Ip Token) (acts : List (WaitAct Addr Token)) : WaitWorld Addr Ip Token :=
  Lib.runFrom (step ip) s acts

end WaitWorld

section Calls

variable {Addr Ip Token : Type} [DecidableEq Addr] [DecidableEq Ip] [DecidableEq Token] {ip : Addr → Ip}
  {w : World Addr Ip Token}

/-- The registration has been stored at some time. -/
def World.Recorded (w : World Addr Ip Token) (registration : TcpWriterRegistration Addr) : Prop :=
  registration ∈ (insertions w.shared.sections).map (·.registration)

theorem World.Recorded.step {registration : TcpWriterRegistration Addr} (recorded : w.Recorded registration)
    (act : Act Addr Token) : (w.step ip act).Recorded registration := by
  rcases w.step_sections ip act with same | ⟨last, grown⟩
  · rw [World.Recorded, same]
    exact recorded
  · rw [World.Recorded, grown, insertions_append, List.map_append]
    exact List.mem_append_left _ recorded

/-- What is registered after a step was registered before it, or is stored for the first time. -/
theorem Coherent.step_lookup (coh : Coherent ip w) (act : Act Addr Token) (a : Addr)
    (entry : RegisteredTcpSink Addr Token)
    (found : (w.step ip act).shared.registry.tcpWriters.lookup a = some entry) :
    w.shared.registry.tcpWriters.lookup a = some entry ∨ ¬ w.Recorded entry.registration := by
  have after := coh.step act
  obtain ⟨member, addr⟩ := (after.represents.lookup_eq_some_iff a entry).mp found
  rcases w.step_sections ip act with same | ⟨last, grown⟩
  · rw [same] at member
    exact Or.inl ((coh.represents.lookup_eq_some_iff a entry).mpr ⟨member, addr⟩)
  · rw [grown, live_concat] at member
    rcases mem_apply last _ entry member with old | rfl
    · exact Or.inl ((coh.represents.lookup_eq_some_iff a entry).mpr ⟨old, addr⟩)
    · have distinct := after.registrations_nodup
      rw [grown, insertions_append, List.map_append, List.nodup_append] at distinct
      refine Or.inr fun recorded => distinct.2.2 _ recorded entry.registration ?_ rfl
      simp [insertions, insertedEntry]

/-- Every insert behind its critical section has its registration on record. -/
def World.InsertsRecorded (w : World Addr Ip Token) : Prop :=
  ∀ id a sink pc registration, w.calls id = some (.insertTcpSink a sink pc) →
    pc.result = some (some registration) → w.Recorded registration

theorem World.InsertsRecorded.step (inserts : w.InsertsRecorded) (act : Act Addr Token) :
    (w.step ip act).InsertsRecorded := by
  intro id a sink pc registration present known
  rcases w.step_calls ip act id with same | ⟨request, _, _, fresh⟩ | ⟨pick, call, before, shared, after⟩
  · rw [same] at present
    exact (inserts id a sink pc registration present known).step act
  · rw [fresh] at present
    cases request with
    | insertTcpSink b other =>
        cases present
        cases known
    | _ => cases present
  · rw [after] at present
    rcases call.advance_result w.shared pick a sink pc _ (Option.some.inj present) known with
      ⟨earlier, rfl, same⟩ | ⟨_, stored, same, _, _, grown⟩ | ⟨impossible, _⟩
    · exact (inserts id a sink earlier registration before same).step act
    · cases same
      rw [World.Recorded, shared, grown]
      simp [insertions, insertedEntry]
    · cases impossible

theorem World.step_insert_returned (act : Act Addr Token) (id : Nat) (a : Addr)
    (sink : TcpPacketSink Token) (result : Option (TcpWriterRegistration Addr))
    (present : w.calls id = some (.insertTcpSink a sink (.returned result))) :
    (w.step ip act).calls id = some (.insertTcpSink a sink (.returned result)) := by
  rcases w.step_calls ip act id with same | ⟨_, _, idle, _⟩ | ⟨pick, call, before, _, after⟩
  · rw [same, present]
  · rw [present] at idle
    cases idle
  · rw [present] at before
    cases before
    exact after

end Calls

namespace WaitWorld

variable {Addr Ip Token : Type} [DecidableEq Addr] {ip : Addr → Ip} {s : WaitWorld Addr Ip Token}

/-- The insert with this call id stored the registration and has called `notify_waiters`. -/
def Announced (s : WaitWorld Addr Ip Token) (call : Nat) (registration : TcpWriterRegistration Addr) :
    Prop :=
  (∃ a sink, s.world.calls call = some (.insertTcpSink a sink (.returned (some registration)))) ∧
    s.announced call = true

/-- The waiter sleeps on a notification that has not fired. -/
def Asleep (s : WaitWorld Addr Ip Token) (waiter : Waiter Addr Token) : Prop :=
  ∃ notified, waiter.pc = .selecting notified ∧ s.version ≤ notified

/-- No sink at the waiter's address has been announced. -/
def Unannounced (s : WaitWorld Addr Ip Token) (a : Addr) : Prop :=
  ∀ entry, s.world.shared.registry.tcpWriters.lookup a = some entry →
    ∀ call, ¬ s.Announced call entry.registration

/-- A waiter that looks and finds nothing has nothing announced to miss. -/
theorem unannounced_of_missing (a : Addr) (missing : s.world.shared.registry.tcpSink a = none) :
    s.Unannounced a := by
  intro entry found
  simp [Registry.tcpSink, found] at missing

omit [DecidableEq Addr] in
theorem setWaiter_cases (id other : Nat) (fresh waiter : Waiter Addr Token)
    (present : (s.setWaiter id fresh).waiters other = some waiter) :
    s.waiters other = some waiter ∨ other = id ∧ waiter = fresh := by
  by_cases same : other = id
  · subst same
    obtain rfl : fresh = waiter := by simpa [WaitWorld.setWaiter] using present
    exact Or.inr ⟨rfl, rfl⟩
  · exact Or.inl (by simpa [WaitWorld.setWaiter, same] using present)

/-- The call has not returned. -/
def Running (waiter : Waiter Addr Token) : Prop := ∀ result, waiter.pc ≠ .returned result

theorem advanceWait_ok (waiter : Waiter Addr Token) (sink : TcpPacketSink Token)
    (returned : s.advanceWait waiter = .returned (.ok sink)) :
    waiter.pc = .returned (.ok sink) ∨
      Running waiter ∧ s.world.shared.registry.tcpSink waiter.remoteAddr = some sink := by
  unfold advanceWait at returned
  split at returned
  case h_1 => split at returned <;> cases returned
  case h_2 atPc =>
    split at returned
    case h_1 found =>
      cases returned
      refine Or.inr ⟨?_, found⟩
      intro result there
      rw [atPc] at there
      cases there
    case h_2 => cases returned
  case h_3 => cases returned
  case h_4 atPc =>
    split at returned
    case h_1 found =>
      cases returned
      refine Or.inr ⟨?_, found⟩
      intro result there
      rw [atPc] at there
      cases there
    case h_2 => cases returned
  case h_5 =>
    split at returned
    · cases returned
    · split at returned
      · cases returned
      · split at returned <;> cases returned
  case h_6 atPc =>
    cases returned
    exact Or.inl atPc

variable [DecidableEq Ip]

structure Awake (ip : Addr → Ip) (s : WaitWorld Addr Ip Token) : Prop where
  coh : Coherent ip s.world
  inserts : s.world.InsertsRecorded
  announced : ∀ call, s.announced call = true → ∃ registration, s.Announced call registration
  created : ∀ id waiter notified, s.waiters id = some waiter →
    waiter.pc = .lookingAgain notified ∨ waiter.pc = .selecting notified → notified ≤ s.version
  asleep : ∀ id waiter, s.waiters id = some waiter → s.Asleep waiter → s.Unannounced waiter.remoteAddr

theorem new_awake (ip : Addr → Ip) : Awake ip (new : WaitWorld Addr Ip Token) where
  coh := Coherent.new
  inserts _ _ _ _ _ absent := by cases absent
  announced _ absent := by cases absent
  created _ _ _ absent := by cases absent
  asleep _ _ absent := by cases absent

/-- Whoever sleeps is woken. -/
theorem Awake.notify (awake : Awake ip s) (id : Nat)
    (returned : ∃ a sink registration,
      s.world.calls id = some (.insertTcpSink a sink (.returned (some registration)))) :
    Awake ip { s with version := s.version + 1, announced := Function.update s.announced id true } := by
  refine ⟨awake.coh, awake.inserts, ?_, ?_, ?_⟩
  · intro call told
    by_cases same : call = id
    · subst same
      obtain ⟨a, sink, registration, present⟩ := returned
      exact ⟨registration, ⟨a, sink, present⟩, told⟩
    · obtain ⟨registration, inserted, _⟩ := awake.announced call (by simpa [same] using told)
      exact ⟨registration, inserted, told⟩
  · intro other waiter notified present at_
    exact Nat.le_succ_of_le (awake.created other waiter notified present at_)
  · rintro other waiter present ⟨notified, selecting, unfired⟩
    have before := awake.created other waiter notified present (Or.inr selecting)
    change s.version + 1 ≤ notified at unfired
    omega

theorem Awake.setWaiter (awake : Awake ip s) (id : Nat) (waiter : Waiter Addr Token)
    (created : ∀ notified, waiter.pc = .lookingAgain notified ∨ waiter.pc = .selecting notified →
      notified ≤ s.version)
    (asleep : s.Asleep waiter → s.Unannounced waiter.remoteAddr) : Awake ip (s.setWaiter id waiter) := by
  refine ⟨awake.coh, awake.inserts, awake.announced, ?_, ?_⟩
  · intro other present notified there at_
    by_cases same : other = id
    · subst same
      obtain rfl : waiter = present := by simpa [WaitWorld.setWaiter] using there
      exact created notified at_
    · exact awake.created other present notified (by simpa [WaitWorld.setWaiter, same] using there) at_
  · intro other present there sleeps
    by_cases same : other = id
    · subst same
      obtain rfl : waiter = present := by simpa [WaitWorld.setWaiter] using there
      exact asleep sleeps
    · exact awake.asleep other present (by simpa [WaitWorld.setWaiter, same] using there) sleeps

/-- A waiter that holds no notification can go anywhere. -/
theorem Awake.setWaiter_outside (awake : Awake ip s) (id : Nat) (waiter : Waiter Addr Token)
    (outside : ∀ notified, waiter.pc ≠ .lookingAgain notified ∧ waiter.pc ≠ .selecting notified) :
    Awake ip (s.setWaiter id waiter) := by
  refine awake.setWaiter id waiter ?_ ?_
  · rintro notified (again | selecting)
    · exact absurd again (outside notified).1
    · exact absurd selecting (outside notified).2
  · rintro ⟨notified, selecting, _⟩
    exact absurd selecting (outside notified).2

theorem Awake.advance (awake : Awake ip s) (id : Nat) (waiter : Waiter Addr Token)
    (present : s.waiters id = some waiter) :
    Awake ip (s.setWaiter id { waiter with pc := s.advanceWait waiter }) := by
  unfold advanceWait
  split
  case h_1 => split <;> exact awake.setWaiter_outside id _ (by simp)
  case h_2 => split <;> exact awake.setWaiter_outside id _ (by simp)
  case h_3 atPc =>
    refine awake.setWaiter id _ ?_ ?_
    · rintro notified (again | selecting)
      · cases again
        exact Nat.le_refl _
      · cases selecting
    · rintro ⟨notified, selecting, _⟩
      cases selecting
  case h_4 notified atPc =>
    split
    case h_1 => exact awake.setWaiter_outside id _ (by simp)
    case h_2 missing =>
      refine awake.setWaiter id _ ?_ fun _ => unannounced_of_missing waiter.remoteAddr missing
      rintro later (again | selecting)
      · cases again
      · cases selecting
        exact awake.created id waiter notified present (Or.inl atPc)
  case h_5 notified atPc =>
    split
    · exact awake.setWaiter_outside id _ (by simp)
    · split
      · exact awake.setWaiter_outside id _ (by simp)
      · split
        · exact awake.setWaiter_outside id _ (by simp)
        · rw [← atPc]
          exact awake.setWaiter id waiter (fun later => awake.created id waiter later present)
            (awake.asleep id waiter present)
  case h_6 => exact awake.setWaiter_outside id _ (by simp)

variable [DecidableEq Token]

/-- A step of a registry call announces nothing and stores only what is not announced. -/
theorem Awake.call (awake : Awake ip s) (act : Act Addr Token) :
    Awake ip { s with world := s.world.step ip act } := by
  have kept : ∀ call registration, s.Announced call registration →
      Announced { s with world := s.world.step ip act } call registration := by
    rintro call registration ⟨⟨a, sink, present⟩, told⟩
    exact ⟨⟨a, sink, World.step_insert_returned act call a sink _ present⟩, told⟩
  refine ⟨awake.coh.step act, awake.inserts.step act, ?_, awake.created, ?_⟩
  · intro call told
    obtain ⟨registration, before⟩ := awake.announced call told
    exact ⟨registration, kept call registration before⟩
  · intro id waiter present asleep entry found call told
    obtain ⟨registration, before⟩ := awake.announced call told.2
    -- An announced insert had returned before the step, with the same registration.
    obtain rfl : entry.registration = registration := by
      obtain ⟨⟨a, sink, after⟩, _⟩ := told
      obtain ⟨⟨b, other, same⟩, _⟩ := kept call registration before
      rw [after] at same
      cases same
      rfl
    rcases awake.coh.step_lookup act waiter.remoteAddr entry found with old | fresh
    · exact awake.asleep id waiter present asleep entry old call before
    · obtain ⟨⟨a, sink, returned⟩, _⟩ := before
      exact fresh (awake.inserts call a sink _ entry.registration returned rfl)

theorem Awake.step (awake : Awake ip s) (act : WaitAct Addr Token) : Awake ip (s.step ip act) := by
  cases act with
  | call act => exact awake.call act
  | notifyWaiters id =>
      simp only [WaitWorld.step]
      split
      case h_1 a sink registration returned =>
        split
        · exact awake
        · exact awake.notify id ⟨a, sink, registration, returned⟩
      case h_2 => exact awake
  | waitTcpSink id remoteAddr timeout =>
      simp only [WaitWorld.step]
      split
      case h_1 =>
        have outside : ∀ notified, (s.waitTcpSink remoteAddr timeout).pc ≠ .lookingAgain notified ∧
            (s.waitTcpSink remoteAddr timeout).pc ≠ .selecting notified := by
          intro notified
          simp only [waitTcpSink]
          split <;> simp
        exact awake.setWaiter_outside id _ outside
      case h_2 => exact awake
  | advance id =>
      simp only [WaitWorld.step]
      split
      case h_1 => exact awake
      case h_2 waiter present => exact awake.advance id waiter present
  | elapse nanos =>
      exact ⟨awake.coh, awake.inserts, awake.announced, awake.created, awake.asleep⟩

theorem run_awake (ip : Addr → Ip) (acts : List (WaitAct Addr Token)) :
    Awake ip ((new : WaitWorld Addr Ip Token).run ip acts) :=
  Lib.invariant_run (WaitWorld.step ip) (Awake ip) (fun _ act awake => awake.step act) new acts
    (new_awake ip)

/-- A step that makes a call return a sink reads it from the registry. -/
theorem step_ok (ip : Addr → Ip) (act : WaitAct Addr Token) (id : Nat) (waiter : Waiter Addr Token)
    (sink : TcpPacketSink Token) (present : (s.step ip act).waiters id = some waiter)
    (returned : waiter.pc = .returned (.ok sink)) :
    s.waiters id = some waiter ∨ ∃ before, s.waiters id = some before ∧
      before.remoteAddr = waiter.remoteAddr ∧ Running before ∧
      s.world.shared.registry.tcpSink waiter.remoteAddr = some sink := by
  cases act with
  | call act => exact Or.inl present
  | notifyWaiters call =>
      simp only [WaitWorld.step] at present
      split at present
      · split at present
        · exact Or.inl present
        · exact Or.inl present
      · exact Or.inl present
  | waitTcpSink call remoteAddr timeout =>
      simp only [WaitWorld.step] at present
      split at present
      case h_1 =>
        rcases setWaiter_cases call id _ waiter present with old | ⟨_, rfl⟩
        · exact Or.inl old
        · simp only [waitTcpSink] at returned
          split at returned <;> cases returned
      case h_2 => exact Or.inl present
  | advance call =>
      simp only [WaitWorld.step] at present
      split at present
      case h_1 => exact Or.inl present
      case h_2 before there =>
        rcases setWaiter_cases call id _ waiter present with old | ⟨rfl, rfl⟩
        · exact Or.inl old
        · rcases advanceWait_ok before sink returned with was | ⟨running, found⟩
          · left
            cases before with
            | mk remoteAddr deadline pc =>
                cases was
                exact there
          · exact Or.inr ⟨before, there, rfl, running, found⟩
  | elapse nanos => exact Or.inl present

/-- A returned sink was registered for the address while the call ran. -/
theorem run_ok (ip : Addr → Ip) (acts : List (WaitAct Addr Token)) (id : Nat)
    (waiter : Waiter Addr Token) (sink : TcpPacketSink Token)
    (present : ((new : WaitWorld Addr Ip Token).run ip acts).waiters id = some waiter)
    (returned : waiter.pc = .returned (.ok sink)) :
    ∃ front back before, acts = front ++ back ∧
      ((new : WaitWorld Addr Ip Token).run ip front).waiters id = some before ∧
      before.remoteAddr = waiter.remoteAddr ∧ Running before ∧
      ((new : WaitWorld Addr Ip Token).run ip front).world.shared.registry.tcpSink waiter.remoteAddr =
        some sink := by
  induction acts using List.reverseRecOn with
  | nil => cases present
  | append_singleton acts act ih =>
      have last : (new : WaitWorld Addr Ip Token).run ip (acts ++ [act]) =
          ((new : WaitWorld Addr Ip Token).run ip acts).step ip act := Lib.runFrom_append new acts [act]
      rw [last] at present
      rcases step_ok ip act id waiter sink present returned with old | ⟨before, there, same, running, found⟩
      · obtain ⟨front, back, before, rfl, rest⟩ := ih old
        exact ⟨front, back ++ [act], before, List.append_assoc .., rest⟩
      · exact ⟨acts, [act], before, rfl, there, same, running, found⟩

/-- No waiter sleeps through the announcement of a sink that is registered for its address, and a sink
that a waiter returns was registered for exactly its address during the call. -/
theorem wait_tcp_sink_no_lost_wakeup (ip : Addr → Ip) (acts : List (WaitAct Addr Token)) :
    let s := (new : WaitWorld Addr Ip Token).run ip acts
    (∀ id waiter notified, s.waiters id = some waiter → waiter.pc = .selecting notified →
        ¬ notified < s.version →
        ∀ entry, s.world.shared.registry.tcpWriters.lookup waiter.remoteAddr = some entry →
          ∀ call a sink,
            s.world.calls call = some (.insertTcpSink a sink (.returned (some entry.registration))) →
              s.announced call = false) ∧
      ∀ id waiter sink, s.waiters id = some waiter → waiter.pc = .returned (.ok sink) →
        ∃ front back before entry, acts = front ++ back ∧
          ((new : WaitWorld Addr Ip Token).run ip front).waiters id = some before ∧
          before.remoteAddr = waiter.remoteAddr ∧ Running before ∧
          ((new : WaitWorld Addr Ip Token).run ip front).world.shared.registry.tcpWriters.lookup
            waiter.remoteAddr = some entry ∧
          entry.remoteAddr = waiter.remoteAddr ∧ entry.sink = sink := by
  intro s
  have awake : Awake ip s := run_awake ip acts
  constructor
  · intro id waiter notified present selecting unfired entry found call a sink returned
    have quiet := awake.asleep id waiter present ⟨notified, selecting, Nat.le_of_not_lt unfired⟩
    by_contra told
    exact quiet entry found call ⟨⟨a, sink, returned⟩, by simpa using told⟩
  · intro id waiter sink present returned
    obtain ⟨front, back, before, split, there, same, running, found⟩ :=
      run_ok ip acts id waiter sink present returned
    obtain ⟨entry, stored, own⟩ := Option.map_eq_some_iff.mp found
    have awakeThen : Awake ip ((new : WaitWorld Addr Ip Token).run ip front) := run_awake ip front
    have coh := awakeThen.coh
    exact ⟨front, back, before, entry, split, there, same, running, stored,
      ((coh.represents.lookup_eq_some_iff _ _).mp stored).2, own⟩

end WaitWorld

end Pigs.Net.Rw
