import Pigs.Net.Rw.Managed.Connect

/-! What the reservation of `connect_tcp` excludes. -/

namespace Pigs.Net.Rw

section Results

variable {Addr Ip Token : Type}

/-- What the insert call has returned, once it is past its critical section. -/
def World.resultOf (w : World Addr Ip Token) (id : Nat) : Option (Option (TcpWriterRegistration Addr)) :=
  match w.calls id with
  | some (.insertTcpSink _ _ pc) => pc.result
  | _ => none

theorem World.resultOf_eq_some {w : World Addr Ip Token} {id : Nat}
    {result : Option (TcpWriterRegistration Addr)} (known : w.resultOf id = some result) :
    ∃ a sink pc, w.calls id = some (.insertTcpSink a sink pc) ∧ pc.result = some result := by
  simp only [resultOf] at known
  split at known
  · next a sink pc present => exact ⟨a, sink, pc, present, known⟩
  · cases known

theorem World.resultOf_insert {w : World Addr Ip Token} {id : Nat} {a : Addr}
    {sink : TcpPacketSink Token} {pc : InsertPc Addr Token}
    (present : w.calls id = some (.insertTcpSink a sink pc)) : w.resultOf id = pc.result := by
  simp only [resultOf, present]

variable [DecidableEq Addr] [DecidableEq Ip] [DecidableEq Token] {ip : Addr → Ip}
  {w : World Addr Ip Token}

/-- A result is new only for an insert in progress. -/
theorem World.resultOf_back (act : Act Addr Token) (id : Nat)
    (result : Option (TcpWriterRegistration Addr)) (after : (w.step ip act).resultOf id = some result) :
    w.resultOf id = some result ∨
      (w.resultOf id = none ∧ ∃ a sink pc, w.calls id = some (.insertTcpSink a sink pc)) := by
  obtain ⟨a, sink, pc, present, known⟩ := resultOf_eq_some after
  rcases w.step_calls ip act id with same | ⟨request, -, -, fresh⟩ | ⟨pick, before, was, -, now⟩
  · left
    rw [resultOf, ← same, present]
    exact known
  · rw [fresh] at present
    cases request <;> cases present
    cases known
  · rw [now] at present
    obtain ⟨earlier, rfl⟩ := before.advance_arguments w.shared pick a sink pc (Option.some.inj present)
    cases old : earlier.result with
    | none => exact Or.inr ⟨(resultOf_insert was).trans old, a, sink, earlier, was⟩
    | some former =>
        left
        obtain ⟨next, stepped, keeps⟩ := Call.advance_insert ip w.shared pick a sink earlier
        rw [stepped] at present
        cases present
        rw [resultOf_insert was, old, ← keeps former old, known]

/-- Results stay. -/
theorem World.resultOf_step (act : Act Addr Token) (id : Nat)
    (result : Option (TcpWriterRegistration Addr)) (before : w.resultOf id = some result) :
    (w.step ip act).resultOf id = some result := by
  obtain ⟨a, sink, pc, present, known⟩ := resultOf_eq_some before
  rcases w.step_calls ip act id with same | ⟨request, -, idle, -⟩ | ⟨pick, call, was, -, now⟩
  · rw [resultOf, same, present]
    exact known
  · rw [idle] at present
    cases present
  · rw [was] at present
    cases present
    obtain ⟨next, stepped, keeps⟩ := Call.advance_insert ip w.shared pick a sink pc
    rw [stepped] at now
    rw [resultOf_insert now]
    exact keeps result known

end Results

namespace Managed

namespace Connects

variable {Addr Ip Token : Type} {addr : Nat → Addr}

/-- The locks and the reservations belong to calls, each to one. -/
structure Exclusive (addr : Nat → Addr) (s : Connects Addr Ip Token) : Prop where
  locked : ∀ call, s.calls call = .checked → s.peersLock = some call
  member : ∀ call, (s.calls call).holds = true → addr call ∈ s.connectingTcpPeers
  unique : ∀ call other, (s.calls call).holds = true → (s.calls other).holds = true →
    addr call = addr other → call = other

/-- The task has not registered its writer and still may. -/
def Unregistered (s : Connects Addr Ip Token) (call : Nat) : Prop :=
  s.tasks call = .spawned ∨ (s.tasks call = .polled ∧ s.world.resultOf (2 * call) = none)

/-- The call holds the reservation and its writer is not registered. -/
def Pending (s : Connects Addr Ip Token) (call : Nat) : Prop :=
  s.calls call = .reaping ∨ s.calls call = .connecting ∨
    (s.calls call = .awaitingReady ∧ s.Unregistered call)

variable {s t : Connects Addr Ip Token}

theorem Pending.holds {call : Nat} (pending : s.Pending call) : (s.calls call).holds = true := by
  rcases pending with here | here | ⟨here, -⟩ <;> rw [here] <;> rfl

namespace Exclusive

theorem init : Exclusive addr (init : Connects Addr Ip Token) where
  locked _ := nofun
  member _ := nofun
  unique _ _ := nofun

/-- A call moves on with the reservation it has, or without one. -/
theorem move (inv : Exclusive addr s) (call : Nat) (pc : ConnectPc)
    (calls : t.calls = Function.update s.calls call pc)
    (peers : t.connectingTcpPeers = s.connectingTcpPeers)
    (lock : ∀ other, other ≠ call → s.peersLock = some other → t.peersLock = some other)
    (own : pc = .checked → t.peersLock = some call) (holds : pc.holds = (s.calls call).holds) :
    Exclusive addr t := by
  have same : ∀ other, (t.calls other).holds = (s.calls other).holds := by
    intro other
    rw [calls]
    by_cases mine : other = call
    · subst mine
      rw [Function.update_self]
      exact holds
    · rw [Function.update_of_ne mine]
  constructor
  · intro other here
    rw [calls] at here
    by_cases mine : other = call
    · subst mine
      rw [Function.update_self] at here
      exact own here
    · rw [Function.update_of_ne mine] at here
      exact lock other mine (inv.locked other here)
  · intro other held
    rw [same] at held
    rw [peers]
    exact inv.member other held
  · intro first second held also
    rw [same] at held also
    exact inv.unique first second held also

variable [DecidableEq Addr]

theorem acquire (inv : Exclusive addr s) (call : Nat) (here : s.calls call = .checked)
    (free : addr call ∉ s.connectingTcpPeers) (calls : t.calls = Function.update s.calls call .reaping)
    (peers : t.connectingTcpPeers = insert (addr call) s.connectingTcpPeers) : Exclusive addr t := by
  have alone : ∀ other, (s.calls other).holds = true → addr call ≠ addr other := by
    intro other held same
    rw [same] at free
    exact free (inv.member other held)
  refine ⟨?_, ?_, ?_⟩
  · intro other checked
    rw [calls] at checked
    by_cases same : other = call
    · subst same
      rw [Function.update_self] at checked
      cases checked
    · rw [Function.update_of_ne same] at checked
      have theirs := inv.locked other checked
      rw [inv.locked call here] at theirs
      exact absurd (Option.some.inj theirs).symm same
  · intro other held
    rw [calls] at held
    rw [peers]
    by_cases same : other = call
    · subst same
      exact Finset.mem_insert_self ..
    · rw [Function.update_of_ne same] at held
      exact Finset.mem_insert_of_mem (inv.member other held)
  · intro first second held also addrs
    rw [calls] at held also
    by_cases one : first = call
    · by_cases two : second = call
      · exact one.trans two.symm
      · subst one
        rw [Function.update_of_ne two] at also
        exact absurd addrs (alone second also)
    · rw [Function.update_of_ne one] at held
      by_cases two : second = call
      · subst two
        exact absurd addrs.symm (alone first held)
      · rw [Function.update_of_ne two] at also
        exact inv.unique first second held also addrs

theorem leave (inv : Exclusive addr s) (call : Nat) (pc : ConnectPc) (held : (s.calls call).holds = true)
    (lets : pc.holds = false) (unchecked : pc ≠ .checked)
    (calls : t.calls = Function.update s.calls call pc)
    (peers : t.connectingTcpPeers = s.connectingTcpPeers.erase (addr call))
    (lock : t.peersLock = s.peersLock) : Exclusive addr t := by
  have back : ∀ other, (t.calls other).holds = true → other ≠ call ∧ (s.calls other).holds = true := by
    intro other holds
    rw [calls] at holds
    by_cases same : other = call
    · subst same
      rw [Function.update_self, lets] at holds
      cases holds
    · rw [Function.update_of_ne same] at holds
      exact ⟨same, holds⟩
  refine ⟨?_, ?_, ?_⟩
  · intro other checked
    rw [calls] at checked
    by_cases same : other = call
    · subst same
      rw [Function.update_self] at checked
      exact absurd checked unchecked
    · rw [Function.update_of_ne same] at checked
      exact lock.trans (inv.locked other checked)
  · intro other holds
    obtain ⟨ne, before⟩ := back other holds
    rw [peers]
    refine Finset.mem_erase.mpr ⟨?_, inv.member other before⟩
    intro same
    exact ne (inv.unique other call before held same)
  · intro first second holds also
    exact inv.unique first second (back first holds).2 (back second also).2

end Exclusive

section Moves

variable [DecidableEq Addr] [DecidableEq Ip] {ip : Addr → Ip} {sink : Nat → TcpPacketSink Token}

/-- The reservation as it is meant: a task that may still register does so for a call that holds the
reservation, and finds no writer there of another call. -/
structure Settled (addr : Nat → Addr) (ip : Addr → Ip) (sink : Nat → TcpPacketSink Token)
    (s : Connects Addr Ip Token) : Prop where
  exclusive : Exclusive addr s
  coherent : Coherent ip s.world
  traced : Traced s.world
  early : ∀ call, (s.calls call).early = true → s.tasks call = .absent
  polled : ∀ call, s.tasks call = .polled →
    ∃ pc, s.world.calls (2 * call) = some (.insertTcpSink (addr call) (sink call) pc)
  unpolled : ∀ call, s.tasks call ≠ .polled → s.world.calls (2 * call) = none
  waiting : ∀ call, s.Unregistered call → s.calls call = .awaitingReady
  fresh : ∀ call, s.Pending call → ∀ other, other ≠ call → addr other = addr call →
    ∀ registration, s.world.resultOf (2 * other) = some (some registration) →
      ¬ s.world.shared.registry.Holds registration
  seen : ∀ call, s.calls call = .checked → ∀ other, addr other = addr call →
    ∀ registration, s.world.resultOf (2 * other) = some (some registration) →
      s.world.shared.registry.Holds registration → (s.calls other).holds = true

namespace Settled

theorem init : Settled addr ip sink (init : Connects Addr Ip Token) where
  exclusive := .init
  coherent := .new
  traced := .new
  early _ _ := rfl
  polled _ := nofun
  unpolled _ _ := rfl
  waiting call unregistered := by
    rcases unregistered with spawned | ⟨polled, -⟩
    · cases spawned
    · cases polled
  fresh call pending := by
    rcases pending with here | here | ⟨here, -⟩ <;> cases here
  seen _ := nofun

/-- A result is that of the call's own task, and was stored. -/
theorem stored (inv : Settled addr ip sink s) (call : Nat) (registration : TcpWriterRegistration Addr)
    (known : s.world.resultOf (2 * call) = some (some registration)) :
    registration.remoteAddr = addr call ∧
      registration ∈ (insertions s.world.shared.sections).map (·.registration) := by
  obtain ⟨a, own, pc, present, result⟩ := World.resultOf_eq_some known
  have polled : s.tasks call = .polled := by
    by_contra unpolled
    rw [inv.unpolled call unpolled] at present
    cases present
  obtain ⟨pc', args⟩ := inv.polled call polled
  rw [args] at present
  cases present
  obtain ⟨addrs, member⟩ := inv.traced.stored (2 * call) _ _ pc registration args result
  exact ⟨addrs, List.mem_map.mpr ⟨_, member, rfl⟩⟩

theorem spawn (inv : Settled addr ip sink s) (call : Nat) (here : s.calls call = .connecting)
    (exclusive : Exclusive addr
      ({ s with tasks := Function.update s.tasks call .spawned }.setCall call .awaitingReady)) :
    Settled addr ip sink
      ({ s with tasks := Function.update s.tasks call .spawned }.setCall call .awaitingReady) := by
  have absent : s.tasks call = .absent := inv.early call (by rw [here]; rfl)
  have others : ∀ other, other ≠ call →
      ({ s with tasks := Function.update s.tasks call .spawned }.setCall call .awaitingReady).tasks other =
        s.tasks other := fun other ne => Function.update_of_ne ne ..
  have mine : ({ s with tasks := Function.update s.tasks call .spawned }.setCall call
      .awaitingReady).tasks call = .spawned := Function.update_self ..
  refine ⟨exclusive, inv.coherent, inv.traced, ?_, ?_, ?_, ?_, ?_, ?_⟩
  · intro other after
    by_cases same : other = call
    · subst same
      rw [setCall_self] at after
      cases after
    · rw [setCall_of_ne _ _ _ _ same] at after
      rw [others other same]
      exact inv.early other after
  · intro other polled
    by_cases same : other = call
    · subst same
      rw [mine] at polled
      cases polled
    · rw [others other same] at polled
      exact inv.polled other polled
  · intro other unpolled
    by_cases same : other = call
    · subst same
      exact inv.unpolled other (by rw [absent]; exact nofun)
    · rw [others other same] at unpolled
      exact inv.unpolled other unpolled
  · intro other unregistered
    by_cases same : other = call
    · subst same
      exact setCall_self ..
    · rw [setCall_of_ne _ _ _ _ same]
      rw [Unregistered, others other same] at unregistered
      exact inv.waiting other unregistered
  · intro other pending
    by_cases same : other = call
    · subst same
      exact inv.fresh other (Or.inr (Or.inl here))
    · rw [Pending, Unregistered, others other same, setCall_of_ne _ _ _ _ same] at pending
      exact inv.fresh other pending
  · intro other checked target addrs registration known holds
    by_cases same : other = call
    · subst same
      rw [setCall_self] at checked
      cases checked
    · rw [setCall_of_ne _ _ _ _ same] at checked
      by_cases own : target = call
      · subst own
        rw [setCall_self]
        rfl
      · rw [setCall_of_ne _ _ _ _ own]
        exact inv.seen other checked target addrs registration known holds

/-- A call moves on; nothing happens to the tasks. -/
theorem move (inv : Settled addr ip sink s) (call : Nat) (pc : ConnectPc) (lock : Option Nat)
    (peers : Finset Addr)
    (exclusive : Exclusive addr
      ({ s with peersLock := lock, connectingTcpPeers := peers }.setCall call pc))
    (early : pc.early = true → (s.calls call).early = true)
    (waiting : s.Unregistered call → pc = .awaitingReady)
    (fresh : pc = .reaping ∨ pc = .connecting ∨ (pc = .awaitingReady ∧ s.Unregistered call) →
      ∀ other, other ≠ call → addr other = addr call → ∀ registration,
        s.world.resultOf (2 * other) = some (some registration) →
          ¬ s.world.shared.registry.Holds registration)
    (seen : pc = .checked → ∀ registration, registration.remoteAddr = addr call →
      ¬ s.world.shared.registry.Holds registration)
    (keeps : ∀ other, other ≠ call → s.calls other = .checked → (s.calls call).holds = true →
      pc.holds = true) :
    Settled addr ip sink ({ s with peersLock := lock, connectingTcpPeers := peers }.setCall call pc) := by
  refine ⟨exclusive, inv.coherent, inv.traced, ?_, inv.polled, inv.unpolled, ?_, ?_, ?_⟩
  · intro other after
    by_cases same : other = call
    · subst same
      rw [setCall_self] at after
      exact inv.early other (early after)
    · rw [setCall_of_ne _ _ _ _ same] at after
      exact inv.early other after
  · intro other unregistered
    by_cases same : other = call
    · subst same
      rw [setCall_self]
      exact waiting unregistered
    · rw [setCall_of_ne _ _ _ _ same]
      exact inv.waiting other unregistered
  · intro other pending
    by_cases same : other = call
    · subst same
      simp only [Pending, setCall_self] at pending
      exact fresh pending
    · simp only [Pending, setCall_of_ne _ _ _ _ same] at pending
      exact inv.fresh other pending
  · intro other checked target addrs registration known holds
    by_cases same : other = call
    · subst same
      rw [setCall_self] at checked
      have own := (inv.stored target registration known).1.trans addrs
      exact absurd holds (seen checked registration own)
    · rw [setCall_of_ne _ _ _ _ same] at checked
      have held := inv.seen other checked target addrs registration known holds
      by_cases mine : target = call
      · subst mine
        rw [setCall_self]
        exact keeps other same checked held
      · rw [setCall_of_ne _ _ _ _ mine]
        exact held

/-- A spawned task is polled for the first time, or dropped before that. -/
theorem task (inv : Settled addr ip sink s) (call : Nat) (here : s.tasks call = .spawned)
    (world : World Addr Ip Token) (pc : TaskPc) (coherent : Coherent ip world) (traced : Traced world)
    (shared : world.shared = s.world.shared)
    (others : ∀ id, id ≠ 2 * call → world.calls id = s.world.calls id)
    (polled : pc = .polled →
      ∃ inner, world.calls (2 * call) = some (.insertTcpSink (addr call) (sink call) inner))
    (unpolled : pc ≠ .polled → world.calls (2 * call) = none)
    (unknown : world.resultOf (2 * call) = none) :
    Settled addr ip sink { s with world := world, tasks := Function.update s.tasks call pc } := by
  have tasks : ∀ other, other ≠ call → Function.update s.tasks call pc other = s.tasks other :=
    fun other ne => Function.update_of_ne ne ..
  have calls : ∀ other, other ≠ call → world.calls (2 * other) = s.world.calls (2 * other) :=
    fun other ne => others (2 * other) (by omega)
  have results : ∀ other, other ≠ call → world.resultOf (2 * other) = s.world.resultOf (2 * other) := by
    intro other ne
    rw [World.resultOf, World.resultOf, calls other ne]
  have unregistered : ∀ other, ({ s with world := world, tasks := Function.update s.tasks call pc } :
      Connects Addr Ip Token).Unregistered other → s.Unregistered other := by
    intro other after
    by_cases same : other = call
    · subst same
      exact Or.inl here
    · simp only [Unregistered, tasks other same, results other same] at after
      exact after
  have known : ∀ other registration, world.resultOf (2 * other) = some (some registration) →
      s.world.resultOf (2 * other) = some (some registration) := by
    intro other registration result
    by_cases same : other = call
    · subst same
      rw [unknown] at result
      cases result
    · rw [results other same] at result
      exact result
  refine ⟨⟨inv.exclusive.locked, inv.exclusive.member, inv.exclusive.unique⟩, coherent, traced, ?_, ?_, ?_,
    fun other after => inv.waiting other (unregistered other after), ?_, ?_⟩
  · intro other early
    have absent := inv.early other early
    by_cases same : other = call
    · subst same
      rw [here] at absent
      cases absent
    · exact (tasks other same).trans absent
  · intro other after
    by_cases same : other = call
    · subst same
      exact polled ((Function.update_self ..).symm.trans after)
    · obtain ⟨inner, present⟩ := inv.polled other ((tasks other same).symm.trans after)
      exact ⟨inner, (calls other same).trans present⟩
  · intro other after
    by_cases same : other = call
    · subst same
      exact unpolled fun polled => after ((Function.update_self ..).trans polled)
    · refine (calls other same).trans (inv.unpolled other ?_)
      exact fun polled => after ((tasks other same).trans polled)
  · intro other pending target ne addrs registration result holds
    rw [shared] at holds
    refine inv.fresh other ?_ target ne addrs registration (known target registration result) holds
    exact pending.imp_right (Or.imp_right fun waits => ⟨waits.1, unregistered other waits.2⟩)
  · intro other checked target addrs registration result holds
    rw [shared] at holds
    exact inv.seen other checked target addrs registration (known target registration result) holds

theorem dropTask (inv : Settled addr ip sink s) (call : Nat) (here : s.tasks call = .spawned) :
    Settled addr ip sink { s with tasks := Function.update s.tasks call .gone } := by
  have idle := inv.unpolled call (by rw [here]; exact nofun)
  refine inv.task call here s.world .gone inv.coherent inv.traced rfl (fun _ _ => rfl) nofun
    (fun _ => idle) ?_
  rw [World.resultOf, idle]

end Settled

/-- The call has returned `Ok` with a connection that has this registration. -/
def Established (s : Connects Addr Ip Token) (call : Nat) (registration : TcpWriterRegistration Addr) :
    Prop :=
  s.calls call = .returned true ∧ s.world.resultOf (2 * call) = some (some registration)

/-- The task of no call displaces the connection that a call has returned. -/
def Undisplaced (s : Connects Addr Ip Token) (act : ConnectsAct Addr Token) : Prop :=
  ∀ task pick old, act = .registry (.advance (2 * task) pick) →
    s.world.Displaces (.advance (2 * task) pick) old → ∀ call, ¬ s.Established call old

theorem Settled.undisplaced (inv : Settled addr ip sink s) (act : ConnectsAct Addr Token) :
    s.Undisplaced act := by
  rintro task pick old - ⟨id, pick', a, own, writerId, entry, same, present, -, found, rfl⟩ call
    ⟨returned, known⟩
  cases same
  have polled : s.tasks task = .polled := by
    by_contra unpolled
    rw [inv.unpolled task unpolled] at present
    cases present
  obtain ⟨pc, args⟩ := inv.polled task polled
  have unknown : s.world.resultOf (2 * task) = none := World.resultOf_insert present
  rw [args] at present
  cases present
  have unregistered : s.Unregistered task := Or.inr ⟨polled, unknown⟩
  have ne : call ≠ task := by
    intro same
    subst same
    rw [unknown] at known
    cases known
  have there := ((inv.coherent.represents.lookup_eq_some_iff _ _).mp found).2
  have addrs : addr call = addr task := (inv.stored call _ known).1.symm.trans there
  refine inv.fresh task (Or.inr (Or.inr ⟨inv.waiting task unregistered, unregistered⟩)) call ne addrs
    entry.registration known ⟨entry.sink, ?_⟩
  rw [show entry.registration.remoteAddr = addr task from there]
  exact found

variable [DecidableEq Token]

/-- Everything a step can do. -/
inductive Move (addr : Nat → Addr) (ip : Addr → Ip) (sink : Nat → TcpPacketSink Token)
    (s : Connects Addr Ip Token) : ConnectsAct Addr Token → Connects Addr Ip Token → Prop where
  | same (act : ConnectsAct Addr Token) : Move addr ip sink s act s
  | registry (act : Act Addr Token) (allowed : whileOpen act = true) :
      Move addr ip sink s (.registry act) { s with world := s.world.step ip act }
  | quiet (act : ConnectsAct Addr Token) (call : Nat) (pc : ConnectPc)
      (holds : pc.holds = (s.calls call).holds) (unchecked : pc ≠ .checked)
      (free : s.calls call ≠ .checked) (early : pc.early = true → (s.calls call).early = true)
      (pending : pc = .reaping ∨ pc = .connecting → s.calls call = .reaping)
      (waiting : pc ≠ .awaitingReady)
      (registered : s.calls call = .awaitingReady → ¬ s.Unregistered call) :
      Move addr ip sink s act (s.setCall call pc)
  | check (call : Nat) (here : s.calls call = .starting) (free : s.peersLock = none)
      (missing : s.world.shared.registry.tcpWriters.lookup (addr call) = none) :
      Move addr ip sink s (.advance call) ({ s with peersLock := some call }.setCall call .checked)
  | refuse (call : Nat) (here : s.calls call = .checked) :
      Move addr ip sink s (.advance call) ({ s with peersLock := none }.setCall call (.returned false))
  | reserve (call : Nat) (here : s.calls call = .checked) (free : addr call ∉ s.connectingTcpPeers) :
      Move addr ip sink s (.advance call)
        ({ s with
          peersLock := none
          connectingTcpPeers := insert (addr call) s.connectingTcpPeers }.setCall call .reaping)
  | leave (act : ConnectsAct Addr Token) (call : Nat) (pc : ConnectPc) (free : s.peersLock = none)
      (held : (s.calls call).holds = true) (lets : pc.holds = false) (late : pc.early = false)
      (kept : act = .drop call ∨ s.calls call ≠ .awaitingReady) :
      Move addr ip sink s act
        ({ s with connectingTcpPeers := s.connectingTcpPeers.erase (addr call) }.setCall call pc)
  | spawn (call : Nat) (here : s.calls call = .connecting) :
      Move addr ip sink s (.spawn call)
        ({ s with tasks := Function.update s.tasks call .spawned }.setCall call .awaitingReady)
  | poll (call : Nat) (here : s.tasks call = .spawned) :
      Move addr ip sink s (.poll call)
        { s with
          world := s.world.step ip (.invoke (2 * call) (.insertTcpSink (addr call) (sink call)))
          tasks := Function.update s.tasks call .polled }
  | dropTask (call : Nat) (here : s.tasks call = .spawned) :
      Move addr ip sink s (.dropTask call) { s with tasks := Function.update s.tasks call .gone }

theorem Move.release (act : ConnectsAct Addr Token) (call : Nat) (pc : ConnectPc)
    (held : (s.calls call).holds = true) (lets : pc.holds = false) (late : pc.early = false)
    (kept : act = .drop call ∨ s.calls call ≠ .awaitingReady) :
    Move addr ip sink s act (s.release addr call pc) := by
  simp only [Connects.release]
  split
  · exact .same act
  · next free => exact .leave act call pc free held lets late kept

/-- A call passes from one place to the next. -/
theorem Move.passes (act : ConnectsAct Addr Token) (call : Nat) (before pc : ConnectPc)
    (here : s.calls call = before) (holds : pc.holds = before.holds)
    (free : before ≠ .checked ∧ pc ≠ .checked) (early : pc.early = true → before.early = true)
    (pending : pc = .reaping ∨ pc = .connecting → before = .reaping) (waiting : pc ≠ .awaitingReady)
    (registered : before = .awaitingReady → ¬ s.Unregistered call) :
    Move addr ip sink s act (s.setCall call pc) := by
  subst here
  exact .quiet act call pc holds free.2 free.1 early pending waiting registered

theorem Move.advance (call : Nat) : Move addr ip sink s (.advance call) (s.advance addr call) := by
  simp only [Connects.advance]
  split
  · next here =>
      split
      · exact .same _
      · next free =>
          split
          · exact .passes _ call .starting (.returned false) here rfl (by decide) (by decide) (by decide)
              (by decide) nofun
          · next missing =>
              refine .check call here free ?_
              simpa [hasTcpWriter] using missing
  · next here =>
      split
      · exact .refuse call here
      · next free => exact .reserve call here free
  · next here =>
      exact .passes _ call .reaping .connecting here rfl (by decide) (by decide) (by decide) (by decide) nofun
  · next here =>
      refine .release _ call (.returned true) (by rw [here]; rfl) rfl rfl (Or.inr ?_)
      rw [here]
      exact nofun
  · exact .same _

theorem Move.fail (call : Nat) : Move addr ip sink s (.fail call) (s.fail addr call) := by
  simp only [Connects.fail]
  split
  · next here =>
      exact .passes _ call .starting (.returned false) here rfl (by decide) (by decide) (by decide)
        (by decide) nofun
  · next here =>
      refine .release _ call (.returned false) (by rw [here]; rfl) rfl rfl (Or.inr ?_)
      rw [here]
      exact nofun
  · next here =>
      refine .release _ call (.returned false) (by rw [here]; rfl) rfl rfl (Or.inr ?_)
      rw [here]
      exact nofun
  · exact .same _

theorem Move.ready (call : Nat) : Move addr ip sink s (.ready call) (s.ready call) := by
  simp only [Connects.ready]
  split
  · next here gone =>
      refine .passes _ call .awaitingReady .unready here rfl (by decide) (by decide) (by decide) (by decide) ?_
      rintro - (spawned | ⟨polled, -⟩)
      · rw [gone] at spawned
        cases spawned
      · rw [gone] at polled
        cases polled
  · next here polled =>
      have registered : ∀ result, s.world.resultOf (2 * call) = some result → ¬ s.Unregistered call := by
        rintro result known (spawned | ⟨-, unknown⟩)
        · rw [polled] at spawned
          cases spawned
        · rw [unknown] at known
          cases known
      split
      · next present =>
          exact .passes _ call .awaitingReady .lockingState here rfl (by decide) (by decide) (by decide)
            (by decide) fun _ => registered _ (World.resultOf_insert present)
      · next present =>
          exact .passes _ call .awaitingReady .unready here rfl (by decide) (by decide) (by decide)
            (by decide) fun _ => registered _ (World.resultOf_insert present)
      · exact .same _
  · exact .same _

theorem step_move (addr : Nat → Addr) (ip : Addr → Ip) (sink : Nat → TcpPacketSink Token)
    (s : Connects Addr Ip Token) (act : ConnectsAct Addr Token) :
    Move addr ip sink s act (s.step addr ip sink act) := by
  cases act with
  | registry act =>
      simp only [step]
      split
      · next allowed => exact .registry act allowed
      · exact .same _
  | connect call =>
      simp only [step]
      split
      · next here =>
          exact .passes _ call .idle .starting here rfl (by decide) (by decide) (by decide) (by decide) nofun
      · exact .same _
  | advance call => exact .advance call
  | fail call => exact .fail call
  | spawn call =>
      simp only [step]
      split
      · next here => exact .spawn call here
      · exact .same _
  | poll call =>
      simp only [step]
      split
      · next here => exact .poll call here
      · exact .same _
  | dropTask call =>
      simp only [step]
      split
      · next here => exact .dropTask call here
      · exact .same _
  | ready call => exact .ready call
  | drop call =>
      simp only [step]
      split
      · next held => exact .release _ call .dropped held rfl rfl (Or.inl rfl)
      · exact .same _

theorem Exclusive.step (inv : Exclusive addr s) (ip : Addr → Ip) (sink : Nat → TcpPacketSink Token)
    (act : ConnectsAct Addr Token) :
    Exclusive addr (s.step addr ip sink act) := by
  have move := step_move addr ip sink s act
  generalize s.step addr ip sink act = t at move
  cases move with
  | same => exact inv
  | registry act allowed => exact ⟨inv.locked, inv.member, inv.unique⟩
  | quiet _ call pc holds unchecked free early pending waiting registered =>
      exact inv.move call pc rfl rfl (fun _ _ theirs => theirs) (fun checked => absurd checked unchecked) holds
  | check call here free missing =>
      refine inv.move call .checked rfl rfl ?_ (fun _ => rfl) (by rw [here]; rfl)
      intro other _ theirs
      rw [free] at theirs
      cases theirs
  | refuse call here =>
      refine inv.move call (.returned false) rfl rfl ?_ nofun (by rw [here]; rfl)
      intro other ne theirs
      rw [inv.locked call here] at theirs
      exact absurd (Option.some.inj theirs).symm ne
  | reserve call here free => exact inv.acquire call here free rfl rfl
  | leave _ call pc free held lets late kept =>
      refine inv.leave call pc held lets ?_ rfl rfl rfl
      intro checked
      rw [checked] at late
      cases late
  | spawn call here =>
      exact inv.move call .awaitingReady rfl rfl (fun _ _ theirs => theirs) nofun (by rw [here]; rfl)
  | poll call here => exact ⟨inv.locked, inv.member, inv.unique⟩
  | dropTask call here => exact ⟨inv.locked, inv.member, inv.unique⟩

namespace Settled

/-- A registry call of someone else, or a step of a registration. -/
theorem registry (inv : Settled addr ip sink s) (act : Act Addr Token) (allowed : whileOpen act = true) :
    Settled addr ip sink { s with world := s.world.step ip act } := by
  have unregistered : ∀ call, ({ s with world := s.world.step ip act } :
      Connects Addr Ip Token).Unregistered call → s.Unregistered call := by
    rintro call (spawned | ⟨polled, unknown⟩)
    · exact Or.inl spawned
    · refine Or.inr ⟨polled, ?_⟩
      cases known : s.world.resultOf (2 * call) with
      | none => rfl
      | some result => exact (World.resultOf_step act (2 * call) result known).symm.trans unknown
  have newly : ∀ call result, (s.world.step ip act).resultOf (2 * call) = some result →
      s.world.resultOf (2 * call) = some result ∨ s.calls call = .awaitingReady := by
    intro call result known
    refine (World.resultOf_back act (2 * call) result known).imp_right ?_
    rintro ⟨unknown, a, own, pc, present⟩
    refine inv.waiting call (Or.inr ⟨?_, unknown⟩)
    by_contra unpolled
    rw [inv.unpolled call unpolled] at present
    cases present
  have held : ∀ call registration, s.world.resultOf (2 * call) = some (some registration) →
      (s.world.step ip act).shared.registry.Holds registration → s.world.shared.registry.Holds registration := by
    intro call registration known after
    by_contra gone
    exact (World.Stale.step inv.coherent ⟨(inv.stored call registration known).2, gone⟩ act).2 after
  refine ⟨⟨inv.exclusive.locked, inv.exclusive.member, inv.exclusive.unique⟩, inv.coherent.step act,
    inv.traced.step act, inv.early, ?_, ?_, fun call after => inv.waiting call (unregistered call after), ?_, ?_⟩
  · intro call polled
    obtain ⟨pc, present⟩ := inv.polled call polled
    rcases s.world.step_calls ip act (2 * call) with same | ⟨request, -, idle, -⟩ | ⟨pick, before, was, -, now⟩
    · exact ⟨pc, same.trans present⟩
    · rw [idle] at present
      cases present
    · rw [was] at present
      cases present
      obtain ⟨next, stepped, -⟩ := Call.advance_insert ip s.world.shared pick (addr call) (sink call) pc
      exact ⟨next, by rw [now, stepped]⟩
  · intro call unpolled
    have idle := inv.unpolled call unpolled
    rcases s.world.step_calls ip act (2 * call) with same | ⟨request, rfl, -, -⟩ | ⟨pick, before, was, -, -⟩
    · exact same.trans idle
    · cases request <;> simp [whileOpen] at allowed
    · rw [idle] at was
      cases was
  · intro call pending other ne addrs registration known after
    have before : s.Pending call := by
      rcases pending with here | here | ⟨here, late⟩
      · exact Or.inl here
      · exact Or.inr (Or.inl here)
      · exact Or.inr (Or.inr ⟨here, unregistered call late⟩)
    rcases newly other _ known with old | waiting
    · exact inv.fresh call before other ne addrs registration old (held other registration old after)
    · exact ne (inv.exclusive.unique other call (by rw [waiting]; rfl) before.holds addrs)
  · intro call checked other addrs registration known after
    rcases newly other _ known with old | waiting
    · exact inv.seen call checked other addrs registration old (held other registration old after)
    · rw [waiting]
      rfl

theorem poll (inv : Settled addr ip sink s) (call : Nat) (here : s.tasks call = .spawned) :
    Settled addr ip sink { s with
      world := s.world.step ip (.invoke (2 * call) (.insertTcpSink (addr call) (sink call)))
      tasks := Function.update s.tasks call .polled } := by
  have idle := inv.unpolled call (by rw [here]; exact nofun)
  have own : (s.world.step ip (.invoke (2 * call) (.insertTcpSink (addr call) (sink call)))).calls (2 * call) =
      some (.insertTcpSink (addr call) (sink call) .start) := by
    rw [World.step_invoke ip _ _ _ idle, World.setCall_self]
    rfl
  refine inv.task call here _ .polled (inv.coherent.step _) (inv.traced.step _)
    (World.step_invoke_shared _ _ _) ?_ (fun _ => ⟨.start, own⟩) nofun (World.resultOf_insert own)
  intro id ne
  rw [World.step_invoke ip _ _ _ idle, World.setCall_of_ne _ _ _ _ _ ne]

end Settled

/-- What a caller must not do: drop the future of a `connect_tcp` whose task may still register. -/
def Kept (s : Connects Addr Ip Token) : ConnectsAct Addr Token → Prop
  | .drop call => ¬ s.Unregistered call
  | _ => True

theorem Settled.step (inv : Settled addr ip sink s) (act : ConnectsAct Addr Token) (kept : s.Kept act) :
    Settled addr ip sink (s.step addr ip sink act) := by
  have exclusive := inv.exclusive.step ip sink act
  have move := step_move addr ip sink s act
  generalize s.step addr ip sink act = t at exclusive move
  cases move with
  | same => exact inv
  | registry act allowed => exact inv.registry act allowed
  | quiet _ call pc holds unchecked free early pending waiting registered =>
      refine inv.move call pc s.peersLock s.connectingTcpPeers exclusive early ?_ ?_
        (fun checked => absurd checked unchecked) fun _ _ _ held => holds.trans held
      · intro unregistered
        exact absurd unregistered (registered (inv.waiting call unregistered))
      · rintro (here | here | ⟨here, -⟩)
        · exact inv.fresh call (Or.inl (pending (Or.inl here)))
        · exact inv.fresh call (Or.inl (pending (Or.inr here)))
        · exact absurd here waiting
  | check call here free missing =>
      refine inv.move call .checked (some call) s.connectingTcpPeers exclusive ?_ ?_ nofun ?_ ?_
      · rw [here]
        exact fun early => early
      · intro unregistered
        rw [inv.waiting call unregistered] at here
        cases here
      · rintro - registration addrs ⟨own, found⟩
        rw [addrs, missing] at found
        cases found
      · rw [here]
        exact fun _ _ _ => nofun
  | refuse call here =>
      refine inv.move call (.returned false) none s.connectingTcpPeers exclusive nofun ?_ nofun nofun ?_
      · intro unregistered
        rw [inv.waiting call unregistered] at here
        cases here
      · rw [here]
        exact fun _ _ _ => nofun
  | reserve call here free =>
      refine inv.move call .reaping none _ exclusive ?_ ?_ ?_ nofun fun _ _ _ _ => rfl
      · rw [here]
        exact fun early => early
      · intro unregistered
        rw [inv.waiting call unregistered] at here
        cases here
      · intro _ other ne addrs registration known holds
        have held := inv.seen call here other addrs registration known holds
        rw [← addrs] at free
        exact free (inv.exclusive.member other held)
  | leave _ call pc free held lets late left =>
      refine inv.move call pc s.peersLock _ exclusive ?_ ?_ ?_ ?_ ?_
      · rw [late]
        exact nofun
      · intro unregistered
        rcases left with rfl | elsewhere
        · exact absurd unregistered kept
        · exact absurd (inv.waiting call unregistered) elsewhere
      · rintro (here | here | ⟨here, -⟩) <;> rw [here] at lets <;> cases lets
      · intro here
        rw [here] at late
        cases late
      · intro other _ checked
        rw [inv.exclusive.locked other checked] at free
        cases free
  | spawn call here => exact inv.spawn call here exclusive
  | poll call here => exact inv.poll call here
  | dropTask call here => exact inv.dropTask call here

/-- In every run each address is reserved by one call at most. In a run where no future is dropped
whose task may still register, no task displaces a connection that a call has returned. -/
theorem established_connection_undisplaced (addr : Nat → Addr) (ip : Addr → Ip)
    (sink : Nat → TcpPacketSink Token) (acts : List (ConnectsAct Addr Token)) :
    let s := (Connects.init : Connects Addr Ip Token).run addr ip sink acts
    (∀ call other, (s.calls call).holds = true → (s.calls other).holds = true →
      addr call = addr other → call = other) ∧
    (Lib.Along (step addr ip sink) Kept (Connects.init : Connects Addr Ip Token) acts →
      Lib.Along (step addr ip sink) Undisplaced (Connects.init : Connects Addr Ip Token) acts) := by
  intro s
  constructor
  · have inv : Exclusive addr s := Lib.invariant_run (step addr ip sink) (Exclusive addr)
      (fun t act inv => inv.step ip sink act) Connects.init acts .init
    exact inv.unique
  · intro kept
    exact Lib.along_invariant (step addr ip sink) (Settled addr ip sink)
      (fun t act allowed inv => inv.step act allowed) (fun t act _ inv => inv.undisplaced act)
      Connects.init acts kept .init

/-- A call reserves its address, connects and spawns its task. -/
def spawns (call : Nat) : List (ConnectsAct Nat Nat) :=
  [.connect call, .advance call, .advance call, .advance call, .spawn call]

/-- The task of a call registers its writer. -/
def registers (call : Nat) : List (ConnectsAct Nat Nat) :=
  [.poll call, .registry (.advance (2 * call) 0), .registry (.advance (2 * call) 0),
    .registry (.advance (2 * call) 0), .registry (.advance (2 * call) 0)]

/-- The first call returns its connection, and the second is refused. -/
theorem established_connection_undisplaced_second_refused :
    let acts := spawns 0 ++ registers 0 ++ [.ready 0, .advance 0, .connect 1, .advance 1]
    let s := (Connects.init : Connects Nat Nat Nat).run (fun _ => 5) id .direct acts
    s.calls 0 = .returned true ∧ s.Established 0 ⟨5, 1⟩ ∧ s.world.shared.registry.Holds ⟨5, 1⟩ ∧
      s.calls 1 = .returned false ∧
      Lib.Along (step (fun _ => 5) id .direct) Undisplaced (Connects.init : Connects Nat Nat Nat) acts := by
  have kept : Lib.Along (step (fun _ => 5) id .direct) Kept (Connects.init : Connects Nat Nat Nat)
      (spawns 0 ++ registers 0 ++ [.ready 0, .advance 0, .connect 1, .advance 1]) :=
    Lib.along_of_mem _ _ _ fun act member t => by
      simp only [spawns, registers, List.cons_append, List.nil_append, List.mem_cons, List.not_mem_nil,
        or_false] at member
      rcases member with rfl | rfl | rfl | rfl | rfl | rfl | rfl | rfl | rfl | rfl | rfl | rfl | rfl | rfl <;>
        trivial
  exact ⟨rfl, ⟨rfl, rfl⟩, ⟨.direct 0, rfl⟩, rfl, (established_connection_undisplaced _ _ _ _).2 kept⟩

/-- The first call is dropped before its task is polled. The second reserves the address and returns
`Ok`; then the task of the first registers and displaces it. -/
theorem dropped_connect_displaces_established :
    let s := (Connects.init : Connects Nat Nat Nat).run (fun _ => 5) id .direct
      (spawns 0 ++ [.drop 0] ++ spawns 1 ++ registers 1 ++ [.ready 1, .advance 1, .poll 0,
        .registry (.advance 0 0), .registry (.advance 0 0)])
    s.Established 1 ⟨5, 1⟩ ∧ s.world.shared.registry.Holds ⟨5, 1⟩ ∧
      s.world.Displaces (.advance (2 * 0) 0) ⟨5, 1⟩ := by
  refine ⟨⟨rfl, rfl⟩, ⟨.direct 1, rfl⟩, 0, 0, 5, .direct 0, 2, ⟨⟨5, 1⟩, .direct 1⟩, rfl, rfl, rfl, rfl, rfl⟩

end Moves

end Connects

end Managed

end Pigs.Net.Rw
