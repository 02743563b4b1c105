import Pigs.Net.Rw.NoLeak

/-! The read side of one TCP connection, `handle_tcp_read_owned_half` as it runs inside
`run_managed_tcp_connection`, among any other calls on the same `PacketWriter`. -/

namespace Pigs.Net.Rw

/-! Insertions and the calls that made them. -/

section Traced

variable {Addr Ip Token : Type}

/-- Every stored entry is the result of the insert call that stored it, and the other way round. -/
structure Traced (w : World Addr Ip Token) : Prop where
  stored : ∀ i a sink pc registration, w.calls i = some (.insertTcpSink a sink pc) →
    pc.result = some (some registration) →
      registration.remoteAddr = a ∧ ⟨registration, sink⟩ ∈ insertions w.shared.sections
  caller : ∀ entry ∈ insertions w.shared.sections, ∃ i pc,
    w.calls i = some (.insertTcpSink entry.remoteAddr entry.sink pc) ∧
      pc.result = some (some entry.registration)

theorem Traced.new : Traced (World.new : World Addr Ip Token) where
  stored _ _ _ _ _ absent := by cases absent
  caller _ member := by cases member

variable [DecidableEq Addr] [DecidableEq Ip] [DecidableEq Token] {ip : Addr → Ip}
  {w : World Addr Ip Token}

/-- An insert call keeps its arguments. -/
theorem Call.advance_arguments (s : Shared Addr Ip Token) (pick : Nat) (call : Call Addr Token)
    (a : Addr) (sink : TcpPacketSink Token) (pc : InsertPc Addr Token)
    (next : (call.advance ip s pick).2 = .insertTcpSink a sink pc) :
    ∃ before, call = .insertTcpSink a sink before := by
  cases call with
  | insertTcpSink b own before =>
      cases before with
      | numbered id =>
          simp only [Call.advance] at next
          split_ifs at next <;> cases next <;> exact ⟨_, rfl⟩
      | start => cases next; exact ⟨_, rfl⟩
      | refused => cases next; exact ⟨_, rfl⟩
      | opened => cases next; exact ⟨_, rfl⟩
      | displacing previous registration => cases next; exact ⟨_, rfl⟩
      | returned result => cases next; exact ⟨_, rfl⟩
  | removeTcpWriter b expected before => cases before <;> cases next
  | close before =>
      cases before with
      | closing sinks =>
          simp only [Call.advance] at next
          cases chosen : sinks[pick]? with
          | none => simp [chosen] at next
          | some first => cases first <;> simp [chosen] at next
      | start => cases next
      | flagged => cases next
      | shutdown first sinks => cases next
      | returned => cases next

theorem Call.advance_insert (ip : Addr → Ip) (s : Shared Addr Ip Token) (pick : Nat) (a : Addr)
    (sink : TcpPacketSink Token) (pc : InsertPc Addr Token) :
    ∃ next, ((Call.insertTcpSink a sink pc).advance ip s pick).2 = .insertTcpSink a sink next ∧
      ∀ result, pc.result = some result → next.result = some result := by
  cases pc with
  | start => exact ⟨_, rfl, fun _ impossible => by cases impossible⟩
  | refused => exact ⟨_, rfl, fun _ impossible => by cases impossible⟩
  | opened => exact ⟨_, rfl, fun _ impossible => by cases impossible⟩
  | numbered id =>
      simp only [Call.advance]
      split_ifs
      · exact ⟨_, rfl, fun _ impossible => by cases impossible⟩
      · exact ⟨_, rfl, fun _ impossible => by cases impossible⟩
  | displacing previous registration => exact ⟨_, rfl, fun _ known => known⟩
  | returned result => exact ⟨_, rfl, fun _ known => known⟩

/-- A step stores an entry only for the call that then reports it. -/
theorem Call.advance_insertions (s : Shared Addr Ip Token) (pick : Nat) (call : Call Addr Token)
    (entry : RegisteredTcpSink Addr Token)
    (member : entry ∈ insertions (call.advance ip s pick).1.sections) :
    entry ∈ insertions s.sections ∨
      ∃ pc, (call.advance ip s pick).2 = .insertTcpSink entry.remoteAddr entry.sink pc ∧
        pc.result = some (some entry.registration) := by
  generalize after : (call.advance ip s pick).1 = t at member
  have touch : Touch ip s call t := after ▸ call.advance_touch ip s pick
  cases touch with
  | quiet => exact Or.inl member
  | close sink => exact Or.inl member
  | number a sink => exact Or.inl member
  | flag => exact Or.inl member
  | insert a sink id isOpen =>
      rw [insertions_append] at member
      rcases List.mem_append.mp member with old | new
      · exact Or.inl old
      · right
        obtain rfl : entry = ⟨⟨a, id⟩, sink⟩ := by simpa [insertions, insertedEntry] using new
        simp only [Call.advance, isOpen]
        exact ⟨_, rfl, rfl⟩
  | remove a expected =>
      left
      simp only at member
      split_ifs at member
      · simpa [insertions, insertedEntry] using member
      · exact member
  | clear =>
      left
      simpa [insertions, insertedEntry] using member

theorem Traced.advance (traced : Traced w) (k pick : Nat) (call : Call Addr Token)
    (present : w.calls k = some call) :
    Traced (w.setCall (call.advance ip w.shared pick).1 k
      (call.advance ip w.shared pick).2) := by
  have grow : ∀ entry, entry ∈ insertions w.shared.sections →
      entry ∈ insertions (call.advance ip w.shared pick).1.sections := by
    intro entry member
    rcases (call.advance_touch ip w.shared pick).sections with kept | ⟨last, grown⟩
    · rwa [kept]
    · rw [grown, insertions_append]
      exact List.mem_append_left _ member
  constructor
  · intro i a sink pc registration inserting known
    by_cases same : i = k
    · subst same
      rw [World.setCall_self] at inserting
      rcases call.advance_result w.shared pick a sink pc _ (Option.some.inj inserting) known with
        ⟨before, rfl, earlier⟩ | ⟨_, new, eq, addr, _, grown⟩ | ⟨impossible, _⟩
      · obtain ⟨addr, member⟩ := traced.stored i a sink before registration present earlier
        exact ⟨addr, grow _ member⟩
      · obtain rfl := Option.some.inj eq
        refine ⟨addr, ?_⟩
        rw [World.setCall_shared, grown, insertions_append]
        exact List.mem_append_right _ (by simp [insertions, insertedEntry])
      · cases impossible
    · rw [World.setCall_of_ne _ _ _ _ i same] at inserting
      obtain ⟨addr, member⟩ := traced.stored i a sink pc registration inserting known
      exact ⟨addr, grow _ member⟩
  · intro entry member
    rcases call.advance_insertions w.shared pick entry member with old | ⟨pc, next, known⟩
    · rcases traced.caller entry old with ⟨i, pc, inserting, known⟩
      by_cases same : i = k
      · subst same
        obtain rfl := Option.some.inj (present.symm.trans inserting)
        obtain ⟨after, next, keeps⟩ := Call.advance_insert ip w.shared pick entry.remoteAddr
          entry.sink pc
        exact ⟨i, after, by rw [World.setCall_self, next], keeps _ known⟩
      · exact ⟨i, pc, (w.setCall_of_ne _ _ _ i same).trans inserting, known⟩
    · exact ⟨k, pc, by rw [World.setCall_self, next], known⟩

theorem Traced.step (traced : Traced w) (act : Act Addr Token) : Traced (w.step ip act) := by
  refine World.step_elim ip w act traced ?_ traced.advance ?_
  · intro k request idle
    constructor
    · intro i a sink pc registration present known
      rcases w.calls_of_invoke k request i _ present with old | fresh
      · exact traced.stored i a sink pc registration old known
      · cases request <;> cases fresh
        cases known
    · intro entry member
      rcases traced.caller entry member with ⟨i, pc, inserting, known⟩
      have ne : i ≠ k := by
        intro equal
        subst equal
        rw [idle] at inserting
        cases inserting
      exact ⟨i, pc, (w.setCall_of_ne _ _ _ i ne).trans inserting, known⟩
  · intro token
    exact ⟨traced.stored, traced.caller⟩

end Traced

/-! The handler. -/

def MAX_BUF_SIZE : Nat := 2 * 1024 * 1024

/-- What a turn of the read loop wakes up with: the result of the read, with what the splitter
makes of the buffer if it gets to see it (the bytes it leaves there, or its own or a dispatch
error), or the cancellation. -/
inductive ReadTurn where
  | read (result : Except Unit Nat) (feed : Except Unit Nat)
  | cancelled
  deriving DecidableEq

inductive TurnEnd where
  | again (bufLen : Nat)
  | broke
  | failed
  deriving DecidableEq

/-- One turn of the loop, on a buffer that holds `bufLen` bytes. `failed` is the `?` after
`feed_owned`. -/
def readTurn (bufLen : Nat) : ReadTurn → TurnEnd
  | .read (.ok 0) _ => .broke
  | .read (.ok count) feed =>
      if MAX_BUF_SIZE < bufLen + count then
        .broke
      else
        match feed with
        | .ok rest => .again rest
        | .error _ => .failed
  | .read (.error _) _ => .broke
  | .cancelled => .broke

inductive HandlerError where
  | feed
  | close
  deriving DecidableEq

inductive HandlerPc (Addr : Type) where
  | idle
  | connecting
  | rejected
  | reading (registration : TcpWriterRegistration Addr) (bufLen : Nat)
  | removing (registration : TcpWriterRegistration Addr)
  | closing (registration : TcpWriterRegistration Addr)
  | returned (registration : TcpWriterRegistration Addr) (result : Except HandlerError Unit)

/-- `closes` counts the calls of `dispatcher.close` for this connection. -/
structure Connection (Addr Ip Token : Type) where
  world : World Addr Ip Token
  pc : HandlerPc Addr
  closes : Nat

/-- `registry` is a step of any registry call or token, and `proceed` takes the connection past a
registry call of its own that has returned. -/
inductive ConnectionAct (Addr Token : Type) where
  | registry (act : Act Addr Token)
  | connect
  | turn (turn : ReadTurn)
  | proceed
  | dispatcherClose (result : Except Unit Unit)

/-- The connection makes the registry calls 0 and 1 itself, and its token, a fresh child token, is
given to no other insert. -/
def Act.permitted {Addr Token : Type} [DecidableEq Token] (sink : TcpPacketSink Token) :
    Act Addr Token → Bool
  | .invoke id (.insertTcpSink _ other) => 2 ≤ id && other.token ≠ sink.token
  | .invoke id _ => 2 ≤ id
  | .advance _ _ => true
  | .cancel _ => true

theorem Act.not_permitted {Addr Token : Type} [DecidableEq Token] {sink : TcpPacketSink Token}
    (id : Nat) (request : Request Addr Token) (small : id < 2) :
    (Act.invoke id request).permitted sink = false := by
  cases request <;> simp [Act.permitted] <;> omega

namespace Connection

variable {Addr Ip Token : Type}

def new : Connection Addr Ip Token where
  world := World.new
  pc := .idle
  closes := 0

/-- The handler has left through the `?` after `feed_owned`. -/
def FeedExit (c : Connection Addr Ip Token) : Prop :=
  ∃ registration, c.pc = .returned registration (.error .feed)

theorem not_feedExit_new : ¬ (new : Connection Addr Ip Token).FeedExit := by
  intro found
  rcases found with ⟨_, absent⟩
  cases absent

variable [DecidableEq Addr] [DecidableEq Ip] [DecidableEq Token] (ip : Addr → Ip)
  (addr : Addr) (sink : TcpPacketSink Token)

/-- The exit of a turn. A `break` goes on to `remove_registered_tcp_writer`. -/
def leaveTurn (c : Connection Addr Ip Token) (registration : TcpWriterRegistration Addr) :
    TurnEnd → Connection Addr Ip Token
  | .again bufLen => { c with pc := .reading registration bufLen }
  | .broke =>
      { c with
        world := c.world.step ip (.invoke 1 (.removeRegisteredTcpWriter registration))
        pc := .removing registration }
  | .failed => { c with pc := .returned registration (.error .feed) }

def step (c : Connection Addr Ip Token) : ConnectionAct Addr Token → Connection Addr Ip Token
  | .registry act =>
      if act.permitted sink then { c with world := c.world.step ip act } else c
  | .connect =>
      match c.pc with
      | .idle =>
          { c with
            world := c.world.step ip (.invoke 0 (.insertTcpSink addr sink))
            pc := .connecting }
      | _ => c
  | .turn turn =>
      match c.pc with
      | .reading registration bufLen =>
          if turn = .cancelled ∧ c.world.shared.cancelled sink.token = false then
            c
          else
            c.leaveTurn ip registration (readTurn bufLen turn)
      | _ => c
  | .proceed =>
      match c.pc with
      | .connecting =>
          match c.world.calls 0 with
          | some (.insertTcpSink _ _ (.returned (some registration))) =>
              { c with pc := .reading registration 0 }
          | some (.insertTcpSink _ _ (.returned none)) => { c with pc := .rejected }
          | _ => c
      | .removing registration =>
          match c.world.calls 1 with
          | some (.removeTcpWriter _ _ .returned) => { c with pc := .closing registration }
          | _ => c
      | _ => c
  | .dispatcherClose result =>
      match c.pc with
      | .closing registration =>
          { c with
            pc := .returned registration (result.mapError fun _ => .close)
            closes := c.closes + 1 }
      | _ => c

def run (c : Connection Addr Ip Token) (acts : List (ConnectionAct Addr Token)) :
    Connection Addr Ip Token :=
  Lib.runFrom (step ip addr sink) c acts

end Connection

section Tracked

variable {Addr Ip Token : Type} [DecidableEq Addr]

/-- The insert call of the connection has returned the registration. -/
def World.Registered (w : World Addr Ip Token) (addr : Addr) (sink : TcpPacketSink Token)
    (registration : TcpWriterRegistration Addr) : Prop :=
  w.calls 0 = some (.insertTcpSink addr sink (.returned (some registration)))

/-- How far the calls of the connection are, and what has become of its registration. -/
def Connection.Stage (addr : Addr) (sink : TcpPacketSink Token) (w : World Addr Ip Token)
    (closes : Nat) : HandlerPc Addr → Prop
  | .idle => w.calls 0 = none ∧ w.calls 1 = none ∧ closes = 0
  | .connecting => (∃ pc, w.calls 0 = some (.insertTcpSink addr sink pc)) ∧ w.calls 1 = none ∧
      closes = 0
  | .rejected => True
  | .reading registration _ => w.Registered addr sink registration ∧ w.calls 1 = none ∧ closes = 0
  | .removing registration => w.Registered addr sink registration ∧ closes = 0 ∧
      ∃ pc, w.calls 1 = some (.removeTcpWriter registration.remoteAddr
        (some registration.writerId) pc) ∧
        (pc = .start ∨ ¬ w.shared.registry.Holds registration)
  | .closing registration => w.Registered addr sink registration ∧ closes = 0 ∧
      ¬ w.shared.registry.Holds registration
  | .returned registration (.error .feed) => w.Registered addr sink registration ∧ closes = 0
  | .returned registration _ => w.Registered addr sink registration ∧ closes = 1 ∧
      ¬ w.shared.registry.Holds registration

theorem World.Registered.stale {w : World Addr Ip Token} {addr : Addr} {sink : TcpPacketSink Token}
    {registration : TcpWriterRegistration Addr} (traced : Traced w)
    (registered : w.Registered addr sink registration)
    (gone : ¬ w.shared.registry.Holds registration) : w.Stale registration :=
  ⟨List.mem_map.mpr ⟨_, (traced.stored 0 addr sink _ registration registered rfl).2, rfl⟩, gone⟩

variable [DecidableEq Ip]

structure Tracked (ip : Addr → Ip) (addr : Addr) (sink : TcpPacketSink Token)
    (c : Connection Addr Ip Token) : Prop where
  coherent : Coherent ip c.world
  accounted : Accounted c.world
  traced : Traced c.world
  own : ∀ j a other pc, c.world.calls j = some (.insertTcpSink a other pc) →
    other.token = sink.token → j = 0
  stage : Connection.Stage addr sink c.world c.closes c.pc

theorem Tracked.new {ip : Addr → Ip} {addr : Addr} {sink : TcpPacketSink Token} :
    Tracked ip addr sink (Connection.new : Connection Addr Ip Token) where
  coherent := Coherent.new
  accounted := Accounted.new
  traced := Traced.new
  own _ _ _ _ absent := by cases absent
  stage := ⟨rfl, rfl, rfl⟩

/-- After its critical section a removal has taken the registration out, or it was not there. -/
theorem Coherent.remove_releases {ip : Addr → Ip} {w : World Addr Ip Token} (coh : Coherent ip w)
    (registration : TcpWriterRegistration Addr) :
    ¬ (w.shared.registry.removeTcpWriterInner ip registration.remoteAddr
      (some registration.writerId)).1.Holds registration := by
  rcases coh.represents.removeTcpWriterInner registration.remoteAddr (some registration.writerId)
    with ⟨missed, other⟩ | ⟨entry, _, _, _, after⟩
  · rw [missed]
    intro found
    rcases found with ⟨sink, found⟩
    rcases other _ found with ⟨id, same, differs⟩
    exact differs (Option.some.inj same).symm
  · rw [after.holds_iff]
    intro member
    rcases List.mem_map.mp member with ⟨entry, inside, rfl⟩
    exact ((Lib.mem_dropKeyed _ _ entry).mp inside).2 rfl

/-- A sink that was stored for the connection and is out of the registry is cancelled, or another
call still holds it. -/
theorem Tracked.cancelled_or_held {ip : Addr → Ip} {addr : Addr} {sink : TcpPacketSink Token}
    {c : Connection Addr Ip Token} (tracked : Tracked ip addr sink c)
    {registration : TcpWriterRegistration Addr}
    (registered : c.world.Registered addr sink registration)
    (gone : ¬ c.world.shared.registry.Holds registration) :
    c.world.shared.cancelled sink.token = true ∨
      ∃ j call, c.world.calls j = some call ∧ sink ∈ call.pending := by
  rcases tracked.accounted.settled 0 addr sink _ _ registered rfl with
    cancelled | ⟨other, found⟩ | held
  · exact Or.inl cancelled
  · -- only the connection's own insert can have stored this sink
    have member := ((tracked.coherent.represents.lookup_eq_some_iff addr _).mp found).1
    obtain ⟨i, pc, caller, known⟩ :=
      tracked.traced.caller _ ((live_sublist c.world.shared.sections).subset member)
    obtain rfl := tracked.own i _ _ pc caller rfl
    have same := Option.some.inj (registered.symm.trans caller)
    obtain ⟨rfl, rfl⟩ : pc = .returned (some registration) ∧ addr = other.remoteAddr := by
      cases same
      exact ⟨rfl, rfl⟩
    obtain rfl : registration = other := by simpa [InsertPc.result] using known
    exact absurd ⟨sink, found⟩ gone
  · exact Or.inr held

variable [DecidableEq Token] {ip : Addr → Ip} {addr : Addr} {sink : TcpPacketSink Token}
  {w : World Addr Ip Token}

theorem World.Registered.step {registration : TcpWriterRegistration Addr}
    (registered : w.Registered addr sink registration) (act : Act Addr Token) :
    (w.step ip act).Registered addr sink registration := by
  rcases w.step_calls ip act 0 with kept | ⟨request, _, idle, _⟩ | ⟨pick, call, present, _, next⟩
  · exact kept.trans registered
  · rw [registered] at idle
    cases idle
  · obtain rfl := Option.some.inj (registered.symm.trans present)
    exact next

theorem World.step_idle (act : Act Addr Token) (permitted : act.permitted sink = true) (id : Nat)
    (small : id < 2) (idle : w.calls id = none) : (w.step ip act).calls id = none := by
  rcases w.step_calls ip act id with kept | ⟨request, rfl, _, _⟩ | ⟨pick, call, present, _, _⟩
  · exact kept.trans idle
  · rw [Act.not_permitted id request small] at permitted
    cases permitted
  · rw [idle] at present
    cases present

/-- The next step of a teardown either leaves it waiting for the lock or finds the registration
gone. -/
theorem Coherent.teardown_step (coh : Coherent ip w) {registration : TcpWriterRegistration Addr}
    (once : registration ∈ (insertions w.shared.sections).map (·.registration))
    (act : Act Addr Token) (pc : RemovePc Token)
    (present : w.calls 1 = some (.removeTcpWriter registration.remoteAddr
      (some registration.writerId) pc))
    (waiting : pc = .start ∨ ¬ w.shared.registry.Holds registration) :
    ∃ next, (w.step ip act).calls 1 = some (.removeTcpWriter registration.remoteAddr
        (some registration.writerId) next) ∧
      (next = .start ∨ ¬ (w.step ip act).shared.registry.Holds registration) := by
  have stays : ¬ w.shared.registry.Holds registration →
      ¬ (w.step ip act).shared.registry.Holds registration :=
    fun gone => (World.Stale.step coh ⟨once, gone⟩ act).2
  rcases w.step_calls ip act 1 with kept | ⟨request, _, idle, _⟩ | ⟨pick, call, was, after, next⟩
  · exact ⟨pc, kept.trans present, waiting.imp_right stays⟩
  · rw [present] at idle
    cases idle
  · obtain rfl := Option.some.inj (present.symm.trans was)
    cases pc with
    | start =>
        refine ⟨_, next, Or.inr ?_⟩
        rw [after]
        exact coh.remove_releases registration
    | closing held => exact ⟨_, next, Or.inr (stays (waiting.resolve_left nofun))⟩
    | returned => exact ⟨_, next, Or.inr (stays (waiting.resolve_left nofun))⟩

theorem Connection.Stage.step {closes : Nat} {pc : HandlerPc Addr}
    (stage : Connection.Stage addr sink w closes pc) (coh : Coherent ip w) (traced : Traced w)
    (act : Act Addr Token) (permitted : act.permitted sink = true) :
    Connection.Stage addr sink (w.step ip act) closes pc := by
  have stays : ∀ {registration}, w.Registered addr sink registration →
      ¬ w.shared.registry.Holds registration →
      ¬ (w.step ip act).shared.registry.Holds registration :=
    fun registered gone => (World.Stale.step coh (registered.stale traced gone) act).2
  cases pc with
  | idle =>
      rcases stage with ⟨first, second, uncalled⟩
      exact ⟨World.step_idle act permitted 0 (by omega) first,
        World.step_idle act permitted 1 (by omega) second, uncalled⟩
  | connecting =>
      rcases stage with ⟨⟨pc, present⟩, second, uncalled⟩
      refine ⟨?_, World.step_idle act permitted 1 (by omega) second, uncalled⟩
      rcases w.step_calls ip act 0 with kept | ⟨request, _, idle, _⟩ | ⟨pick, call, was, _, next⟩
      · exact ⟨pc, kept.trans present⟩
      · rw [present] at idle
        cases idle
      · obtain rfl := Option.some.inj (present.symm.trans was)
        obtain ⟨after, eq, _⟩ := Call.advance_insert ip w.shared pick addr sink pc
        exact ⟨after, next.trans (congrArg some eq)⟩
  | rejected => trivial
  | reading registration bufLen =>
      rcases stage with ⟨registered, second, uncalled⟩
      exact ⟨registered.step act, World.step_idle act permitted 1 (by omega) second, uncalled⟩
  | removing registration =>
      rcases stage with ⟨registered, uncalled, pc, present, waiting⟩
      have once := (traced.stored 0 addr sink _ registration registered rfl).2
      exact ⟨registered.step act, uncalled, coh.teardown_step (List.mem_map.mpr ⟨_, once, rfl⟩) act pc
        present waiting⟩
  | closing registration =>
      rcases stage with ⟨registered, uncalled, gone⟩
      exact ⟨registered.step act, uncalled, stays registered gone⟩
  | returned registration result =>
      match result, stage with
      | .error .feed, ⟨registered, uncalled⟩ => exact ⟨registered.step act, uncalled⟩
      | .error .close, ⟨registered, once, gone⟩ =>
          exact ⟨registered.step act, once, stays registered gone⟩
      | .ok (), ⟨registered, once, gone⟩ =>
          exact ⟨registered.step act, once, stays registered gone⟩

/-- An act that starts no second insert with the token of the connection. -/
theorem World.own_step (act : Act Addr Token)
    (own : ∀ j a other pc, w.calls j = some (.insertTcpSink a other pc) →
      other.token = sink.token → j = 0)
    (single : ∀ j a other, act = .invoke j (.insertTcpSink a other) →
      other.token = sink.token → j = 0)
    (j : Nat) (a : Addr) (other : TcpPacketSink Token) (pc : InsertPc Addr Token)
    (present : (w.step ip act).calls j = some (.insertTcpSink a other pc))
    (same : other.token = sink.token) : j = 0 := by
  rcases w.step_calls ip act j with kept | ⟨request, rfl, _, fresh⟩ | ⟨pick, call, was, _, next⟩
  · exact own j a other pc (kept.symm.trans present) same
  · have eq := Option.some.inj (fresh.symm.trans present)
    cases request <;> cases eq
    exact single j a other rfl same
  · obtain ⟨before, rfl⟩ := call.advance_arguments w.shared pick a other pc
      (Option.some.inj (next.symm.trans present))
    exact own j a other before was same

theorem Tracked.move {c : Connection Addr Ip Token} (tracked : Tracked ip addr sink c)
    (act : Act Addr Token)
    (single : ∀ j a other, act = .invoke j (.insertTcpSink a other) →
      other.token = sink.token → j = 0)
    (pc : HandlerPc Addr) (stage : Connection.Stage addr sink (c.world.step ip act) c.closes pc) :
    Tracked ip addr sink { c with world := c.world.step ip act, pc := pc } where
  coherent := tracked.coherent.step act
  accounted := tracked.accounted.step tracked.coherent act
  traced := tracked.traced.step act
  own := World.own_step act tracked.own single
  stage := stage

theorem Tracked.registry {c : Connection Addr Ip Token} (tracked : Tracked ip addr sink c)
    (act : Act Addr Token) (permitted : act.permitted sink = true) :
    Tracked ip addr sink { c with world := c.world.step ip act } := by
  refine tracked.move act ?_ c.pc
    (tracked.stage.step tracked.coherent tracked.traced act permitted)
  rintro j a other rfl same
  simp [Act.permitted, same] at permitted

theorem Tracked.connect {c : Connection Addr Ip Token} (tracked : Tracked ip addr sink c)
    (idle : c.pc = .idle) :
    Tracked ip addr sink
      { c with
        world := c.world.step ip (.invoke 0 (.insertTcpSink addr sink))
        pc := .connecting } := by
  have stage := tracked.stage
  rw [idle] at stage
  rcases stage with ⟨first, second, uncalled⟩
  refine tracked.move _ ?_ .connecting ?_
  · intro j a other started _
    cases started
    rfl
  · rw [World.step_invoke ip c.world 0 _ first]
    exact ⟨⟨.start, World.setCall_self ..⟩, second, uncalled⟩

theorem Tracked.leaveTurn {c : Connection Addr Ip Token} (tracked : Tracked ip addr sink c)
    (registration : TcpWriterRegistration Addr) (bufLen : Nat)
    (reading : c.pc = .reading registration bufLen) (exit : TurnEnd) :
    Tracked ip addr sink (c.leaveTurn ip registration exit) := by
  have stage := tracked.stage
  rw [reading] at stage
  rcases stage with ⟨registered, second, uncalled⟩
  cases exit with
  | again rest =>
      exact ⟨tracked.coherent, tracked.accounted, tracked.traced, tracked.own,
        registered, second, uncalled⟩
  | failed =>
      exact ⟨tracked.coherent, tracked.accounted, tracked.traced, tracked.own,
        registered, uncalled⟩
  | broke =>
      refine tracked.move (.invoke 1 (.removeRegisteredTcpWriter registration)) nofun
        (.removing registration) ⟨registered.step _, uncalled, .start, ?_, Or.inl rfl⟩
      rw [World.step_invoke ip c.world 1 _ second]
      exact World.setCall_self ..

theorem Tracked.proceed {c : Connection Addr Ip Token} (tracked : Tracked ip addr sink c) :
    Tracked ip addr sink (c.step ip addr sink .proceed) := by
  have stage := tracked.stage
  simp only [Connection.step]
  cases pc : c.pc with
  | connecting =>
      rw [pc] at stage
      rcases stage with ⟨⟨before, present⟩, second, uncalled⟩
      simp only [present]
      cases before with
      | returned result =>
          cases result with
          | none =>
              exact ⟨tracked.coherent, tracked.accounted, tracked.traced, tracked.own, trivial⟩
          | some registration =>
              exact ⟨tracked.coherent, tracked.accounted, tracked.traced, tracked.own,
                present, second, uncalled⟩
      | start => exact tracked
      | refused => exact tracked
      | opened => exact tracked
      | numbered id => exact tracked
      | displacing previous registration => exact tracked
  | removing registration =>
      rw [pc] at stage
      rcases stage with ⟨registered, uncalled, before, present, waiting⟩
      simp only [present]
      cases before with
      | returned =>
          exact ⟨tracked.coherent, tracked.accounted, tracked.traced, tracked.own,
            registered, uncalled, waiting.resolve_left nofun⟩
      | start => exact tracked
      | closing held => exact tracked
  | idle => exact tracked
  | rejected => exact tracked
  | reading registration bufLen => exact tracked
  | closing registration => exact tracked
  | returned registration result => exact tracked

theorem Tracked.step {c : Connection Addr Ip Token} (tracked : Tracked ip addr sink c)
    (act : ConnectionAct Addr Token) : Tracked ip addr sink (c.step ip addr sink act) := by
  cases act with
  | registry act =>
      simp only [Connection.step]
      split_ifs with permitted
      · exact tracked.registry act permitted
      · exact tracked
  | connect =>
      simp only [Connection.step]
      split
      · next idle => exact tracked.connect idle
      · exact tracked
  | turn turn =>
      simp only [Connection.step]
      split
      · next registration bufLen reading =>
          split_ifs
          · exact tracked
          · exact tracked.leaveTurn registration bufLen reading _
      · exact tracked
  | proceed => exact tracked.proceed
  | dispatcherClose result =>
      simp only [Connection.step]
      split
      · next registration closing =>
          have stage := tracked.stage
          rw [closing] at stage
          rcases stage with ⟨registered, uncalled, gone⟩
          refine ⟨tracked.coherent, tracked.accounted, tracked.traced, tracked.own, ?_⟩
          cases result with
          | ok value => exact ⟨registered, by rw [uncalled], gone⟩
          | error failure => exact ⟨registered, by rw [uncalled], gone⟩
      · exact tracked

theorem Tracked.reachable (ip : Addr → Ip) (addr : Addr) (sink : TcpPacketSink Token)
    (acts : List (ConnectionAct Addr Token)) :
    Tracked ip addr sink ((Connection.new : Connection Addr Ip Token).run ip addr sink acts) :=
  Lib.invariant_run (Connection.step ip addr sink) (Tracked ip addr sink)
    (fun _ act inner => inner.step act) Connection.new acts Tracked.new

/-! Which exits clean up. -/

namespace Connection

/-- What the end of the handler promises. -/
structure CleanedUp (sink : TcpPacketSink Token) (c : Connection Addr Ip Token)
    (registration : TcpWriterRegistration Addr) : Prop where
  unregistered : ¬ c.world.shared.registry.Holds registration
  cancelled : c.world.shared.cancelled sink.token = true
  closedOnce : c.closes = 1

/-- The splitter, or the dispatcher it feeds, fails on data that the loop accepts. -/
def FeedFails (bufLen : Nat) (turn : ReadTurn) : Prop :=
  ∃ count failure, turn = .read (.ok (count + 1)) (.error failure) ∧
    bufLen + (count + 1) ≤ MAX_BUF_SIZE

def FeedFine (c : Connection Addr Ip Token) (act : ConnectionAct Addr Token) : Prop :=
  ∀ turn registration bufLen, act = .turn turn → c.pc = .reading registration bufLen →
    ¬ FeedFails bufLen turn

/-- No turn of the run is one on which feeding fails. -/
def FeedsSucceed (ip : Addr → Ip) (addr : Addr) (sink : TcpPacketSink Token)
    (acts : List (ConnectionAct Addr Token)) : Prop :=
  Lib.Along (step ip addr sink) FeedFine (new : Connection Addr Ip Token) acts

/-- Another registry call has taken the sink out and has not come to cancelling its token. -/
def SinkHeldOpen (sink : TcpPacketSink Token) (c : Connection Addr Ip Token) : Prop :=
  c.world.shared.cancelled sink.token = false ∧
    ∃ j call, c.world.calls j = some call ∧ sink ∈ call.pending

theorem readTurn_eq_failed_iff (bufLen : Nat) (turn : ReadTurn) :
    readTurn bufLen turn = .failed ↔ FeedFails bufLen turn := by
  constructor
  · intro failed
    match turn with
    | .cancelled => cases failed
    | .read (.error _) _ => cases failed
    | .read (.ok 0) _ => cases failed
    | .read (.ok (count + 1)) feed =>
        simp only [readTurn] at failed
        split_ifs at failed with large
        cases feed with
        | ok rest => cases failed
        | error failure => exact ⟨count, failure, rfl, by omega⟩
  · intro found
    rcases found with ⟨count, failure, rfl, small⟩
    have accepted : ¬ MAX_BUF_SIZE < bufLen + (count + 1) := by omega
    simp only [readTurn, if_neg accepted]

theorem FeedExit.step {c : Connection Addr Ip Token} (exit : c.FeedExit)
    (act : ConnectionAct Addr Token) : (c.step ip addr sink act).FeedExit := by
  rcases exit with ⟨registration, pc⟩
  refine ⟨registration, ?_⟩
  cases act with
  | registry act =>
      simp only [Connection.step]
      split_ifs <;> exact pc
  | connect => simp only [Connection.step, pc]
  | turn turn => simp only [Connection.step, pc]
  | proceed => simp only [Connection.step, pc]
  | dispatcherClose result => simp only [Connection.step, pc]

theorem FeedExit.of_fails {c : Connection Addr Ip Token}
    {registration : TcpWriterRegistration Addr} {bufLen : Nat} {turn : ReadTurn}
    (reading : c.pc = .reading registration bufLen) (fails : FeedFails bufLen turn) :
    (c.step ip addr sink (.turn turn)).FeedExit := by
  have failed := (readTurn_eq_failed_iff bufLen turn).mpr fails
  rcases fails with ⟨count, failure, rfl, _⟩
  refine ⟨registration, ?_⟩
  simp only [Connection.step, reading, failed]
  rfl

theorem FeedExit.back {c : Connection Addr Ip Token} (act : ConnectionAct Addr Token)
    (fine : FeedFine c act) (exit : (c.step ip addr sink act).FeedExit) : c.FeedExit := by
  rcases exit with ⟨registration, after⟩
  cases act with
  | registry act =>
      simp only [Connection.step] at after
      split_ifs at after <;> exact ⟨registration, after⟩
  | connect =>
      simp only [Connection.step] at after
      split at after
      · cases after
      · exact ⟨registration, after⟩
  | turn turn =>
      simp only [Connection.step] at after
      split at after
      · next own bufLen reading =>
          split_ifs at after
          · exact ⟨registration, after⟩
          · have accepted : readTurn bufLen turn ≠ .failed := fun failed =>
              fine turn own bufLen rfl reading ((readTurn_eq_failed_iff bufLen turn).mp failed)
            cases exitKind : readTurn bufLen turn with
            | failed => exact absurd exitKind accepted
            | again rest => rw [exitKind] at after; cases after
            | broke => rw [exitKind] at after; cases after
      · exact ⟨registration, after⟩
  | proceed =>
      simp only [Connection.step] at after
      split at after
      · split at after
        · cases after
        · cases after
        · exact ⟨registration, after⟩
      · split at after
        · cases after
        · exact ⟨registration, after⟩
      · exact ⟨registration, after⟩
  | dispatcherClose result =>
      simp only [Connection.step] at after
      split at after
      · cases result <;> cases after
      · exact ⟨registration, after⟩

/-- The handler leaves that way exactly if feeding fails on some turn. -/
theorem feedExit_iff (c : Connection Addr Ip Token) (acts : List (ConnectionAct Addr Token))
    (start : ¬ c.FeedExit) :
    (c.run ip addr sink acts).FeedExit ↔
      ¬ Lib.Along (Connection.step ip addr sink) FeedFine c acts := by
  induction acts generalizing c with
  | nil => simpa [Connection.run, Lib.Along] using start
  | cons act acts ih =>
      by_cases fine : FeedFine c act
      · have rest := ih (c.step ip addr sink act) fun exit => start (exit.back act fine)
        simpa [Connection.run, Lib.Along, fine] using rest
      · constructor
        · intro _ along
          exact fine along.1
        · intro _
          simp only [FeedFine, not_forall, not_not] at fine
          rcases fine with ⟨turn, registration, bufLen, rfl, reading, fails⟩
          exact Lib.invariant_run (Connection.step ip addr sink) FeedExit
            (fun _ act exit => exit.step act) _ acts (FeedExit.of_fails reading fails)

end Connection

/-- When the handler has returned, it has cleaned up exactly if feeding never failed and no other
registry call is still on its way to cancelling the token. -/
theorem read_handler_cleans_up_iff (ip : Addr → Ip) (addr : Addr) (sink : TcpPacketSink Token)
    (acts : List (ConnectionAct Addr Token)) (registration : TcpWriterRegistration Addr)
    (result : Except HandlerError Unit)
    (returned : ((Connection.new : Connection Addr Ip Token).run ip addr sink acts).pc =
      .returned registration result) :
    ((Connection.new : Connection Addr Ip Token).run ip addr sink acts).CleanedUp sink
        registration ↔
      Connection.FeedsSucceed ip addr sink acts ∧
        ¬ ((Connection.new : Connection Addr Ip Token).run ip addr sink acts).SinkHeldOpen
          sink := by
  set c := (Connection.new : Connection Addr Ip Token).run ip addr sink acts with cEq
  have tracked : Tracked ip addr sink c := Tracked.reachable ip addr sink acts
  have exits : c.FeedExit ↔ ¬ Connection.FeedsSucceed ip addr sink acts :=
    Connection.feedExit_iff Connection.new acts Connection.not_feedExit_new
  have stage := tracked.stage
  rw [returned] at stage
  by_cases feed : result = .error .feed
  · subst feed
    have failed := exits.mp ⟨registration, returned⟩
    rcases stage with ⟨_, uncalled⟩
    constructor
    · intro cleaned
      have once := cleaned.closedOnce
      rw [uncalled] at once
      cases once
    · exact fun fine => absurd fine.1 failed
  · have fine : Connection.FeedsSucceed ip addr sink acts := by
      by_contra failed
      rcases exits.mpr failed with ⟨other, pc⟩
      rw [returned] at pc
      cases pc
      exact feed rfl
    have ended : c.world.Registered addr sink registration ∧ c.closes = 1 ∧
        ¬ c.world.shared.registry.Holds registration := by
      match result, feed, stage with
      | .ok (), _, stage => exact stage
      | .error .close, _, stage => exact stage
    rcases ended with ⟨registered, once, gone⟩
    constructor
    · intro cleaned
      refine ⟨fine, ?_⟩
      intro found
      rcases found with ⟨alive, _⟩
      rw [cleaned.cancelled] at alive
      cases alive
    · intro found
      rcases found with ⟨_, notHeld⟩
      refine ⟨gone, ?_, once⟩
      rcases tracked.cancelled_or_held registered gone with cancelled | held
      · exact cancelled
      · by_contra alive
        exact notHeld ⟨by simpa using alive, held⟩

end Tracked

/-- A peer that closes its side is cleaned up after. -/
theorem read_handler_cleans_up_iff_eof :
    let acts : List (ConnectionAct Nat Nat) :=
      [.connect, .registry (.advance 0 0), .registry (.advance 0 0), .registry (.advance 0 0),
        .registry (.advance 0 0), .proceed, .turn (.read (.ok 3) (.ok 0)),
        .turn (.read (.ok 0) (.ok 0)), .registry (.advance 1 0), .registry (.advance 1 0), .proceed,
        .dispatcherClose (.ok ())]
    ((Connection.new : Connection Nat Nat Nat).run id 5 (.queued 0) acts).CleanedUp (.queued 0)
      ⟨5, 1⟩ := by
  intro acts
  refine (read_handler_cleans_up_iff id 5 (.queued 0) acts ⟨5, 1⟩ (.ok ()) rfl).mpr ⟨?_, ?_⟩
  · by_contra failed
    obtain ⟨_, exit⟩ :=
      (Connection.feedExit_iff Connection.new acts Connection.not_feedExit_new).mpr failed
    cases exit
  · intro found
    rcases found with ⟨alive, _⟩
    cases alive

/-- One byte on which the splitter fails: the handler returns with its writer registered, its
token alive, and the dispatcher never told. -/
theorem read_handler_leaks_on_feed_error :
    let c := (Connection.new : Connection Nat Nat Nat).run id 5 (.queued 0)
      [.connect, .registry (.advance 0 0), .registry (.advance 0 0), .registry (.advance 0 0),
        .registry (.advance 0 0), .proceed, .turn (.read (.ok 1) (.error ()))]
    c.pc = .returned ⟨5, 1⟩ (.error .feed) ∧ ¬ c.CleanedUp (.queued 0) ⟨5, 1⟩ ∧
      c.world.shared.registry.Holds ⟨5, 1⟩ ∧ c.world.shared.cancelled 0 = false ∧
      c.closes = 0 := by
  refine ⟨rfl, ?_, ⟨.queued 0, rfl⟩, rfl, rfl⟩
  intro cleaned
  cases cleaned.cancelled

end Pigs.Net.Rw
