import Pigs.Net.Rw.Managed.Endpoint

/-! Every registered connection is accounted for once. -/

namespace Pigs.Net.Rw.Managed

/-- The way of a connection: made by a call of `connect_tcp`, about to be put into
`active_connections`, there and owned by the endpoint, taken over by the call that finalizes it,
merged by it into the report, and removed. -/
inductive Phase where
  | absent
  | held (call : Nat)
  | storing (call : Nat)
  | owned
  | swapped (call : Nat)
  | merged (call : Nat)
  | gone

namespace Phase

def Flagged : Phase → Prop
  | .storing _ => True
  | .owned => True
  | _ => False

def Active : Phase → Prop
  | .owned => True
  | .swapped _ => True
  | .merged _ => True
  | _ => False

def Counted : Phase → Prop
  | .merged _ => True
  | .gone => True
  | _ => False

def Registered : Phase → Prop
  | .owned => True
  | .swapped _ => True
  | .merged _ => True
  | .gone => True
  | _ => False

theorem Active.registered {phase : Phase} (active : phase.Active) : phase.Registered := by
  cases phase with
  | owned => trivial
  | swapped call => trivial
  | merged call => trivial
  | _ => exact active.elim

end Phase

/-- The connection that a `close_and_wait` is about. -/
def ClosePc.target : ClosePc → Option Nat
  | .idle => none
  | .locking id => some id
  | .checking id => some id
  | .awaiting id => some id
  | .finalizing id _ => some id
  | .merging id _ => some id
  | .removing id _ => some id

namespace Endpoint

/-- The report of a connection. -/
def reportOf (s : Endpoint) (id : Nat) : NetworkCloseReport := (s.connections id).report

structure Books (s : Endpoint) (phase : Nat → Phase) : Prop where
  born : ∀ id, s.nextId ≤ id → phase id = .absent ∧ s.connections id = Connection.new
  flag : ∀ id, (s.connections id).owned = true ↔ (phase id).Flagged
  active : ∀ id, id ∈ s.active ↔ (phase id).Active
  activeOnce : s.active.Nodup
  registered : ∀ id, id ∈ s.registered ↔ (phase id).Registered
  registeredOnce : s.registered.Nodup
  counted : ∀ id, id ∈ s.taken ++ s.pending ↔ (phase id).Counted
  countedOnce : (s.taken ++ s.pending).Nodup
  finished : ∀ id, (phase id).Counted → (s.connections id).completed = true
  collected : s.collected = (s.pending.map s.reportOf).sum
  report : s.report = s.own + (s.taken.map s.reportOf).sum
  begun : s.begun = true → s.cancelled = true
  completed : s.completed = true → s.begun = true ∧ s.active = [] ∧ s.pending = []

/-- The endpoint's close has `close_state` and has cancelled the endpoint. -/
def Closing (s : Endpoint) (call : Nat) : Prop :=
  s.lock = some call ∧ s.completed = false ∧ s.begun = true

/-- What a call relies on at a stage. -/
def StageOk (s : Endpoint) (phase : Nat → Phase) (call : Nat) : Stage → Prop
  | .reaping rest => ∀ id ∈ rest, (phase id).Registered
  | .awaitingReady id => phase id = .held call
  | .lockingState id => phase id = .held call
  | .rejecting id => phase id = .held call
  | .checkingState id => s.lock = some call ∧ phase id = .held call
  | .registering id => s.lock = some call ∧ s.begun = false ∧ phase id = .held call
  | .inserting id => s.lock = some call ∧ s.begun = false ∧ phase id = .storing call
  | .checkingClose => s.lock = some call
  | .cancelling => s.lock = some call ∧ s.completed = false
  | .closingWriter => s.Closing call
  | .collecting => s.Closing call
  | .closingAll rest => s.Closing call ∧ ∀ id ∈ rest, (phase id).Registered
  | .taking => s.Closing call ∧ s.active = []
  | .awaitingRoot => s.Closing call ∧ s.active = [] ∧ s.pending = []
  | .closed id result =>
      (s.connections id).completed = true ∧ result = closeReportResult (s.reportOf id)
  | .endpointClosed result => s.completed = true ∧ result = closeReportResult s.report
  | _ => True

/-- A call closes registered connections, and the one that it could not register. -/
def Known (phase : Nat → Phase) (call id : Nat) : Prop :=
  (phase id).Registered ∨ phase id = .held call

/-- What a `close_and_wait` of a connection relies on. -/
def CloseOk (s : Endpoint) (phase : Nat → Phase) (call : Nat) : ClosePc → Prop
  | .idle => True
  | .locking id => Known phase call id
  | .checking id => Known phase call id ∧ (s.connections id).lock = some call
  | .awaiting id => Known phase call id ∧ (s.connections id).lock = some call ∧
      (s.connections id).completed = false
  | .finalizing id report => Known phase call id ∧ (s.connections id).completed = true ∧
      report = s.reportOf id
  | .merging id report => phase id = .swapped call ∧ (s.connections id).completed = true ∧
      report = s.reportOf id
  | .removing id report => phase id = .merged call ∧ (s.connections id).completed = true ∧
      report = s.reportOf id

structure CallOk (s : Endpoint) (phase : Nat → Phase) (call : Nat) (stage : Stage) (close : ClosePc) :
    Prop where
  outer : s.StageOk phase call stage
  inner : s.CloseOk phase call close
  own : ∀ id, stage = .closing id → close.target = some id

/-- What a step leaves to the stage of a call, be it a step of that call or of another. -/
structure Steady (s t : Endpoint) (phase phase' : Nat → Phase) (call : Nat) : Prop where
  lock : s.lock = some call → t.lock = some call
  held : ∀ id, phase id = .held call ∨ phase id = .storing call → phase' id = phase id
  registered : ∀ id, (phase id).Registered → (phase' id).Registered
  guarded : s.lock = some call → t.begun = s.begun ∧ t.completed = s.completed ∧
    (s.active = [] → t.active = [] ∧ (s.pending = [] → t.pending = []))
  finished : ∀ id, (s.connections id).completed = true →
    (t.connections id).completed = true ∧ t.reportOf id = s.reportOf id
  completed : s.completed = true → t.completed = true ∧ t.report = s.report

/-- What a step of one call leaves to another. -/
structure Rely (s t : Endpoint) (phase phase' : Nat → Phase) (other : Nat) : Prop
    extends Steady s t phase phase' other where
  closeLock : ∀ id, (s.connections id).lock = some other →
    (t.connections id).lock = some other ∧
      (t.connections id).completed = (s.connections id).completed
  finalizes : ∀ id, phase id = .swapped other ∨ phase id = .merged other → phase' id = phase id

/-- The endpoint's close does not go on by the step. -/
def SameState (s t : Endpoint) : Prop :=
  (t.begun, t.completed, t.pending, t.report) = (s.begun, s.completed, s.pending, s.report)

/-- Nothing is collected or taken by the step either. -/
def SameReports (s t : Endpoint) : Prop :=
  SameState s t ∧ (t.cancelled, t.taken, t.collected, t.own) = (s.cancelled, s.taken, s.collected, s.own)

structure Sound (s : Endpoint) (phase : Nat → Phase) : Prop where
  books : s.Books phase
  calls : ∀ call, s.CallOk phase call (s.calls call).stage (s.calls call).close

variable {s t : Endpoint} {phase phase' : Nat → Phase}

namespace SameState

theorem begun (same : SameState s t) : t.begun = s.begun := congrArg (·.1) same

theorem completed (same : SameState s t) : t.completed = s.completed := congrArg (·.2.1) same

theorem pending (same : SameState s t) : t.pending = s.pending := congrArg (·.2.2.1) same

theorem report (same : SameState s t) : t.report = s.report := congrArg (·.2.2.2) same

end SameState

namespace SameReports

theorem cancelled (same : SameReports s t) : t.cancelled = s.cancelled := congrArg (·.1) same.2

theorem taken (same : SameReports s t) : t.taken = s.taken := congrArg (·.2.1) same.2

theorem collected (same : SameReports s t) : t.collected = s.collected := congrArg (·.2.2.1) same.2

theorem own (same : SameReports s t) : t.own = s.own := congrArg (·.2.2.2) same.2

end SameReports

namespace Steady

variable {call : Nat}

theorem of_held (steady : Steady s t phase phase' call) (id : Nat) (here : phase id = .held call) :
    phase' id = .held call := by
  rw [steady.held id (Or.inl here), here]

theorem known (steady : Steady s t phase phase' call) (id : Nat) (known : Known phase call id) :
    Known phase' call id :=
  known.imp (steady.registered id) (steady.of_held id)

theorem closing (steady : Steady s t phase phase' call) (closing : s.Closing call) :
    t.Closing call := by
  rcases closing with ⟨locked, running, begun⟩
  obtain ⟨same, still, -⟩ := steady.guarded locked
  exact ⟨steady.lock locked, still.trans running, same.trans begun⟩

theorem told (steady : Steady s t phase phase' call) (id : Nat) (report : NetworkCloseReport)
    (told : (s.connections id).completed = true ∧ report = s.reportOf id) :
    (t.connections id).completed = true ∧ report = t.reportOf id := by
  obtain ⟨completed, same⟩ := steady.finished id told.1
  exact ⟨completed, by rw [same, told.2]⟩

theorem stage (steady : Steady s t phase phase' call) (stage : Stage)
    (ok : s.StageOk phase call stage) : t.StageOk phase' call stage := by
  cases stage with
  | reaping rest => exact fun id member => steady.registered id (ok id member)
  | awaitingReady id => exact steady.of_held id ok
  | lockingState id => exact steady.of_held id ok
  | rejecting id => exact steady.of_held id ok
  | checkingState id => exact ⟨steady.lock ok.1, steady.of_held id ok.2⟩
  | registering id =>
      exact ⟨steady.lock ok.1, (steady.guarded ok.1).1.trans ok.2.1, steady.of_held id ok.2.2⟩
  | inserting id =>
      refine ⟨steady.lock ok.1, (steady.guarded ok.1).1.trans ok.2.1, ?_⟩
      rw [steady.held id (Or.inr ok.2.2)]
      exact ok.2.2
  | checkingClose => exact steady.lock ok
  | cancelling => exact ⟨steady.lock ok.1, (steady.guarded ok.1).2.1.trans ok.2⟩
  | closingWriter => exact steady.closing ok
  | collecting => exact steady.closing ok
  | closingAll rest =>
      exact ⟨steady.closing ok.1, fun id member => steady.registered id (ok.2 id member)⟩
  | taking => exact ⟨steady.closing ok.1, ((steady.guarded ok.1.1).2.2 ok.2).1⟩
  | awaitingRoot =>
      obtain ⟨empty, drained⟩ := (steady.guarded ok.1.1).2.2 ok.2.1
      exact ⟨steady.closing ok.1, empty, drained ok.2.2⟩
  | closed id result =>
      obtain ⟨completed, same⟩ := steady.finished id ok.1
      exact ⟨completed, by rw [same]; exact ok.2⟩
  | endpointClosed result =>
      obtain ⟨completed, same⟩ := steady.completed ok.1
      exact ⟨completed, by rw [same]; exact ok.2⟩
  | _ => trivial

/-- A step that leaves the endpoint's own data alone. -/
theorem ofConnections (held : ∀ id, phase id = .held call ∨ phase id = .storing call → phase' id = phase id)
    (registered : ∀ id, (phase id).Registered → (phase' id).Registered)
    (finished : ∀ id, (s.connections id).completed = true →
      (t.connections id).completed = true ∧ t.reportOf id = s.reportOf id)
    (lock : t.lock = s.lock) (active : t.active = s.active) (same : SameState s t) :
    Steady s t phase phase' call where
  lock before := lock.trans before
  held := held
  registered := registered
  guarded _ := by
    refine ⟨same.begun, same.completed, ?_⟩
    rw [active, same.pending]
    exact fun empty => ⟨empty, fun drained => drained⟩
  finished := finished
  completed before := ⟨same.completed.trans before, same.report⟩

/-- A step of the call that holds `close_state`, or of one that takes it. -/
theorem ofHolder (free : s.lock ≠ some call)
    (held : ∀ id, phase id = .held call ∨ phase id = .storing call → phase' id = phase id)
    (registered : ∀ id, (phase id).Registered → (phase' id).Registered)
    (finished : ∀ id, (s.connections id).completed = true →
      (t.connections id).completed = true ∧ t.reportOf id = s.reportOf id)
    (completed : s.completed = true → t.completed = true ∧ t.report = s.report) :
    Steady s t phase phase' call where
  lock before := absurd before free
  held := held
  registered := registered
  guarded before := absurd before free
  finished := finished
  completed := completed

end Steady

/-- Only one connection changes, and it keeps its report once it is completed. -/
theorem finished_update (id : Nat) (connection : Connection)
    (connections : t.connections = Function.update s.connections id connection)
    (keeps : (s.connections id).completed = true →
      connection.completed = true ∧ connection.report = s.reportOf id) (target : Nat)
    (before : (s.connections target).completed = true) :
    (t.connections target).completed = true ∧ t.reportOf target = s.reportOf target := by
  rw [reportOf, connections]
  by_cases same : target = id
  · subst same
    rw [Function.update_self]
    exact keeps before
  · rw [Function.update_of_ne same]
    exact ⟨before, rfl⟩

theorem registered_update (id : Nat) (now : Phase)
    (keeps : (phase id).Registered → now.Registered) (target : Nat)
    (registered : (phase target).Registered) : (Function.update phase id now target).Registered := by
  by_cases same : target = id
  · subst same
    rw [Function.update_self]
    exact keeps registered
  · rw [Function.update_of_ne same]
    exact registered

/-- A phase changes that is neither of two. -/
theorem phase_update {was : Phase} (id : Nat) (now one two : Phase) (before : phase id = was)
    (notOne : was ≠ one) (notTwo : was ≠ two) (target : Nat)
    (here : phase target = one ∨ phase target = two) : Function.update phase id now target = phase target := by
  subst before
  have apart : target ≠ id := by
    intro same
    subst same
    exact here.elim notOne notTwo
  exact Function.update_of_ne apart ..

namespace Rely

variable {other : Nat}

theorem close (rely : Rely s t phase phase' other) (close : ClosePc)
    (ok : s.CloseOk phase other close) : t.CloseOk phase' other close := by
  cases close with
  | idle => trivial
  | locking id => exact rely.known id ok
  | checking id => exact ⟨rely.known id ok.1, (rely.closeLock id ok.2).1⟩
  | awaiting id =>
      obtain ⟨locked, same⟩ := rely.closeLock id ok.2.1
      exact ⟨rely.known id ok.1, locked, same.trans ok.2.2⟩
  | finalizing id report => exact ⟨rely.known id ok.1, rely.told id report ok.2⟩
  | merging id report =>
      refine ⟨?_, rely.told id report ok.2⟩
      rw [rely.finalizes id (Or.inl ok.1)]
      exact ok.1
  | removing id report =>
      refine ⟨?_, rely.told id report ok.2⟩
      rw [rely.finalizes id (Or.inr ok.1)]
      exact ok.1

/-- A step that touches no connection and no phase. -/
theorem ofSteady (steady : Steady s t phase phase other) (connections : t.connections = s.connections) :
    Rely s t phase phase other where
  toSteady := steady
  closeLock id held := by
    rw [connections]
    exact ⟨held, rfl⟩
  finalizes _ _ := rfl

/-- A step that changes one connection, and not its lock if the other call holds it. -/
theorem ofConnection (steady : Steady s t phase phase' other) (id : Nat) (connection : Connection)
    (connections : t.connections = Function.update s.connections id connection)
    (locked : (s.connections id).lock = some other → connection.lock = some other ∧
      connection.completed = (s.connections id).completed)
    (finalizes : ∀ target, phase target = .swapped other ∨ phase target = .merged other →
      phase' target = phase target) : Rely s t phase phase' other where
  toSteady := steady
  closeLock target held := by
    rw [connections]
    by_cases same : target = id
    · subst same
      rw [Function.update_self]
      exact locked held
    · rw [Function.update_of_ne same]
      exact ⟨held, rfl⟩
  finalizes := finalizes

end Rely

/-- A property that follows the phase of one connection as it changes. -/
theorem iff_update {P : Phase → Prop} {before after : Nat → Prop} (phase : Nat → Phase) (id : Nat)
    (now : Phase) (holds : ∀ target, before target ↔ P (phase target))
    (others : ∀ target, target ≠ id → (after target ↔ before target)) (here : after id ↔ P now) :
    ∀ target, after target ↔ P (Function.update phase id now target) := by
  refine (Function.forall_update_iff phase fun target now => after target ↔ P now).mpr ⟨here, ?_⟩
  intro target ne
  rw [others target ne]
  exact holds target

theorem sum_reports (ids : List Nat) (same : ∀ id ∈ ids, t.reportOf id = s.reportOf id) :
    (ids.map t.reportOf).sum = (ids.map s.reportOf).sum := by
  rw [List.map_congr_left same]

namespace Books

/-- One connection changes and takes another phase; the lists follow. -/
theorem update (books : s.Books phase) (id : Nat) (now : Phase) (connection : Connection)
    (connections : t.connections = Function.update s.connections id connection)
    (flag : connection.owned = true ↔ now.Flagged)
    (active : id ∈ t.active ↔ now.Active)
    (registered : id ∈ t.registered ↔ now.Registered)
    (counted : now.Counted ↔ (phase id).Counted)
    (finished : now.Counted → connection.completed = true)
    (report : now.Counted → connection.report = s.reportOf id)
    (activeOthers : ∀ target, target ≠ id → (target ∈ t.active ↔ target ∈ s.active))
    (activeOnce : t.active.Nodup)
    (registeredOthers : ∀ target, target ≠ id → (target ∈ t.registered ↔ target ∈ s.registered))
    (registeredOnce : t.registered.Nodup)
    (born : s.nextId ≤ t.nextId) (made : id < t.nextId) (reports : SameReports s t)
    (empty : s.completed = true → s.active = [] → t.active = []) :
    t.Books (Function.update phase id now) := by
  have same : ∀ target ∈ s.taken ++ s.pending, t.reportOf target = s.reportOf target := by
    intro target member
    rw [reportOf, connections]
    by_cases here : target = id
    · subst here
      rw [Function.update_self]
      exact report (counted.mpr ((books.counted target).mp member))
    · rw [Function.update_of_ne here]
      rfl
  constructor
  · intro target later
    have ne : target ≠ id := (made.trans_le later).ne'
    rw [connections, Function.update_of_ne ne, Function.update_of_ne ne]
    exact books.born target (born.trans later)
  · apply iff_update phase id now books.flag
    · intro target ne
      rw [connections, Function.update_of_ne ne]
    · rw [connections, Function.update_self]
      exact flag
  · exact iff_update phase id now books.active activeOthers active
  · exact activeOnce
  · exact iff_update phase id now books.registered registeredOthers registered
  · exact registeredOnce
  · rw [reports.1.pending, reports.taken]
    apply iff_update phase id now books.counted fun _ _ => Iff.rfl
    rw [counted]
    exact books.counted id
  · rw [reports.1.pending, reports.taken]
    exact books.countedOnce
  · intro target there
    rw [connections]
    by_cases here : target = id
    · subst here
      rw [Function.update_self] at there ⊢
      exact finished there
    · rw [Function.update_of_ne here] at there ⊢
      exact books.finished target there
  · rw [reports.collected, reports.1.pending, sum_reports s.pending fun target member =>
      same target (List.mem_append_right _ member)]
    exact books.collected
  · rw [reports.1.report, reports.own, reports.taken, sum_reports s.taken fun target member =>
      same target (List.mem_append_left _ member)]
    exact books.report
  · rw [reports.1.begun, reports.cancelled]
    exact books.begun
  · rw [reports.1.completed, reports.1.begun, reports.1.pending]
    intro done
    obtain ⟨before, noneActive, nonePending⟩ := books.completed done
    exact ⟨before, empty done noneActive, nonePending⟩

/-- A connection changes in its phase. -/
theorem connection (books : s.Books phase) (id : Nat) (connection : Connection)
    (made : id < s.nextId) (owned : connection.owned = (s.connections id).owned)
    (finished : (phase id).Counted →
      connection.completed = true ∧ connection.report = s.reportOf id) :
    (s.setConnection id connection).Books phase := by
  rw [← Function.update_eq_self id phase]
  exact books.update id (phase id) connection rfl (by rw [owned]; exact books.flag id)
    (books.active id) (books.registered id) Iff.rfl (fun counted => (finished counted).1)
    (fun counted => (finished counted).2) (fun _ _ => Iff.rfl) books.activeOnce (fun _ _ => Iff.rfl)
    books.registeredOnce le_rfl made ⟨rfl, rfl⟩ fun _ empty => empty

/-- A connection that has a phase has been made. -/
theorem made (books : s.Books phase) (id : Nat) (now : Phase) (here : phase id = now)
    (present : now ≠ .absent) : id < s.nextId := by
  by_contra late
  rw [(books.born id (Nat.le_of_not_lt late)).1] at here
  exact present here.symm

theorem made_of_known (books : s.Books phase) (call id : Nat) (known : Known phase call id) :
    id < s.nextId := by
  rcases known with registered | held
  · apply books.made id _ rfl
    intro absent
    rw [absent] at registered
    exact registered
  · exact books.made id _ held nofun

theorem unlisted (books : s.Books phase) (id : Nat) (now : Phase) (here : phase id = now)
    (outside : ¬ now.Registered) : id ∉ s.active ∧ id ∉ s.registered := by
  rw [books.active, books.registered, here]
  exact ⟨fun active => outside active.registered, outside⟩

end Books

namespace Sound

/-- What a call relies on at its stage. -/
theorem outer (inv : Sound s phase) (call : Nat) {stage : Stage} (here : (s.calls call).stage = stage) :
    s.StageOk phase call stage := by
  subst here
  exact (inv.calls call).outer

theorem inner (inv : Sound s phase) (call : Nat) {close : ClosePc} (here : (s.calls call).close = close) :
    s.CloseOk phase call close := by
  subst here
  exact (inv.calls call).inner

/-- A step of one call. -/
theorem act (inv : Sound s phase) (call : Nat) (stage : Stage) (close : ClosePc)
    (calls : t.calls = Function.update s.calls call ⟨stage, close⟩) (books : t.Books phase')
    (mine : t.CallOk phase' call stage close)
    (rely : ∀ other, other ≠ call → Rely s t phase phase' other) : Sound t phase' := by
  refine ⟨books, ?_⟩
  intro other
  rw [calls]
  by_cases same : other = call
  · subst same
    rw [Function.update_self]
    exact mine
  · rw [Function.update_of_ne same]
    have ok := inv.calls other
    exact ⟨(rely other same).stage _ ok.outer, (rely other same).close _ ok.inner, ok.own⟩

/-- A step of the surroundings. -/
theorem outside (inv : Sound s phase) (calls : t.calls = s.calls) (books : t.Books phase)
    (rely : ∀ other, Rely s t phase phase other) : Sound t phase := by
  refine ⟨books, ?_⟩
  intro other
  rw [calls]
  have ok := inv.calls other
  exact ⟨(rely other).stage _ ok.outer, (rely other).close _ ok.inner, ok.own⟩

theorem same_steady (call : Nat) (connections : t.connections = s.connections) (lock : t.lock = s.lock)
    (active : t.active = s.active) (same : SameState s t) : Steady s t phase phase call := by
  apply Steady.ofConnections (fun _ _ => rfl) (fun _ registered => registered) _ lock active same
  intro id before
  rw [reportOf, connections]
  exact ⟨before, rfl⟩

/-- A call moves on and touches nothing else. -/
theorem moves (inv : Sound s phase) (call : Nat) (stage : Stage) (close : ClosePc)
    (mine : s.CallOk phase call stage close) : Sound (s.setCall call stage close) phase := by
  have rely : ∀ other, Rely s (s.setCall call stage close) phase phase other := fun other =>
    Rely.ofSteady (same_steady other rfl rfl rfl rfl) rfl
  exact inv.act call stage close rfl { inv.books with }
    ⟨(rely call).stage _ mine.outer, (rely call).close _ mine.inner, mine.own⟩ fun other _ => rely other

theorem init : Sound Endpoint.init fun _ => .absent where
  books :=
    { born := fun _ _ => ⟨rfl, rfl⟩
      flag := fun _ => iff_of_false nofun nofun
      active := fun _ => iff_of_false nofun nofun
      activeOnce := List.nodup_nil
      registered := fun _ => iff_of_false nofun nofun
      registeredOnce := List.nodup_nil
      counted := fun _ => iff_of_false nofun nofun
      countedOnce := List.nodup_nil
      finished := nofun
      collected := rfl
      report := rfl
      begun := nofun
      completed := nofun }
  calls _ := ⟨trivial, trivial, nofun⟩

/-- A step of a `close_and_wait` that changes its connection in its phase. -/
theorem closes (inv : Sound s phase) (call id : Nat) (connection : Connection) (close : ClosePc)
    (known : Known phase call id)
    (free : ∀ other, other ≠ call → (s.connections id).lock ≠ some other)
    (owned : connection.owned = (s.connections id).owned)
    (keeps : (s.connections id).completed = true →
      connection.completed = true ∧ connection.report = s.reportOf id)
    (inner : (s.setConnection id connection).CloseOk phase call close)
    (own : ∀ target, (s.calls call).stage = .closing target → close.target = some target) :
    Sound ((s.setConnection id connection).setCall call (s.calls call).stage close) phase := by
  have books : (s.setConnection id connection).Books phase :=
    inv.books.connection id connection (inv.books.made_of_known call id known) owned fun counted =>
      keeps (inv.books.finished id counted)
  have steady : ∀ any, Steady s ((s.setConnection id connection).setCall call (s.calls call).stage close)
      phase phase any := fun any =>
    Steady.ofConnections (fun _ _ => rfl) (fun _ registered => registered)
      (finished_update id connection rfl keeps) rfl rfl rfl
  have mine := inv.calls call
  refine inv.act call (s.calls call).stage close rfl { books with }
    ⟨(steady call).stage _ mine.outer, inner, own⟩ ?_
  intro other ne
  exact Rely.ofConnection (steady other) id connection rfl (fun held => absurd held (free other ne))
    fun _ _ => rfl

/-- What a `close_and_wait` returns goes to its caller. -/
theorem stage_afterClose (call id : Nat) (stage : Stage) (report : NetworkCloseReport)
    (ok : s.StageOk phase call stage)
    (told : (s.connections id).completed = true ∧ report = s.reportOf id)
    (own : ∀ target, stage = .closing target → target = id) :
    s.CallOk phase call (stage.afterClose report) .idle := by
  cases stage with
  | closing target =>
      obtain rfl := own target rfl
      refine ⟨⟨told.1, ?_⟩, trivial, nofun⟩
      rw [told.2]
  | rejecting target => exact ⟨trivial, trivial, nofun⟩
  | _ => exact ⟨ok, trivial, nofun⟩

theorem own_target (inv : Sound s phase) (call id : Nat) (close : ClosePc)
    (here : (s.calls call).close = close) (target : close.target = some id) (other : Nat)
    (closing : (s.calls call).stage = .closing other) : other = id := by
  have own := (inv.calls call).own other closing
  rw [here, target] at own
  exact (Option.some.inj own).symm

/-- The call has taken the connection over from the endpoint. -/
theorem swap (inv : Sound s phase) (call id : Nat) (report : NetworkCloseReport)
    (here : (s.calls call).close = .finalizing id report)
    (owned : (s.connections id).owned = true) :
    Sound ((s.setConnection id { s.connections id with owned := false }).setCall call
      (s.calls call).stage (.merging id report)) (Function.update phase id (.swapped call)) := by
  have mine := inv.calls call
  obtain ⟨known, told⟩ := inv.inner call here
  have before : phase id = .owned := by
    have flagged := (inv.books.flag id).mp owned
    cases found : phase id with
    | owned => rfl
    | storing other =>
        rcases known with registered | held
        · rw [found] at registered
          exact registered.elim
        · rw [found] at held
          cases held
    | _ =>
        rw [found] at flagged
        exact flagged.elim
  have steady : ∀ any, Steady s ((s.setConnection id { s.connections id with owned := false }).setCall
      call (s.calls call).stage (.merging id report)) phase
      (Function.update phase id (.swapped call)) any := by
    intro any
    refine Steady.ofConnections ?_ ?_ (finished_update id _ rfl fun completed => ⟨completed, rfl⟩) rfl rfl
      rfl
    · exact phase_update id _ _ _ before nofun nofun
    · exact registered_update id (.swapped call) fun _ => trivial
  refine inv.act call (s.calls call).stage (.merging id report) rfl ?_ ⟨(steady call).stage _ mine.outer,
    ⟨Function.update_self .., (steady call).told id report told⟩, ?_⟩ ?_
  · refine inv.books.update id (.swapped call) _ rfl (iff_of_false nofun nofun) ?_ ?_
      (iff_of_false nofun ?_) nofun nofun (fun _ _ => Iff.rfl) inv.books.activeOnce (fun _ _ => Iff.rfl)
      inv.books.registeredOnce le_rfl (inv.books.made id .owned before nofun) ⟨rfl, rfl⟩ fun _ empty => empty
    · exact iff_of_true ((inv.books.active id).mpr (by rw [before]; trivial)) trivial
    · exact iff_of_true ((inv.books.registered id).mpr (by rw [before]; trivial))
        trivial
    · rw [before]
      exact nofun
  · intro target closing
    have own := mine.own target closing
    rw [here] at own
    exact own
  · intro other ne
    exact Rely.ofConnection (steady other) id _ rfl (fun held => ⟨held, rfl⟩)
      (phase_update id _ _ _ before nofun nofun)

/-- The call has merged the connection's report. -/
theorem merge (inv : Sound s phase) (call id : Nat) (report : NetworkCloseReport)
    (here : (s.calls call).close = .merging id report) :
    Sound ({ s with collected := s.collected + report, pending := s.pending ++ [id] }.setCall call
      (s.calls call).stage (.removing id report)) (Function.update phase id (.merged call)) := by
  have mine := inv.calls call
  obtain ⟨before, told⟩ := inv.inner call here
  have inside : id ∈ s.active := (inv.books.active id).mpr (by rw [before]; trivial)
  have uncounted : id ∉ s.taken ++ s.pending := by
    rw [inv.books.counted id, before]
    exact nofun
  have steady : ∀ any, Steady s
      ({ s with collected := s.collected + report, pending := s.pending ++ [id] }.setCall call
        (s.calls call).stage (.removing id report)) phase (Function.update phase id (.merged call)) any := by
    intro any
    refine ⟨fun locked => locked, ?_, ?_, ?_, fun _ completed => ⟨completed, rfl⟩,
      fun completed => ⟨completed, rfl⟩⟩
    · exact phase_update id _ _ _ before nofun nofun
    · exact registered_update id (.merged call) fun _ => trivial
    · intro _
      refine ⟨rfl, rfl, ?_⟩
      intro empty
      rw [empty] at inside
      cases inside
  refine inv.act call (s.calls call).stage (.removing id report) rfl ?_ ⟨(steady call).stage _ mine.outer,
    ⟨Function.update_self .., told⟩, ?_⟩ ?_
  · constructor
    · intro target late
      have ne : target ≠ id := ((inv.books.made id _ before nofun).trans_le late).ne'
      rw [Function.update_of_ne ne]
      exact inv.books.born target late
    · refine iff_update phase id _ inv.books.flag (fun _ _ => Iff.rfl) ?_
      have flag := inv.books.flag id
      rw [before] at flag
      exact flag
    · exact iff_update phase id _ inv.books.active (fun _ _ => Iff.rfl) (iff_of_true inside trivial)
    · exact inv.books.activeOnce
    · refine iff_update phase id _ inv.books.registered (fun _ _ => Iff.rfl) (iff_of_true ?_ trivial)
      exact (inv.books.registered id).mpr (by rw [before]; trivial)
    · exact inv.books.registeredOnce
    · refine iff_update phase id _ inv.books.counted ?_ (iff_of_true ?_ trivial)
      · intro target ne
        simp only [setCall, List.mem_append, List.mem_singleton, ne, or_false]
      · simp [setCall]
    · simp only [setCall]
      rw [← List.append_assoc, List.nodup_append]
      refine ⟨inv.books.countedOnce, List.nodup_singleton id, ?_⟩
      intro target member other single equal
      subst equal
      exact uncounted (List.mem_singleton.mp single ▸ member)
    · intro target counted
      by_cases same : target = id
      · subst same
        exact told.1
      · rw [Function.update_of_ne same] at counted
        exact inv.books.finished target counted
    · simp only [setCall, List.map_append, List.sum_append, List.map_singleton, List.sum_singleton]
      rw [inv.books.collected, told.2]
      rfl
    · exact inv.books.report
    · exact inv.books.begun
    · intro completed
      rw [(inv.books.completed completed).2.1] at inside
      cases inside
  · intro target closing
    have own := mine.own target closing
    rw [here] at own
    exact own
  · intro other ne
    refine ⟨steady other, fun _ held => ⟨held, rfl⟩, ?_⟩
    refine phase_update id _ _ _ before ?_ nofun
    intro same
    cases same
    exact ne rfl

/-- The call has removed the connection from `active_connections`. -/
theorem remove (inv : Sound s phase) (call id : Nat) (report : NetworkCloseReport)
    (here : (s.calls call).close = .removing id report) :
    Sound ({ s with active := s.active.erase id }.afterClose call report)
      (Function.update phase id .gone) := by
  have mine := inv.calls call
  obtain ⟨before, told⟩ := inv.inner call here
  have steady : ∀ any, Steady s ({ s with active := s.active.erase id }.afterClose call report) phase
      (Function.update phase id .gone) any := by
    intro any
    refine ⟨fun locked => locked, ?_, ?_, ?_, fun _ completed => ⟨completed, rfl⟩,
      fun completed => ⟨completed, rfl⟩⟩
    · exact phase_update id _ _ _ before nofun nofun
    · exact registered_update id .gone fun _ => trivial
    · intro _
      refine ⟨rfl, rfl, ?_⟩
      intro empty
      refine ⟨?_, fun drained => drained⟩
      simp only [Endpoint.afterClose, setCall, empty, List.erase_nil]
  refine inv.act call ((s.calls call).stage.afterClose report) .idle rfl ?_ ?_ ?_
  · refine inv.books.update id .gone (s.connections id) (Function.update_eq_self id s.connections).symm
      ?_ (iff_of_false ?_ nofun) (iff_of_true ?_ trivial) (iff_of_true trivial ?_)
      (fun _ => told.1) (fun _ => rfl) ?_ (inv.books.activeOnce.erase id) (fun _ _ => Iff.rfl)
      inv.books.registeredOnce le_rfl (inv.books.made id _ before nofun) ⟨rfl, rfl⟩ ?_
    · have flag := inv.books.flag id
      rw [before] at flag
      exact flag
    · exact inv.books.activeOnce.not_mem_erase
    · exact (inv.books.registered id).mpr (by rw [before]; trivial)
    · rw [before]
      trivial
    · intro target ne
      exact List.mem_erase_of_ne ne
    · intro _ empty
      simp only [Endpoint.afterClose, setCall, empty, List.erase_nil]
  · apply stage_afterClose call id
    · exact (steady call).stage _ mine.outer
    · exact told
    · exact inv.own_target call id _ here rfl
  · intro other ne
    refine ⟨steady other, fun _ held => ⟨held, rfl⟩, ?_⟩
    refine phase_update id _ _ _ before nofun ?_
    intro same
    cases same
    exact ne rfl

theorem advanceClose (inv : Sound s phase) (call : Nat) :
    ∃ phase', Sound (s.advanceClose call) phase' := by
  have mine := inv.calls call
  have inner := mine.inner
  have own : ∀ id close, (s.calls call).close.target = some id → ClosePc.target close = some id →
      ∀ target, (s.calls call).stage = .closing target → close.target = some target := by
    intro id close target same other closing
    rw [inv.own_target call id _ rfl target other closing]
    exact same
  cases here : (s.calls call).close with
  | idle =>
      simp only [Endpoint.advanceClose, here]
      exact ⟨phase, inv⟩
  | locking id =>
      rw [here] at inner
      simp only [Endpoint.advanceClose, here]
      split
      · exact ⟨phase, inv⟩
      · next unlocked =>
          refine ⟨phase, inv.closes call id _ (.checking id) inner ?_ rfl (fun completed => ⟨completed, rfl⟩)
            ⟨inner, ?_⟩ (own id _ (by rw [here]; rfl) rfl)⟩
          · intro other _
            rw [unlocked]
            exact nofun
          · simp only [setConnection, Function.update_self]
  | checking id =>
      rw [here] at inner
      obtain ⟨known, locked⟩ := inner
      have free : ∀ other, other ≠ call → (s.connections id).lock ≠ some other := by
        intro other ne same
        rw [locked] at same
        exact ne (Option.some.inj same).symm
      simp only [Endpoint.advanceClose, here]
      split_ifs with completed
      · refine ⟨phase, inv.closes call id _ (.finalizing id _) known free rfl (fun done => ⟨done, rfl⟩)
          ⟨known, ?_, ?_⟩ (own id _ (by rw [here]; rfl) rfl)⟩
        · simp only [setConnection, Function.update_self]
          exact completed
        · simp only [reportOf, setConnection, Function.update_self]
      · exact ⟨phase, inv.moves call _ (.awaiting id) ⟨mine.outer,
          ⟨known, locked, Bool.eq_false_iff.mpr completed⟩, own id _ (by rw [here]; rfl) rfl⟩⟩
  | awaiting id =>
      rw [here] at inner
      obtain ⟨known, locked, running⟩ := inner
      have free : ∀ other, other ≠ call → (s.connections id).lock ≠ some other := by
        intro other ne same
        rw [locked] at same
        exact ne (Option.some.inj same).symm
      have incomplete : ∀ {goal : Prop}, (s.connections id).completed = true → goal := by
        intro goal completed
        rw [running] at completed
        cases completed
      simp only [Endpoint.advanceClose, here]
      split
      · exact ⟨phase, inv⟩
      · refine ⟨phase, inv.closes call id _ (.finalizing id _) known free rfl incomplete ⟨known, ?_, ?_⟩
          (own id _ (by rw [here]; rfl) rfl)⟩
        · simp only [setConnection, Function.update_self]
        · simp only [reportOf, setConnection, Function.update_self]
      · refine ⟨phase, inv.closes call id _ (.finalizing id _) known free rfl incomplete ⟨known, ?_, ?_⟩
          (own id _ (by rw [here]; rfl) rfl)⟩
        · simp only [setConnection, Function.update_self]
        · simp only [reportOf, setConnection, Function.update_self]
  | finalizing id report =>
      simp only [Endpoint.advanceClose, here]
      split_ifs with owned
      · exact ⟨_, inv.swap call id report here owned⟩
      · rw [here] at inner
        exact ⟨phase, inv.moves call _ .idle (stage_afterClose call id _ report mine.outer inner.2
          (inv.own_target call id _ here rfl))⟩
  | merging id report =>
      simp only [Endpoint.advanceClose, here]
      exact ⟨_, inv.merge call id report here⟩
  | removing id report =>
      simp only [Endpoint.advanceClose, here]
      exact ⟨_, inv.remove call id report here⟩

/-- A step of the call that holds or takes `close_state`, which leaves the connections alone. -/
theorem holder (inv : Sound s phase) (call : Nat) (stage : Stage) (close : ClosePc)
    (free : ∀ other, other ≠ call → s.lock ≠ some other)
    (calls : t.calls = Function.update s.calls call ⟨stage, close⟩)
    (connections : t.connections = s.connections) (books : t.Books phase)
    (mine : t.CallOk phase call stage close)
    (completed : s.completed = true → t.completed = true ∧ t.report = s.report) : Sound t phase := by
  apply inv.act call stage close calls books mine
  intro other ne
  apply Rely.ofSteady _ connections
  apply Steady.ofHolder (free other ne) (fun _ _ => rfl) (fun _ registered => registered) _ completed
  intro id before
  rw [reportOf, connections]
  exact ⟨before, rfl⟩

theorem others_free (call : Nat) (locked : s.lock = some call) (other : Nat) (ne : other ≠ call) :
    s.lock ≠ some other := by
  rw [locked]
  intro same
  exact ne (Option.some.inj same).symm

/-- The flag `owner_registered` of a new connection is set. -/
theorem store (inv : Sound s phase) (call id : Nat) (here : (s.calls call).stage = .registering id) :
    Sound ((s.setConnection id { s.connections id with owned := true }).setCall call (.inserting id)
      .idle) (Function.update phase id (.storing call)) := by
  obtain ⟨locked, before, held⟩ := inv.outer call here
  have outside : ¬ (Phase.held call).Registered ∧ ¬ (Phase.storing call).Registered :=
    ⟨nofun, nofun⟩
  obtain ⟨inactive, unregistered⟩ := inv.books.unlisted id _ held outside.1
  refine inv.act call (.inserting id) .idle rfl ?_ ⟨⟨locked, before, Function.update_self ..⟩, trivial, nofun⟩
    ?_
  · refine inv.books.update id (.storing call) _ rfl (iff_of_true rfl trivial)
      (iff_of_false inactive nofun) (iff_of_false unregistered outside.2)
      (iff_of_false nofun (by rw [held]; exact nofun)) nofun nofun (fun _ _ => Iff.rfl)
      inv.books.activeOnce (fun _ _ => Iff.rfl) inv.books.registeredOnce le_rfl
      (inv.books.made id _ held nofun) ⟨rfl, rfl⟩ fun _ empty => empty
  · intro other ne
    refine Rely.ofConnection (Steady.ofHolder (others_free call locked other ne) ?_ ?_
      (finished_update id _ rfl fun completed => ⟨completed, rfl⟩) fun completed => ⟨completed, rfl⟩)
      id _ rfl (fun still => ⟨still, rfl⟩) ?_
    · refine phase_update id _ _ _ held ?_ nofun
      intro same
      cases same
      exact ne rfl
    · refine registered_update id _ fun registered => ?_
      rw [held] at registered
      exact absurd registered outside.1
    · exact phase_update id _ _ _ held nofun nofun

/-- The connection goes into `active_connections`. -/
theorem insert (inv : Sound s phase) (call id : Nat) (here : (s.calls call).stage = .inserting id) :
    Sound ({ s with
      lock := none
      active := s.active ++ [id]
      registered := s.registered ++ [id] }.setCall call (.connected id) .idle)
      (Function.update phase id .owned) := by
  obtain ⟨locked, before, storing⟩ := inv.outer call here
  have outside : ¬ (Phase.storing call).Registered := nofun
  obtain ⟨inactive, unregistered⟩ := inv.books.unlisted id _ storing outside
  have added : ∀ (ids : List Nat), (∀ target, target ≠ id → (target ∈ ids ++ [id] ↔ target ∈ ids)) ∧
      (ids.Nodup → id ∉ ids → (ids ++ [id]).Nodup) := by
    intro ids
    refine ⟨fun target ne => by simp [ne], ?_⟩
    intro once absent
    rw [List.nodup_append]
    refine ⟨once, List.nodup_singleton id, ?_⟩
    intro target member other single equal
    subst equal
    exact absent (List.mem_singleton.mp single ▸ member)
  refine inv.act call (.connected id) .idle rfl ?_ ⟨trivial, trivial, nofun⟩ ?_
  · have flag := inv.books.flag id
    rw [storing] at flag
    refine inv.books.update id .owned (s.connections id) (Function.update_eq_self id s.connections).symm
      (iff_of_true (flag.mpr trivial) trivial) (iff_of_true (by simp [setCall]) trivial)
      (iff_of_true (by simp [setCall]) trivial)
      (iff_of_false nofun (by rw [storing]; exact nofun)) nofun nofun (added s.active).1
      ((added s.active).2 inv.books.activeOnce inactive) (added s.registered).1
      ((added s.registered).2 inv.books.registeredOnce unregistered) le_rfl
      (inv.books.made id _ storing nofun) ⟨rfl, rfl⟩ ?_
    intro completed
    have begun := (inv.books.completed completed).1
    rw [before] at begun
    cases begun
  · intro other ne
    refine ⟨Steady.ofHolder (others_free call locked other ne) ?_ ?_ (fun _ done => ⟨done, rfl⟩)
      (fun completed => ⟨completed, rfl⟩), fun _ still => ⟨still, rfl⟩, ?_⟩
    · refine phase_update id _ _ _ storing nofun ?_
      intro same
      cases same
      exact ne rfl
    · exact registered_update id _ fun _ => trivial
    · exact phase_update id _ _ _ storing nofun nofun

/-- `connect_tcp` has a stream and makes a connection around it. -/
theorem make (inv : Sound s phase) (call : Nat) :
    Sound ({ s.setConnection s.nextId Connection.new with nextId := s.nextId + 1 }.setCall call
      (.awaitingReady s.nextId) .idle) (Function.update phase s.nextId (.held call)) := by
  obtain ⟨absent, blank⟩ := inv.books.born s.nextId le_rfl
  obtain ⟨inactive, unregistered⟩ := inv.books.unlisted s.nextId _ absent nofun
  refine inv.act call (.awaitingReady s.nextId) .idle rfl ?_
    ⟨Function.update_self .., trivial, nofun⟩ ?_
  · exact inv.books.update s.nextId (.held call) Connection.new rfl (iff_of_false nofun nofun)
      (iff_of_false inactive nofun) (iff_of_false unregistered nofun)
      (iff_of_false nofun (by rw [absent]; exact nofun)) nofun nofun (fun _ _ => Iff.rfl)
      inv.books.activeOnce (fun _ _ => Iff.rfl) inv.books.registeredOnce (Nat.le_succ _)
      (Nat.lt_succ_self _) ⟨rfl, rfl⟩ fun _ empty => empty
  · intro other _
    refine Rely.ofConnection (Steady.ofConnections ?_ ?_ (finished_update s.nextId Connection.new rfl ?_)
      rfl rfl rfl) s.nextId Connection.new rfl ?_ ?_
    · exact phase_update s.nextId _ _ _ absent nofun nofun
    · refine registered_update s.nextId _ fun registered => ?_
      rw [absent] at registered
      exact registered.elim
    · rw [blank]
      exact nofun
    · rw [blank]
      exact nofun
    · exact phase_update s.nextId _ _ _ absent nofun nofun

/-- `close_state` is taken. -/
theorem acquire (inv : Sound s phase) (call : Nat) (stage : Stage) (free : s.lock = none)
    (ok : StageOk { s with lock := some call } phase call stage)
    (notClosing : ∀ id, stage ≠ .closing id) :
    Sound ({ s with lock := some call }.setCall call stage .idle) phase := by
  refine inv.holder call stage .idle ?_ rfl rfl { inv.books with }
    ⟨ok, trivial, fun id here => absurd here (notClosing id)⟩ fun completed => ⟨completed, rfl⟩
  intro other _
  rw [free]
  exact nofun

/-- The endpoint takes in what the closed connections have reported. -/
theorem take (inv : Sound s phase) (call : Nat) (here : (s.calls call).stage = .taking) :
    Sound ({ s with
      report := s.report + s.collected
      collected := 0
      taken := s.taken ++ s.pending
      pending := [] }.setCall call .awaitingRoot .idle) phase := by
  obtain ⟨⟨locked, running, begun⟩, empty⟩ := inv.outer call here
  refine inv.holder call .awaitingRoot .idle (others_free call locked) rfl rfl ?_
    ⟨⟨⟨locked, running, begun⟩, empty, rfl⟩, trivial, nofun⟩ ?_
  · refine
      { inv.books with
        counted := ?_
        countedOnce := ?_
        collected := rfl
        report := ?_
        completed := ?_ }
    · simp only [setCall, List.append_nil]
      exact inv.books.counted
    · simp only [setCall, List.append_nil]
      exact inv.books.countedOnce
    · simp only [setCall, List.map_append, List.sum_append]
      rw [inv.books.report, inv.books.collected, add_assoc]
      rfl
    · intro completed
      exact ⟨begun, empty, rfl⟩
  · intro completed
    rw [running] at completed
    cases completed

/-- The endpoint's close is done. -/
theorem complete (inv : Sound s phase) (call : Nat) (here : (s.calls call).stage = .awaitingRoot)
    (more : NetworkCloseReport) (root : Option (Option (Except JoinError NetworkCloseReport))) :
    Sound ({ s with
      root := root
      report := s.report + more
      own := s.own + more
      completed := true
      lock := none }.setCall call (.endpointClosed (closeReportResult (s.report + more))) .idle) phase := by
  obtain ⟨⟨locked, running, begun⟩, empty, drained⟩ := inv.outer call here
  refine inv.holder call _ .idle (others_free call locked) rfl rfl ?_ ⟨⟨rfl, rfl⟩, trivial, nofun⟩ ?_
  · refine { inv.books with report := ?_, completed := fun _ => ⟨begun, empty, drained⟩ }
    simp only [setCall]
    rw [inv.books.report, add_right_comm]
    rfl
  · intro completed
    rw [running] at completed
    cases completed

/-- The writer is closed, with an error or not. -/
theorem writer (inv : Sound s phase) (call : Nat) (here : (s.calls call).stage = .closingWriter)
    (failure : NetworkCloseReport) :
    Sound ({ s with
      writerClosed := true
      report := s.report + failure
      own := s.own + failure }.setCall call .collecting .idle) phase := by
  have closing : s.Closing call := inv.outer call here
  refine inv.holder call .collecting .idle (others_free call closing.1) rfl rfl ?_
    ⟨closing, trivial, nofun⟩ ?_
  · refine { inv.books with report := ?_ }
    simp only [setCall]
    rw [inv.books.report, add_right_comm]
    rfl
  · intro completed
    rw [closing.2.1] at completed
    cases completed

/-- The endpoint's close cancels the endpoint. -/
theorem cancels (inv : Sound s phase) (call : Nat) (here : (s.calls call).stage = .cancelling)
    (stage : Stage) (next : stage = .collecting ∨ stage = .closingWriter) :
    Sound ({ s with cancelled := true, begun := true }.setCall call stage .idle) phase := by
  obtain ⟨locked, running⟩ := inv.outer call here
  refine inv.holder call stage .idle (others_free call locked) rfl rfl ?_ ⟨?_, trivial, ?_⟩
    fun completed => ⟨completed, rfl⟩
  · refine { inv.books with begun := fun _ => rfl, completed := ?_ }
    intro completed
    exact ⟨rfl, (inv.books.completed completed).2⟩
  · rcases next with rfl | rfl
    · exact ⟨locked, running, rfl⟩
    · exact ⟨locked, running, rfl⟩
  · intro id same
    rcases next with rfl | rfl <;> cases same

theorem advanceStage (inv : Sound s phase) (call : Nat) :
    ∃ phase', Sound (s.advanceStage call) phase' := by
  have outer := (inv.calls call).outer
  have plain : ∀ stage, s.StageOk phase call stage → (∀ id, stage ≠ .closing id) →
      ∃ phase', Sound (s.setCall call stage .idle) phase' := fun stage ok notClosing =>
    ⟨phase, inv.moves call stage .idle ⟨ok, trivial, fun id here => absurd here (notClosing id)⟩⟩
  simp only [Endpoint.advanceStage]
  split
  · split_ifs
    · exact plain .refused trivial nofun
    · exact plain .listing trivial nofun
  · refine plain (.reaping (s.active.filter s.taskIsFinished)) ?_ nofun
    intro id member
    exact ((inv.books.active id).mp (List.mem_filter.mp member).1).registered
  · exact plain .connecting trivial nofun
  · next id here =>
      rw [here] at outer
      split
      · exact ⟨phase, inv⟩
      · next free => exact ⟨phase, inv.acquire call _ free ⟨rfl, outer⟩ nofun⟩
  · next id here =>
      rw [here] at outer
      split_ifs with late
      · refine ⟨phase, inv.holder call (.rejecting id) (.locking id) (others_free call outer.1) rfl rfl
          { inv.books with } ⟨outer.2, Or.inr outer.2, nofun⟩ fun completed => ⟨completed, rfl⟩⟩
      · refine plain (.registering id) ⟨outer.1, ?_, outer.2⟩ nofun
        cases begun : s.begun with
        | false => rfl
        | true => exact absurd (by rw [inv.books.begun begun]; rfl) late
  · next id here => exact ⟨_, inv.store call id here⟩
  · next id here => exact ⟨_, inv.insert call id here⟩
  · split
    · exact ⟨phase, inv⟩
    · next free => exact ⟨phase, inv.acquire call _ free rfl nofun⟩
  · next here =>
      rw [here] at outer
      split_ifs with completed
      · exact ⟨phase, inv.holder call _ .idle (others_free call outer) rfl rfl { inv.books with }
          ⟨⟨completed, rfl⟩, trivial, nofun⟩ fun done => ⟨done, rfl⟩⟩
      · exact plain .cancelling ⟨outer, Bool.eq_false_iff.mpr completed⟩ nofun
  · next here =>
      refine ⟨phase, inv.cancels call here _ ?_⟩
      split_ifs
      · exact Or.inl rfl
      · exact Or.inr rfl
  · next here =>
      rw [here] at outer
      split
      · next empty => exact plain .taking ⟨outer, empty⟩ nofun
      · refine plain (.closingAll s.active) ⟨outer, ?_⟩ nofun
        intro id member
        exact ((inv.books.active id).mp member).registered
  · next here =>
      rw [here] at outer
      exact plain .collecting outer.1 nofun
  · next here => exact ⟨phase, inv.take call here⟩
  · next here =>
      split
      · exact ⟨phase, inv⟩
      · next result _ => exact ⟨phase, inv.complete call here (rootReport result) none⟩
      · next none_left =>
          have done := inv.complete call here 0 s.root
          simp only [add_zero] at done
          exact ⟨phase, done⟩
  · exact ⟨phase, inv⟩

/-- A dropped call lets go of its locks. -/
theorem drop (inv : Sound s phase) (call : Nat) : Sound (s.drop call) phase := by
  have mine := inv.calls call
  have lets_go : ∀ other, other ≠ call →
      s.lock = some other → (if s.lock = some call then none else s.lock) = some other := by
    intro other ne held
    rw [held, if_neg (fun same => ne (Option.some.inj same))]
  have dropped : Sound ({ s with lock := if s.lock = some call then none else s.lock }.setCall call
      .dropped .idle) phase := by
    refine inv.act call .dropped .idle rfl { inv.books with } ⟨trivial, trivial, nofun⟩ ?_
    intro other ne
    exact ⟨⟨lets_go other ne, fun _ _ => rfl, fun _ registered => registered,
      fun _ => ⟨rfl, rfl, fun empty => ⟨empty, fun drained => drained⟩⟩,
      fun _ done => ⟨done, rfl⟩, fun done => ⟨done, rfl⟩⟩, fun _ held => ⟨held, rfl⟩, fun _ _ => rfl⟩
  simp only [Endpoint.drop]
  split
  · next id here =>
      have inner := mine.inner
      rw [here] at inner
      obtain ⟨known, locked, running⟩ := inner
      have incomplete : ∀ {goal : Prop}, (s.connections id).completed = true → goal := by
        intro goal completed
        rw [running] at completed
        cases completed
      have books : (s.setConnection id { s.connections id with lock := none }).Books phase :=
        inv.books.connection id _ (inv.books.made_of_known call id known) rfl fun counted =>
          incomplete (inv.books.finished id counted)
      refine inv.act call .dropped .idle rfl { books with } ⟨trivial, trivial, nofun⟩ ?_
      intro other ne
      refine Rely.ofConnection ⟨lets_go other ne, fun _ _ => rfl, fun _ registered => registered,
        fun _ => ⟨rfl, rfl, fun empty => ⟨empty, fun drained => drained⟩⟩,
        finished_update id _ rfl incomplete, fun done => ⟨done, rfl⟩⟩ id _ rfl ?_ fun _ _ => rfl
      intro held
      rw [locked] at held
      exact absurd (Option.some.inj held).symm ne
  · exact dropped

theorem taskEnds (inv : Sound s phase) (id : Nat) (result : Except JoinError Bool)
    (made : id < s.nextId) :
    Sound (s.setConnection id { s.connections id with task := some (some result) }) phase := by
  refine inv.outside rfl ?_ ?_
  · exact inv.books.connection id _ made rfl fun counted => ⟨inv.books.finished id counted, rfl⟩
  · intro other
    exact Rely.ofConnection (Steady.ofConnections (fun _ _ => rfl) (fun _ registered => registered)
      (finished_update id _ rfl fun completed => ⟨completed, rfl⟩) rfl rfl rfl) id _ rfl
      (fun held => ⟨held, rfl⟩) fun _ _ => rfl

theorem step (inv : Sound s phase) (act : EndpointAct) : ∃ phase', Sound (s.step act) phase' := by
  cases act with
  | close call id =>
      simp only [Endpoint.step]
      split
      · split_ifs with member
        · refine ⟨phase, inv.moves call (.closing id) (.locking id)
            ⟨trivial, Or.inl ((inv.books.registered id).mp member), ?_⟩⟩
          intro target same
          cases same
          rfl
        · exact ⟨phase, inv⟩
      · exact ⟨phase, inv⟩
  | connect call =>
      simp only [Endpoint.step]
      split
      · exact ⟨phase, inv.moves call .starting .idle ⟨trivial, trivial, nofun⟩⟩
      · exact ⟨phase, inv⟩
  | closeEndpoint call =>
      simp only [Endpoint.step]
      split
      · exact ⟨phase, inv.moves call .lockingClose .idle ⟨trivial, trivial, nofun⟩⟩
      · exact ⟨phase, inv⟩
  | advance call =>
      simp only [Endpoint.step]
      split
      · exact inv.advanceStage call
      · exact inv.advanceClose call
  | pick call id =>
      have outer := (inv.calls call).outer
      simp only [Endpoint.step]
      split
      · next rest here =>
          rw [here] at outer
          split_ifs with member
          · refine ⟨phase, inv.moves call (.reaping (rest.erase id)) (.locking id)
              ⟨fun target inside => outer target (List.mem_of_mem_erase inside),
                Or.inl (outer id member), nofun⟩⟩
          · exact ⟨phase, inv⟩
      · next rest here =>
          rw [here] at outer
          split_ifs with member
          · refine ⟨phase, inv.moves call (.closingAll (rest.erase id)) (.locking id)
              ⟨⟨outer.1, fun target inside => outer.2 target (List.mem_of_mem_erase inside)⟩,
                Or.inl (outer.2 id member), nofun⟩⟩
          · exact ⟨phase, inv⟩
      · exact ⟨phase, inv⟩
  | connected call =>
      simp only [Endpoint.step]
      split
      · exact ⟨_, inv.make call⟩
      · exact ⟨phase, inv⟩
  | fail call =>
      simp only [Endpoint.step]
      split
      · exact ⟨phase, inv.moves call .refused .idle ⟨trivial, trivial, nofun⟩⟩
      · exact ⟨phase, inv⟩
  | ready call registered =>
      have outer := (inv.calls call).outer
      simp only [Endpoint.step]
      split
      · next id here =>
          rw [here] at outer
          split_ifs
          · exact ⟨phase, inv.moves call (.lockingState id) .idle ⟨outer, trivial, nofun⟩⟩
          · exact ⟨phase, inv.moves call (.rejecting id) (.locking id) ⟨outer, Or.inr outer, nofun⟩⟩
      · exact ⟨phase, inv⟩
  | writerClosed call ok =>
      simp only [Endpoint.step]
      split
      · next here => exact ⟨phase, inv.writer call here _⟩
      · exact ⟨phase, inv⟩
  | drop call =>
      simp only [Endpoint.step]
      split_ifs
      · exact ⟨phase, inv.drop call⟩
      · exact ⟨phase, inv⟩
  | taskEnds id result =>
      simp only [Endpoint.step]
      split_ifs with made
      · split
        · exact ⟨phase, inv.taskEnds id result made⟩
        · exact ⟨phase, inv⟩
      · exact ⟨phase, inv⟩
  | rootEnds result =>
      simp only [Endpoint.step]
      split
      · exact ⟨phase, inv.outside rfl { inv.books with } fun other =>
          Rely.ofSteady (same_steady other rfl rfl rfl rfl) rfl⟩
      · exact ⟨phase, inv⟩
  | cancel =>
      exact ⟨phase, inv.outside rfl { inv.books with begun := fun _ => rfl } fun other =>
        Rely.ofSteady (same_steady other rfl rfl rfl rfl) rfl⟩

theorem run (acts : List EndpointAct) : ∃ phase, Sound (Endpoint.init.run acts) phase := by
  apply Lib.invariant_run Endpoint.step fun s => ∃ phase, Sound s phase
  · intro s act found
    rcases found with ⟨phase, inv⟩
    exact inv.step act
  · exact ⟨_, init⟩

end Sound

/-- Once an endpoint close has cancelled the endpoint nothing is registered any more. -/
theorem Sound.registered_step (inv : Sound s phase) (begun : s.begun = true) (act : EndpointAct) :
    (s.step act).registered = s.registered ∧ (s.step act).begun = true := by
  cases act with
  | advance call =>
      simp only [Endpoint.step]
      split
      · simp only [Endpoint.advanceStage]
        split
        case h_7 id here =>
          have outer := (inv.calls call).outer
          rw [here] at outer
          rw [outer.2.1] at begun
          cases begun
        all_goals (try split) <;> first | exact ⟨rfl, begun⟩ | exact ⟨rfl, rfl⟩
      · simp only [Endpoint.advanceClose]
        split <;> (try split) <;> exact ⟨rfl, begun⟩
  | drop call =>
      simp only [Endpoint.step, Endpoint.drop]
      split
      · split <;> exact ⟨rfl, begun⟩
      · exact ⟨rfl, begun⟩
  | taskEnds id result =>
      simp only [Endpoint.step]
      split
      · split <;> exact ⟨rfl, begun⟩
      · exact ⟨rfl, begun⟩
  | close call id =>
      simp only [Endpoint.step]
      split
      · split <;> exact ⟨rfl, begun⟩
      · exact ⟨rfl, begun⟩
  | pick call id =>
      simp only [Endpoint.step]
      split
      · split <;> exact ⟨rfl, begun⟩
      · split <;> exact ⟨rfl, begun⟩
      · exact ⟨rfl, begun⟩
  | ready call registered =>
      simp only [Endpoint.step]
      split
      · split <;> exact ⟨rfl, begun⟩
      · exact ⟨rfl, begun⟩
  | cancel => exact ⟨rfl, begun⟩
  | _ =>
      simp only [Endpoint.step]
      split <;> exact ⟨rfl, begun⟩

theorem registered_run (acts more : List EndpointAct) (begun : (init.run acts).begun = true) :
    ((init.run acts).run more).registered = (init.run acts).registered := by
  have keeps : ∀ s act, ((∃ phase, Sound s phase) ∧ s.begun = true ∧
      s.registered = (init.run acts).registered) → ((∃ phase, Sound (s.step act) phase) ∧
        (s.step act).begun = true ∧ (s.step act).registered = (init.run acts).registered) := by
    intro s act known
    rcases known with ⟨⟨phase, inv⟩, begun, same⟩
    obtain ⟨registered, still⟩ := inv.registered_step begun act
    exact ⟨inv.step act, still, registered.trans same⟩
  exact (Lib.invariant_run step _ keeps (init.run acts) more ⟨Sound.run acts, begun, rfl⟩).2.2

/-- When the endpoint is closed its report has what every registered connection has reported. -/
theorem Sound.taken_registered (inv : Sound s phase) (completed : s.completed = true) :
    s.taken.Perm s.registered := by
  obtain ⟨-, empty, drained⟩ := inv.books.completed completed
  have once := inv.books.countedOnce
  have counted := inv.books.counted
  rw [drained, List.append_nil] at once counted
  rw [List.perm_ext_iff_of_nodup once inv.books.registeredOnce]
  intro id
  rw [counted, inv.books.registered]
  have inactive : ¬ (phase id).Active := by
    rw [← inv.books.active, empty]
    exact nofun
  cases found : phase id with
  | gone => exact iff_of_true trivial trivial
  | owned =>
      rw [found] at inactive
      exact absurd trivial inactive
  | swapped call =>
      rw [found] at inactive
      exact absurd trivial inactive
  | merged call =>
      rw [found] at inactive
      exact absurd trivial inactive
  | _ => exact iff_of_false nofun nofun

/-- In every run: no connection is counted twice, and the two parts of the report are the sums of
what the counted connections have reported; a closed endpoint has counted every registered one;
nothing is registered after an endpoint close has begun; and calls of `close_and_wait` that have
returned agree. -/
theorem connections_accounted_once (acts : List EndpointAct) :
    let s := init.run acts
    (s.registered.Nodup ∧ (s.taken ++ s.pending).Nodup ∧
      (∀ id ∈ s.taken ++ s.pending, id ∈ s.registered ∧ (s.connections id).completed = true) ∧
      s.collected = (s.pending.map s.reportOf).sum ∧
      s.report = s.own + (s.taken.map s.reportOf).sum) ∧
    (s.completed = true → s.pending = [] ∧ s.taken.Perm s.registered ∧
      s.report = s.own + (s.registered.map s.reportOf).sum) ∧
    (s.begun = true → ∀ more, (s.run more).registered = s.registered) ∧
    (∀ id call other result result', (s.calls call).stage = .closed id result →
      (s.calls other).stage = .closed id result' → result = result') ∧
    (∀ call other result result', (s.calls call).stage = .endpointClosed result →
      (s.calls other).stage = .endpointClosed result' → result = result') := by
  intro s
  obtain ⟨phase, inv⟩ := Sound.run acts
  refine ⟨⟨inv.books.registeredOnce, inv.books.countedOnce, ?_, inv.books.collected, inv.books.report⟩,
    ?_, fun begun more => registered_run acts more begun, ?_, ?_⟩
  · intro id member
    have counted := (inv.books.counted id).mp member
    refine ⟨(inv.books.registered id).mpr ?_, inv.books.finished id counted⟩
    cases found : phase id with
    | merged call => trivial
    | gone => trivial
    | _ =>
        rw [found] at counted
        exact counted.elim
  · intro completed
    have all := inv.taken_registered completed
    refine ⟨(inv.books.completed completed).2.2, all, ?_⟩
    rw [← (all.map s.reportOf).sum_eq]
    exact inv.books.report
  · intro id call other result result' first second
    have one := (inv.calls call).outer
    have two := (inv.calls other).outer
    rw [first] at one
    rw [second] at two
    rw [one.2, two.2]
  · intro call other result result' first second
    have one := (inv.calls call).outer
    have two := (inv.calls other).outer
    rw [first] at one
    rw [second] at two
    rw [one.2, two.2]

/-- A connection that is registered, and closed by its user after an endpoint close was dropped at its task;
then the endpoint is closed again. -/
def closeTwice : List EndpointAct :=
  [.connect 0, .advance 0, .advance 0, .advance 0, .connected 0, .ready 0 true, .advance 0, .advance 0,
    .advance 0, .advance 0, .closeEndpoint 1, .advance 1, .advance 1, .advance 1, .writerClosed 1 true,
    .advance 1, .pick 1 0, .advance 1, .advance 1, .drop 1, .taskEnds 0 (.ok true), .close 2 0, .advance 2,
    .advance 2, .advance 2, .advance 2, .advance 2, .advance 2, .closeEndpoint 3, .advance 3, .advance 3,
    .advance 3, .advance 3, .advance 3, .rootEnds (.ok 0), .advance 3]

theorem connections_accounted_once_resumed :
    let s := init.run closeTwice
    s.completed = true ∧ s.registered = [0] ∧ s.taken.Perm [0] ∧ s.reportOf 0 = ⟨1, 0, 0, 0, 0⟩ ∧
      s.report = ⟨1, 0, 0, 0, 0⟩ := by
  intro s
  have spec := connections_accounted_once closeTwice
  have completed : s.completed = true := by decide
  have taken : s.taken.Perm s.registered := (spec.2.1 completed).2.1
  exact ⟨completed, by decide, taken, by decide, by decide⟩

end Endpoint

end Pigs.Net.Rw.Managed
