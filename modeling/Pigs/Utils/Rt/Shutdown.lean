import Pigs.Lib.Tally
import Pigs.Utils.Rt.Tasks

/-! What every step of a runtime keeps: the books of its tasks, what each `spawn` and each shutdown stage
relies on, and what a report says. -/

namespace Pigs.Utils.Rt

namespace TaskState

structure Books (s : TaskState) : Prop where
  once : s.accepted.Nodup
  born : ∀ id, id ∈ s.accepted ↔ s.status id ≠ .absent
  below : ∀ id ∈ s.accepted, id < s.nextId
  active : s.active.map (·.1) = s.accepted.filter fun id => (s.status id).inActive
  counters : ∀ fate, s.counter fate = Lib.tally s.status (TaskStatus.countedAs fate) s.accepted
  unfinished : ∀ id, (s.status id).inActive = true → s.finished id = false
  finished : ∀ id fate, s.status id = .dropping (some fate) → s.finished id = true
  closed : s.trackerClosed = true → s.accepting = false

/-- No task is accepted any more, and all that were are gone. -/
def Quiet (s : TaskState) : Prop :=
  s.accepting = false ∧ ∀ id ∈ s.accepted, ∃ fate, s.status id = .gone fate

/-- What a `spawn` relies on. -/
def SpawnOk (s : TaskState) (call : Nat) : SpawnPc → Prop
  | .checking _ => s.gate = some (.spawn call)
  | .starting _ => s.gate = some (.spawn call) ∧ s.accepting = true
  | .inserting id _ => s.gate = some (.spawn call) ∧ s.accepting = true ∧ id < s.nextId ∧ id ∉ s.accepted
  | .tracking id => s.gate = some (.spawn call) ∧ s.accepting = true ∧ s.status id = .started
  | .unlocking _ => s.gate = some (.spawn call)
  | _ => True

/-- A stage whose wait was over in time has seen no task since. -/
def Seen (s : TaskState) (view : StageView) : Prop :=
  view.waited = true → s.Quiet ∧ view.before = [] ∧ view.remaining = []

/-- What a stage relies on, and what its report says. -/
def StageOk (s : TaskState) (call : Nat) : StagePc → Prop
  | .closing => s.gate = some (.stage call)
  | .closingTracker => s.gate = some (.stage call) ∧ s.accepting = false
  | .listingBefore view _ => s.Seen view
  | .removing view => s.Seen view
  | .shuttingDown view => s.Seen view
  | .listing view _ => s.Seen view
  | .loadingPanicked view => s.Seen view
  | .loadingCompleted view => s.Seen view ∧ (view.waited = true → view.panicked = s.panicked)
  | .loadingCancelled view => s.Seen view ∧
      (view.waited = true → view.panicked = s.panicked ∧ view.completed = s.completed)
  | .returned (some report) => report.outcome = .graceful → s.Quiet ∧ report.remainingTasks = [] ∧
      report.panickedTasks = 0 ∧ s.panicked = 0 ∧ report.completedTasks = s.completed ∧
      report.cancelledTasks = s.cancelled
  | _ => True

structure Sound (s : TaskState) : Prop where
  books : s.Books
  spawns : ∀ call, s.SpawnOk call (s.spawns call)
  stages : ∀ call, s.StageOk call (s.stages call)
  started : ∀ id, s.status id = .started → ∃ call, s.spawns call = .tracking id

/-- The step is not one of the gate or of the ids. -/
def SameGate (s t : TaskState) : Prop :=
  (t.gate, t.accepting, t.trackerClosed, t.accepted, t.nextId) =
    (s.gate, s.accepting, s.trackerClosed, s.accepted, s.nextId)

def SameCounters (s t : TaskState) : Prop :=
  (t.completed, t.cancelled, t.panicked) = (s.completed, s.cancelled, s.panicked)

def SameCalls (s t : TaskState) : Prop := (t.spawns, t.stages) = (s.spawns, s.stages)

/-- What a step leaves to those who do not take it. -/
structure Steady (s t : TaskState) (holder : Holder) : Prop where
  gate : s.gate = some holder → t.gate = some holder ∧ t.accepting = s.accepting ∧
    t.accepted = s.accepted ∧ s.nextId ≤ t.nextId ∧ ∀ id, s.status id = .started → t.status id = .started
  quiet : s.Quiet → t.Quiet ∧ ∀ fate, t.counter fate = s.counter fate

variable {s t : TaskState}

namespace SameGate

theorem gate (same : SameGate s t) : t.gate = s.gate := congrArg (·.1) same

theorem accepting (same : SameGate s t) : t.accepting = s.accepting := congrArg (·.2.1) same

theorem trackerClosed (same : SameGate s t) : t.trackerClosed = s.trackerClosed := congrArg (·.2.2.1) same

theorem accepted (same : SameGate s t) : t.accepted = s.accepted := congrArg (·.2.2.2.1) same

theorem nextId (same : SameGate s t) : t.nextId = s.nextId := congrArg (·.2.2.2.2) same

end SameGate

theorem SameCounters.counter (same : SameCounters s t) (fate : Fate) : t.counter fate = s.counter fate := by
  cases fate with
  | completed => exact congrArg (·.1) same
  | cancelled => exact congrArg (·.2.1) same
  | panicked => exact congrArg (·.2.2) same

theorem SameCalls.spawns (same : SameCalls s t) : t.spawns = s.spawns := congrArg (·.1) same

theorem SameCalls.stages (same : SameCalls s t) : t.stages = s.stages := congrArg (·.2) same

namespace Steady

theorem spawn {call : Nat} (steady : Steady s t (.spawn call)) (pc : SpawnPc) (ok : s.SpawnOk call pc) :
    t.SpawnOk call pc := by
  cases pc with
  | checking name => exact (steady.gate ok).1
  | starting name =>
      obtain ⟨gate, accepting, -⟩ := steady.gate ok.1
      exact ⟨gate, accepting.trans ok.2⟩
  | inserting id name =>
      obtain ⟨gate, accepting, accepted, next, -⟩ := steady.gate ok.1
      refine ⟨gate, accepting.trans ok.2.1, ok.2.2.1.trans_le next, ?_⟩
      rw [accepted]
      exact ok.2.2.2
  | tracking id =>
      obtain ⟨gate, accepting, -, -, started⟩ := steady.gate ok.1
      exact ⟨gate, accepting.trans ok.2.1, started id ok.2.2⟩
  | unlocking id => exact (steady.gate ok).1
  | _ => trivial

theorem seen {holder : Holder} (steady : Steady s t holder) (view : StageView) (seen : s.Seen view) :
    t.Seen view := by
  intro waited
  obtain ⟨quiet, before, remaining⟩ := seen waited
  exact ⟨(steady.quiet quiet).1, before, remaining⟩

theorem stage {call : Nat} (steady : Steady s t (.stage call)) (pc : StagePc) (ok : s.StageOk call pc) :
    t.StageOk call pc := by
  cases pc with
  | closing => exact (steady.gate ok).1
  | closingTracker =>
      obtain ⟨gate, accepting, -⟩ := steady.gate ok.1
      exact ⟨gate, accepting.trans ok.2⟩
  | listingBefore view shard => exact steady.seen view ok
  | removing view => exact steady.seen view ok
  | shuttingDown view => exact steady.seen view ok
  | listing view shard => exact steady.seen view ok
  | loadingPanicked view => exact steady.seen view ok
  | loadingCompleted view =>
      refine ⟨steady.seen view ok.1, fun waited => ?_⟩
      have same := (steady.quiet (ok.1 waited).1).2
      exact (ok.2 waited).trans (same .panicked).symm
  | loadingCancelled view =>
      refine ⟨steady.seen view ok.1, fun waited => ?_⟩
      have same := (steady.quiet (ok.1 waited).1).2
      exact ⟨(ok.2 waited).1.trans (same .panicked).symm, (ok.2 waited).2.trans (same .completed).symm⟩
  | returned report =>
      cases report with
      | none => trivial
      | some report =>
          intro graceful
          obtain ⟨quiet, remaining, panicked, none, completed, cancelled⟩ := ok graceful
          obtain ⟨after, same⟩ := steady.quiet quiet
          exact ⟨after, remaining, panicked, (same .panicked).trans none,
            completed.trans (same .completed).symm, cancelled.trans (same .cancelled).symm⟩
  | _ => trivial

/-- A step that touches neither the gate nor a task. -/
theorem same (holder : Holder) (gate : SameGate s t) (counters : SameCounters s t)
    (status : t.status = s.status) : Steady s t holder where
  gate held := by
    refine ⟨gate.gate.trans held, gate.accepting, gate.accepted, gate.nextId.ge, ?_⟩
    rw [status]
    exact fun _ started => started
  quiet quiet := by
    refine ⟨?_, counters.counter⟩
    rw [Quiet, gate.accepting, gate.accepted, status]
    exact quiet

/-- A step of the one who holds the gate, or takes it. -/
theorem ofHolder {holder : Holder} (free : s.gate ≠ some holder) (counters : SameCounters s t)
    (quiet : s.Quiet → t.Quiet) : Steady s t holder where
  gate held := absurd held free
  quiet before := ⟨quiet before, counters.counter⟩

end Steady

namespace Books

theorem new : TaskState.new.Books where
  once := List.nodup_nil
  born _ := iff_of_false List.not_mem_nil fun other => other rfl
  below _ member := absurd member List.not_mem_nil
  active := rfl
  counters fate := by cases fate <;> rfl
  unfinished _ _ := rfl
  finished _ _ := nofun
  closed := nofun

/-- One accepted task changes its status. -/
theorem task (books : s.Books) (id : Nat) (now : TaskStatus) (accepted : s.status id ≠ .absent)
    (present : now ≠ .absent) (gate : SameGate s t) (status : t.status = Function.update s.status id now)
    (active : t.active.map (·.1) =
      s.accepted.filter fun other => (Function.update s.status id now other).inActive)
    (counters : ∀ fate, t.counter fate + (if (s.status id).countedAs fate then 1 else 0) =
      s.counter fate + if now.countedAs fate then 1 else 0)
    (others : ∀ other ≠ id, t.finished other = s.finished other)
    (unfinished : now.inActive = true → t.finished id = false)
    (finished : ∀ fate, now = .dropping (some fate) → t.finished id = true) : t.Books where
  once := gate.accepted ▸ books.once
  born := by
    rw [gate.accepted, status]
    refine (Function.forall_update_iff s.status fun other now => other ∈ s.accepted ↔ now ≠ .absent).mpr ⟨?_, ?_⟩
    · exact iff_of_true ((books.born id).mpr accepted) present
    · intro other _
      exact books.born other
  below other member := by
    rw [gate.accepted] at member
    rw [gate.nextId]
    exact books.below other member
  active := by
    rw [active, gate.accepted, status]
  counters fate := by
    have change := Lib.tally_update s.status (TaskStatus.countedAs fate) books.once id now
      ((books.born id).mpr accepted)
    have before := books.counters fate
    have after := counters fate
    rw [gate.accepted, status]
    omega
  unfinished := by
    rw [status]
    refine (Function.forall_update_iff s.status fun other now =>
      now.inActive = true → t.finished other = false).mpr ⟨unfinished, ?_⟩
    intro other ne here
    exact (others other ne).trans (books.unfinished other here)
  finished := by
    rw [status]
    refine (Function.forall_update_iff s.status fun other now =>
      ∀ fate, now = .dropping (some fate) → t.finished other = true).mpr ⟨finished, ?_⟩
    intro other ne fate here
    exact (others other ne).trans (books.finished other fate here)
  closed done := by
    rw [gate.trackerClosed] at done
    rw [gate.accepting]
    exact books.closed done

/-- A task goes on without being counted or removed. -/
theorem setStatus {was : TaskStatus} (books : s.Books) (id : Nat) (now : TaskStatus)
    (here : s.status id = was) (accepted : was ≠ .absent) (present : now ≠ .absent)
    (inActive : now.inActive = was.inActive) (counted : ∀ fate, now.countedAs fate = was.countedAs fate)
    (later : ∀ fate, now ≠ .dropping (some fate)) : (s.setStatus id now).Books := by
  subst here
  refine books.task id now accepted present rfl rfl ?_ ?_ (fun _ _ => rfl) ?_ ?_
  · exact books.active.trans (Lib.filter_update_same s.status _ id now inActive).symm
  · intro fate
    rw [counted fate]
    rfl
  · intro here
    exact books.unfinished id (inActive.symm.trans here)
  · intro fate here
    exact absurd here (later fate)

theorem counter_count (s : TaskState) (fate other : Fate) :
    (s.count fate).counter other = s.counter other + if fate = other then 1 else 0 := by
  cases fate <;> cases other <;> rfl

/-- The guard counts its task. -/
theorem count {was : TaskStatus} (books : s.Books) (id : Nat) (fate : Fate) (now : TaskStatus)
    (status : s.status id = was) (here : was.inActive = true)
    (uncounted : ∀ other, was.countedAs other = false) (inActive : now.inActive = true)
    (counted : ∀ other, now.countedAs other = decide (fate = other)) : ((s.count fate).setStatus id now).Books := by
  subst status
  have gate : SameGate s ((s.count fate).setStatus id now) := by
    cases fate <;> rfl
  have fields : (s.count fate).status = s.status ∧ (s.count fate).active = s.active ∧
      (s.count fate).finished = s.finished := by
    cases fate <;> exact ⟨rfl, rfl, rfl⟩
  obtain ⟨status, active, finished⟩ := fields
  refine books.task id now ?_ ?_ gate ?_ ?_ ?_ ?_ ?_ ?_
  · intro absent
    rw [absent] at here
    cases here
  · intro absent
    rw [absent] at inActive
    cases inActive
  · rw [TaskState.setStatus, status]
  · refine (congrArg (List.map (·.1)) active).trans ?_
    exact books.active.trans (Lib.filter_update_same s.status _ id now (inActive.trans here.symm)).symm
  · intro other
    rw [uncounted other, counted other]
    refine (counter_count s fate other).trans ?_
    simp
  · intro other _
    exact congrFun finished other
  · intro _
    exact (congrFun finished id).trans (books.unfinished id here)
  · intro other dropping
    rw [dropping] at inActive
    cases inActive

/-- The guard removes its task, `finished` or in its `drop`. -/
theorem remove {was : TaskStatus} (books : s.Books) (id : Nat) (now : TaskStatus) (finished : Nat → Bool)
    (here : s.status id = was) (accepted : was ≠ .absent) (present : now ≠ .absent)
    (inActive : now.inActive = false) (counted : ∀ fate, now.countedAs fate = was.countedAs fate)
    (others : ∀ other ≠ id, finished other = s.finished other)
    (set : ∀ fate, now = .dropping (some fate) → finished id = true) :
    (({ s with finished := finished }.deactivate id).setStatus id now).Books := by
  subst here
  refine books.task id now accepted present rfl rfl ?_ ?_ others ?_ set
  · rw [Lib.filter_update_leave s.status TaskStatus.inActive id now inActive, ← books.active,
      List.filter_map]
    rfl
  · intro fate
    rw [counted fate]
    rfl
  · intro active
    rw [inActive] at active
    cases active

/-- A task is put into `active`. -/
theorem insert (books : s.Books) (id : Nat) (name : String) (below : id < s.nextId)
    (fresh : id ∉ s.accepted) : ((s.activate id name).setStatus id .started).Books := by
  refine ⟨?_, ?_, ?_, ?_, ?_, ?_, ?_, books.closed⟩
  · refine List.nodup_append.mpr ⟨books.once, List.nodup_singleton id, ?_⟩
    intro first member last here same
    rw [List.mem_singleton.mp here] at same
    subst same
    exact fresh member
  · intro other
    change other ∈ s.accepted ++ [id] ↔ Function.update s.status id .started other ≠ .absent
    by_cases same : other = id
    · subst same
      rw [Function.update_self]
      exact iff_of_true (List.mem_append_right _ (List.mem_singleton_self other)) nofun
    · rw [Function.update_of_ne same, ← books.born other, List.mem_append, List.mem_singleton]
      exact or_iff_left same
  · intro other member
    rcases List.mem_append.mp member with old | new
    · exact books.below other old
    · rw [List.mem_singleton.mp new]
      exact below
  · change ((s.active.filter fun entry => entry.1 ≠ id) ++ [(id, name)]).map (·.1) =
      (s.accepted ++ [id]).filter fun other => (Function.update s.status id .started other).inActive
    have kept : (s.active.filter fun entry => entry.1 ≠ id) = s.active := by
      rw [List.filter_eq_self]
      intro entry member
      have accepted : entry.1 ∈ s.accepted := by
        have inside : entry.1 ∈ s.active.map (·.1) := List.mem_map_of_mem member
        rw [books.active] at inside
        exact (List.mem_filter.mp inside).1
      refine decide_eq_true ?_
      intro same
      rw [same] at accepted
      exact fresh accepted
    rw [kept, List.map_append, List.filter_append,
      Lib.filter_update_of_not_mem s.status TaskStatus.inActive id .started fresh, books.active]
    simp [TaskStatus.inActive]
  · intro fate
    change s.counter fate = Lib.tally (Function.update s.status id .started) _ (s.accepted ++ [id])
    rw [Lib.tally_concat_update s.status _ id .started fresh]
    exact books.counters fate
  · intro other here
    change Function.update s.finished id false other = false
    by_cases same : other = id
    · subst same
      exact Function.update_self ..
    · rw [Function.update_of_ne same]
      exact books.unfinished other ((congrArg _ (Function.update_of_ne same ..).symm).trans here)
  · intro other fate here
    have ne : other ≠ id := by
      intro same
      subst same
      exact absurd ((Function.update_self ..).symm.trans here) nofun
    refine (Function.update_of_ne ne ..).trans (books.finished other fate ?_)
    exact (Function.update_of_ne ne ..).symm.trans here

end Books

namespace Sound

theorem new : TaskState.new.Sound where
  books := .new
  spawns _ := trivial
  stages _ := trivial
  started _ := nofun

/-- A step of a `spawn`. -/
theorem spawnStep (inv : s.Sound) (call : Nat) (pc : SpawnPc)
    (spawns : t.spawns = Function.update s.spawns call pc) (stages : t.stages = s.stages) (books : t.Books)
    (own : t.SpawnOk call pc) (steady : ∀ holder, holder ≠ .spawn call → Steady s t holder)
    (started : ∀ id, t.status id = .started → pc = .tracking id ∨
      (s.status id = .started ∧ s.spawns call ≠ .tracking id)) : t.Sound := by
  refine ⟨books, ?_, ?_, ?_⟩
  · rw [spawns]
    refine (Function.forall_update_iff s.spawns fun other pc => t.SpawnOk other pc).mpr ⟨own, ?_⟩
    intro other ne
    exact (steady (.spawn other) fun here => ne (Holder.spawn.inj here)).spawn _ (inv.spawns other)
  · intro other
    rw [stages]
    exact (steady (.stage other) nofun).stage _ (inv.stages other)
  · intro id here
    rw [spawns]
    rcases started id here with rfl | ⟨before, apart⟩
    · exact ⟨call, Function.update_self ..⟩
    · obtain ⟨other, tracking⟩ := inv.started id before
      have ne : other ≠ call := by
        intro same
        subst same
        exact apart tracking
      exact ⟨other, (Function.update_of_ne ne ..).trans tracking⟩

/-- A step of a stage. -/
theorem stageStep (inv : s.Sound) (call : Nat) (pc : StagePc) (spawns : t.spawns = s.spawns)
    (stages : t.stages = Function.update s.stages call pc) (status : t.status = s.status) (books : t.Books)
    (own : t.StageOk call pc) (steady : ∀ holder, holder ≠ .stage call → Steady s t holder) : t.Sound := by
  refine ⟨books, ?_, ?_, ?_⟩
  · intro other
    rw [spawns]
    exact (steady (.spawn other) nofun).spawn _ (inv.spawns other)
  · rw [stages]
    refine (Function.forall_update_iff s.stages fun other pc => t.StageOk other pc).mpr ⟨own, ?_⟩
    intro other ne
    exact (steady (.stage other) fun here => ne (Holder.stage.inj here)).stage _ (inv.stages other)
  · rw [status, spawns]
    exact inv.started

/-- A step of a task. -/
theorem taskStep (inv : s.Sound) (calls : SameCalls s t) (books : t.Books) (steady : ∀ holder, Steady s t holder)
    (started : ∀ id, t.status id = .started → s.status id = .started) : t.Sound := by
  refine ⟨books, ?_, ?_, ?_⟩
  · intro call
    rw [calls.spawns]
    exact (steady (.spawn call)).spawn _ (inv.spawns call)
  · intro call
    rw [calls.stages]
    exact (steady (.stage call)).stage _ (inv.stages call)
  · intro id here
    rw [calls.spawns]
    exact inv.started id (started id here)

/-- Whoever holds the gate, nobody else does. -/
theorem others_free {holder : Holder} (held : s.gate = some holder) (other : Holder)
    (ne : other ≠ holder) : s.gate ≠ some other := by
  intro theirs
  rw [held] at theirs
  exact ne (Option.some.inj theirs).symm

theorem not_quiet (accepting : s.accepting = true) : ¬s.Quiet := by
  intro quiet
  rw [quiet.1] at accepting
  cases accepting

/-- Whoever holds the open gate may do as it likes with the tasks. -/
theorem steady_of_accepting {holder other : Holder} (held : s.gate = some holder)
    (accepting : s.accepting = true) (ne : other ≠ holder) : Steady s t other where
  gate theirs := absurd theirs (others_free held other ne)
  quiet quiet := absurd quiet (not_quiet accepting)

theorem advanceSpawn (inv : s.Sound) (threadName : String) (call : Nat) :
    (s.advanceSpawn threadName call).Sound := by
  have own := inv.spawns call
  simp only [TaskState.advanceSpawn]
  split
  · next name here =>
      split
      · exact inv
      · next free =>
          refine inv.spawnStep call (.checking name) rfl rfl { inv.books with } rfl ?_ ?_
          · intro holder _
            refine .ofHolder ?_ rfl fun quiet => quiet
            rw [free]
            exact nofun
          · intro id started
            exact Or.inr ⟨started, by rw [here]; exact nofun⟩
  · next name here =>
      rw [here] at own
      split
      · next accepting =>
          refine inv.spawnStep call (.starting name) rfl rfl { inv.books with } ⟨own, accepting⟩ ?_ ?_
          · intro holder _
            exact .same holder rfl rfl rfl
          · intro id started
            exact Or.inr ⟨started, by rw [here]; exact nofun⟩
      · refine inv.spawnStep call _ rfl rfl { inv.books with } trivial ?_ ?_
        · intro holder ne
          exact .ofHolder (others_free own holder ne) rfl fun quiet => quiet
        · intro id started
          exact Or.inr ⟨started, by rw [here]; exact nofun⟩
  · next name here =>
      rw [here] at own
      refine inv.spawnStep call (.inserting s.nextId name) rfl rfl ?_ ?_ ?_ ?_
      · refine { inv.books with below := ?_ }
        intro id member
        exact Nat.lt_succ_of_lt (inv.books.below id member)
      · refine ⟨own.1, own.2, Nat.lt_succ_self _, ?_⟩
        intro member
        exact Nat.lt_irrefl _ (inv.books.below s.nextId member)
      · intro holder ne
        exact steady_of_accepting own.1 own.2 ne
      · intro id started
        exact Or.inr ⟨started, by rw [here]; exact nofun⟩
  · next id name here =>
      rw [here] at own
      have books := inv.books.insert id name own.2.2.1 own.2.2.2
      refine inv.spawnStep call (.tracking id) rfl rfl { books with } ⟨own.1, own.2.1, ?_⟩ ?_ ?_
      · exact Function.update_self ..
      · intro holder ne
        exact steady_of_accepting own.1 own.2.1 ne
      · intro other started
        by_cases same : other = id
        · subst same
          exact Or.inl rfl
        · refine Or.inr ⟨(Function.update_of_ne same ..).symm.trans started, ?_⟩
          rw [here]
          exact nofun
  · next id here =>
      rw [here] at own
      have books := inv.books.setStatus id .tracked own.2.2 nofun nofun rfl (fun _ => rfl) nofun
      refine inv.spawnStep call (.unlocking id) rfl rfl { books with } own.1 ?_ ?_
      · intro holder ne
        exact steady_of_accepting own.1 own.2.1 ne
      · intro other started
        have ne : other ≠ id := by
          intro same
          subst same
          exact absurd ((Function.update_self ..).symm.trans started) nofun
        refine Or.inr ⟨(Function.update_of_ne ne ..).symm.trans started, ?_⟩
        rw [here]
        intro same
        exact ne (SpawnPc.tracking.inj same).symm
  · next id here =>
      rw [here] at own
      refine inv.spawnStep call _ rfl rfl { inv.books with } trivial ?_ ?_
      · intro holder ne
        exact .ofHolder (others_free own holder ne) rfl fun quiet => quiet
      · intro other started
        exact Or.inr ⟨started, by rw [here]; exact nofun⟩
  · exact inv

/-- A step of a task on the tracker. -/
theorem onTracker {was : TaskStatus} (inv : s.Sound) (id : Nat) (now : TaskStatus)
    (here : s.status id = was) (tracked : was.onTracker = true) (after : now ≠ .started)
    (calls : SameCalls s t) (gate : SameGate s t) (status : t.status = Function.update s.status id now)
    (books : t.Books) : t.Sound := by
  subst here
  have present : id ∈ s.accepted := by
    refine (inv.books.born id).mpr ?_
    intro absent
    rw [absent] at tracked
    cases tracked
  refine inv.taskStep calls books ?_ ?_
  · intro holder
    refine ⟨?_, ?_⟩
    · intro held
      refine ⟨gate.gate.trans held, gate.accepting, gate.accepted, gate.nextId.ge, ?_⟩
      intro other started
      have ne : other ≠ id := by
        intro same
        subst same
        rw [started] at tracked
        cases tracked
      rw [status, Function.update_of_ne ne]
      exact started
    · intro quiet
      obtain ⟨fate, gone⟩ := quiet.2 id present
      rw [gone] at tracked
      cases tracked
  · intro other started
    rw [status] at started
    by_cases same : other = id
    · subst same
      rw [Function.update_self] at started
      exact absurd started after
    · rw [Function.update_of_ne same] at started
      exact started

/-- A task on the tracker goes on without being counted or removed. -/
theorem setStatus {was : TaskStatus} (inv : s.Sound) (id : Nat) (now : TaskStatus)
    (here : s.status id = was) (tracked : was.onTracker = true) (after : now ≠ .started)
    (books : (s.setStatus id now).Books) : (s.setStatus id now).Sound :=
  inv.onTracker id now here tracked after rfl rfl rfl books

/-- A tracked task goes to its guard, which has not counted it yet. -/
theorem leave (inv : s.Sound) (id : Nat) (now : TaskStatus) (here : s.status id = .tracked)
    (after : now ≠ .started) (inActive : now.inActive = true)
    (uncounted : ∀ fate, now.countedAs fate = false) : (s.setStatus id now).Sound := by
  refine inv.setStatus id now here rfl after ?_
  refine inv.books.setStatus id now here nofun ?_ inActive uncounted ?_
  · intro absent
    rw [absent] at inActive
    cases inActive
  · intro fate dropping
    rw [dropping] at inActive
    cases inActive

/-- The guard counts its task. -/
theorem count {was : TaskStatus} (inv : s.Sound) (id : Nat) (fate : Fate) (now : TaskStatus)
    (here : s.status id = was) (tracked : was.onTracker = true) (after : now ≠ .started)
    (books : ((s.count fate).setStatus id now).Books) : ((s.count fate).setStatus id now).Sound := by
  cases fate with
  | completed => exact inv.onTracker id now here tracked after rfl rfl rfl books
  | cancelled => exact inv.onTracker id now here tracked after rfl rfl rfl books
  | panicked => exact inv.onTracker id now here tracked after rfl rfl rfl books

theorem advanceGuard (inv : s.Sound) (id : Nat) : (s.advanceGuard id).Sound := by
  simp only [TaskState.advanceGuard]
  split
  · next fate here =>
      refine inv.count id fate (.counted fate) here rfl nofun ?_
      exact inv.books.count id fate _ here rfl (fun _ => rfl) rfl fun _ => rfl
  · next fate here =>
      refine inv.onTracker id (.dropping (some fate)) here rfl nofun rfl rfl rfl ?_
      refine inv.books.remove id (.dropping (some fate)) (Function.update s.finished id true) here nofun nofun
        rfl (fun _ => rfl) ?_ ?_
      · intro other ne
        exact Function.update_of_ne ne ..
      · intro _ _
        exact Function.update_self ..
  · next before here =>
      cases before with
      | none =>
          have unfinished : s.finished id = false := inv.books.unfinished id (by rw [here]; rfl)
          rw [if_neg (by rw [unfinished]; exact Bool.false_ne_true)]
          refine inv.count id .cancelled .dropCounted here rfl nofun ?_
          exact inv.books.count id .cancelled _ here rfl (fun _ => rfl) rfl fun _ => rfl
      | some fate =>
          rw [if_pos (inv.books.finished id fate here)]
          refine inv.setStatus id (.finished fate) here rfl nofun ?_
          exact inv.books.setStatus id (.finished fate) here nofun nofun rfl (fun _ => rfl) nofun
  · next here =>
      refine inv.onTracker id (.finished .cancelled) here rfl nofun rfl rfl rfl ?_
      exact inv.books.remove id (.finished .cancelled) s.finished here nofun nofun rfl (fun _ => rfl)
        (fun _ _ => rfl) nofun
  · next fate here =>
      refine inv.setStatus id (.gone fate) here rfl nofun ?_
      exact inv.books.setStatus id (.gone fate) here nofun nofun rfl (fun _ => rfl) nofun
  · exact inv

/-- A step of a stage that only the stage itself notices. -/
theorem setStage (inv : s.Sound) (call : Nat) (pc : StagePc) (own : s.StageOk call pc) :
    (s.setStage call pc).Sound := by
  have steady : ∀ holder, Steady s (s.setStage call pc) holder := fun holder =>
    .same holder rfl rfl rfl
  exact inv.stageStep call pc rfl rfl rfl { inv.books with } ((steady (.stage call)).stage pc own)
    fun holder _ => steady holder

end Sound

/-- With all tasks gone, none is left in `active`. -/
theorem Quiet.active_nil (quiet : s.Quiet) (books : s.Books) : s.active = [] := by
  have none : s.active.map (·.1) = [] := by
    rw [books.active, List.filter_eq_nil_iff]
    intro id member
    obtain ⟨fate, gone⟩ := quiet.2 id member
    rw [gone]
    exact Bool.false_ne_true
  exact List.map_eq_nil_iff.mp none

theorem Quiet.shardNames_nil {shards : Nat} (quiet : s.Quiet) (books : s.Books)
    (shardOf : Nat → Fin shards) (shard : Nat) : s.shardNames shardOf shard = [] := by
  rw [shardNames, quiet.active_nil books]
  rfl

theorem Sound.quiet_of_trackerDone (inv : s.Sound) (done : s.trackerDone = true) : s.Quiet := by
  obtain ⟨closed, free⟩ := Bool.and_eq_true_iff.mp done
  have shut := inv.books.closed closed
  refine ⟨shut, ?_⟩
  intro id member
  have off := List.all_eq_true.mp free id member
  have born := (inv.books.born id).mp member
  cases here : s.status id with
  | absent => exact absurd here born
  | started =>
      -- Its spawn still holds the gate, which it found open.
      obtain ⟨call, tracking⟩ := inv.started id here
      have own := inv.spawns call
      rw [tracking] at own
      rw [own.2.1] at shut
      cases shut
  | gone fate => exact ⟨fate, rfl⟩
  | _ =>
      rw [here] at off
      cases off

namespace Seen

variable {shards : Nat} {view : StageView}

theorem listBefore (seen : s.Seen view) (books : s.Books) (shardOf : Nat → Fin shards) (shard : Nat) :
    s.Seen { view with before := view.before ++ s.shardNames shardOf shard } := by
  intro waited
  obtain ⟨quiet, before, remaining⟩ := seen waited
  refine ⟨quiet, ?_, remaining⟩
  rw [before, quiet.shardNames_nil books]
  rfl

theorem list (seen : s.Seen view) (books : s.Books) (shardOf : Nat → Fin shards) (shard : Nat) :
    s.Seen { view with remaining := view.remaining ++ s.shardNames shardOf shard } := by
  intro waited
  obtain ⟨quiet, before, remaining⟩ := seen waited
  refine ⟨quiet, before, ?_⟩
  rw [remaining, quiet.shardNames_nil books]
  rfl

end Seen

theorem shutdownRuntime_graceful (view : StageView) (graceful : view.shutdownRuntimeReport.outcome = .graceful) :
    view.waited = true ∧ view.panicked = 0 ∧ view.shutdownRuntimeReport.remainingTasks = [] := by
  have outcome : view.shutdownRuntimeOutcome = .graceful := graceful
  have known := outcome
  simp only [StageView.shutdownRuntimeOutcome] at known
  split at known
  · cases known
  · next waited =>
      split at known
      · cases known
      · next clean =>
          simp only [Bool.or_eq_true, Bool.not_eq_true', decide_eq_true_eq, not_or, Bool.not_eq_false,
            List.isEmpty_iff] at waited clean
          obtain ⟨⟨-, remaining⟩, panicked⟩ := clean
          refine ⟨waited, by omega, ?_⟩
          simp [StageView.shutdownRuntimeReport, remaining, outcome]

theorem prepareMain_graceful (view : StageView) (graceful : view.prepareMainReport.outcome = .graceful) :
    view.waited = true ∧ view.panicked = 0 ∧ view.prepareMainReport.remainingTasks = [] := by
  have known : view.prepareMainOutcome = .graceful := graceful
  simp only [StageView.prepareMainOutcome] at known
  split at known
  · cases known
  · next waited =>
      split at known
      · next clean =>
          simp only [Bool.and_eq_true, Bool.not_eq_true', decide_eq_true_eq, Bool.not_eq_false,
            List.isEmpty_iff] at waited clean
          exact ⟨waited, clean.2, clean.1⟩
      · cases known

/-- The last load of a stage, and its report. -/
theorem Seen.report {view : StageView} (seen : s.Seen view)
    (loaded : view.waited = true → view.panicked = s.panicked ∧ view.completed = s.completed)
    (cancelled : view.cancelled = s.cancelled) (main : Bool) (call : Nat) :
    s.StageOk call
      (.returned (some (if main then view.prepareMainReport else view.shutdownRuntimeReport))) := by
  cases main with
  | false =>
      intro graceful
      obtain ⟨waited, none, remaining⟩ := shutdownRuntime_graceful view graceful
      obtain ⟨panicked, completed⟩ := loaded waited
      exact ⟨(seen waited).1, remaining, none, panicked.symm.trans none, completed, cancelled⟩
  | true =>
      intro graceful
      obtain ⟨waited, none, remaining⟩ := prepareMain_graceful view graceful
      obtain ⟨panicked, completed⟩ := loaded waited
      exact ⟨(seen waited).1, remaining, none, panicked.symm.trans none, completed, cancelled⟩

theorem Sound.advanceStage {shards : Nat} (inv : s.Sound) (main : Bool) (shardOf : Nat → Fin shards)
    (call : Nat) : (s.advanceStage main shardOf call).Sound := by
  have own := inv.stages call
  simp only [TaskState.advanceStage]
  split
  · split
    · exact inv
    · next free =>
        refine inv.stageStep call .closing rfl rfl rfl { inv.books with } rfl ?_
        intro holder _
        refine .ofHolder ?_ rfl fun quiet => quiet
        rw [free]
        exact nofun
  · next here =>
      rw [here] at own
      refine inv.stageStep call .closingTracker rfl rfl rfl ?_ ⟨own, rfl⟩ ?_
      · exact { inv.books with closed := fun _ => rfl }
      · intro holder ne
        exact .ofHolder (Sound.others_free own holder ne) rfl fun quiet => ⟨rfl, quiet.2⟩
  · next here =>
      rw [here] at own
      refine inv.stageStep call .cancelling rfl rfl rfl ?_ trivial ?_
      · exact { inv.books with closed := fun _ => own.2 }
      · intro holder ne
        exact .ofHolder (Sound.others_free own.1 holder ne) rfl fun quiet => quiet
  · refine inv.stageStep call .waiting rfl rfl rfl { inv.books with } trivial ?_
    intro holder _
    exact .same holder rfl rfl rfl
  · next view shard here =>
      rw [here] at own
      split
      · exact inv.setStage call _ (Seen.listBefore own inv.books shardOf shard)
      · refine inv.setStage call _ ?_
        intro waited
        obtain ⟨quiet, before, remaining⟩ := own waited
        exact ⟨quiet, by rw [before]; exact List.mergeSort_nil, remaining⟩
  · next view shard here =>
      rw [here] at own
      split
      · exact inv.setStage call _ (Seen.list own inv.books shardOf shard)
      · refine inv.setStage call _ ?_
        intro waited
        obtain ⟨quiet, before, remaining⟩ := own waited
        exact ⟨quiet, before, by rw [remaining]; exact List.mergeSort_nil⟩
  · next view here =>
      rw [here] at own
      exact inv.setStage call _ ⟨own, fun _ => rfl⟩
  · next view here =>
      rw [here] at own
      exact inv.setStage call _ ⟨own.1, fun waited => ⟨own.2 waited, rfl⟩⟩
  · next view here =>
      rw [here] at own
      have loaded : s.Seen { view with cancelled := s.cancelled } := own.1
      exact inv.setStage call _ (loaded.report own.2 rfl main call)
  · exact inv

theorem Sound.step {shards : Nat} (threadName : String) (main : Bool) (shardOf : Nat → Fin shards)
    (inv : s.Sound) (act : TaskAct) : (s.step threadName main shardOf act).Sound := by
  cases act with
  | spawn call name =>
      simp only [TaskState.step]
      split
      · next here =>
          refine inv.spawnStep call (.locking name) rfl rfl { inv.books with } trivial ?_ ?_
          · intro holder _
            exact .same holder rfl rfl rfl
          · intro id started
            exact Or.inr ⟨started, by rw [here]; exact nofun⟩
      · exact inv
  | advanceSpawn call => exact inv.advanceSpawn threadName call
  | finish id =>
      simp only [TaskState.step]
      split
      · next here => exact inv.leave id _ here nofun rfl fun _ => rfl
      · exact inv
  | panics id =>
      simp only [TaskState.step]
      split
      · next here => exact inv.leave id _ here nofun rfl fun _ => rfl
      · exact inv
  | dropTask id =>
      simp only [TaskState.step]
      split
      · next here => exact inv.leave id _ here nofun rfl fun _ => rfl
      · exact inv
  | advanceGuard id => exact inv.advanceGuard id
  | shutdown call =>
      simp only [TaskState.step]
      split
      · exact inv.setStage call .locking trivial
      · exact inv
  | advanceStage call => exact inv.advanceStage main shardOf call
  | waited call ok =>
      simp only [TaskState.step]
      split
      · split
        · exact inv
        · next finished =>
            have seen : s.Seen (StageView.new ok) := by
              intro waited
              refine ⟨inv.quiet_of_trackerDone ?_, rfl, rfl⟩
              have waited : ok = true := waited
              simpa [waited] using finished
            cases main with
            | true => exact inv.setStage call (.listing _ 0) seen
            | false => exact inv.setStage call (.listingBefore _ 0) seen
      · exact inv
  | removed call found =>
      have own := inv.stages call
      simp only [TaskState.step]
      split
      · next view here =>
          rw [here] at own
          cases found with
          | true => exact inv.setStage call (.shuttingDown view) own
          | false => exact inv.setStage call (.returned none) trivial
      · exact inv
  | runtimeDown call ok =>
      have own := inv.stages call
      simp only [TaskState.step]
      split
      · next view here =>
          rw [here] at own
          exact inv.setStage call (.listing _ 0) own
      · exact inv
  | cancel =>
      refine inv.taskStep rfl { inv.books with } ?_ fun _ started => started
      intro holder
      exact .same holder rfl rfl rfl

end TaskState

end Pigs.Utils.Rt
