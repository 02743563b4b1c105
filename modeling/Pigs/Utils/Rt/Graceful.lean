import Pigs.Utils.Rt.Shutdown

/-! The tasks of a runtime are conserved, none is accepted behind a closed gate, and what a graceful report
says is true. -/

namespace Pigs.Utils.Rt

namespace TaskState

variable {s t : TaskState}

/-- No `spawn` has got a task by the step. -/
structure SameTasks (s t : TaskState) : Prop where
  tasks : ∀ call, (t.spawns call).task = (s.spawns call).task
  accepted : t.accepted = s.accepted

namespace SameTasks

theorem refl (s : TaskState) : s.SameTasks s := ⟨fun _ => rfl, rfl⟩

theorem trans {u : TaskState} (first : s.SameTasks t) (second : t.SameTasks u) : s.SameTasks u :=
  ⟨fun call => (second.tasks call).trans (first.tasks call), second.accepted.trans first.accepted⟩

theorem ofEq (spawns : t.spawns = s.spawns) (accepted : t.accepted = s.accepted) : s.SameTasks t :=
  ⟨fun call => by rw [spawns], accepted⟩

theorem ofUpdate (call : Nat) (pc : SpawnPc) (spawns : t.spawns = Function.update s.spawns call pc)
    (accepted : t.accepted = s.accepted) (same : pc.task = (s.spawns call).task) : s.SameTasks t := by
  refine ⟨?_, accepted⟩
  intro other
  rw [spawns]
  by_cases here : other = call
  · subst here
    rw [Function.update_self, same]
  · rw [Function.update_of_ne here]

end SameTasks

/-- A `spawn` puts its task into `active`. -/
structure Accepts (s t : TaskState) (call id : Nat) (name : String) : Prop where
  inserting : s.spawns call = .inserting id name
  spawns : t.spawns = Function.update s.spawns call (.tracking id)
  accepted : t.accepted = s.accepted ++ [id]

theorem advanceSpawn_tasks (s : TaskState) (threadName : String) (call : Nat) :
    s.SameTasks (s.advanceSpawn threadName call) ∨
      ∃ id name, s.Accepts (s.advanceSpawn threadName call) call id name := by
  simp only [advanceSpawn]
  split
  · next name here =>
      split
      · exact Or.inl (.refl s)
      · exact Or.inl (.ofUpdate call (.checking name) rfl rfl (by rw [here]; rfl))
  · next name here =>
      split
      · exact Or.inl (.ofUpdate call (.starting name) rfl rfl (by rw [here]; rfl))
      · exact Or.inl (.ofUpdate call _ rfl rfl (by rw [here]; rfl))
  · next name here => exact Or.inl (.ofUpdate call (.inserting s.nextId name) rfl rfl (by rw [here]; rfl))
  · next id name here => exact Or.inr ⟨id, name, here, rfl, rfl⟩
  · next id here => exact Or.inl (.ofUpdate call (.unlocking id) rfl rfl (by rw [here]; rfl))
  · next id here => exact Or.inl (.ofUpdate call (.returned (.ok id)) rfl rfl (by rw [here]; rfl))
  · exact Or.inl (.refl s)

theorem advanceGuard_tasks (s : TaskState) (id : Nat) : s.SameTasks (s.advanceGuard id) := by
  have count : ∀ fate now, s.SameTasks ((s.count fate).setStatus id now) := by
    intro fate now
    cases fate <;> exact .ofEq rfl rfl
  simp only [advanceGuard]
  split
  · exact count _ _
  · exact .ofEq rfl rfl
  · split
    · exact .ofEq rfl rfl
    · exact count _ _
  · exact .ofEq rfl rfl
  · exact .ofEq rfl rfl
  · exact .refl s

theorem advanceStage_tasks {shards : Nat} (s : TaskState) (main : Bool) (shardOf : Nat → Fin shards)
    (call : Nat) : s.SameTasks (s.advanceStage main shardOf call) := by
  simp only [advanceStage]
  split <;> try split
  all_goals exact .ofEq rfl rfl

section Step

variable {shards : Nat} (threadName : String) (main : Bool) (shardOf : Nat → Fin shards)

theorem step_tasks (s : TaskState) (act : TaskAct) :
    s.SameTasks (s.step threadName main shardOf act) ∨
      ∃ call id name, s.Accepts (s.step threadName main shardOf act) call id name := by
  cases act with
  | spawn call name =>
      simp only [step]
      split
      · next here => exact Or.inl (.ofUpdate call (.locking name) rfl rfl (by rw [here]; rfl))
      · exact Or.inl (.refl s)
  | advanceSpawn call =>
      rcases s.advanceSpawn_tasks threadName call with same | ⟨id, name, accepts⟩
      · exact Or.inl same
      · exact Or.inr ⟨call, id, name, accepts⟩
  | advanceGuard id => exact Or.inl (s.advanceGuard_tasks id)
  | advanceStage call => exact Or.inl (s.advanceStage_tasks main shardOf call)
  | waited call ok =>
      refine Or.inl ?_
      simp only [step]
      split
      · split <;> exact .ofEq rfl rfl
      · exact .refl s
  | cancel => exact Or.inl (.ofEq rfl rfl)
  | _ =>
      refine Or.inl ?_
      simp only [step]
      split <;> exact .ofEq rfl rfl

end Step

/-- The gate does not come open again, and a stage that is past it has closed it. -/
structure Shuts (s t : TaskState) : Prop where
  accepting : s.accepting = false → t.accepting = false
  stages : ∀ call, (t.stages call).closed = true → (s.stages call).closed = true ∨ t.accepting = false

namespace Shuts

theorem ofEq (accepting : t.accepting = s.accepting) (stages : t.stages = s.stages) : s.Shuts t where
  accepting closed := accepting.trans closed
  stages call closed := by
    rw [stages] at closed
    exact Or.inl closed

theorem ofUpdate (call : Nat) (pc : StagePc) (stages : t.stages = Function.update s.stages call pc)
    (accepting : s.accepting = false → t.accepting = false)
    (past : pc.closed = true → (s.stages call).closed = true ∨ t.accepting = false) : s.Shuts t where
  accepting := accepting
  stages other closed := by
    rw [stages] at closed
    by_cases here : other = call
    · subst here
      rw [Function.update_self] at closed
      exact past closed
    · rw [Function.update_of_ne here] at closed
      exact Or.inl closed

/-- A stage that is past the gate goes on. -/
theorem further (s : TaskState) (call : Nat) (pc : StagePc) (past : (s.stages call).closed = true) :
    s.Shuts (s.setStage call pc) :=
  .ofUpdate call pc rfl (fun closed => closed) fun _ => Or.inl past

end Shuts

theorem advanceSpawn_shuts (s : TaskState) (threadName : String) (call : Nat) :
    s.Shuts (s.advanceSpawn threadName call) := by
  simp only [advanceSpawn]
  split <;> try split
  all_goals exact .ofEq rfl rfl

theorem advanceGuard_shuts (s : TaskState) (id : Nat) : s.Shuts (s.advanceGuard id) := by
  have count : ∀ fate now, s.Shuts ((s.count fate).setStatus id now) := by
    intro fate now
    cases fate <;> exact .ofEq rfl rfl
  simp only [advanceGuard]
  split
  · exact count _ _
  · exact .ofEq rfl rfl
  · split
    · exact .ofEq rfl rfl
    · exact count _ _
  all_goals exact .ofEq rfl rfl

section Step

variable {shards : Nat} (threadName : String) (main : Bool) (shardOf : Nat → Fin shards)

theorem advanceStage_shuts (s : TaskState) (call : Nat) : s.Shuts (s.advanceStage main shardOf call) := by
  simp only [advanceStage]
  split
  · split
    · exact .ofEq rfl rfl
    · exact .ofUpdate call .closing rfl (fun closed => closed) fun past => by cases past
  · exact .ofUpdate call .closingTracker rfl (fun _ => rfl) fun _ => Or.inr rfl
  · next here => exact .ofUpdate call .cancelling rfl (fun closed => closed) fun _ => Or.inl (by rw [here]; rfl)
  · next here => exact .ofUpdate call .waiting rfl (fun closed => closed) fun _ => Or.inl (by rw [here]; rfl)
  · next here => split <;> exact .further s call _ (by rw [here]; rfl)
  · next here => split <;> exact .further s call _ (by rw [here]; rfl)
  · next here => exact .further s call _ (by rw [here]; rfl)
  · next here => exact .further s call _ (by rw [here]; rfl)
  · next here => exact .further s call _ (by rw [here]; rfl)
  · exact .ofEq rfl rfl

theorem step_shuts (s : TaskState) (act : TaskAct) : s.Shuts (s.step threadName main shardOf act) := by
  cases act with
  | advanceSpawn call => exact s.advanceSpawn_shuts threadName call
  | advanceGuard id => exact s.advanceGuard_shuts id
  | advanceStage call => exact s.advanceStage_shuts main shardOf call
  | shutdown call =>
      simp only [step]
      split
      · exact .ofUpdate call .locking rfl (fun closed => closed) fun past => by cases past
      · exact .ofEq rfl rfl
  | waited call ok =>
      simp only [step]
      split
      · next here =>
          split
          · exact .ofEq rfl rfl
          · exact .further s call _ (by rw [here]; rfl)
      · exact .ofEq rfl rfl
  | removed call found =>
      simp only [step]
      split
      · next here => exact .further s call _ (by rw [here]; rfl)
      · exact .ofEq rfl rfl
  | runtimeDown call ok =>
      simp only [step]
      split
      · next here => exact .further s call _ (by rw [here]; rfl)
      · exact .ofEq rfl rfl
  | cancel => exact .ofEq rfl rfl
  | _ =>
      simp only [step]
      split <;> exact .ofEq rfl rfl

end Step

/-- Each accepted task is that of one `spawn`, and a stage past the gate has closed it. -/
structure Owned (s : TaskState) : Prop where
  sound : s.Sound
  owner : ∀ id ∈ s.accepted, ∃ call, (s.spawns call).task = some id
  accepted : ∀ call id, (s.spawns call).task = some id → id ∈ s.accepted
  alone : ∀ call other id, (s.spawns call).task = some id → (s.spawns other).task = some id → call = other
  closed : ∀ call, (s.stages call).closed = true → s.accepting = false

namespace Owned

theorem new : TaskState.new.Owned where
  sound := .new
  owner _ member := absurd member List.not_mem_nil
  accepted _ _ := nofun
  alone _ _ _ := nofun
  closed _ := nofun

theorem same (inv : s.Owned) (sound : t.Sound) (same : s.SameTasks t) (shuts : s.Shuts t) : t.Owned where
  sound := sound
  owner id member := by
    rw [same.accepted] at member
    obtain ⟨call, task⟩ := inv.owner id member
    exact ⟨call, (same.tasks call).trans task⟩
  accepted call id task := by
    rw [same.accepted]
    exact inv.accepted call id ((same.tasks call).symm.trans task)
  alone call other id first second :=
    inv.alone call other id ((same.tasks call).symm.trans first) ((same.tasks other).symm.trans second)
  closed call closed := by
    rcases shuts.stages call closed with before | now
    · exact shuts.accepting (inv.closed call before)
    · exact now

theorem accepts {call id : Nat} {name : String} (inv : s.Owned) (sound : t.Sound)
    (accepts : s.Accepts t call id name) (shuts : s.Shuts t) : t.Owned := by
  have own := inv.sound.spawns call
  rw [accepts.inserting] at own
  have fresh : id ∉ s.accepted := own.2.2.2
  -- Only the inserting call has the new task, and the others keep theirs.
  have tasks : ∀ other task, (t.spawns other).task = some task →
      (other = call ∧ task = id) ∨ (other ≠ call ∧ (s.spawns other).task = some task) := by
    intro other task has
    rw [accepts.spawns] at has
    by_cases here : other = call
    · subst here
      rw [Function.update_self] at has
      exact Or.inl ⟨rfl, (Option.some.inj has).symm⟩
    · rw [Function.update_of_ne here] at has
      exact Or.inr ⟨here, has⟩
  refine ⟨sound, ?_, ?_, ?_, ?_⟩
  · intro task member
    rw [accepts.accepted] at member
    rw [accepts.spawns]
    rcases List.mem_append.mp member with old | new
    · obtain ⟨other, has⟩ := inv.owner task old
      have ne : other ≠ call := by
        intro here
        subst here
        rw [accepts.inserting] at has
        cases has
      exact ⟨other, by rw [Function.update_of_ne ne, has]⟩
    · exact ⟨call, by rw [Function.update_self, List.mem_singleton.mp new]; rfl⟩
  · intro other task has
    rw [accepts.accepted]
    rcases tasks other task has with ⟨-, rfl⟩ | ⟨-, before⟩
    · exact List.mem_append_right _ (List.mem_singleton_self task)
    · exact List.mem_append_left _ (inv.accepted other task before)
  · intro first second task one two
    rcases tasks first task one with ⟨rfl, rfl⟩ | ⟨-, before⟩
    · rcases tasks second task two with ⟨rfl, -⟩ | ⟨-, before⟩
      · rfl
      · exact absurd (inv.accepted second task before) fresh
    · rcases tasks second task two with ⟨rfl, rfl⟩ | ⟨-, also⟩
      · exact absurd (inv.accepted first task before) fresh
      · exact inv.alone first second task before also
  · intro other closed
    rcases shuts.stages other closed with before | now
    · exact shuts.accepting (inv.closed other before)
    · exact now

variable {shards : Nat} (threadName : String) (main : Bool) (shardOf : Nat → Fin shards)

theorem step (s : TaskState) (act : TaskAct) (inv : s.Owned) : (s.step threadName main shardOf act).Owned := by
  have sound := inv.sound.step threadName main shardOf act
  have shuts := s.step_shuts threadName main shardOf act
  rcases s.step_tasks threadName main shardOf act with same | ⟨call, id, name, accepts⟩
  · exact inv.same sound same shuts
  · exact inv.accepts sound accepts shuts

theorem run (inv : s.Owned) (acts : List TaskAct) : (s.run threadName main shardOf acts).Owned :=
  Lib.invariant_run _ Owned (step threadName main shardOf) s acts inv

/-- A step behind the closed gate accepts no task. -/
theorem step_closed (inv : s.Owned) (closed : s.accepting = false) (act : TaskAct) :
    s.SameTasks (s.step threadName main shardOf act) := by
  rcases s.step_tasks threadName main shardOf act with same | ⟨call, id, name, accepts⟩
  · exact same
  · have own := inv.sound.spawns call
    rw [accepts.inserting] at own
    rw [own.2.1] at closed
    cases closed

/-- Behind the closed gate no task is accepted any more. -/
theorem run_closed (inv : s.Owned) (closed : s.accepting = false) (acts : List TaskAct) :
    (s.run threadName main shardOf acts).accepting = false ∧
      s.SameTasks (s.run threadName main shardOf acts) := by
  have keep : ∀ state act, (state.Owned ∧ state.accepting = false ∧ s.SameTasks state) →
      (state.step threadName main shardOf act).Owned ∧
        (state.step threadName main shardOf act).accepting = false ∧
        s.SameTasks (state.step threadName main shardOf act) := by
    intro state act ⟨owned, shut, same⟩
    refine ⟨step threadName main shardOf state act owned, ?_, ?_⟩
    · exact (state.step_shuts threadName main shardOf act).accepting shut
    · exact same.trans (owned.step_closed threadName main shardOf shut act)
  exact (Lib.invariant_run _ _ keep s acts ⟨inv, closed, .refl s⟩).2

end Owned

/-- Every task is in `active` or counted, and twice while its guard is between the two. -/
theorem length_eq_tallies (status : Nat → TaskStatus) (ids : List Nat) (born : ∀ id ∈ ids, status id ≠ .absent) :
    ids.length + Lib.tally status TaskStatus.halfDone ids =
      Lib.tally status TaskStatus.inActive ids + Lib.tally status (TaskStatus.countedAs .completed) ids +
        Lib.tally status (TaskStatus.countedAs .cancelled) ids +
        Lib.tally status (TaskStatus.countedAs .panicked) ids := by
  induction ids with
  | nil => rfl
  | cons id ids ih =>
      have rest := ih fun other member => born other (List.mem_cons_of_mem id member)
      have here := born id (List.mem_cons_self ..)
      have one : ∀ now : TaskStatus, now ≠ .absent →
          1 + (if now.halfDone then 1 else 0) = (if now.inActive then 1 else 0) +
            (if now.countedAs .completed then 1 else 0) + (if now.countedAs .cancelled then 1 else 0) +
            if now.countedAs .panicked then 1 else 0 := by
        intro now present
        rcases now with _ | _ | _ | fate | fate | (_ | fate) | _ | fate | fate
        · exact absurd rfl present
        · rfl
        · rfl
        · rfl
        · cases fate <;> rfl
        · rfl
        · cases fate <;> rfl
        · rfl
        · cases fate <;> rfl
        · cases fate <;> rfl
      have own := one (status id) here
      simp only [Lib.tally_cons, List.length_cons]
      omega

theorem Books.conserved (books : s.Books) :
    s.accepted.length + Lib.tally s.status TaskStatus.halfDone s.accepted =
      s.active.length + s.completed + s.cancelled + s.panicked := by
  have active : s.active.length = Lib.tally s.status TaskStatus.inActive s.accepted := by
    rw [← List.length_map (·.1), books.active, ← List.countP_eq_length_filter]
    rfl
  have completed : s.completed = _ := books.counters .completed
  have cancelled : s.cancelled = _ := books.counters .cancelled
  have panicked : s.panicked = _ := books.counters .panicked
  rw [length_eq_tallies s.status s.accepted fun id member => (books.born id).mp member, active, completed,
    cancelled, panicked]

theorem Books.conserved_of_not_halfDone (books : s.Books)
    (whole : ∀ id ∈ s.accepted, (s.status id).halfDone = false) :
    s.accepted.length = s.active.length + s.completed + s.cancelled + s.panicked := by
  have none : Lib.tally s.status TaskStatus.halfDone s.accepted = 0 := by
    refine List.countP_eq_zero.mpr ?_
    intro id member
    rw [whole id member]
    exact Bool.false_ne_true
  have sum := books.conserved
  omega

/-- The fate of a task that is gone has been counted. -/
theorem Books.fate_counted (books : s.Books) {id : Nat} {fate : Fate} (member : id ∈ s.accepted)
    (gone : s.status id = .gone fate) : 0 < s.counter fate := by
  rw [books.counters fate]
  refine List.countP_pos_iff.mpr ⟨id, member, ?_⟩
  rw [gone]
  exact decide_eq_true rfl

/-- What a graceful report says. -/
theorem Sound.graceful {call : Nat} {report : RuntimeShutdownReport} (inv : s.Sound)
    (returned : s.stages call = .returned (some report)) (graceful : report.outcome = .graceful) :
    (∀ id ∈ s.accepted, ∃ fate, s.status id = .gone fate ∧ fate ≠ .panicked) ∧
      report.remainingTasks = [] ∧ report.panickedTasks = 0 ∧
      report.completedTasks + report.cancelledTasks = s.accepted.length := by
  have own := inv.stages call
  rw [returned] at own
  obtain ⟨quiet, remaining, reported, panicked, completed, cancelled⟩ := own graceful
  refine ⟨?_, remaining, reported, ?_⟩
  · intro id member
    obtain ⟨fate, gone⟩ := quiet.2 id member
    refine ⟨fate, gone, ?_⟩
    intro same
    subst same
    have some := inv.books.fate_counted member gone
    exact absurd panicked some.ne'
  · have sum := inv.books.conserved_of_not_halfDone fun id member => by
      obtain ⟨fate, gone⟩ := quiet.2 id member
      rw [gone]
      rfl
    rw [quiet.active_nil inv.books, List.length_nil] at sum
    omega

/-- In every interleaving: each accepted task is that of one `spawn`, in `active` until its guard has
removed it and in one counter from when its guard has counted it; a stage that has closed the gate sees no
task accepted any more; and its graceful report is right. -/
theorem tasks_conserved {shards : Nat} (threadName : String) (main : Bool) (shardOf : Nat → Fin shards)
    (acts : List TaskAct) :
    let s := TaskState.new.run threadName main shardOf acts
    (s.accepted.Nodup ∧ ∀ id, id ∈ s.accepted ↔ ∃! call, (s.spawns call).task = some id) ∧
    s.active.map (·.1) = s.accepted.filter (fun id => (s.status id).inActive) ∧
    (∀ fate, s.counter fate = s.accepted.countP fun id => (s.status id).countedAs fate) ∧
    ((∀ id ∈ s.accepted, (s.status id).halfDone = false) →
      s.accepted.length = s.active.length + s.completed + s.cancelled + s.panicked) ∧
    (∀ call, (s.stages call).closed = true → ∀ more,
      (s.run threadName main shardOf more).accepted = s.accepted ∧
      ∀ other, ((s.run threadName main shardOf more).spawns other).task = (s.spawns other).task) ∧
    ∀ call report, s.stages call = .returned (some report) → report.outcome = .graceful →
      (∀ id ∈ s.accepted, ∃ fate, s.status id = .gone fate ∧ fate ≠ .panicked) ∧
      report.remainingTasks = [] ∧ report.panickedTasks = 0 ∧
      report.completedTasks + report.cancelledTasks = s.accepted.length := by
  intro s
  have inv : s.Owned := Owned.new.run threadName main shardOf acts
  refine ⟨⟨inv.sound.books.once, ?_⟩, inv.sound.books.active, inv.sound.books.counters,
    inv.sound.books.conserved_of_not_halfDone, ?_, ?_⟩
  · intro id
    constructor
    · intro member
      obtain ⟨call, task⟩ := inv.owner id member
      exact ⟨call, task, fun other same => inv.alone other call id same task⟩
    · rintro ⟨call, task, -⟩
      exact inv.accepted call id task
  · intro call closed more
    have same := (inv.run_closed threadName main shardOf (inv.closed call closed) more).2
    exact ⟨same.accepted, same.tasks⟩
  · intro call report returned graceful
    exact inv.sound.graceful returned graceful

-- One task ends in time, and the report is graceful.
example :
    (match (TaskState.new.run "main" true (fun _ => (0 : Fin 1))
      [.spawn 0 "a", .advanceSpawn 0, .advanceSpawn 0, .advanceSpawn 0, .advanceSpawn 0, .advanceSpawn 0,
        .advanceSpawn 0, .finish 0, .advanceGuard 0, .advanceGuard 0, .advanceGuard 0, .advanceGuard 0,
        .shutdown 0, .advanceStage 0, .advanceStage 0, .advanceStage 0, .advanceStage 0, .waited 0 true,
        .advanceStage 0, .advanceStage 0, .advanceStage 0, .advanceStage 0, .advanceStage 0]).stages 0 with
      | .returned (some report) => report.outcome = .graceful && report.completedTasks = 1
      | _ => false) = true := by
  decide +kernel

end TaskState

end Pigs.Utils.Rt
