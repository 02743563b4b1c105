import Pigs.Db.Migrations.Sqlite

/-! Histories of `run_mysql_migrations` calls, where a DDL statement ends the transaction that is to hold
a migration and its row together. -/

namespace Pigs.Db.Migrations

variable {statements : String → List Statement}

def mysqlCall (statements : String → List Statement) (db : Database) (call : Call) : Database :=
  (runMysqlMigrations statements call.migrations call.fault db).db

/-- The call does not fail in a migration between what a DDL statement has committed of it and its row:
not before the row once a DDL statement has been executed, and not at a DDL statement that stands behind
others. Where the migration is recorded already, or the call ends before it, nothing fails there. -/
def SafeCall (engine : Engine) (db : Database) (call : Call) : Prop :=
  ∀ index point m, call.fault = some (.migration index point) → Reaches db.rows call.migrations index m →
    engine.SafePoint m (some point)

/-- Every committed statement of a migration has the migration's row. -/
def Recorded (db : Database) : Prop :=
  ∀ exec ∈ db.log, (exec.migration.version, exec.migration.name) ∈ db.rows

/-- A call executes no SQL of a version that has taken effect before. -/
def NothingAgain (statements : String → List Statement) (db : Database) (call : Call) : Prop :=
  ∀ exec ∈ (runMysqlMigrations statements call.migrations call.fault db).ran, ∀ past ∈ db.log,
    exec.migration.version ≠ past.migration.version

theorem mysql_call_passed (db : Database) (call : Call)
    (leaves : ∀ m ∈ call.migrations, (mysql statements).LeavesTable m)
    (safe : SafeCall (mysql statements) db call) (step : InStep (mysql statements) db) :
    InStep (mysql statements) (mysqlCall statements db call) ∧ NothingAgain statements db call := by
  rw [mysqlCall, NothingAgain, runMysqlMigrations]
  rcases run_cases (mysql statements) call.migrations call.fault db with ⟨failed, -⟩ |
    ⟨place, -, same, loop⟩
  · rw [failed]
    exact ⟨step, by simp⟩
  · have safeAt : SafeAt (mysql statements) db.created.rows call.migrations place :=
      fun index point m here reaches => safe index point m (same index point here) reaches
    have passes := apply_migrations_passed (mysql statements) call.migrations place db.created
      (created_table db) leaves safeAt step
    rw [loop]
    refine ⟨passes.inStep, ?_⟩
    intro exec ran past member equal
    have new := passes.fresh exec ran
    have old := (step.lookup _ _).mpr (step.recorded past member)
    rw [← equal] at old
    exact absurd (new.symm.trans old) (by simp)

/-- A call that fails where it is not safe commits a statement without its row. -/
theorem mysql_call_careless (db : Database) (call : Call)
    (leaves : ∀ m ∈ call.migrations, (mysql statements).LeavesTable m)
    (careless : ¬ SafeCall (mysql statements) db call) (step : InStep (mysql statements) db) :
    ¬ Recorded (mysqlCall statements db call) := by
  simp only [SafeCall, not_forall] at careless
  obtain ⟨index, point, m, fault, reaches, struck⟩ := careless
  obtain ⟨⟨exec, member, own⟩, missing⟩ := apply_migrations_careless (mysql statements) call.migrations
    index point db.created (created_table db) leaves step reaches struck
  intro recorded
  rw [mysqlCall, fault] at recorded
  exact missing _ (recorded exec member) (congrArg Migration.version own)

/-- A history has its committed effects recorded after every call, and executes no SQL that has taken
effect, exactly when no call of it fails where it is not safe. -/
theorem mysql_effects_recorded (statements : String → List Statement) (calls : List Call)
    (leaves : ∀ call ∈ calls, ∀ m ∈ call.migrations, (mysql statements).LeavesTable m) :
    Lib.Along (mysqlCall statements)
        (fun db call => Recorded (mysqlCall statements db call) ∧ NothingAgain statements db call)
        emptyDb calls ↔
      Lib.Along (mysqlCall statements) (SafeCall (mysql statements)) emptyDb calls := by
  apply Lib.along_iff (mysqlCall statements) (InStep (mysql statements)) emptyDb calls
  · intro db call member safe step
    exact (mysql_call_passed db call (leaves call member) safe step).1
  · intro db call member step
    constructor
    · rintro ⟨recorded, -⟩
      by_contra careless
      exact mysql_call_careless db call (leaves call member) careless step recorded
    · intro safe
      obtain ⟨after, nothing⟩ := mysql_call_passed db call (leaves call member) safe step
      exact ⟨after.recorded, nothing⟩
  · exact empty_in_step _

/-- One call that fails before the first migration's SQL, and one that goes through. -/
def retried : List Call :=
  [⟨usersAndRoles, some (.migration 0 (.statement 0))⟩, ⟨usersAndRoles, none⟩]

theorem mysql_effects_recorded_retry :
    Lib.Along (mysqlCall twoStatements)
        (fun db call => Recorded (mysqlCall twoStatements db call) ∧ NothingAgain twoStatements db call)
        emptyDb retried := by
  refine (mysql_effects_recorded twoStatements retried ?_).mpr ⟨?_, ?_, trivial⟩
  · intro _ _ m _ stmt member table
    simp only [mysql, twoStatements, List.mem_cons, List.not_mem_nil, or_false] at member
    rcases member with rfl | rfl <;> rfl
  · intro index point m fault _
    cases fault
    exact .inl rfl
  · intro index point m fault _
    cases fault

/-- The insert of the row fails after the migration's DDL has been committed, and the next call executes
the same SQL again. -/
theorem mysql_ddl_without_row :
    ¬ ∀ (statements : String → List Statement) (calls : List Call),
      Lib.Along (mysqlCall statements)
        (fun db call => Recorded (mysqlCall statements db call) ∧ NothingAgain statements db call)
        emptyDb calls := by
  intro always
  have recorded := (always twoStatements [⟨usersAndRoles, some (.migration 0 .insert)⟩]).1.1
    ⟨⟨1, "users", "CREATE TABLE users(id); INSERT INTO users VALUES (1)"⟩, 0⟩ (List.mem_cons_self ..)
  cases recorded

end Pigs.Db.Migrations
