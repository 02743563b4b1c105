import Pigs.Db.Migrations.Calls

/-! Histories of `run_sqlite_migrations` calls. -/

namespace Pigs.Db.Migrations

variable {statements : String → List Statement}

def sqliteCall (statements : String → List Statement) (db : Database) (call : Call) : Database :=
  (runSqliteMigrations statements call.migrations call.fault db).db

/-- What one call, failing anywhere or not at all, promises in the state `db`. -/
structure Kept (statements : String → List Statement) (db : Database) (call : Call) : Prop where
  recorded : (runSqliteMigrations statements call.migrations call.fault db).result = .ok () →
    ∀ m ∈ call.migrations,
      (m.version, m.name) ∈ (runSqliteMigrations statements call.migrations call.fault db).db.rows
  stopped : ∀ error, (runSqliteMigrations statements call.migrations call.fault db).result = .error error →
    call.fault = some .create ∧ (runSqliteMigrations statements call.migrations call.fault db).db = db ∨
      ∃ stop m ran, call.migrations[stop]? = some m ∧
        runSqliteMigrations statements (call.migrations.take stop) none db =
          ⟨(runSqliteMigrations statements call.migrations call.fault db).db, .ok (), ran, stop⟩ ∧
        ((∃ point, call.fault = some (.migration stop point)) ∨ ∃ other, other ≠ m.name ∧
          (m.version, other) ∈ (runSqliteMigrations statements call.migrations call.fault db).db.rows)
  conflict : ∀ front m rest other, call.migrations = front ++ m :: rest → other ≠ m.name →
    let before := runSqliteMigrations statements front call.fault db
    before.result = .ok () → (m.version, other) ∈ before.db.rows →
      ∃ error, runSqliteMigrations statements call.migrations call.fault db =
          ⟨before.db, .error error, before.ran, before.done⟩ ∧
        (call.fault = none → error = .migrationConflict m.version other m.name)
  repeated : (runSqliteMigrations statements call.migrations call.fault db).result = .ok () →
    ∀ fault,
      let after := (runSqliteMigrations statements call.migrations call.fault db).db
      let again := runSqliteMigrations statements call.migrations fault after
      again.db = after ∧ again.ran = [] ∧ (fault = none → again.result = .ok ())

theorem sqlite_whole (stmt : Statement) : (sqlite statements).ends stmt = false := rfl

theorem sqlite_safe (m : Migration) (point : Option Point) : (sqlite statements).SafePoint m point := by
  rcases point with _ | point
  · trivial
  · cases point with
    | statement index => exact .inr (.inr fun stmt _ => rfl)
    | insert => exact fun stmt _ => rfl
    | begin => trivial
    | select => trivial
    | commit => trivial

theorem sqlite_safe_at (rows : List Row) (migrations : List Migration) (fault : Option (Nat × Point)) :
    SafeAt (sqlite statements) rows migrations fault :=
  fun _ _ m _ _ => sqlite_safe m _

theorem created_table (db : Database) : ∃ rows, db.created.table = some rows := ⟨_, rfl⟩

theorem created_of_table (db : Database) (table : ∃ rows, db.table = some rows) : db.created = db := by
  obtain ⟨rows, known⟩ := table
  cases db with
  | mk log table =>
      cases known
      rfl

/-- A call either fails before its first migration or is the loop over the created table. -/
theorem run_cases (engine : Engine) (migrations : List Migration) (fault : Option Fault) (db : Database) :
    runMigrations engine migrations fault db = ⟨db, .error .sqlx, [], 0⟩ ∧ fault = some .create ∨
      ∃ place, (fault = none → place = none) ∧ (∀ index point, place = some (index, point) →
          fault = some (.migration index point)) ∧
        ∀ list, runMigrations engine list fault db = applyMigrations engine list place db.created := by
  rcases fault with _ | _ | ⟨index, point⟩
  · exact .inr ⟨none, fun _ => rfl, fun _ _ same => (by cases same), fun _ => rfl⟩
  · exact .inl ⟨rfl, rfl⟩
  · refine .inr ⟨some (index, point), fun none => (by cases none), ?_, fun _ => rfl⟩
    intro other place same
    cases same
    rfl

theorem sqlite_call_in_step (db : Database) (call : Call)
    (leaves : ∀ m ∈ call.migrations, (sqlite statements).LeavesTable m)
    (step : InStep (sqlite statements) db) : InStep (sqlite statements) (sqliteCall statements db call) := by
  rw [sqliteCall, runSqliteMigrations]
  rcases run_cases (sqlite statements) call.migrations call.fault db with ⟨failed, -⟩ | ⟨place, -, -, loop⟩
  · rw [failed]
    exact step
  · rw [loop]
    exact (apply_migrations_passed _ call.migrations place db.created (created_table db) leaves
      (sqlite_safe_at _ _ _) step).inStep

theorem sqlite_call_kept (db : Database) (call : Call)
    (leaves : ∀ m ∈ call.migrations, (sqlite statements).LeavesTable m)
    (step : InStep (sqlite statements) db) : Kept statements db call := by
  rcases run_cases (sqlite statements) call.migrations call.fault db with ⟨failed, create⟩ |
    ⟨place, quiet, strikes, loop⟩
  · refine ⟨?_, ?_, ?_, ?_⟩
    · intro passed
      rw [runSqliteMigrations, failed] at passed
      cases passed
    · intro error stopped
      left
      rw [runSqliteMigrations, failed]
      exact ⟨create, rfl⟩
    · intro front m rest other split different before passed
      rw [show before = runMigrations _ front (some .create) db by rw [← create]; rfl] at passed
      cases passed
    · intro passed
      rw [runSqliteMigrations, failed] at passed
      cases passed
  · have passes := apply_migrations_passed _ call.migrations place db.created (created_table db) leaves
      (sqlite_safe_at _ _ _) step
    have whole : runSqliteMigrations statements call.migrations call.fault db =
        applyMigrations (sqlite statements) call.migrations place db.created := loop _
    refine ⟨?_, ?_, ?_, ?_⟩
    · rw [whole]
      intro passed m member
      exact (passes.inStep.lookup _ _).mp (passes.records passed m member)
    · rw [whole]
      intro error stopped
      obtain ⟨stop, m, ran, there, passed, reason⟩ := apply_migrations_stopped _ sqlite_whole call.migrations
        place db.created (created_table db) leaves error stopped
      refine .inr ⟨stop, m, ran, there, passed, ?_⟩
      rcases reason with ⟨point, struck⟩ | ⟨other, found, different⟩
      · exact .inl ⟨point, strikes stop point struck⟩
      · exact .inr ⟨other, different, (passes.inStep.lookup _ _).mp found⟩
    · intro front m rest other split different before passed row
      have starts : before = applyMigrations (sqlite statements) front place db.created := loop _
      rw [whole, split]
      rw [starts] at passed row ⊢
      have ahead : ∀ m ∈ front, (sqlite statements).LeavesTable m := by
        intro m member
        exact leaves m (split ▸ List.mem_append_left _ member)
      have kept := apply_migrations_passed _ front place db.created (created_table db) ahead
        (sqlite_safe_at _ _ _) step
      obtain ⟨later, still, joined⟩ :=
        apply_migrations_append _ front (m :: rest) place db.created passed
      obtain ⟨error, conflict, why⟩ := apply_migrations_conflict (sqlite statements) rest later _
        kept.table other ((kept.inStep.lookup _ _).mpr row) different
      refine ⟨error, ?_, fun none => why (still (quiet none))⟩
      rw [joined]
      simp only [conflict, List.append_nil, Nat.add_zero]
    · rw [whole]
      intro passed fault after again
      have present := passes.records passed
      rcases run_cases (sqlite statements) call.migrations fault after with ⟨failed, create⟩ |
        ⟨next, calm, -, rerun⟩
      · rw [show again = ⟨after, .error .sqlx, [], 0⟩ from failed]
        refine ⟨rfl, rfl, ?_⟩
        rintro rfl
        cases create
      · have same : after.created = after := created_of_table after passes.table
        have second : again = applyMigrations (sqlite statements) call.migrations next after :=
          (rerun _).trans (by rw [same])
        rw [second]
        obtain ⟨unchanged, nothing, ok⟩ := apply_migrations_recorded (sqlite statements)
          call.migrations next after passes.table present
        exact ⟨unchanged, nothing, fun none => ok (calm none)⟩

theorem empty_in_step (engine : Engine) : InStep engine emptyDb :=
  ⟨[], List.nodup_nil, rfl, rfl⟩

/-- In every history of calls whose SQL leaves the bookkeeping table to the runner, effects and rows are
those of the same migrations, and the next call keeps what it promises. -/
theorem sqlite_applied_exactly_once (statements : String → List Statement) (calls : List Call)
    (leaves : ∀ call ∈ calls, ∀ m ∈ call.migrations, (sqlite statements).LeavesTable m) :
    let db := Lib.runFrom (sqliteCall statements) emptyDb calls
    InStep (sqlite statements) db ∧
      ∀ call : Call, (∀ m ∈ call.migrations, (sqlite statements).LeavesTable m) →
        Kept statements db call := by
  intro db
  have step : InStep (sqlite statements) db := by
    have along : Lib.Along (sqliteCall statements)
        (fun _ call => ∀ m ∈ call.migrations, (sqlite statements).LeavesTable m) emptyDb calls :=
      Lib.along_of_mem _ _ _ fun call member _ => leaves call member
    exact Lib.invariant_along (sqliteCall statements) (InStep (sqlite statements)) sqlite_call_in_step
      emptyDb calls along (empty_in_step _)
  exact ⟨step, fun call leaves => sqlite_call_kept db call leaves step⟩

/-- Two statements a migration, whatever its text. -/
def twoStatements (_ : String) : List Statement := [⟨true, id⟩, ⟨false, id⟩]

def usersAndRoles : List Migration :=
  [⟨1, "users", "CREATE TABLE users(id); INSERT INTO users VALUES (1)"⟩,
    ⟨2, "roles", "CREATE TABLE roles(id); INSERT INTO roles VALUES (1)"⟩]

/-- Failing in the second statement of the second migration. -/
def interrupted : Call := ⟨usersAndRoles, some (.migration 1 (.statement 1))⟩

/-- The interrupted call leaves the first migration with its row and nothing of the second, and the next
call applies the second only. -/
theorem sqlite_applied_exactly_once_interrupted :
    let users : Migration := ⟨1, "users", "CREATE TABLE users(id); INSERT INTO users VALUES (1)"⟩
    let roles : Migration := ⟨2, "roles", "CREATE TABLE roles(id); INSERT INTO roles VALUES (1)"⟩
    let db := Lib.runFrom (sqliteCall twoStatements) emptyDb [interrupted]
    let next := runSqliteMigrations twoStatements usersAndRoles none db
    db.rows = [(1, "users")] ∧ db.log = [⟨users, 0⟩, ⟨users, 1⟩] ∧ InStep (sqlite twoStatements) db ∧
      next.result = .ok () ∧ next.ran = [⟨roles, 0⟩, ⟨roles, 1⟩] ∧
      next.db.rows = [(1, "users"), (2, "roles")] ∧
      ∀ m ∈ usersAndRoles, (m.version, m.name) ∈ next.db.rows := by
  intro users roles db next
  have leaves : ∀ m : Migration, (sqlite twoStatements).LeavesTable m := by
    intro m stmt member table
    simp only [sqlite, twoStatements, List.mem_cons, List.not_mem_nil, or_false] at member
    rcases member with rfl | rfl <;> rfl
  have once := sqlite_applied_exactly_once twoStatements [interrupted] fun _ _ m _ => leaves m
  have kept := once.2 ⟨usersAndRoles, none⟩ fun m _ => leaves m
  exact ⟨rfl, rfl, once.1, rfl, rfl, rfl, kept.recorded rfl⟩

/-- A migration whose SQL empties `_base_db_migrations`. -/
def deletesRows (sql : String) : List Statement :=
  if sql = "DELETE FROM _base_db_migrations" then [⟨false, fun table => table.map fun _ => []⟩]
  else [⟨true, id⟩]

/-- The call returns `Ok` and the version it has applied first is recorded no more. -/
theorem sqlite_rows_deleted_by_migration :
    ¬ ∀ (statements : String → List Statement) (calls : List Call),
      let db := Lib.runFrom (sqliteCall statements) emptyDb calls
      InStep (sqlite statements) db ∧ ∀ call : Call, Kept statements db call := by
  intro always
  have kept := (always deletesRows []).2 ⟨[⟨1, "users", "CREATE TABLE users(id)"⟩,
    ⟨2, "cleanup", "DELETE FROM _base_db_migrations"⟩], none⟩
  have recorded := kept.recorded rfl ⟨1, "users", "CREATE TABLE users(id)"⟩ (List.mem_cons_self ..)
  have rows : (runSqliteMigrations deletesRows [⟨1, "users", "CREATE TABLE users(id)"⟩,
      ⟨2, "cleanup", "DELETE FROM _base_db_migrations"⟩] none emptyDb).db.rows = [(2, "cleanup")] := rfl
  rw [Lib.runFrom_nil, rows] at recorded
  revert recorded
  decide

end Pigs.Db.Migrations
