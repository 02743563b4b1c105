import Mathlib.Data.List.Basic

/-! `run_sqlite_migrations` and `run_mysql_migrations`: each migration and its row in
`_base_db_migrations` in one transaction, as far as the engine has one. -/

namespace Pigs.Db.Migrations

structure Migration where
  version : Int
  name : String
  sql : String
  deriving DecidableEq

inductive DatabaseError where
  | sqlx
  | migrationConflict (version : Int) (expected actual : String)
  deriving DecidableEq

/-- A row of `_base_db_migrations`. -/
abbrev Row := Int × String

/-- `none` before the table is created. -/
abbrev Table := Option (List Row)

/-- One statement of a migration: whether it is DDL, and what it does to `_base_db_migrations`. -/
structure Statement where
  ddl : Bool
  touch : Table → Table

/-- Statement `index` of the SQL of a migration, executed. -/
structure Exec where
  migration : Migration
  index : Nat
  deriving DecidableEq

structure Database where
  log : List Exec
  table : Table

/-- The database server: the statements it finds in a text, and whether a DDL statement commits the
transaction it stands in. -/
structure Engine where
  statements : String → List Statement
  implicitCommit : Bool

def sqlite (statements : String → List Statement) : Engine := ⟨statements, false⟩

def mysql (statements : String → List Statement) : Engine := ⟨statements, true⟩

/-- Where a call can fail, or its future be dropped, while it works on one migration. -/
inductive Point where
  | begin
  | select
  | statement (index : Nat)
  | insert
  | commit
  deriving DecidableEq

inductive Fault where
  | create
  | migration (index : Nat) (point : Point)
  deriving DecidableEq

section Session

/-- A connection in a transaction, or after it has been committed under the caller's hands. -/
structure Session where
  committed : Database
  current : Database
  inTransaction : Bool
  ran : List Exec

def Session.begin (db : Database) : Session := ⟨db, db, true, []⟩

def Session.implicitCommit (s : Session) : Session :=
  { s with committed := s.current, inTransaction := false }

/-- A write goes to the transaction, and straight to the database where there is none. -/
def Session.write (s : Session) (change : Database → Database) : Session :=
  { s with
    current := change s.current
    committed := if s.inTransaction then s.committed else change s.current }

def Engine.ends (engine : Engine) (stmt : Statement) : Bool := engine.implicitCommit && stmt.ddl

/-- The commit that a DDL statement makes before it is executed. -/
def Engine.before (engine : Engine) (stmt : Statement) (s : Session) : Session :=
  if engine.ends stmt then s.implicitCommit else s

def Engine.execute (engine : Engine) (exec : Exec) (stmt : Statement) (s : Session) : Session :=
  let s := (engine.before stmt s).write fun db =>
    { log := db.log ++ [exec], table := stmt.touch db.table }
  { s with ran := s.ran ++ [exec] }

/-- `raw_sql`: the statements in order, up to the one that fails. -/
def Engine.rawSql (engine : Engine) (m : Migration) :
    Option Nat → Nat → List Statement → Session → Session × Bool
  | _, _, [], s => (s, true)
  | some 0, _, stmt :: _, s => (engine.before stmt s, false)
  | failing, index, stmt :: rest, s =>
      engine.rawSql m (failing.map (· - 1)) (index + 1) rest (engine.execute ⟨m, index⟩ stmt s)

end Session

section Runner

def selectName (table : Table) (version : Int) : Except DatabaseError (Option String) :=
  match table with
  | none => .error .sqlx
  | some rows => .ok (rows.lookup version)

/-- The primary key refuses a second row of a version. -/
def insertRow (table : Table) (version : Int) (name : String) : Except DatabaseError Table :=
  match table with
  | none => .error .sqlx
  | some rows =>
      match rows.lookup version with
      | some _ => .error .sqlx
      | none => .ok (some (rows ++ [(version, name)]))

def ensureMigrationMatches (migration : Migration) (existing : String) : Except DatabaseError Unit :=
  if existing = migration.name then
    .ok ()
  else
    .error (.migrationConflict migration.version existing migration.name)

/-- What is left of a call: the committed database, its result, the statements it had executed whether
or not they were rolled back, and the count of the migrations it went through. -/
structure Outcome where
  db : Database
  result : Except DatabaseError Unit
  ran : List Exec
  done : Nat

/-- An error drops the transaction, which rolls back what is not committed. -/
def Session.fail (s : Session) (error : DatabaseError) : Outcome :=
  ⟨s.committed, .error error, s.ran, 0⟩

def Session.commit (s : Session) (fault : Option Point) : Outcome :=
  if fault = some .commit then s.fail .sqlx else ⟨s.current, .ok (), s.ran, 1⟩

/-- The body of the loop over the migrations. -/
def applyMigration (engine : Engine) (m : Migration) (fault : Option Point) (db : Database) : Outcome :=
  if fault = some .begin then
    ⟨db, .error .sqlx, [], 0⟩
  else
    let s := Session.begin db
    if fault = some .select then
      s.fail .sqlx
    else
      match selectName s.current.table m.version with
      | .error error => s.fail error
      | .ok (some existing) =>
          match ensureMigrationMatches m existing with
          | .error error => s.fail error
          | .ok () => s.commit fault
      | .ok none =>
          let failing := match fault with
            | some (.statement index) => some index
            | _ => none
          match engine.rawSql m failing 0 (engine.statements m.sql) s with
          | (s, false) => s.fail .sqlx
          | (s, true) =>
              if fault = some .insert then
                s.fail .sqlx
              else
                match insertRow s.current.table m.version m.name with
                | .error error => s.fail error
                | .ok table => (s.write fun db => { db with table }).commit fault

/-- The fault of the next call of the loop body, and of the turns after it. -/
def faultHere : Option (Nat × Point) → Option Point
  | some (0, point) => some point
  | _ => none

def faultLater : Option (Nat × Point) → Option (Nat × Point)
  | some (index + 1, point) => some (index, point)
  | _ => none

@[simp] theorem fault_here_none : faultHere none = none := rfl

@[simp] theorem fault_later_none : faultLater none = none := rfl

def applyMigrations (engine : Engine) : List Migration → Option (Nat × Point) → Database → Outcome
  | [], _, db => ⟨db, .ok (), [], 0⟩
  | m :: rest, fault, db =>
      let turn := applyMigration engine m (faultHere fault) db
      match turn.result with
      | .error error => ⟨turn.db, .error error, turn.ran, 0⟩
      | .ok () =>
          let later := applyMigrations engine rest (faultLater fault) turn.db
          ⟨later.db, later.result, turn.ran ++ later.ran, later.done + 1⟩

/-- `CREATE TABLE IF NOT EXISTS _base_db_migrations` -/
def Database.created (db : Database) : Database := { db with table := some (db.table.getD []) }

def runMigrations (engine : Engine) (migrations : List Migration) (fault : Option Fault) (db : Database) :
    Outcome :=
  match fault with
  | some .create => ⟨db, .error .sqlx, [], 0⟩
  | some (.migration index point) => applyMigrations engine migrations (some (index, point)) db.created
  | none => applyMigrations engine migrations none db.created

def runSqliteMigrations (statements : String → List Statement) :
    List Migration → Option Fault → Database → Outcome :=
  runMigrations (sqlite statements)

def runMysqlMigrations (statements : String → List Statement) :
    List Migration → Option Fault → Database → Outcome :=
  runMigrations (mysql statements)

end Runner

/-- A call by its migrations and the place where it fails, if it does. -/
structure Call where
  migrations : List Migration
  fault : Option Fault

def emptyDb : Database := ⟨[], none⟩

def Database.rows (db : Database) : List Row := db.table.getD []

/-- The statements of a migration. -/
def Engine.execs (engine : Engine) (m : Migration) : List Exec :=
  (List.range (engine.statements m.sql).length).map (Exec.mk m)

/-- The SQL of a migration that leaves `_base_db_migrations` to the runner. -/
def Engine.LeavesTable (engine : Engine) (m : Migration) : Prop :=
  ∀ stmt ∈ engine.statements m.sql, ∀ table, stmt.touch table = table

/-- A migration with its row. -/
def Engine.applied (engine : Engine) (m : Migration) (db : Database) : Database :=
  ⟨db.log ++ engine.execs m, some (db.rows ++ [(m.version, m.name)])⟩

/-- Failing here, nothing of the migration is committed without its row. -/
def Engine.SafePoint (engine : Engine) (m : Migration) : Option Point → Prop
  | some (.statement index) =>
      index = 0 ∨ (engine.statements m.sql).length ≤ index ∨
        ∀ stmt ∈ (engine.statements m.sql).take (index + 1), engine.ends stmt = false
  | some .insert => ∀ stmt ∈ engine.statements m.sql, engine.ends stmt = false
  | _ => True

section RawSql

variable (engine : Engine) (m : Migration)

/-- What one statement does, apart from the commit. -/
theorem execute_current (exec : Exec) (stmt : Statement) (s : Session)
    (leaves : ∀ table, stmt.touch table = table) :
    (engine.execute exec stmt s).current = ⟨s.current.log ++ [exec], s.current.table⟩ ∧
      (engine.execute exec stmt s).ran = s.ran ++ [exec] := by
  simp only [Engine.execute, Engine.before, Session.write, Session.implicitCommit]
  split <;> simp [leaves]

theorem before_current (stmt : Statement) (s : Session) :
    (engine.before stmt s).current = s.current ∧ (engine.before stmt s).ran = s.ran := by
  simp only [Engine.before, Session.implicitCommit]
  split <;> exact ⟨rfl, rfl⟩

/-- `raw_sql` executes a front of the statements: those before the failing one, or all of them. -/
theorem raw_sql_front (failing : Option Nat) (index : Nat) (stmts : List Statement) (s : Session)
    (leaves : ∀ stmt ∈ stmts, ∀ table, stmt.touch table = table) :
    ∃ count,
      (engine.rawSql m failing index stmts s).1.current =
          ⟨s.current.log ++ (List.range' index count).map (Exec.mk m), s.current.table⟩ ∧
        (engine.rawSql m failing index stmts s).1.ran =
          s.ran ++ (List.range' index count).map (Exec.mk m) ∧
        ((engine.rawSql m failing index stmts s).2 = true → count = stmts.length) ∧
        ∀ last, failing = some last → last < stmts.length → count = last := by
  fun_induction Engine.rawSql engine m failing index stmts s with
  | case1 => exact ⟨0, by simp⟩
  | case2 index stmt rest s =>
      have kept := before_current engine stmt s
      exact ⟨0, by simp [kept]⟩
  | case3 failing index stmt rest s other ih =>
      rw [List.forall_mem_cons] at leaves
      obtain ⟨count, current, ran, all, stops⟩ := ih leaves.2
      obtain ⟨now, here⟩ := execute_current engine ⟨m, index⟩ stmt s leaves.1
      refine ⟨count + 1, ?_, ?_, ?_, ?_⟩
      · rw [current, now]
        simp [List.range'_succ]
      · rw [ran, here]
        simp [List.range'_succ]
      · intro success
        rw [all success, List.length_cons]
      · rintro last rfl bound
        cases last with
        | zero => exact absurd rfl other
        | succ last => rw [stops last rfl (by simpa using bound)]

theorem raw_sql_none (index : Nat) (stmts : List Statement) (s : Session) :
    (engine.rawSql m none index stmts s).2 = true := by
  induction stmts generalizing index s with
  | nil => rfl
  | cons stmt rest ih => exact ih (index + 1) _

theorem raw_sql_passes_iff (last index : Nat) (stmts : List Statement) (s : Session) :
    (engine.rawSql m (some last) index stmts s).2 = true ↔ stmts.length ≤ last := by
  induction stmts generalizing last index s with
  | nil => cases last <;> simp [Engine.rawSql]
  | cons stmt rest ih =>
      cases last with
      | zero => simp [Engine.rawSql]
      | succ last =>
          rw [List.length_cons, Nat.succ_le_succ_iff]
          exact ih last (index + 1) _

/-- Outside a transaction everything is committed. -/
def Session.Synced (s : Session) : Prop := s.inTransaction = false → s.committed = s.current

theorem before_synced (stmt : Statement) (s : Session) (synced : s.Synced) :
    (engine.before stmt s).Synced := by
  simp only [Engine.before, Session.implicitCommit]
  split
  · exact fun _ => rfl
  · exact synced

theorem execute_synced (exec : Exec) (stmt : Statement) (s : Session) :
    (engine.execute exec stmt s).Synced := by
  intro closed
  simp only [Engine.execute, Session.write] at closed ⊢
  rw [closed]
  rfl

theorem raw_sql_synced (failing : Option Nat) (index : Nat) (stmts : List Statement) (s : Session)
    (synced : s.Synced) : (engine.rawSql m failing index stmts s).1.Synced := by
  fun_induction Engine.rawSql engine m failing index stmts s with
  | case1 => exact synced
  | case2 index stmt rest s => exact before_synced engine stmt s synced
  | case3 failing index stmt rest s other ih => exact ih (execute_synced engine _ stmt s)

theorem execute_open (exec : Exec) (stmt : Statement) (s : Session) (inside : s.inTransaction = true)
    (plain : engine.ends stmt = false) :
    (engine.execute exec stmt s).inTransaction = true ∧
      (engine.execute exec stmt s).committed = s.committed := by
  simp [Engine.execute, Engine.before, Session.write, plain, inside]

/-- Without a statement that ends the transaction nothing of it is committed. -/
theorem raw_sql_open (failing : Option Nat) (index : Nat) (stmts : List Statement) (s : Session)
    (inside : s.inTransaction = true) (plain : ∀ stmt ∈ stmts, engine.ends stmt = false) :
    (engine.rawSql m failing index stmts s).1.inTransaction = true ∧
      (engine.rawSql m failing index stmts s).1.committed = s.committed := by
  fun_induction Engine.rawSql engine m failing index stmts s with
  | case1 => exact ⟨inside, rfl⟩
  | case2 index stmt rest s =>
      rw [List.forall_mem_cons] at plain
      simp [Engine.before, plain.1, inside]
  | case3 failing index stmt rest s other ih =>
      rw [List.forall_mem_cons] at plain
      obtain ⟨still, same⟩ := execute_open engine ⟨m, index⟩ stmt s inside plain.1
      rw [← same]
      exact ih still plain.2

/-- Up to the failing statement, none ends the transaction. -/
theorem raw_sql_failing (last index : Nat) (stmts : List Statement) (s : Session)
    (inside : s.inTransaction = true)
    (plain : ∀ stmt ∈ stmts.take (last + 1), engine.ends stmt = false)
    (failed : (engine.rawSql m (some last) index stmts s).2 = false) :
    (engine.rawSql m (some last) index stmts s).1.committed = s.committed := by
  induction stmts generalizing last index s with
  | nil => cases failed
  | cons stmt rest ih =>
      rw [List.take_succ_cons, List.forall_mem_cons] at plain
      cases last with
      | zero => simp [Engine.rawSql, Engine.before, plain.1]
      | succ last =>
          obtain ⟨still, same⟩ := execute_open engine ⟨m, index⟩ stmt s inside plain.1
          rw [← same]
          exact ih last (index + 1) _ still plain.2 failed

theorem execute_closed (exec : Exec) (stmt : Statement) (s : Session)
    (closed : (engine.execute exec stmt s).inTransaction = true) :
    s.inTransaction = true ∧ engine.ends stmt = false := by
  cases ends : engine.ends stmt with
  | true => simp [Engine.execute, Engine.before, Session.write, Session.implicitCommit, ends] at closed
  | false =>
      simp only [Engine.execute, Engine.before, Session.write, ends, Bool.false_eq_true, if_false] at closed
      exact ⟨closed, rfl⟩

theorem raw_sql_inside (failing : Option Nat) (index : Nat) (stmts : List Statement) (s : Session)
    (inside : (engine.rawSql m failing index stmts s).1.inTransaction = true) :
    s.inTransaction = true := by
  fun_induction Engine.rawSql engine m failing index stmts s with
  | case1 => exact inside
  | case2 index stmt rest s =>
      simp only [Engine.before] at inside
      split at inside
      · cases inside
      · exact inside
  | case3 failing index stmt rest s other ih => exact (execute_closed engine _ stmt s (ih inside)).1

/-- In a transaction that is still there no statement has ended one, up to the failing statement. -/
theorem raw_sql_plain (failing : Option Nat) (index : Nat) (stmts : List Statement) (s : Session)
    (inside : (engine.rawSql m failing index stmts s).1.inTransaction = true) (count : Nat)
    (reached : ∀ last, failing = some last → count ≤ last + 1) :
    ∀ stmt ∈ stmts.take count, engine.ends stmt = false := by
  fun_induction Engine.rawSql engine m failing index stmts s generalizing count with
  | case1 => simp
  | case2 index stmt rest s =>
      intro other member
      have bound := reached 0 rfl
      have first : other = stmt := by
        have front := List.take_subset_take_left (stmt :: rest) bound member
        simpa using front
      rw [first]
      by_contra ends
      simp only [Engine.before, if_pos (Bool.of_not_eq_false ends)] at inside
      cases inside
  | case3 failing index stmt rest s other ih =>
      cases count with
      | zero => simp
      | succ count =>
          rw [List.take_succ_cons, List.forall_mem_cons]
          refine ⟨(execute_closed engine _ stmt s (raw_sql_inside engine m _ _ _ _ inside)).2, ?_⟩
          apply ih inside count
          intro last before
          obtain ⟨next, rfl, rfl⟩ := Option.map_eq_some_iff.mp before
          have bound := reached next rfl
          cases next with
          | zero => exact absurd rfl other
          | succ next => omega

/-- Once a statement has ended the transaction, what was executed is committed. -/
theorem raw_sql_committed (db : Database) (failing : Option Nat) (stmts : List Statement) (count : Nat)
    (reached : ∀ last, failing = some last → count ≤ last + 1)
    (ended : ∃ stmt ∈ stmts.take count, engine.ends stmt = true) :
    (engine.rawSql m failing 0 stmts (.begin db)).1.committed =
      (engine.rawSql m failing 0 stmts (.begin db)).1.current := by
  apply raw_sql_synced engine m failing 0 stmts (.begin db)
  · intro still
    cases still
  · by_contra inside
    obtain ⟨stmt, member, ends⟩ := ended
    rw [Bool.not_eq_false] at inside
    rw [raw_sql_plain engine m failing 0 stmts _ inside count reached stmt member] at ends
    cases ends

/-- A transaction that is still there has committed nothing. -/
theorem raw_sql_still_open (failing : Option Nat) (index : Nat) (stmts : List Statement) (s : Session)
    (inside : (engine.rawSql m failing index stmts s).1.inTransaction = true) :
    (engine.rawSql m failing index stmts s).1.committed = s.committed := by
  fun_induction Engine.rawSql engine m failing index stmts s with
  | case1 => rfl
  | case2 index stmt rest s =>
      simp only [Engine.before] at inside ⊢
      split at inside
      · cases inside
      · rename_i plain
        rw [if_neg plain]
  | case3 failing index stmt rest s other ih =>
      obtain ⟨open', plain⟩ := execute_closed engine _ stmt s (raw_sql_inside engine m _ _ _ _ inside)
      exact (ih inside).trans (execute_open engine ⟨m, index⟩ stmt s open' plain).2

end RawSql

section Turn

/-- What one turn of the loop can end in, failing only where that is safe. -/
inductive Turn (engine : Engine) (m : Migration) (db : Database) : Outcome → Prop
  | failed (error : DatabaseError) (ran : List Exec) (done : Nat)
      (own : ∀ exec ∈ ran, exec.migration = m ∧ db.rows.lookup m.version = none) :
      Turn engine m db ⟨db, .error error, ran, done⟩
  | recorded (same : db.rows.lookup m.version = some m.name) : Turn engine m db ⟨db, .ok (), [], 1⟩
  | applied (new : db.rows.lookup m.version = none) :
      Turn engine m db ⟨engine.applied m db, .ok (), engine.execs m, 1⟩
  | closed (new : db.rows.lookup m.version = none)
      (ended : ∃ stmt ∈ engine.statements m.sql, engine.ends stmt = true) :
      Turn engine m db ⟨engine.applied m db, .error .sqlx, engine.execs m, 0⟩

variable (engine : Engine) {m : Migration} {db : Database} {rows : List Row}

theorem commit_recorded (point : Option Point) (same : db.rows.lookup m.version = some m.name) :
    Turn engine m db ((Session.begin db).commit point) := by
  simp only [Session.commit, Session.begin, Session.fail]
  split
  · exact .failed _ _ _ (by simp)
  · exact .recorded same

/-- Failing in its SQL, a migration leaves nothing. -/
theorem raw_sql_safe (db : Database) (failing : Option Nat)
    (safe : ∀ index, failing = some index → engine.SafePoint m (some (.statement index)))
    (failed : (engine.rawSql m failing 0 (engine.statements m.sql) (.begin db)).2 = false) :
    (engine.rawSql m failing 0 (engine.statements m.sql) (.begin db)).1.committed = db := by
  cases failing with
  | none =>
      rw [raw_sql_none engine m] at failed
      cases failed
  | some index =>
      rcases safe index rfl with rfl | beyond | plain
      · cases stmts : engine.statements m.sql with
        | nil =>
            rw [stmts] at failed
            cases failed
        | cons stmt rest =>
            simp only [Engine.rawSql, Engine.before, Session.implicitCommit]
            split <;> rfl
      · rw [(raw_sql_passes_iff engine m index 0 _ _).mpr beyond] at failed
        cases failed
      · exact raw_sql_failing engine m index 0 _ (.begin db) rfl plain failed

/-- What the end of a migration's transaction leaves. -/
theorem insert_commit (point : Option Point) (table : db.table = some rows)
    (new : db.rows.lookup m.version = none) (s : Session)
    (current : s.current = ⟨db.log ++ engine.execs m, db.table⟩) (ran : s.ran = engine.execs m)
    (still : s.inTransaction = true → s.committed = db)
    (inside : (∀ stmt ∈ engine.statements m.sql, engine.ends stmt = false) → s.inTransaction = true) :
    Turn engine m db
      (match insertRow s.current.table m.version m.name with
      | .error error => s.fail error
      | .ok table => (s.write fun db => { db with table }).commit point) := by
  have known : db.rows = rows := by rw [Database.rows, table]; rfl
  rw [known] at new
  have inserted : insertRow s.current.table m.version m.name =
      .ok (some (db.rows ++ [(m.version, m.name)])) := by
    rw [current]
    simp only [insertRow, table, new, known]
  rw [inserted]
  simp only [Session.commit, Session.fail, Session.write, current, ran]
  rw [← known] at new
  by_cases lost : point = some .commit
  · rw [if_pos lost]
    cases closed : s.inTransaction with
    | true =>
        rw [if_pos rfl, still closed]
        exact .failed _ _ _ fun exec member => by
          obtain ⟨index, -, rfl⟩ := List.mem_map.mp member
          exact ⟨rfl, new⟩
    | false =>
        refine .closed new ?_
        by_contra none
        have plain : ∀ stmt ∈ engine.statements m.sql, engine.ends stmt = false := by
          intro stmt member
          by_contra ends
          exact none ⟨stmt, member, by simpa using ends⟩
        rw [inside plain] at closed
        cases closed
  · rw [if_neg lost]
    exact .applied new

/-- One turn of the loop either leaves the database as it was, or applies the migration with its row. -/
theorem apply_turn (point : Option Point) (table : db.table = some rows) (leaves : engine.LeavesTable m)
    (safe : db.rows.lookup m.version = none → engine.SafePoint m point) :
    Turn engine m db (applyMigration engine m point db) := by
  have known : db.rows = rows := by rw [Database.rows, table]; rfl
  have selected : selectName (Session.begin db).current.table m.version =
      .ok (db.rows.lookup m.version) := by
    simp only [Session.begin, selectName, table, known]
  simp only [applyMigration, selected]
  by_cases early : point = some .begin
  · rw [if_pos early]
    exact .failed _ _ _ (by simp)
  rw [if_neg early]
  by_cases unread : point = some .select
  · rw [if_pos unread]
    exact .failed _ _ _ (by simp [Session.begin])
  rw [if_neg unread]
  cases found : db.rows.lookup m.version with
  | some existing =>
      simp only [ensureMigrationMatches]
      by_cases same : existing = m.name
      · rw [if_pos same]
        exact commit_recorded engine point (same ▸ found)
      · rw [if_neg same]
        exact .failed _ _ _ (by simp [Session.begin])
  | none =>
      replace safe := safe found
      simp only
      generalize stop : (match point with
        | some (.statement index) => some index
        | _ => none) = failing
      have safely : ∀ index, failing = some index → engine.SafePoint m (some (.statement index)) := by
        rintro index rfl
        split at stop
        · cases stop
          exact safe
        · cases stop
      obtain ⟨count, current, ran, all, -⟩ :=
        raw_sql_front engine m failing 0 _ (.begin db) leaves
      have still := raw_sql_still_open engine m failing 0 (engine.statements m.sql)
        (.begin db)
      have inside := raw_sql_open engine m failing 0 (engine.statements m.sql)
        (.begin db) rfl
      have undone := raw_sql_safe engine db failing safely
      generalize engine.rawSql m failing 0 (engine.statements m.sql) (.begin db) = run at *
      obtain ⟨s, finished⟩ := run
      simp only [Session.begin, List.nil_append] at current ran all still inside undone
      have own : ∀ exec ∈ s.ran, exec.migration = m ∧ db.rows.lookup m.version = none := by
        rw [ran]
        intro exec member
        obtain ⟨index, -, rfl⟩ := List.mem_map.mp member
        exact ⟨rfl, found⟩
      cases finished with
      | false =>
          simp only [Session.fail, undone rfl]
          exact .failed _ _ _ own
      | true =>
          rw [all rfl, ← List.range_eq_range'] at current ran
          simp only
          by_cases uninserted : point = some .insert
          · rw [uninserted] at safe
            rw [if_pos uninserted]
            simp only [Session.fail, (inside safe).2]
            exact .failed _ _ _ own
          · rw [if_neg uninserted]
            exact insert_commit engine point table found s current ran still fun plain => (inside plain).1

/-- Failing where it is not safe, a turn leaves a statement of the migration without its row. -/
theorem apply_careless (point : Option Point) (table : db.table = some rows)
    (leaves : engine.LeavesTable m) (new : db.rows.lookup m.version = none)
    (careless : ¬ engine.SafePoint m point) :
    ∃ log ran, applyMigration engine m point db = ⟨{ db with log := db.log ++ log }, .error .sqlx, ran, 0⟩ ∧
      ∃ exec ∈ log, exec.migration = m := by
  have known : db.rows = rows := by rw [Database.rows, table]; rfl
  have selected : selectName (Session.begin db).current.table m.version = .ok none := by
    simp only [Session.begin, selectName, table, ← known, new]
  rcases point with _ | point
  · exact absurd trivial careless
  · cases point with
    | begin => exact absurd trivial careless
    | select => exact absurd trivial careless
    | commit => exact absurd trivial careless
    | statement last =>
        simp only [Engine.SafePoint, not_or, Nat.not_le, not_forall] at careless
        obtain ⟨later, within, stmt, member, ends⟩ := careless
        have committed := raw_sql_committed engine m db (some last) _ (last + 1)
          (by rintro _ ⟨⟩; exact Nat.le_refl _) ⟨stmt, member, by simpa using ends⟩
        have failed := (raw_sql_passes_iff engine m last 0 (engine.statements m.sql) (.begin db)).not.mpr
          (by omega)
        obtain ⟨count, current, ran, -, stops⟩ :=
          raw_sql_front engine m (some last) 0 _ (.begin db) leaves
        have struck := stops last rfl within
        simp only [applyMigration, selected]
        generalize engine.rawSql m (some last) 0 (engine.statements m.sql) (.begin db) = run at *
        obtain ⟨s, finished⟩ := run
        cases finished with
        | true => exact absurd rfl failed
        | false =>
            refine ⟨(List.range' 0 count).map (Exec.mk m), s.ran, ?_, ⟨m, 0⟩, ?_, rfl⟩
            · simp only [Session.begin] at committed current
              rw [if_neg (by simp), if_neg (by simp)]
              simp only [Session.fail, committed, current]
            · exact List.mem_map.mpr ⟨0, by simp [List.mem_range']; omega, rfl⟩
    | insert =>
        simp only [Engine.SafePoint, not_forall] at careless
        obtain ⟨stmt, member, ends⟩ := careless
        have committed := raw_sql_committed engine m db none _ (engine.statements m.sql).length
          (by rintro _ ⟨⟩) ⟨stmt, by rwa [List.take_length], by simpa using ends⟩
        have passed := raw_sql_none engine m 0 (engine.statements m.sql) (.begin db)
        obtain ⟨count, current, ran, all, -⟩ :=
          raw_sql_front engine m none 0 _ (.begin db) leaves
        have some := List.length_pos_of_mem member
        simp only [applyMigration, selected]
        generalize engine.rawSql m none 0 (engine.statements m.sql) (.begin db) = run at *
        obtain ⟨s, finished⟩ := run
        cases passed
        have struck := all rfl
        refine ⟨(List.range' 0 count).map (Exec.mk m), s.ran, ?_, ⟨m, 0⟩, ?_, rfl⟩
        · simp only [Session.begin] at committed current
          rw [if_neg (by simp), if_neg (by simp)]
          simp only [if_true, Session.fail, committed, current]
        · exact List.mem_map.mpr ⟨0, by simp [List.mem_range']; omega, rfl⟩

theorem apply_found (point : Option Point) (table : db.table = some rows) (existing : String)
    (found : db.rows.lookup m.version = some existing) :
    applyMigration engine m point db =
      if point = some .begin then ⟨db, .error .sqlx, [], 0⟩
      else if point = some .select then ⟨db, .error .sqlx, [], 0⟩
      else match ensureMigrationMatches m existing with
        | .error error => ⟨db, .error error, [], 0⟩
        | .ok () => if point = some .commit then ⟨db, .error .sqlx, [], 0⟩ else ⟨db, .ok (), [], 1⟩ := by
  have known : db.rows = rows := by rw [Database.rows, table]; rfl
  have selected : selectName (Session.begin db).current.table m.version = .ok (some existing) := by
    simp only [Session.begin, selectName, table, ← known, found]
  simp only [applyMigration, selected]
  rfl

theorem apply_new_none (table : db.table = some rows) (leaves : engine.LeavesTable m)
    (new : db.rows.lookup m.version = none) :
    applyMigration engine m none db = ⟨engine.applied m db, .ok (), engine.execs m, 1⟩ := by
  have known : db.rows = rows := by rw [Database.rows, table]; rfl
  have selected : selectName (Session.begin db).current.table m.version = .ok none := by
    simp only [Session.begin, selectName, table, ← known, new]
  have finished := raw_sql_none engine m 0 (engine.statements m.sql) (.begin db)
  have turn := apply_turn engine none table leaves fun _ => trivial
  obtain ⟨count, current, -, -, -⟩ :=
    raw_sql_front engine m none 0 _ (.begin db) leaves
  have passed : (applyMigration engine m none db).result = .ok () := by
    simp only [applyMigration, selected]
    generalize engine.rawSql m none 0 (engine.statements m.sql) (.begin db) = run at *
    obtain ⟨s, success⟩ := run
    cases finished
    rw [known] at new
    simp only [Session.begin] at current
    simp [insertRow, current, table, new, Session.commit]
  generalize applyMigration engine m none db = outcome at *
  cases turn with
  | failed => cases passed
  | recorded same =>
      rw [new] at same
      cases same
  | applied => rfl
  | closed => cases passed

/-- A version recorded under another name ends the call, with none of the SQL executed. -/
theorem apply_conflict (point : Option Point) (table : db.table = some rows) (other : String)
    (found : db.rows.lookup m.version = some other) (different : other ≠ m.name) :
    ∃ error, applyMigration engine m point db = ⟨db, .error error, [], 0⟩ ∧
      (point ≠ some .begin → point ≠ some .select →
        error = .migrationConflict m.version other m.name) := by
  rw [apply_found engine point table other found, ensureMigrationMatches, if_neg different]
  by_cases early : point = some .begin
  · rw [if_pos early]
    exact ⟨_, rfl, fun begun => absurd early begun⟩
  · by_cases unread : point = some .select
    · rw [if_neg early, if_pos unread]
      exact ⟨_, rfl, fun _ read => absurd unread read⟩
    · rw [if_neg early, if_neg unread]
      exact ⟨_, rfl, fun _ _ => rfl⟩

/-- A recorded version is left alone, whatever its SQL is now. -/
theorem apply_recorded (point : Option Point) (table : db.table = some rows)
    (found : db.rows.lookup m.version = some m.name) :
    (∃ error, applyMigration engine m point db = ⟨db, .error error, [], 0⟩) ∨
      applyMigration engine m point db = ⟨db, .ok (), [], 1⟩ := by
  rw [apply_found engine point table m.name found, ensureMigrationMatches, if_pos rfl]
  by_cases early : point = some .begin
  · rw [if_pos early]
    exact .inl ⟨_, rfl⟩
  by_cases unread : point = some .select
  · rw [if_neg early, if_pos unread]
    exact .inl ⟨_, rfl⟩
  rw [if_neg early, if_neg unread]
  by_cases lost : point = some .commit
  · simp only [if_pos lost]
    exact .inl ⟨_, rfl⟩
  · simp only [if_neg lost]
    exact .inr trivial

theorem apply_recorded_none (table : db.table = some rows)
    (found : db.rows.lookup m.version = some m.name) :
    applyMigration engine m none db = ⟨db, .ok (), [], 1⟩ := by
  rw [apply_found engine none table m.name found, ensureMigrationMatches, if_pos rfl]
  rfl

end Turn

end Pigs.Db.Migrations
