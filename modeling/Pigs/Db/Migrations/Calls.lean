import Pigs.Lib.Run
import Pigs.Lib.Assoc
import Pigs.Db.Migrations.Runner

/-! What a whole call keeps between the effects of migrations and the rows that record them. -/

namespace Pigs.Db.Migrations

open Pigs.Lib

/-- The committed effects are those of the migrations in the rows, each of them once and whole. -/
def InStep (engine : Engine) (db : Database) : Prop :=
  ∃ applied : List Migration, (applied.map Migration.version).Nodup ∧
    db.log = applied.flatMap engine.execs ∧
    db.rows = applied.map fun m => (m.version, m.name)

/-- A call comes to its migration `index` and finds no row for it, unless it fails before. -/
structure Reaches (rows : List Row) (migrations : List Migration) (index : Nat) (m : Migration) : Prop where
  present : migrations[index]? = some m
  unrecorded : ∀ row ∈ rows, row.1 ≠ m.version
  first : ∀ earlier ∈ migrations.take index, earlier.version ≠ m.version
  agree : ∀ earlier ∈ migrations.take index, ∀ name,
    (earlier.version, name) ∈ rows ++ (migrations.take index).map (fun m => (m.version, m.name)) →
      name = earlier.name

/-- The migration that the fault strikes does not commit effects without its row. -/
def SafeAt (engine : Engine) (rows : List Row) (migrations : List Migration) (fault : Option (Nat × Point)) :
    Prop :=
  ∀ index point m, fault = some (index, point) → Reaches rows migrations index m →
    engine.SafePoint m (some point)

section InStep

variable {engine : Engine} {m : Migration} {db : Database} {outcome : Outcome}

theorem InStep.keys (step : InStep engine db) : (db.rows.map Prod.fst).Nodup := by
  obtain ⟨applied, versions, -, rows⟩ := step
  rw [rows, List.map_map]
  exact versions

theorem InStep.lookup (step : InStep engine db) (version : Int) (name : String) :
    db.rows.lookup version = some name ↔ (version, name) ∈ db.rows :=
  lookup_iff_mem db.rows step.keys version name

/-- The row of every effect is there. -/
theorem InStep.recorded (step : InStep engine db) (exec : Exec) (member : exec ∈ db.log) :
    (exec.migration.version, exec.migration.name) ∈ db.rows := by
  obtain ⟨applied, -, log, rows⟩ := step
  rw [log] at member
  obtain ⟨m, present, own⟩ := List.mem_flatMap.mp member
  obtain ⟨index, -, rfl⟩ := List.mem_map.mp own
  rw [rows]
  exact List.mem_map.mpr ⟨m, present, rfl⟩

theorem InStep.applied (step : InStep engine db) (new : db.rows.lookup m.version = none) :
    InStep engine (engine.applied m db) := by
  have absent := not_mem_of_lookup db.rows m.version new
  obtain ⟨applied, versions, log, rows⟩ := step
  refine ⟨applied ++ [m], ?_, ?_, ?_⟩
  · rw [rows, List.map_map] at absent
    rw [List.map_append, List.nodup_append]
    refine ⟨versions, by simp, ?_⟩
    rintro version earlier _ last rfl
    rw [List.map_singleton, List.mem_singleton] at last
    exact absent (last ▸ earlier)
  · simp [Engine.applied, log]
  · simp [Engine.applied, Database.rows, ← rows]

theorem Turn.inStep (turn : Turn engine m db outcome) (step : InStep engine db) :
    InStep engine outcome.db := by
  cases turn with
  | failed => exact step
  | recorded => exact step
  | applied new => exact step.applied new
  | closed new => exact step.applied new

theorem Turn.table (turn : Turn engine m db outcome) (table : ∃ rows, db.table = some rows) :
    ∃ rows, outcome.db.table = some rows := by
  cases turn with
  | failed => exact table
  | recorded => exact table
  | applied => exact ⟨_, rfl⟩
  | closed => exact ⟨_, rfl⟩

/-- Recorded versions stay recorded. -/
theorem Turn.keeps (turn : Turn engine m db outcome) (version : Int) (name : String)
    (found : db.rows.lookup version = some name) : outcome.db.rows.lookup version = some name := by
  cases turn with
  | failed => exact found
  | recorded => exact found
  | applied => exact lookup_snoc_of_some _ _ _ _ found
  | closed => exact lookup_snoc_of_some _ _ _ _ found

theorem Turn.records (turn : Turn engine m db outcome) (passed : outcome.result = .ok ()) :
    outcome.db.rows.lookup m.version = some m.name := by
  cases turn with
  | failed => cases passed
  | recorded same => exact same
  | applied new => exact lookup_snoc_self _ _ _ new
  | closed => cases passed

/-- A turn that passes adds the row of its migration, if it was not there. -/
theorem Turn.added (turn : Turn engine m db outcome) (step : InStep engine db)
    (passed : outcome.result = .ok ()) :
    (∀ name, (m.version, name) ∈ db.rows → name = m.name) ∧
      ∀ row, row ∈ outcome.db.rows ↔ row ∈ db.rows ∨ row = (m.version, m.name) := by
  cases turn with
  | failed => cases passed
  | recorded same =>
      refine ⟨?_, ?_⟩
      · intro name member
        exact Option.some.inj (((step.lookup _ _).mpr member).symm.trans same)
      · intro row
        refine ⟨Or.inl, ?_⟩
        rintro (before | rfl)
        · exact before
        · exact (step.lookup _ _).mp same
  | applied new =>
      refine ⟨?_, ?_⟩
      · intro name member
        exact absurd (List.mem_map.mpr ⟨_, member, rfl⟩) (not_mem_of_lookup _ _ new)
      · intro row
        simp [Engine.applied, Database.rows]
  | closed => cases passed

/-- Only SQL of a version without a row is executed. -/
theorem Turn.fresh (turn : Turn engine m db outcome) (exec : Exec) (member : exec ∈ outcome.ran) :
    db.rows.lookup exec.migration.version = none := by
  cases turn with
  | failed error ran done own =>
      obtain ⟨rfl, new⟩ := own exec member
      exact new
  | recorded => cases member
  | applied new =>
      obtain ⟨index, -, rfl⟩ := List.mem_map.mp member
      exact new
  | closed new =>
      obtain ⟨index, -, rfl⟩ := List.mem_map.mp member
      exact new

end InStep

section Loop

variable {engine : Engine}

/-- Coming to a migration behind one that passes. -/
theorem Reaches.behind {m other : Migration} {rest : List Migration} {rows after : List Row} {index : Nat}
    (keys : ∀ name, (m.version, name) ∈ rows → name = m.name)
    (added : ∀ row, row ∈ after ↔ row ∈ rows ∨ row = (m.version, m.name)) :
    Reaches after rest index other ↔ Reaches rows (m :: rest) (index + 1) other := by
  have head : (m.version, m.name) ∈ after := (added _).mpr (.inr rfl)
  have kept : ∀ row ∈ rows, row ∈ after := fun row member => (added row).mpr (.inl member)
  constructor
  · intro reaches
    refine ⟨by simpa using reaches.present, fun row member => reaches.unrecorded row (kept row member), ?_, ?_⟩
    · rw [List.take_succ_cons, List.forall_mem_cons]
      exact ⟨reaches.unrecorded _ head, reaches.first⟩
    · rw [List.take_succ_cons, List.forall_mem_cons]
      constructor
      · intro name member
        simp only [List.map_cons, List.mem_append, List.mem_cons, List.mem_map, Prod.mk.injEq] at member
        rcases member with recorded | ⟨-, named⟩ | ⟨same, present, version, named⟩
        · exact keys name recorded
        · exact named
        · rw [← named]
          exact (reaches.agree same present m.name (List.mem_append_left _ (version ▸ head))).symm
      · intro earlier present name member
        apply reaches.agree earlier present name
        rw [List.map_cons, List.mem_append, List.mem_cons] at member
        rcases member with recorded | own | later
        · exact List.mem_append_left _ (kept _ recorded)
        · exact List.mem_append_left _ (own ▸ head)
        · exact List.mem_append_right _ later
  · intro reaches
    obtain ⟨present, unrecorded, first, agree⟩ := reaches
    rw [List.take_succ_cons, List.forall_mem_cons] at first agree
    refine ⟨by simpa using present, ?_, first.2, ?_⟩
    · intro row member
      rcases (added row).mp member with before | rfl
      · exact unrecorded row before
      · exact first.1
    · intro earlier listed name member
      apply agree.2 earlier listed name
      rw [List.map_cons, List.mem_append, List.mem_cons]
      rcases List.mem_append.mp member with recorded | later
      · rcases (added _).mp recorded with before | own
        · exact .inl before
        · exact .inr (.inl own)
      · exact .inr (.inr later)

theorem SafeAt.here {m : Migration} {rest : List Migration} {rows : List Row} {fault : Option (Nat × Point)}
    (safe : SafeAt engine rows (m :: rest) fault) (new : rows.lookup m.version = none) :
    engine.SafePoint m (faultHere fault) := by
  rcases fault with _ | ⟨_ | index, point⟩
  · trivial
  · apply safe 0 point m rfl
    refine ⟨rfl, ?_, by simp, by simp⟩
    intro row member same
    exact not_mem_of_lookup rows m.version new (List.mem_map.mpr ⟨row, member, same⟩)
  · trivial

theorem SafeAt.later {m : Migration} {rest : List Migration} {rows after : List Row}
    {fault : Option (Nat × Point)} (safe : SafeAt engine rows (m :: rest) fault)
    (keys : ∀ name, (m.version, name) ∈ rows → name = m.name)
    (added : ∀ row, row ∈ after ↔ row ∈ rows ∨ row = (m.version, m.name)) :
    SafeAt engine after rest (faultLater fault) := by
  rcases fault with _ | ⟨_ | index, point⟩
  · intro index point m same
    cases same
  · intro index point m same
    cases same
  · intro place struck other same reaches
    cases same
    exact safe (index + 1) point other rfl ((Reaches.behind keys added).mp reaches)

/-- What the loop keeps of the database it starts from. -/
structure Passed (engine : Engine) (migrations : List Migration) (db : Database) (outcome : Outcome) :
    Prop where
  inStep : InStep engine outcome.db
  table : ∃ rows, outcome.db.table = some rows
  keeps : ∀ version name, db.rows.lookup version = some name →
    outcome.db.rows.lookup version = some name
  records : outcome.result = .ok () → ∀ m ∈ migrations,
    outcome.db.rows.lookup m.version = some m.name
  fresh : ∀ exec ∈ outcome.ran, db.rows.lookup exec.migration.version = none

theorem lookup_none_of_keeps (before after : List Row) (version : Int)
    (keeps : ∀ name, before.lookup version = some name → after.lookup version = some name)
    (new : after.lookup version = none) : before.lookup version = none := by
  cases found : before.lookup version with
  | none => rfl
  | some name =>
      rw [keeps name found] at new
      cases new

variable (engine)

theorem apply_migrations_passed (migrations : List Migration) (fault : Option (Nat × Point))
    (db : Database) (table : ∃ rows, db.table = some rows)
    (leaves : ∀ m ∈ migrations, engine.LeavesTable m) (safe : SafeAt engine db.rows migrations fault)
    (step : InStep engine db) :
    Passed engine migrations db (applyMigrations engine migrations fault db) := by
  induction migrations generalizing fault db with
  | nil => exact ⟨step, table, fun _ _ found => found, by simp, by simp [applyMigrations]⟩
  | cons m rest ih =>
      rw [List.forall_mem_cons] at leaves
      obtain ⟨rows, known⟩ := table
      have turn := apply_turn engine (faultHere fault) known leaves.1 safe.here
      rw [applyMigrations]
      cases result : (applyMigration engine m (faultHere fault) db).result with
      | error error =>
          exact ⟨turn.inStep step, turn.table ⟨rows, known⟩, turn.keeps, fun passed => (by cases passed),
            turn.fresh⟩
      | ok =>
          obtain ⟨keys, added⟩ := turn.added step result
          have later := ih (faultLater fault) (applyMigration engine m (faultHere fault) db).db
            (turn.table ⟨rows, known⟩) leaves.2 (safe.later keys added) (turn.inStep step)
          refine ⟨later.inStep, later.table, ?_, ?_, ?_⟩
          · exact fun version name found => later.keeps version name (turn.keeps version name found)
          · intro passed
            rw [List.forall_mem_cons]
            exact ⟨later.keeps _ _ (turn.records result), later.records passed⟩
          · intro exec member
            rcases List.mem_append.mp member with now | after
            · exact turn.fresh exec now
            · exact lookup_none_of_keeps _ _ _ (fun name => turn.keeps _ name) (later.fresh exec after)

/-- A call that fails where it is not safe leaves an effect of the migration without a row. -/
theorem apply_migrations_careless {m : Migration} (migrations : List Migration) (index : Nat) (point : Point)
    (db : Database) (table : ∃ rows, db.table = some rows)
    (leaves : ∀ m ∈ migrations, engine.LeavesTable m) (step : InStep engine db)
    (reaches : Reaches db.rows migrations index m) (careless : ¬ engine.SafePoint m (some point)) :
    (∃ exec ∈ (applyMigrations engine migrations (some (index, point)) db).db.log, exec.migration = m) ∧
      ∀ row ∈ (applyMigrations engine migrations (some (index, point)) db).db.rows,
        row.1 ≠ m.version := by
  induction migrations generalizing index db with
  | nil => cases reaches.present
  | cons current rest ih =>
      rw [List.forall_mem_cons] at leaves
      obtain ⟨rows, known⟩ := table
      cases index with
      | zero =>
          cases reaches.present
          have new : db.rows.lookup m.version = none := by
            rw [List.lookup_eq_none_iff]
            intro row member
            simpa using (reaches.unrecorded row member).symm
          obtain ⟨log, ran, failed, exec, member, own⟩ :=
            apply_careless engine (some point) known leaves.1 new careless
          simp only [applyMigrations, faultHere, failed]
          exact ⟨⟨exec, List.mem_append_right _ member, own⟩, reaches.unrecorded⟩
      | succ index =>
          have turn := apply_turn engine none known leaves.1 fun _ => trivial
          have passed : (applyMigration engine current none db).result = .ok () := by
            cases found : db.rows.lookup current.version with
            | none => rw [apply_new_none engine known leaves.1 found]
            | some name =>
                have same := reaches.agree current (by simp) name
                  (List.mem_append_left _ ((step.lookup _ _).mp found))
                rw [apply_recorded_none engine known (same ▸ found)]
          obtain ⟨keys, added⟩ := turn.added step passed
          have later := ih index _ (turn.table ⟨rows, known⟩) leaves.2 (turn.inStep step)
            ((Reaches.behind keys added).mpr reaches)
          simp only [applyMigrations, faultHere, faultLater, passed]
          exact later

/-- A turn that passes is what it would have been without a fault. -/
theorem apply_none {m : Migration} {db : Database} (point : Option Point)
    (table : ∃ rows, db.table = some rows) (leaves : engine.LeavesTable m)
    (safe : engine.SafePoint m point)
    (passed : (applyMigration engine m point db).result = .ok ()) :
    applyMigration engine m none db = applyMigration engine m point db := by
  obtain ⟨rows, known⟩ := table
  have turn := apply_turn engine point known leaves fun _ => safe
  generalize applyMigration engine m point db = outcome at turn passed
  cases turn with
  | failed => cases passed
  | recorded same => exact apply_recorded_none engine known same
  | applied new => exact apply_new_none engine known leaves new
  | closed => cases passed

/-- A turn fails of its fault, or of a version recorded under another name. -/
theorem apply_fails {m : Migration} {db : Database} (fault : Option (Nat × Point))
    (table : ∃ rows, db.table = some rows) (leaves : engine.LeavesTable m) (error : DatabaseError)
    (stopped : (applyMigration engine m (faultHere fault) db).result = .error error) :
    (∃ point, fault = some (0, point)) ∨
      ∃ other, db.rows.lookup m.version = some other ∧ other ≠ m.name := by
  obtain ⟨rows, known⟩ := table
  cases here : faultHere fault with
  | some point =>
      left
      match fault with
      | none => cases here
      | some (0, other) => exact ⟨other, rfl⟩
      | some (index + 1, other) => cases here
  | none =>
      rw [here] at stopped
      right
      cases found : db.rows.lookup m.version with
      | none =>
          rw [apply_new_none engine known leaves found] at stopped
          cases stopped
      | some existing =>
          refine ⟨existing, rfl, ?_⟩
          rintro rfl
          rw [apply_recorded_none engine known found] at stopped
          cases stopped

theorem fault_of_later (fault : Option (Nat × Point)) (index : Nat) (point : Point)
    (later : faultLater fault = some (index, point)) : fault = some (index + 1, point) := by
  match fault with
  | none => cases later
  | some (0, other) => cases later
  | some (before + 1, other) =>
      cases later
      rfl

/-- Where no statement ends a transaction, a failing loop leaves what the migrations before the failing
one leave: the one that the fault strikes, or one whose version has another name. -/
theorem apply_migrations_stopped (whole : ∀ stmt, engine.ends stmt = false) (migrations : List Migration)
    (fault : Option (Nat × Point)) (db : Database) (table : ∃ rows, db.table = some rows)
    (leaves : ∀ m ∈ migrations, engine.LeavesTable m) (error : DatabaseError)
    (stopped : (applyMigrations engine migrations fault db).result = .error error) :
    ∃ stop m ran, migrations[stop]? = some m ∧
      applyMigrations engine (migrations.take stop) none db =
        ⟨(applyMigrations engine migrations fault db).db, .ok (), ran, stop⟩ ∧
      ((∃ point, fault = some (stop, point)) ∨
        ∃ other, (applyMigrations engine migrations fault db).db.rows.lookup m.version = some other ∧
          other ≠ m.name) := by
  have safe : ∀ m point, engine.SafePoint m point := by
    intro m point
    rcases point with _ | point
    · trivial
    · cases point <;> simp [Engine.SafePoint, whole]
  induction migrations generalizing fault db with
  | nil => cases stopped
  | cons m rest ih =>
      rw [List.forall_mem_cons] at leaves
      obtain ⟨rows, known⟩ := table
      have turn := apply_turn engine (faultHere fault) known leaves.1 fun _ => safe m _
      have again := apply_none engine (faultHere fault) ⟨rows, known⟩ leaves.1 (safe m _)
      have why := apply_fails engine fault ⟨rows, known⟩ leaves.1
      have next := turn.table ⟨rows, known⟩
      simp only [applyMigrations] at stopped ⊢
      generalize applyMigration engine m (faultHere fault) db = outcome at *
      cases turn with
      | failed error ran done own => exact ⟨0, m, [], rfl, rfl, why error rfl⟩
      | closed new ended =>
          obtain ⟨stmt, -, ends⟩ := ended
          rw [whole stmt] at ends
          cases ends
      | recorded same =>
          obtain ⟨stop, last, ran, there, passes, reason⟩ := ih (faultLater fault) db next leaves.2 stopped
          refine ⟨stop + 1, last, ran, there, ?_, ?_⟩
          · simp only [List.take_succ_cons, applyMigrations, fault_here_none, fault_later_none, again rfl,
              passes, List.nil_append]
          · exact reason.imp_left fun struck =>
              struck.imp fun point later => fault_of_later fault stop point later
      | applied new =>
          obtain ⟨stop, last, ran, there, passes, reason⟩ := ih (faultLater fault) _ next leaves.2 stopped
          refine ⟨stop + 1, last, engine.execs m ++ ran, there, ?_, ?_⟩
          · simp only [List.take_succ_cons, applyMigrations, fault_here_none, fault_later_none, again rfl, passes]
          · exact reason.imp_left fun struck =>
              struck.imp fun point later => fault_of_later fault stop point later

/-- A loop whose front passes goes on from what the front leaves. -/
theorem apply_migrations_append (front back : List Migration) (fault : Option (Nat × Point))
    (db : Database) (passed : (applyMigrations engine front fault db).result = .ok ()) :
    ∃ rest : Option (Nat × Point), (fault = none → rest = none) ∧
      applyMigrations engine (front ++ back) fault db =
        let before := applyMigrations engine front fault db
        let later := applyMigrations engine back rest before.db
        ⟨later.db, later.result, before.ran ++ later.ran, before.done + later.done⟩ := by
  induction front generalizing fault db with
  | nil => exact ⟨fault, id, by simp [applyMigrations]⟩
  | cons m front ih =>
      simp only [List.cons_append, applyMigrations] at passed ⊢
      cases result : (applyMigration engine m (faultHere fault) db).result with
      | error error =>
          rw [result] at passed
          cases passed
      | ok =>
          rw [result] at passed
          obtain ⟨rest, quiet, later⟩ := ih (faultLater fault) _ passed
          refine ⟨rest, ?_, ?_⟩
          · rintro rfl
            exact quiet rfl
          · simp only [later, List.append_assoc]
            congr 1
            omega

theorem apply_migrations_conflict {m : Migration} (rest : List Migration) (fault : Option (Nat × Point))
    (db : Database) (table : ∃ rows, db.table = some rows) (other : String)
    (found : db.rows.lookup m.version = some other) (different : other ≠ m.name) :
    ∃ error, applyMigrations engine (m :: rest) fault db = ⟨db, .error error, [], 0⟩ ∧
      (fault = none → error = .migrationConflict m.version other m.name) := by
  obtain ⟨rows, known⟩ := table
  obtain ⟨error, turn, why⟩ :=
    apply_conflict engine (faultHere fault) known other found different
  refine ⟨error, by simp only [applyMigrations, turn], ?_⟩
  rintro rfl
  exact why (by simp) (by simp)

/-- Recorded migrations are all left alone. -/
theorem apply_migrations_recorded (migrations : List Migration) (fault : Option (Nat × Point))
    (db : Database) (table : ∃ rows, db.table = some rows)
    (recorded : ∀ m ∈ migrations, db.rows.lookup m.version = some m.name) :
    (applyMigrations engine migrations fault db).db = db ∧
      (applyMigrations engine migrations fault db).ran = [] ∧
      (fault = none → (applyMigrations engine migrations fault db).result = .ok ()) := by
  induction migrations generalizing fault with
  | nil => exact ⟨rfl, rfl, fun _ => rfl⟩
  | cons m rest ih =>
      rw [List.forall_mem_cons] at recorded
      obtain ⟨rows, known⟩ := table
      have later := ih (faultLater fault) recorded.2
      rw [applyMigrations]
      rcases apply_recorded engine (faultHere fault) known recorded.1 with
        ⟨error, turn⟩ | turn
      · refine ⟨by simp only [turn], by simp only [turn], ?_⟩
        rintro rfl
        rw [fault_here_none, apply_recorded_none engine known recorded.1] at turn
        cases turn
      · simp only [turn, later.1, later.2.1, List.append_nil]
        refine ⟨trivial, trivial, ?_⟩
        rintro rfl
        exact later.2.2 rfl

end Loop

end Pigs.Db.Migrations
