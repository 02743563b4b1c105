import Mathlib.Logic.Function.Basic

/-! `restore_sqlite`: the source is checked, copied onto the destination in place, and the copy is checked. -/

namespace Pigs.Db.Restore

abbrev Bytes := List UInt8

/-- Paths name files, two of them perhaps the same one. -/
structure Fs (Path : Type) where
  names : Path → Option Nat
  contents : Nat → Bytes
  next : Nat
  used : ∀ path file, names path = some file → file < next

inductive DatabaseError where
  | sqlx
  | sqliteIo
  | integrity (result : String)
  deriving DecidableEq

/-- Where the call fails. -/
inductive Fault where
  | openSource
  | checkSource
  | parentDirectory
  | openCopy
  | copyAfter (count : Nat)
  | openRestored
  | checkRestored
  deriving DecidableEq

variable {Path : Type} [DecidableEq Path]

namespace Fs

def content (fs : Fs Path) (path : Path) : Option Bytes := (fs.names path).map fs.contents

def write (fs : Fs Path) (file : Nat) (bytes : Bytes) : Fs Path :=
  { fs with contents := Function.update fs.contents file bytes }

theorem used_created (fs : Fs Path) (path other : Path) (file : Nat)
    (named : Function.update fs.names path (some fs.next) other = some file) : file < fs.next + 1 := by
  by_cases here : other = path
  · rw [here, Function.update_self] at named
    cases named
    omega
  · rw [Function.update_of_ne here] at named
    have := fs.used other file named
    omega

/-- Opening for writing, which empties a file that is there. -/
def openTruncated (fs : Fs Path) (path : Path) : Fs Path × Nat :=
  match fs.names path with
  | some file => (fs.write file [], file)
  | none =>
      ({ names := Function.update fs.names path (some fs.next)
         contents := Function.update fs.contents fs.next []
         next := fs.next + 1
         used := fs.used_created path },
        fs.next)

end Fs

/-- `std::fs::copy` -/
def copy (fault : Option Fault) (fs : Fs Path) (source destination : Path) :
    Fs Path × Except DatabaseError Unit :=
  match fs.names source with
  | none => (fs, .error .sqliteIo)
  | some reader =>
      if fault = some .openCopy then
        (fs, .error .sqliteIo)
      else
        let (fs, writer) := fs.openTruncated destination
        match fault with
        | some (.copyAfter count) => (fs.write writer ((fs.contents reader).take count), .error .sqliteIo)
        | _ => (fs.write writer (fs.contents reader), .ok ())

/-- A pool is the path it opens. -/
def openReadOnlyPool (fails : Bool) (fs : Fs Path) (path : Path) : Except DatabaseError Path :=
  if (fs.names path).isNone then
    .error .sqliteIo
  else if fails then
    .error .sqlx
  else
    .ok path

/-- `integrityCheck` is the text that the pragma gives for the bytes of a file, or none where the query
fails. -/
def checkSqliteIntegrity (integrityCheck : Bytes → Option String) (fails : Bool) (fs : Fs Path)
    (pool : Path) : Except DatabaseError Unit :=
  if fails then
    .error .sqlx
  else
    match (fs.content pool).bind integrityCheck with
    | none => .error .sqlx
    | some result => if result.toLower = "ok" then .ok () else .error (.integrity result)

def restoreSqlite (integrityCheck : Bytes → Option String) (fault : Option Fault) (fs : Fs Path)
    (sourcePath destination : Path) : Fs Path × Except DatabaseError Unit :=
  match openReadOnlyPool (fault = some .openSource) fs sourcePath with
  | .error error => (fs, .error error)
  | .ok source =>
      match checkSqliteIntegrity integrityCheck (fault = some .checkSource) fs source with
      | .error error => (fs, .error error)
      | .ok () =>
          if fault = some .parentDirectory then
            (fs, .error .sqliteIo)
          else
            match copy fault fs sourcePath destination with
            | (fs, .error error) => (fs, .error error)
            | (fs, .ok ()) =>
                match openReadOnlyPool (fault = some .openRestored) fs destination with
                | .error error => (fs, .error error)
                | .ok restored =>
                    (fs, checkSqliteIntegrity integrityCheck (fault = some .checkRestored) fs restored)

/-- `Ok` with the source's content in the destination, or `Err` with the destination as it was. -/
def AllOrNothing (integrityCheck : Bytes → Option String) (fault : Option Fault) (fs : Fs Path)
    (sourcePath destination : Path) : Prop :=
  let call := restoreSqlite integrityCheck fault fs sourcePath destination
  (call.2 = .ok () → call.1.content destination = fs.content sourcePath) ∧
    ∀ error, call.2 = .error error → call.1.content destination = fs.content destination

/-- The bytes of a file are a database that passes the check. -/
def Sound (integrityCheck : Bytes → Option String) (bytes : Bytes) : Prop :=
  ∃ result, integrityCheck bytes = some result ∧ result.toLower = "ok"

/-- The fault strikes before the destination is opened. -/
def Fault.early : Option Fault → Prop
  | some .openSource | some .checkSource | some .parentDirectory | some .openCopy => True
  | _ => False

/-- How many of the bytes reach the destination. -/
def written : Option Fault → Bytes → Bytes
  | some (.copyAfter count), bytes => bytes.take count
  | _, bytes => bytes

section Copy

variable {fs : Fs Path} {path other : Path} {file : Nat}

theorem open_truncated_names : (fs.openTruncated path).1.names path = some (fs.openTruncated path).2 := by
  cases named : fs.names path with
  | some file => simp [Fs.openTruncated, named, Fs.write]
  | none => simp [Fs.openTruncated, named]

theorem open_truncated_self : (fs.openTruncated path).1.contents (fs.openTruncated path).2 = [] := by
  cases named : fs.names path with
  | some file => simp [Fs.openTruncated, named, Fs.write]
  | none => simp [Fs.openTruncated, named]

/-- A file under another name keeps its bytes. -/
theorem open_truncated_other (named : fs.names other = some file)
    (apart : fs.names other ≠ fs.names path) :
    (fs.openTruncated path).1.contents file = fs.contents file ∧ (fs.openTruncated path).2 ≠ file := by
  cases here : fs.names path with
  | some opened =>
      have different : file ≠ opened := by
        rintro rfl
        exact apart (named.trans here.symm)
      simp [Fs.openTruncated, here, Fs.write, Function.update_of_ne different, different.symm]
  | none =>
      have below := fs.used other file named
      have different : file ≠ fs.next := by omega
      simp [Fs.openTruncated, here, Function.update_of_ne different, different.symm]

theorem open_truncated_same (named : fs.names other = some file) (same : fs.names other = fs.names path) :
    (fs.openTruncated path).2 = file := by
  rw [named] at same
  simp [Fs.openTruncated, ← same]

omit [DecidableEq Path] in
theorem write_content (bytes : Bytes) (named : fs.names path = some file) :
    (fs.write file bytes).content path = some bytes := by
  simp [Fs.content, Fs.write, named]

/-- What the copy reads: nothing, when it has just emptied the same file. -/
def got (fs : Fs Path) (source destination : Path) (bytes : Bytes) : Bytes :=
  if fs.names source = fs.names destination then [] else bytes

theorem copy_eq (fault : Option Fault) (source destination : Path) (reader : Nat)
    (named : fs.names source = some reader) (opens : fault ≠ some .openCopy) :
    ∃ after, after.names destination = some (fs.openTruncated destination).2 ∧
      after.content destination = some (written fault (got fs source destination (fs.contents reader))) ∧
      (∀ count, fault = some (.copyAfter count) →
        copy fault fs source destination = (after, .error .sqliteIo)) ∧
      ((∀ count, fault ≠ some (.copyAfter count)) →
        copy fault fs source destination = (after, .ok ())) := by
  have read : (fs.openTruncated destination).1.contents reader =
      got fs source destination (fs.contents reader) := by
    rw [got]
    by_cases same : fs.names source = fs.names destination
    · rw [if_pos same, ← open_truncated_same named same, open_truncated_self]
    · rw [if_neg same]
      exact (open_truncated_other named same).1
  refine ⟨(fs.openTruncated destination).1.write (fs.openTruncated destination).2
    (written fault (got fs source destination (fs.contents reader))), open_truncated_names,
    write_content _ open_truncated_names, ?_, ?_⟩
  · rintro count rfl
    simp only [copy, named, if_neg opens, read, written]
  · intro whole
    simp only [copy, named, if_neg opens, read]
    rw [written]
    exact whole

end Copy

section Restore

variable {integrityCheck : Bytes → Option String} {fault : Option Fault} {fs : Fs Path}
  {sourcePath destination : Path}

omit [DecidableEq Path] in
theorem check_ok_iff (fails : Bool) (fs : Fs Path) (pool : Path) (bytes : Bytes)
    (content : fs.content pool = some bytes) :
    checkSqliteIntegrity integrityCheck fails fs pool = .ok () ↔
      fails = false ∧ Sound integrityCheck bytes := by
  simp only [checkSqliteIntegrity, content, Option.bind_some, Sound]
  cases fails with
  | true => simp
  | false =>
      cases integrityCheck bytes with
      | none => simp
      | some result => by_cases fine : result.toLower = "ok" <;> simp [fine]

/-- The call stops before it opens the destination. -/
theorem restore_stops (stops : Fault.early fault ∨
      ∀ bytes, fs.content sourcePath = some bytes → ¬ Sound integrityCheck bytes) :
    ∃ error, restoreSqlite integrityCheck fault fs sourcePath destination = (fs, .error error) := by
  cases named : fs.names sourcePath with
  | none => exact ⟨.sqliteIo, by simp [restoreSqlite, openReadOnlyPool, named]⟩
  | some reader =>
      by_cases unopened : fault = some .openSource
      · exact ⟨.sqlx, by simp [restoreSqlite, openReadOnlyPool, named, unopened]⟩
      have content : fs.content sourcePath = some (fs.contents reader) := by
        simp [Fs.content, named]
      have opened : openReadOnlyPool (fault = some .openSource) fs sourcePath = .ok sourcePath := by
        simp [openReadOnlyPool, named, unopened]
      simp only [restoreSqlite, opened]
      cases checked : checkSqliteIntegrity integrityCheck (fault = some .checkSource) fs sourcePath with
      | error error => exact ⟨error, rfl⟩
      | ok =>
          obtain ⟨asked, sound⟩ := (check_ok_iff _ fs sourcePath _ content).mp checked
          rcases stops with early | unsound
          · simp only
            by_cases parent : fault = some .parentDirectory
            · rw [if_pos parent]
              exact ⟨_, rfl⟩
            · rw [if_neg parent]
              have last : fault = some .openCopy := by
                rcases fault with _ | fault
                · cases early
                · cases fault <;> simp_all [Fault.early]
              simp only [copy, named, if_pos last]
              exact ⟨_, rfl⟩
          · exact absurd sound (unsound _ content)

/-- What the call leaves after it has opened the destination. -/
theorem restore_copied (destination : Path) (late : ¬ Fault.early fault) (bytes : Bytes)
    (content : fs.content sourcePath = some bytes) (sound : Sound integrityCheck bytes) :
    (restoreSqlite integrityCheck fault fs sourcePath destination).1.content destination =
        some (written fault (got fs sourcePath destination bytes)) ∧
      ((restoreSqlite integrityCheck fault fs sourcePath destination).2 = .ok () ↔
        fault = none ∧ Sound integrityCheck (got fs sourcePath destination bytes)) := by
  obtain ⟨reader, named, rfl⟩ := Option.map_eq_some_iff.mp content
  have unopened : fault ≠ some .openSource := by rintro rfl; exact late trivial
  have unasked : fault ≠ some .checkSource := by rintro rfl; exact late trivial
  have parent : fault ≠ some .parentDirectory := by rintro rfl; exact late trivial
  have opens : fault ≠ some .openCopy := by rintro rfl; exact late trivial
  have source : openReadOnlyPool (fault = some .openSource) fs sourcePath = .ok sourcePath := by
    simp [openReadOnlyPool, named, unopened]
  have checked : checkSqliteIntegrity integrityCheck (fault = some .checkSource) fs sourcePath = .ok () :=
    (check_ok_iff _ fs sourcePath _ content).mpr ⟨by simpa using unasked, sound⟩
  obtain ⟨after, names, left, stopped, whole⟩ := copy_eq fault sourcePath destination reader named opens
  simp only [restoreSqlite, source, checked, if_neg parent]
  by_cases short : ∃ count, fault = some (.copyAfter count)
  · obtain ⟨count, cut⟩ := short
    rw [stopped count cut]
    exact ⟨left, by simp [cut]⟩
  · have full : ∀ count, fault ≠ some (.copyAfter count) := not_exists.mp short
    rw [whole full]
    by_cases reopened : fault = some .openRestored
    · simp only [openReadOnlyPool, names, reopened]
      exact ⟨reopened ▸ left, by simp⟩
    · have pool : openReadOnlyPool (fault = some .openRestored) after destination = .ok destination := by
        simp [openReadOnlyPool, names, reopened]
      have unstruck : fault = none ↔ fault ≠ some .checkRestored := by
        rcases fault with _ | fault
        · simp
        · cases fault <;> simp_all
      have same : written fault (got fs sourcePath destination (fs.contents reader)) =
          got fs sourcePath destination (fs.contents reader) := by
        rw [written]
        exact full
      simp only [pool]
      refine ⟨left, ?_⟩
      rw [same] at left
      rw [unstruck]
      exact (check_ok_iff _ after destination _ left).trans (by simp)

/-- Whether a call that opens the destination is all-or-nothing. -/
theorem all_or_nothing_copied (late : ¬ Fault.early fault) (bytes : Bytes)
    (content : fs.content sourcePath = some bytes) (sound : Sound integrityCheck bytes) :
    AllOrNothing integrityCheck fault fs sourcePath destination ↔
      (fault = none ∧ Sound integrityCheck (got fs sourcePath destination bytes) →
        written fault (got fs sourcePath destination bytes) = bytes) ∧
      (¬ (fault = none ∧ Sound integrityCheck (got fs sourcePath destination bytes)) →
        some (written fault (got fs sourcePath destination bytes)) = fs.content destination) := by
  obtain ⟨left, passes⟩ := restore_copied destination late bytes content sound
  rw [← passes, AllOrNothing, left, content, Option.some.injEq]
  cases (restoreSqlite integrityCheck fault fs sourcePath destination).2 with
  | ok => simp
  | error error => simp

/-- The call is all-or-nothing exactly when it stops before it opens the destination, or has nothing to
lose in an empty file of two names, or fails no more, or writes what the destination has. -/
theorem restore_all_or_nothing_iff (integrityCheck : Bytes → Option String) (fault : Option Fault)
    (fs : Fs Path) (sourcePath destination : Path) :
    AllOrNothing integrityCheck fault fs sourcePath destination ↔
      Fault.early fault ∨
      (∀ bytes, fs.content sourcePath = some bytes → ¬ Sound integrityCheck bytes) ∨
      (fs.names sourcePath = fs.names destination ∧ fs.content sourcePath = some []) ∨
      (fs.names sourcePath ≠ fs.names destination ∧
        ∀ bytes, fs.content sourcePath = some bytes → fault ≠ none →
          fs.content destination = some (written fault bytes)) := by
  by_cases stops : Fault.early fault ∨
      ∀ bytes, fs.content sourcePath = some bytes → ¬ Sound integrityCheck bytes
  · obtain ⟨error, stopped⟩ :
        ∃ error, restoreSqlite integrityCheck fault fs sourcePath destination = (fs, .error error) :=
      restore_stops stops
    have holds : AllOrNothing integrityCheck fault fs sourcePath destination := by
      rw [AllOrNothing, stopped]
      exact ⟨fun passed => (by cases passed), fun _ _ => rfl⟩
    exact ⟨fun _ => stops.imp_right Or.inl, fun _ => holds⟩
  · obtain ⟨late, bytes, content, sound⟩ :
        ¬ Fault.early fault ∧ ∃ bytes, fs.content sourcePath = some bytes ∧
          Sound integrityCheck bytes := by
      simpa using stops
    rw [all_or_nothing_copied late bytes content sound]
    have unsound : ¬ ∀ other, fs.content sourcePath = some other → ¬ Sound integrityCheck other :=
      fun all => all bytes content sound
    rw [or_iff_right late, or_iff_right unsound]
    by_cases same : fs.names sourcePath = fs.names destination
    · have shared : fs.content destination = some bytes := by
        rw [← content, Fs.content, Fs.content, same]
      have nothing : written fault (got fs sourcePath destination bytes) = [] := by
        rw [got, if_pos same, written.eq_def]
        split <;> simp
      rw [nothing, shared, content]
      constructor
      · rintro ⟨passed, failed⟩
        refine .inl ⟨same, ?_⟩
        by_cases ended : fault = none ∧ Sound integrityCheck (got fs sourcePath destination bytes)
        · rw [passed ended]
        · rw [failed ended]
      · rintro (⟨-, empty⟩ | ⟨apart, -⟩)
        · exact ⟨fun _ => (Option.some.inj empty).symm, fun _ => empty.symm⟩
        · exact absurd same apart
    · have read : got fs sourcePath destination bytes = bytes := if_neg same
      rw [read]
      constructor
      · rintro ⟨-, failed⟩
        refine .inr ⟨same, ?_⟩
        intro other named struck
        rw [content] at named
        cases named
        exact (failed fun ended => struck ended.1).symm
      · rintro (⟨aliased, -⟩ | ⟨-, kept⟩)
        · exact absurd aliased same
        · refine ⟨?_, ?_⟩
          · rintro ⟨rfl, -⟩
            rfl
          · intro unfinished
            exact (kept bytes content fun none => unfinished ⟨none, sound⟩).symm

/-- Two files: an empty database, and another file with content. -/
def twoFiles : Fs Nat where
  names := fun path => if path < 2 then some path else none
  contents := fun file => if file = 0 then [] else [0x53]
  next := 2
  used := by
    intro path file named
    split at named
    · cases named
      assumption
    · cases named

/-- The first file is restored onto the second, and the copy cannot be opened again: the call fails, and
the content of the second is lost. -/
theorem restore_loses_destination :
    ¬ ∀ (integrityCheck : Bytes → Option String) (fault : Option Fault) (fs : Fs Nat)
        (sourcePath destination : Nat), AllOrNothing integrityCheck fault fs sourcePath destination := by
  intro always
  have sound : Sound (fun bytes => if bytes = [] then some "ok" else none) [] :=
    ⟨"ok", rfl, by decide +kernel⟩
  have late : ¬ Fault.early (some .openRestored) := id
  have whole := always (fun bytes => if bytes = [] then some "ok" else none) (some .openRestored) twoFiles 0 1
  rw [all_or_nothing_copied late [] rfl sound] at whole
  have lost : some (written (some .openRestored) (got twoFiles 0 1 [])) = twoFiles.content 1 :=
    whole.2 (by simp)
  revert lost
  decide

end Restore

end Pigs.Db.Restore
