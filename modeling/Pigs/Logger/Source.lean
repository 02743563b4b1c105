import Pigs.Lib.Search

/-! `display_source_file`: how the path of a source file is shortened for a log line. Texts are lists of
their characters. -/

set_option linter.dupNamespace false

namespace Pigs.Logger

open Pigs.Lib

/-- `matches!(file.as_bytes(), [_, b':', b'\\' | b'/', ..])`, or two backslashes in front. -/
def windowsAbsolute (file : List Char) : Bool :=
  ['\\', '\\'].isPrefixOf file ||
    match file with
    | first :: colon :: separator :: _ =>
        first.utf8Size = 1 && colon = ':' && (separator = '\\' || separator = '/')
    | _ => false

/-- `file.replace('\\', "/")` -/
def normalized (file : List Char) : List Char := file.map fun c => if c = '\\' then '/' else c

def srcDir : List Char := ['/', 's', 'r', 'c', '/']

def trimSourceRoot (file : List Char) : Option (List Char) :=
  (rfind srcDir file).map fun index =>
    let crateStart := (rfind ['/'] (file.take index)).elim 0 (· + 1)
    file.drop crateStart

def shortenAbsoluteSourceFile (file : List Char) : List Char :=
  (trimSourceRoot file).getD (lastSegment '/' file)

/-- The test with which `display_source_file` begins. -/
def shortened (file : List Char) : Bool := file.head? = some '/' || windowsAbsolute file

def displaySourceFile (file : List Char) : List Char :=
  if !shortened file then
    file
  else if file.contains '\\' then
    shortenAbsoluteSourceFile (normalized file)
  else
    shortenAbsoluteSourceFile file

/-- A path from a root, from a host or from the root of a drive. -/
def isAbsolute (file : List Char) : Bool :=
  file.head? = some '/' || ['\\', '\\'].isPrefixOf file ||
    match file with
    | drive :: colon :: separator :: _ =>
        drive.isAlpha && colon = ':' && (separator = '\\' || separator = '/')
    | _ => false

/-- The directory in front of the last `/srcDir/` has a name, which is not that of a drive. -/
def InCrate (file : List Char) : Prop :=
  ∀ front back, LastSplit srcDir (normalized file) front back →
    lastSegment '/' front ≠ [] ∧ ∀ drive : Char, drive.isAlpha → lastSegment '/' front ≠ [drive, ':']

theorem not_mem_normalized (file : List Char) : '\\' ∉ normalized file := by
  intro member
  obtain ⟨c, -, same⟩ := List.mem_map.mp member
  split_ifs at same with back
  · cases same
  · exact back same

theorem normalized_of_not_mem (file : List Char) (absent : '\\' ∉ file) : normalized file = file := by
  have kept : ∀ c ∈ file, (if c = '\\' then '/' else c) = id c := by
    intro c member
    rw [if_neg]
    · rfl
    · rintro rfl
      exact absent member
  rw [normalized, List.map_congr_left kept, List.map_id]

/-- Whichever way it goes, an absolute path is shortened with its separators turned. -/
theorem displaySourceFile_eq (file : List Char) (short : shortened file = true) :
    displaySourceFile file = shortenAbsoluteSourceFile (normalized file) := by
  rw [displaySourceFile, short]
  simp only [Bool.not_true, Bool.false_eq_true, if_false]
  split_ifs with back
  · rfl
  · rw [normalized_of_not_mem]
    intro member
    exact back (List.contains_iff_mem.mpr member)

theorem utf8Size_of_isAlpha (c : Char) (alpha : c.isAlpha = true) : c.utf8Size = 1 := by
  have letter : c.isUpper = true ∨ c.isLower = true := Bool.or_eq_true_iff.mp alpha
  rw [Char.utf8Size_eq_one_iff]
  rcases letter with upper | lower
  · have inside : c.val ≥ 'A'.val ∧ c.val ≤ 'Z'.val := of_decide_eq_true upper
    exact UInt32.le_trans inside.2 (by decide)
  · have below : decide (c.val ≤ 'z'.val) = true := (Bool.and_eq_true_iff.mp lower).2
    exact UInt32.le_trans (of_decide_eq_true below) (by decide)

theorem shortened_of_isAbsolute (file : List Char) (absolute : isAbsolute file = true) :
    shortened file = true := by
  simp only [isAbsolute, shortened, windowsAbsolute, Bool.or_eq_true] at absolute ⊢
  rcases absolute with (root | host) | drive
  · exact Or.inl root
  · exact Or.inr (Or.inl host)
  · refine Or.inr (Or.inr ?_)
    split at drive
    case h_1 first colon separator rest =>
      simp only [Bool.and_eq_true, Bool.or_eq_true, decide_eq_true_eq] at drive ⊢
      exact ⟨⟨utf8Size_of_isAlpha first drive.1.1, drive.1.2⟩, drive.2⟩
    case h_2 => cases drive

theorem isAbsolute_cons (first : Char) (rest : List Char) (slash : '/' ≠ first) (back : '\\' ≠ first) :
    isAbsolute (first :: rest) =
      match rest with
      | colon :: separator :: _ =>
          first.isAlpha && colon = ':' && (separator = '\\' || separator = '/')
      | _ => false := by
  have root : ((first :: rest).head? = some '/') = False := by
    simp [slash.symm]
  have host : ['\\', '\\'].isPrefixOf (first :: rest) = false := by
    rw [List.isPrefixOf_cons_cons, beq_false_of_ne back, Bool.false_and]
  simp only [isAbsolute, root, host, decide_false, Bool.false_or]
  match rest with
  | [] => rfl
  | [_] => rfl
  | _ :: _ :: _ => rfl

/-- A path without separators is not absolute. -/
theorem isAbsolute_of_not_mem (file : List Char) (slash : '/' ∉ file) (back : '\\' ∉ file) :
    isAbsolute file = false := by
  cases file with
  | nil => rfl
  | cons first rest =>
      simp only [List.mem_cons, not_or] at slash back
      rw [isAbsolute_cons first rest slash.1 back.1]
      match rest with
      | [] => rfl
      | [_] => rfl
      | colon :: separator :: more =>
          simp only [List.mem_cons, not_or] at slash back
          simp [Ne.symm slash.2.2.1, Ne.symm back.2.2.1]

/-- A path that starts with a directory is absolute exactly when the directory has no name or that of a
drive. -/
theorem isAbsolute_directory (name rest : List Char) (slash : '/' ∉ name) (back : '\\' ∉ name) :
    isAbsolute (name ++ srcDir ++ rest) = false ↔
      name ≠ [] ∧ ∀ drive : Char, drive.isAlpha → name ≠ [drive, ':'] := by
  cases name with
  | nil => simp [isAbsolute, srcDir]
  | cons first name =>
      simp only [List.mem_cons, not_or] at slash back
      rw [List.cons_append, List.cons_append, isAbsolute_cons _ _ slash.1 back.1]
      match name with
      | [] => simp [srcDir]
      | [colon] =>
          simp only [srcDir, List.cons_append, List.nil_append]
          constructor
          · intro relative
            refine ⟨by simp, ?_⟩
            intro drive alpha same
            cases same
            simp [alpha] at relative
          · rintro ⟨-, named⟩
            by_contra absolute
            simp only [Bool.not_eq_false, Bool.and_eq_true, decide_eq_true_eq] at absolute
            exact named first absolute.1.1 (by rw [absolute.1.2])
      | colon :: separator :: more =>
          simp only [List.mem_cons, not_or] at slash back
          simp [Ne.symm slash.2.2.1, Ne.symm back.2.2.1]

/-- What is kept of a path with a `/src/`. -/
theorem trimSourceRoot_of_split (file front back : List Char) (split : LastSplit srcDir file front back) :
    trimSourceRoot file = some (lastSegment '/' front ++ srcDir ++ back) := by
  cases found : rfind srcDir file with
  | none => exact absurd split.whole (rfind_none srcDir file (by decide) found front back)
  | some index =>
      obtain ⟨other, tail, same, rfl⟩ := rfind_some srcDir file (by decide) index found
      obtain ⟨rfl, rfl⟩ := same.unique split
      have taken : file.take other.length = other := by
        rw [split.whole, List.append_assoc, List.take_left]
      have start : (rfind ['/'] other).elim 0 (· + 1) ≤ other.length := by
        cases slash : rfind ['/'] other with
        | none => exact Nat.zero_le _
        | some last => exact rfind_add_length_le ['/'] other (by decide) last slash
      simp only [trimSourceRoot, found, Option.map_some, taken]
      rw [split.whole, List.append_assoc, List.drop_append_of_le_length start, drop_rfind,
        ← List.append_assoc]

theorem trimSourceRoot_of_absent (file : List Char) (absent : rfind srcDir file = none) :
    trimSourceRoot file = none := by
  rw [trimSourceRoot, absent]
  rfl

theorem shortenAbsoluteSourceFile_suffix (file : List Char) : shortenAbsoluteSourceFile file <:+ file := by
  rw [shortenAbsoluteSourceFile, trimSourceRoot]
  cases rfind srcDir file with
  | none => exact lastSegment_suffix '/' file
  | some index => exact List.drop_suffix _ file

/-- Without backslashes only the directory in front of the last `/src/` matters. -/
theorem shortenAbsoluteSourceFile_relative_iff (file : List Char) (plain : '\\' ∉ file) :
    isAbsolute (shortenAbsoluteSourceFile file) = false ↔
      ∀ front back, LastSplit srcDir file front back →
        lastSegment '/' front ≠ [] ∧ ∀ drive : Char, drive.isAlpha → lastSegment '/' front ≠ [drive, ':'] := by
  cases found : rfind srcDir file with
  | none =>
      rw [shortenAbsoluteSourceFile, trimSourceRoot_of_absent file found, Option.getD_none]
      refine iff_of_true ?_ ?_
      · exact isAbsolute_of_not_mem _ (separator_not_mem_lastSegment '/' file)
          fun member => plain ((lastSegment_suffix '/' file).subset member)
      · intro front back split
        exact absurd split.whole (rfind_none srcDir file (by decide) found front back)
  | some index =>
      obtain ⟨front, back, split, -⟩ := rfind_some srcDir file (by decide) index found
      have inside : '\\' ∉ lastSegment '/' front := by
        intro member
        apply plain
        rw [split.whole, List.append_assoc]
        exact List.mem_append_left _ ((lastSegment_suffix '/' front).subset member)
      rw [shortenAbsoluteSourceFile, trimSourceRoot_of_split file front back split, Option.getD_some,
        isAbsolute_directory _ back (separator_not_mem_lastSegment '/' front) inside]
      constructor
      · intro named other tail same
        obtain ⟨rfl, -⟩ := same.unique split
        exact named
      · intro named
        exact named front back split

/-- The path that is shown is not absolute, and a part of the path that was given, exactly when a path
that is shortened names the directory in front of its last `/src/`. -/
theorem display_source_file_relative_iff (file : List Char) :
    (isAbsolute (displaySourceFile file) = false ∧
        (isAbsolute file = true → displaySourceFile file <:+ normalized file)) ↔
      (shortened file = true → InCrate file) := by
  cases short : shortened file with
  | false =>
      have same : displaySourceFile file = file := by
        simp [displaySourceFile, short]
      have relative : isAbsolute file = false := by
        by_contra absolute
        rw [shortened_of_isAbsolute file (by simpa using absolute)] at short
        cases short
      rw [same, relative]
      simp
  | true =>
      have suffix := shortenAbsoluteSourceFile_suffix (normalized file)
      rw [displaySourceFile_eq file short,
        shortenAbsoluteSourceFile_relative_iff _ (not_mem_normalized file)]
      constructor
      · intro named _
        exact named.1
      · intro named
        exact ⟨named rfl, fun _ => suffix⟩

/-- A source directory at the root has no crate in front of it. -/
theorem display_source_file_of_root :
    ¬∀ file : List Char, isAbsolute (displaySourceFile file) = false ∧
      (isAbsolute file = true → displaySourceFile file <:+ normalized file) := by
  intro always
  have relative := (always "/src/main.rs".toList).1
  revert relative
  decide

end Pigs.Logger
