import Pigs.SysMetrics.Sample

/-! `parse_disk` adds up every row, also those of the partitions of a disk that has a row of its own. -/

namespace Pigs.SysMetrics

open Pigs.Lib

def diskName (line : List Char) : Option (List Char) := (splitWhitespace line)[2]?

def isNumber (text : List Char) : Bool := !text.isEmpty && text.all Char.isDigit

/-- The name of a partition is that of its disk with a number, behind a `p` where the name of the disk
ends in a digit. -/
def isPartitionOf (disk name : List Char) : Bool :=
  let rest := name.drop disk.length
  disk.isPrefixOf name &&
    if disk.getLast?.any Char.isDigit then rest.head? = some 'p' && isNumber rest.tail
    else isNumber rest

/-- The row is that of a partition whose disk has a row in the text. -/
def isPartitionRow (input line : List Char) : Bool :=
  (diskName line).any fun name =>
    (lines input).any fun other => (diskName other).any fun disk => isPartitionOf disk name

/-- The sectors, by `field`, in the rows of the text that `rows` picks. -/
def sectors (field : UInt64 × UInt64 → UInt64) (input : List Char) (rows : List Char → Bool) : Nat :=
  ((((lines input).filter rows).filterMap diskSectors).map fun row => (field row).toNat).sum

def wholeSectors (field : UInt64 × UInt64 → UInt64) (input : List Char) : Nat :=
  sectors field input fun line => !isPartitionRow input line

def partitionSectors (field : UInt64 × UInt64 → UInt64) (input : List Char) : Nat :=
  sectors field input (isPartitionRow input)

theorem addBoth_foldl (start : UInt64 × UInt64) (rows : List (UInt64 × UInt64)) :
    rows.foldl addBoth start =
      ((rows.map Prod.fst).foldl Saturating.add start.1, (rows.map Prod.snd).foldl Saturating.add start.2) := by
  induction rows generalizing start with
  | nil => rfl
  | cons row rows ih =>
      simp only [List.foldl_cons, List.map_cons, ih]
      rfl

/-- The rows of a list split into those that a test picks and the others. -/
theorem sum_filter_split (rows : List (List Char)) (picked : List Char → Bool)
    (field : UInt64 × UInt64 → UInt64) :
    ((rows.filterMap diskSectors).map fun row => (field row).toNat).sum =
      (((rows.filter fun line => !picked line).filterMap diskSectors).map fun row => (field row).toNat).sum +
        (((rows.filter picked).filterMap diskSectors).map fun row => (field row).toNat).sum := by
  induction rows with
  | nil => rfl
  | cons line rows ih =>
      cases out : picked line <;> cases found : diskSectors line <;>
        simp only [List.filter_cons, out, Bool.not_true, Bool.not_false, if_true, Bool.false_eq_true,
          if_false, List.filterMap_cons, found, List.map_cons, List.sum_cons, ih] <;> omega

/-- A column of `parse_disk`: the rows are capped one by one, and their sum again. -/
theorem column_toNat (rows : List (UInt64 × UInt64)) (field : UInt64 × UInt64 → UInt64) :
    ((rows.map fun row => Saturating.mul (field row) 512).foldl Saturating.add 0).toNat =
      min (512 * (rows.map fun row => (field row).toNat).sum) Saturating.LIMIT := by
  have capped : (rows.map fun row => Saturating.mul (field row) 512).map UInt64.toNat =
      (rows.map fun row => (field row).toNat * 512).map fun value => min value Saturating.LIMIT := by
    rw [List.map_map, List.map_map]
    exact List.map_congr_left fun row _ => Saturating.toNat_mul (field row) 512
  rw [Saturating.foldl_add, capped, UInt64.toNat_zero, Nat.zero_add, Saturating.min_sum_min,
    List.sum_map_mul_right, Nat.mul_comm]

theorem parseDisk_eq (input : List Char) :
    (parseDisk input).1.toNat =
        min (512 * (wholeSectors Prod.fst input + partitionSectors Prod.fst input)) Saturating.LIMIT ∧
      (parseDisk input).2.toNat =
        min (512 * (wholeSectors Prod.snd input + partitionSectors Prod.snd input)) Saturating.LIMIT := by
  have rows : (lines input).filterMap diskRow = ((lines input).filterMap diskSectors).map fun row =>
      (Saturating.mul row.1 512, Saturating.mul row.2 512) := by
    rw [List.map_filterMap]
    rfl
  simp only [parseDisk, rows, addBoth_foldl, List.map_map]
  constructor
  · have column := column_toNat ((lines input).filterMap diskSectors) Prod.fst
    rw [sum_filter_split (lines input) (isPartitionRow input) Prod.fst] at column
    exact column
  · have column := column_toNat ((lines input).filterMap diskSectors) Prod.snd
    rw [sum_filter_split (lines input) (isPartitionRow input) Prod.snd] at column
    exact column

/-- More sectors show unless the sum is at its cap without them. -/
theorem min_add_eq_iff (whole extra limit : Nat) :
    min (512 * (whole + extra)) limit = min (512 * whole) limit ↔ extra = 0 ∨ limit ≤ 512 * whole := by
  omega

/-- The bytes of `parse_disk` are those of the whole disks exactly when the partitions have no sectors, or
the whole disks fill the word. -/
theorem parse_disk_counts_once_iff (input : List Char) :
    ((parseDisk input).1.toNat = min (512 * wholeSectors Prod.fst input) Saturating.LIMIT ∧
        (parseDisk input).2.toNat = min (512 * wholeSectors Prod.snd input) Saturating.LIMIT) ↔
      (partitionSectors Prod.fst input = 0 ∨ Saturating.LIMIT ≤ 512 * wholeSectors Prod.fst input) ∧
        (partitionSectors Prod.snd input = 0 ∨ Saturating.LIMIT ≤ 512 * wholeSectors Prod.snd input) := by
  obtain ⟨read, written⟩ := parseDisk_eq input
  rw [read, written, min_add_eq_iff, min_add_eq_iff]

def oneDisk : List Char :=
  "8 0 sda 9 0 100 5 4 0 50 3 0 4 8\n8 1 sda1 9 0 100 5 4 0 50 3 0 4 8\n".toList

theorem parse_disk_counts_partition :
    ¬∀ input : List Char,
      (parseDisk input).1.toNat = min (512 * wholeSectors Prod.fst input) Saturating.LIMIT ∧
        (parseDisk input).2.toNat = min (512 * wholeSectors Prod.snd input) Saturating.LIMIT := by
  intro always
  have read := (always oneDisk).1
  revert read
  decide

end Pigs.SysMetrics
