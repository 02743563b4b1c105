import Mathlib.Data.Bool.AllAny
import Mathlib.Data.List.Nodup
import Pigs.Lib.Radix

/-! `en` and `de` of `dig62.rs`: decimal digits as four-bit groups, cut again into nine-bit groups,
each written as a letter after an optional digit. -/

namespace Pigs.Utils.Dig62

open Pigs.Lib

/-- A returned error with its text, or a panic with its own. -/
inductive Failure where
  | sysError (msg : String)
  | panicked (msg : String)
  deriving DecidableEq, Repr

def dDic : List Char := ['0', '1', '2', '3', '4', '5', '6', '7', '8', '9']

def aDic : List Char := [
  'q', 'a', 'z', 'w', 's', 'x', 'e', 'd', 'c', 'r', 'f', 'v', 't', 'g', 'b', 'y', 'h', 'n', 'u',
  'j', 'm', 'i', 'k', 'o', 'l', 'p', 'Q', 'A', 'Z', 'W', 'S', 'X', 'E', 'D', 'C', 'R', 'F', 'V',
  'T', 'G', 'B', 'Y', 'H', 'N', 'U', 'J', 'M', 'I', 'K', 'O', 'L', 'P']

/-- The map from the characters of a dictionary to their places in it. -/
def dicMap (dic : List Char) (ch : Char) : Option Nat := dic.idxOf? ch

def okOrElse {α : Type} (found : Option α) (msg : String) : Except Failure α :=
  match found with
  | some a => .ok a
  | none => .error (.sysError msg)

def expect {α : Type} (found : Option α) (msg : String) : Except Failure α :=
  match found with
  | some a => .ok a
  | none => .error (.panicked msg)

/-- `dic[i]` -/
def dicAt (dic : List Char) (i : Nat) : Except Failure Char :=
  expect dic[i]? s!"index out of bounds: the len is {dic.length} but the index is {i}"

section En

def pushDigit (tmpKey0 : List Char) (ch : Char) : Except Failure (List Char) := do
  let digit ← okOrElse (toDigit 10 ch) "Invalid digit_str"
  return tmpKey0 ++ formatRadix 2 4 digit

def pushGroup (dstKey chunk : List Char) : Except Failure (List Char) := do
  let val ← expect (fromStrRadix (2 ^ 64) 2 chunk) "Invalid binary group"
  let circle := val / 52
  let index := val % 52
  let dstKey ← if circle > 0 then do
      let d ← dicAt dDic circle
      pure (dstKey ++ [d])
    else
      pure dstKey
  let a ← dicAt aDic index
  return dstKey ++ [a]

def en (digitStr : String) : Except Failure String := do
  let tmpKey0 ← digitStr.toList.foldlM pushDigit []
  let remainder := tmpKey0.length % 9
  let padLen := 9 - remainder
  let tmpKey1 := if remainder ≠ 0 then List.replicate padLen '0' ++ tmpKey0 else tmpKey0
  let header ← dicAt aDic (if remainder ≠ 0 then padLen else 0)
  let dstKey ← (chunks 9 tmpKey1).foldlM pushGroup [header]
  return String.ofList dstKey

end En

section De

/-- The loop of `de` over the characters that are left from position `i` on. -/
def readGroups (binaryStr : List Char) : List Char → Except Failure (List Char)
  | [] => .ok binaryStr
  | ch :: rest =>
      if ch.isDigit then
        match dicMap dDic ch, rest with
        | none, _ => .error (.sysError "Illegal digit character")
        | some _, [] => .error (.sysError "Digit num cannot be at the end")
        | some circle, aCh :: rest =>
            match dicMap aDic aCh with
            | none => .error (.sysError "Illegal alphabet character")
            | some index =>
                readGroups (binaryStr ++ formatRadix 2 9 (circle * 52 + index)) rest
      else
        match dicMap aDic ch with
        | none => .error (.sysError "Illegal alphabet character")
        | some index => readGroups (binaryStr ++ formatRadix 2 9 (0 * 52 + index)) rest

def pushNumber (result chunk : List Char) : Except Failure (List Char) := do
  let num ← expect (fromStrRadix (2 ^ 32) 2 chunk) "Invalid binary group"
  let ch ← expect (fromDigit 10 num) "Invalid number"
  return result ++ [ch]

def de (num62 : String) : Except Failure String :=
  match num62.toList with
  | [] => .error (.sysError "Too short to miss header")
  | header :: body => do
      let padLen ← okOrElse (dicMap aDic header) "Illegal alphabet character by header"
      let binaryStr ← readGroups [] body
      let result ← (chunks 4 (binaryStr.drop padLen)).foldlM pushNumber []
      return String.ofList result

end De

/-- The texts the grammar of `de` admits after the header, with the values of their groups. -/
inductive Spells : List Char → List Nat → Prop
  | done : Spells [] []
  | letter {a : Char} {index : Nat} {rest : List Char} {vals : List Nat}
      (known : aDic[index]? = some a) (later : Spells rest vals) :
      Spells (a :: rest) (index :: vals)
  | digit {d a : Char} {circle index : Nat} {rest : List Char} {vals : List Nat}
      (leading : dDic[circle]? = some d) (known : aDic[index]? = some a) (later : Spells rest vals) :
      Spells (d :: a :: rest) ((circle * 52 + index) :: vals)

/-- The bits `de` takes from a group: nine, or ten from 512 on. -/
def groupBits (val : Nat) : List Nat :=
  fixedDigits 2 (if val < 512 then 9 else 10) val

theorem dic_map_eq_some (dic : List Char) (distinct : dic.Nodup) (ch : Char) (i : Nat) :
    dicMap dic ch = some i ↔ dic[i]? = some ch := by
  rw [dicMap, List.idxOf?_eq_some_iff, List.getElem?_eq_some_iff]
  constructor
  · rintro ⟨bound, here, -⟩
    exact ⟨bound, by simpa using here⟩
  · rintro ⟨bound, here⟩
    refine ⟨bound, by simpa using here, ?_⟩
    intro j before same
    have equal := distinct.getElem_inj_iff.mp (same.trans here.symm)
    omega

theorem a_dic_nodup : aDic.Nodup := by decide

theorem d_dic_nodup : dDic.Nodup := by decide

theorem a_dic_letters : ∀ a ∈ aDic, a.isAlpha ∧ a.isDigit = false := by
  rw [← List.all_iff_forall_prop]
  decide

theorem d_dic_digits (ch : Char) : ch ∈ dDic ↔ ch.isDigit := by
  constructor
  · have table : ∀ d ∈ dDic, d.isDigit := by
      rw [← List.all_iff_forall_prop]
      decide
    exact table ch
  · intro digit
    have bounds : 48 ≤ ch.toNat ∧ ch.toNat ≤ 57 := by
      simpa [Char.isDigit, UInt32.le_iff_toNat_le] using digit
    have table : ∀ n ≤ 57, 48 ≤ n → Char.ofNat n ∈ dDic := by decide
    rw [← Char.ofNat_toNat ch]
    exact table _ bounds.2 bounds.1

theorem Spells.small {text : List Char} {vals : List Nat} (spells : Spells text vals) :
    ∀ val ∈ vals, val < 520 := by
  induction spells with
  | done => simp
  | letter known later ih =>
      have bound := (List.getElem?_eq_some_iff.mp known).1
      simp only [aDic, List.length_cons, List.length_nil] at bound
      simp only [List.forall_mem_cons]
      exact ⟨by omega, ih⟩
  | digit leading known later ih =>
      have bound := (List.getElem?_eq_some_iff.mp known).1
      have circles := (List.getElem?_eq_some_iff.mp leading).1
      simp only [aDic, dDic, List.length_cons, List.length_nil] at bound circles
      simp only [List.forall_mem_cons]
      exact ⟨by omega, ih⟩

theorem format_group (val : Nat) (small : val < 520) :
    formatRadix 2 9 val = (groupBits val).map Nat.digitChar := by
  simp only [groupBits]
  by_cases narrow : val < 512
  · rw [if_pos narrow, format_radix_eq 2 9 val (by omega) (by omega) narrow]
  · rw [if_neg narrow, format_radix_wide 2 9 val (by omega) (by omega) (by omega) (by omega)]

theorem format_groups (vals : List Nat) (small : ∀ val ∈ vals, val < 520) :
    vals.flatMap (formatRadix 2 9) = (vals.flatMap groupBits).map Nat.digitChar := by
  induction vals with
  | nil => rfl
  | cons val vals ih =>
      rw [List.forall_mem_cons] at small
      rw [List.flatMap_cons, List.flatMap_cons, List.map_append, format_group val small.1, ih small.2]

/-- A text of the grammar is read group by group. -/
theorem read_groups_spells {text : List Char} {vals : List Nat} (spells : Spells text vals)
    (binaryStr : List Char) :
    readGroups binaryStr text = .ok (binaryStr ++ vals.flatMap (formatRadix 2 9)) := by
  induction spells generalizing binaryStr with
  | done => simp [readGroups]
  | letter known later ih =>
      have member := List.mem_of_getElem? known
      have lookup := (dic_map_eq_some aDic a_dic_nodup _ _).mpr known
      rw [readGroups.eq_def]
      simp only [(a_dic_letters _ member).2, Bool.false_eq_true, if_false, lookup]
      rw [ih, Nat.zero_mul, Nat.zero_add, List.flatMap_cons, List.append_assoc]
  | digit leading known later ih =>
      have member := List.mem_of_getElem? leading
      have circle := (dic_map_eq_some dDic d_dic_nodup _ _).mpr leading
      have index := (dic_map_eq_some aDic a_dic_nodup _ _).mpr known
      rw [readGroups.eq_def]
      simp only [(d_dic_digits _).mp member, if_true, circle, index]
      rw [ih, List.flatMap_cons, List.append_assoc]

/-- A text outside the grammar is refused with an error. -/
theorem read_groups_refused (text : List Char) (refused : ¬ ∃ vals, Spells text vals)
    (binaryStr : List Char) : ∃ msg, readGroups binaryStr text = .error (.sysError msg) := by
  fun_induction readGroups binaryStr text with
  | case1 binaryStr => exact absurd ⟨[], .done⟩ refused
  | case2 => exact ⟨_, rfl⟩
  | case3 => exact ⟨_, rfl⟩
  | case4 => exact ⟨_, rfl⟩
  | case5 binaryStr ch digit circle aCh rest leading index known ih =>
      apply ih
      rintro ⟨vals, later⟩
      exact refused ⟨_, .digit ((dic_map_eq_some dDic d_dic_nodup _ _).mp leading)
        ((dic_map_eq_some aDic a_dic_nodup _ _).mp known) later⟩
  | case6 => exact ⟨_, rfl⟩
  | case7 binaryStr ch rest letter index known ih =>
      apply ih
      rintro ⟨vals, later⟩
      exact refused ⟨_, .letter ((dic_map_eq_some aDic a_dic_nodup _ _).mp known) later⟩

end Pigs.Utils.Dig62
