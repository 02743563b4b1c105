import Mathlib.Data.List.TakeWhile
import Mathlib.Tactic

/-! The last occurrence of a pattern in a list, and what lies behind the last occurrence of a separator. -/

namespace Pigs.Lib

variable {α : Type*} [DecidableEq α]

def rfind (pattern : List α) : List α → Option Nat
  | [] => none
  | first :: rest =>
      match rfind pattern rest with
      | some index => some (index + 1)
      | none => if pattern.isPrefixOf (first :: rest) then some 0 else none

/-- `front` ends where the pattern begins for the last time. -/
structure LastSplit (pattern text front back : List α) : Prop where
  whole : text = front ++ pattern ++ back
  last : ∀ other tail, text = other ++ pattern ++ tail → other.length ≤ front.length

theorem rfind_none (pattern text : List α) (nonempty : pattern ≠ []) (absent : rfind pattern text = none) :
    ∀ front back, text ≠ front ++ pattern ++ back := by
  induction text with
  | nil =>
      intro front back whole
      have empty := congrArg List.length whole
      simp only [List.length_nil, List.length_append] at empty
      exact nonempty (List.length_eq_zero_iff.mp (by omega))
  | cons first rest ih =>
      simp only [rfind] at absent
      split at absent
      case h_1 => cases absent
      case h_2 none =>
        split_ifs at absent with here
        intro front back whole
        cases front with
        | nil => exact here (List.isPrefixOf_iff_prefix.mpr ⟨back, whole.symm⟩)
        | cons head front =>
            obtain ⟨-, tail⟩ := List.cons_eq_cons.mp whole
            exact ih none front back tail

theorem rfind_some (pattern text : List α) (nonempty : pattern ≠ []) (index : Nat)
    (found : rfind pattern text = some index) :
    ∃ front back, LastSplit pattern text front back ∧ front.length = index := by
  induction text generalizing index with
  | nil => cases found
  | cons first rest ih =>
      simp only [rfind] at found
      split at found
      case h_1 earlier later =>
        cases found
        obtain ⟨front, back, split, length⟩ := ih earlier later
        refine ⟨first :: front, back, ⟨congrArg (first :: ·) split.whole, ?_⟩, congrArg (· + 1) length⟩
        intro other tail whole
        cases other with
        | nil => exact Nat.zero_le _
        | cons head other =>
            obtain ⟨-, same⟩ := List.cons_eq_cons.mp whole
            exact Nat.succ_le_succ (split.last other tail same)
      case h_2 none =>
        split_ifs at found with here
        cases found
        obtain ⟨back, whole⟩ := List.isPrefixOf_iff_prefix.mp here
        refine ⟨[], back, ⟨whole.symm, ?_⟩, rfl⟩
        intro other tail same
        cases other with
        | nil => exact Nat.le_refl _
        | cons head other =>
            obtain ⟨-, later⟩ := List.cons_eq_cons.mp same
            exact absurd later (rfind_none pattern rest nonempty none other tail)

omit [DecidableEq α] in
theorem LastSplit.unique {pattern text front back other tail : List α}
    (first : LastSplit pattern text front back) (second : LastSplit pattern text other tail) :
    front = other ∧ back = tail := by
  have same : front.length = other.length :=
    Nat.le_antisymm (second.last front back first.whole) (first.last other tail second.whole)
  have wholes := first.whole.symm.trans second.whole
  rw [List.append_assoc, List.append_assoc] at wholes
  obtain ⟨fronts, backs⟩ := List.append_inj wholes same
  exact ⟨fronts, List.append_cancel_left backs⟩

theorem rfind_add_length_le (pattern text : List α) (nonempty : pattern ≠ []) (index : Nat)
    (found : rfind pattern text = some index) : index + pattern.length ≤ text.length := by
  obtain ⟨front, back, split, rfl⟩ := rfind_some pattern text nonempty index found
  rw [split.whole, List.length_append, List.length_append]
  exact Nat.le_add_right _ _

/-- What lies behind the last separator, or all of it. -/
def lastSegment (separator : α) (text : List α) : List α := (text.reverse.takeWhile (· ≠ separator)).reverse

theorem separator_not_mem_lastSegment (separator : α) (text : List α) :
    separator ∉ lastSegment separator text := by
  intro member
  rw [lastSegment, List.mem_reverse] at member
  have other := List.mem_takeWhile_imp member
  simp at other

theorem lastSegment_suffix (separator : α) (text : List α) : lastSegment separator text <:+ text := by
  have front := List.takeWhile_prefix (l := text.reverse) (p := (· ≠ separator))
  rw [← List.reverse_suffix, List.reverse_reverse] at front
  exact front

theorem lastSegment_of_not_mem (separator : α) (text : List α) (absent : separator ∉ text) :
    lastSegment separator text = text := by
  have all : text.reverse.takeWhile (· ≠ separator) = text.reverse := by
    rw [List.takeWhile_eq_self_iff]
    intro symbol member
    rw [List.mem_reverse] at member
    simp only [decide_eq_true_eq]
    rintro rfl
    exact absent member
  rw [lastSegment, all, List.reverse_reverse]

theorem lastSegment_append (separator : α) (front back : List α) (absent : separator ∉ back) :
    lastSegment separator (front ++ separator :: back) = back := by
  have all : ∀ symbol ∈ back.reverse, decide (symbol ≠ separator) = true := by
    intro symbol member
    rw [List.mem_reverse] at member
    simp only [decide_eq_true_eq]
    rintro rfl
    exact absent member
  rw [lastSegment, List.reverse_append, List.reverse_cons, List.append_assoc,
    List.takeWhile_append_of_pos all]
  simp

/-- Behind the index that `rfind` gives for a separator lies the last segment. -/
theorem drop_rfind (separator : α) (text : List α) :
    text.drop ((rfind [separator] text).elim 0 (· + 1)) = lastSegment separator text := by
  cases found : rfind [separator] text with
  | none =>
      have absent : separator ∉ text := by
        intro member
        obtain ⟨front, back, whole⟩ := List.append_of_mem member
        exact rfind_none [separator] text (by simp) found front back (by simpa using whole)
      rw [lastSegment_of_not_mem separator text absent]
      rfl
  | some index =>
      obtain ⟨front, back, split, rfl⟩ := rfind_some [separator] text (by simp) index found
      have absent : separator ∉ back := by
        intro member
        obtain ⟨before, tail, rfl⟩ := List.append_of_mem member
        have further := split.last (front ++ [separator] ++ before) tail (by simp [split.whole])
        simp only [List.length_append, List.length_singleton] at further
        omega
      have whole : text = (front ++ [separator]) ++ back := split.whole
      have length : (front ++ [separator]).length = front.length + 1 := List.length_append
      calc
        _ = text.drop (front ++ [separator]).length := by rw [length]; rfl
        _ = back := by rw [whole, List.drop_left]
        _ = lastSegment separator text := by
          rw [whole, List.append_assoc]
          exact (lastSegment_append separator front back absent).symm

end Pigs.Lib
