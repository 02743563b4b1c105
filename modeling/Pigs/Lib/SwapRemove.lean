import Mathlib.Tactic
import Mathlib.Data.List.Perm.Basic

/-! Removal from a vector by overwriting the removed cell with the last one. -/

namespace Pigs.Lib

variable {α : Type*}

/-- Cell `pos` takes the last element and the vector loses its last cell; a position
past the end leaves only the shortened vector. -/
def swapRemove (l : List α) (pos : Nat) : List α :=
  match l.getLast? with
  | none => l
  | some last => (l.set pos last).dropLast

theorem swapRemove_append_singleton (l : List α) (last : α) (pos : Nat) :
    swapRemove (l ++ [last]) pos = ((l ++ [last]).set pos last).dropLast := by
  simp [swapRemove]

theorem swapRemove_perm_eraseIdx (l : List α) (pos : Nat) (bound : pos < l.length) :
    (swapRemove l pos).Perm (l.eraseIdx pos) := by
  induction l using List.reverseRecOn with
  | nil => simp at bound
  | append_singleton front last _ =>
      rw [swapRemove_append_singleton]
      by_cases inside : pos < front.length
      · rw [List.set_append_left _ _ inside, List.dropLast_concat,
          List.eraseIdx_append_of_lt_length inside]
        rw [List.set_eq_take_append_cons_drop, if_pos inside,
          List.eraseIdx_eq_take_drop_succ, List.append_assoc]
        exact List.Perm.append_left _ (List.perm_append_singleton last _).symm
      · have atEnd : pos = front.length := by
          simp only [List.length_append, List.length_cons, List.length_nil] at bound
          omega
        subst atEnd
        simp [List.eraseIdx_append_of_length_le]

theorem swapRemove_perm_erase [DecidableEq α] (l : List α) (a : α) (member : a ∈ l) :
    (swapRemove l (l.idxOf a)).Perm (l.erase a) := by
  rw [List.erase_eq_eraseIdx_of_idxOf rfl]
  exact swapRemove_perm_eraseIdx l (l.idxOf a) (List.idxOf_lt_length_iff.mpr member)

end Pigs.Lib
