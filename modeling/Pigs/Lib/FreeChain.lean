import Mathlib.Tactic
import Mathlib.Data.List.FinRange

/-! Index-linked free lists: `n` cells, each with the index of the next free cell,
closed by the out-of-range index `n`. -/

namespace Pigs.Lib

variable {n : Nat}

/-- `cells` are the cells met on the way from index `head` to the end mark `n`. -/
def FreeChain (next : Fin n → Nat) : Nat → List (Fin n) → Prop
  | head, [] => head = n
  | head, cell :: cells => head = cell.val ∧ FreeChain next (next cell) cells

namespace FreeChain

theorem congr (first second : Fin n → Nat) (head : Nat) (cells : List (Fin n))
    (agree : ∀ cell ∈ cells, first cell = second cell) (chain : FreeChain first head cells) :
    FreeChain second head cells := by
  induction cells generalizing head with
  | nil => exact chain
  | cons cell cells ih =>
      refine ⟨chain.1, ?_⟩
      rw [← agree cell (List.mem_cons_self)]
      exact ih (first cell) (fun c member => agree c (List.mem_cons_of_mem cell member)) chain.2

theorem push (next : Fin n → Nat) (head : Nat) (cells : List (Fin n)) (cell : Fin n)
    (fresh : cell ∉ cells) (chain : FreeChain next head cells) :
    FreeChain (Function.update next cell head) cell.val (cell :: cells) := by
  refine ⟨rfl, ?_⟩
  rw [Function.update_self]
  apply congr next _ head cells _ chain
  intro c member
  rw [Function.update_of_ne]
  intro equal
  subst equal
  exact fresh member

theorem of_head_ge (next : Fin n → Nat) (head : Nat) (cells : List (Fin n))
    (chain : FreeChain next head cells) (outside : n ≤ head) : cells = [] := by
  cases cells with
  | nil => rfl
  | cons cell cells =>
      have bound := cell.isLt
      have eq := chain.1
      omega

theorem of_head_lt (next : Fin n → Nat) (head : Nat) (cells : List (Fin n))
    (chain : FreeChain next head cells) (inside : head < n) :
    ∃ rest, cells = ⟨head, inside⟩ :: rest ∧ FreeChain next (next ⟨head, inside⟩) rest := by
  cases cells with
  | nil => exact absurd chain (Nat.ne_of_lt inside)
  | cons cell rest =>
      have eq : cell = ⟨head, inside⟩ := Fin.ext chain.1.symm
      subst eq
      exact ⟨rest, rfl, chain.2⟩

private theorem drop_finRange (next : Fin n → Nat) (linked : ∀ cell, next cell = cell.val + 1)
    (k : Nat) (bound : k ≤ n) : FreeChain next (n - k) ((List.finRange n).drop (n - k)) := by
  induction k with
  | zero =>
      have past : (List.finRange n).drop n = [] := List.drop_of_length_le (by simp)
      rw [Nat.sub_zero, past]
      rfl
  | succ k ih =>
      have inside : n - (k + 1) < (List.finRange n).length := by simp; omega
      rw [List.drop_eq_getElem_cons inside]
      refine ⟨by simp, ?_⟩
      have advance : n - (k + 1) + 1 = n - k := by omega
      rw [linked, List.getElem_finRange]
      simpa [advance] using ih (by omega)

/-- Cells linked in index order form one chain through the whole table. -/
theorem finRange (next : Fin n → Nat) (linked : ∀ cell, next cell = cell.val + 1) :
    FreeChain next 0 (List.finRange n) := by
  simpa using drop_finRange next linked n le_rfl

end FreeChain

end Pigs.Lib
