import Mathlib.Data.List.Nodup
import Mathlib.Logic.Function.Basic
import Mathlib.Tactic

/-! Counting the members of a list by a status that each of them has. -/

namespace Pigs.Lib

variable {K S : Type*} [DecidableEq K]

def tally (status : K → S) (p : S → Bool) (keys : List K) : Nat :=
  keys.countP fun key => p (status key)

variable (status : K → S) (p : S → Bool)

omit [DecidableEq K] in
theorem tally_cons (key : K) (keys : List K) :
    tally status p (key :: keys) = tally status p keys + if p (status key) then 1 else 0 :=
  List.countP_cons

omit [DecidableEq K] in
theorem tally_concat (keys : List K) (key : K) :
    tally status p (keys ++ [key]) = tally status p keys + if p (status key) then 1 else 0 := by
  rw [tally, List.countP_append, List.countP_singleton]
  rfl

variable {keys : List K}

theorem tally_update_of_not_mem (key : K) (now : S) (absent : key ∉ keys) :
    tally (Function.update status key now) p keys = tally status p keys := by
  apply List.countP_congr
  intro other member
  have ne : other ≠ key := by
    intro same
    subst same
    exact absent member
  rw [Function.update_of_ne ne]

/-- A new member. -/
theorem tally_concat_update (key : K) (now : S) (absent : key ∉ keys) :
    tally (Function.update status key now) p (keys ++ [key]) =
      tally status p keys + if p now then 1 else 0 := by
  rw [tally_concat, tally_update_of_not_mem status p key now absent, Function.update_self]

/-- One member changes its status. -/
theorem tally_update (once : keys.Nodup) (key : K) (now : S) (member : key ∈ keys) :
    tally (Function.update status key now) p keys + (if p (status key) then 1 else 0) =
      tally status p keys + if p now then 1 else 0 := by
  induction keys with
  | nil => cases member
  | cons head tail ih =>
      obtain ⟨fresh, once⟩ := List.nodup_cons.mp once
      rw [tally_cons, tally_cons]
      rcases List.mem_cons.mp member with rfl | later
      · rw [tally_update_of_not_mem status p key now fresh, Function.update_self]
        omega
      · have ne : head ≠ key := by
          intro same
          subst same
          exact fresh later
        have rest := ih once later
        rw [Function.update_of_ne ne]
        omega

theorem filter_update_of_not_mem (key : K) (now : S) (absent : key ∉ keys) :
    (keys.filter fun other => p (Function.update status key now other)) =
      keys.filter fun other => p (status other) := by
  apply List.filter_congr
  intro other member
  have ne : other ≠ key := by
    intro same
    subst same
    exact absent member
  rw [Function.update_of_ne ne]

/-- A key whose status changes within a class keeps its place in it. -/
theorem filter_update_same (key : K) (now : S) (same : p now = p (status key)) :
    (keys.filter fun other => p (Function.update status key now other)) =
      keys.filter fun other => p (status other) := by
  apply List.filter_congr
  intro other _
  by_cases here : other = key
  · subst here
    rw [Function.update_self, same]
  · rw [Function.update_of_ne here]

/-- A key that leaves a class is filtered out. -/
theorem filter_update_leave (key : K) (now : S) (leaves : p now = false) :
    (keys.filter fun other => p (Function.update status key now other)) =
      (keys.filter fun other => p (status other)).filter fun other => other ≠ key := by
  rw [List.filter_filter]
  apply List.filter_congr
  intro other _
  by_cases here : other = key
  · subst here
    simp [leaves]
  · simp [here]

end Pigs.Lib
