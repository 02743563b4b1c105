import Mathlib.Data.List.Nodup
import Mathlib.Tactic

/-! Pushing the elements of a list that are wanted and not there yet. -/

namespace Pigs.Lib

variable {A : Type*} [DecidableEq A]

/-- The loop that pushes each wanted element of `items` unless `seen` contains it. -/
def pushNew (wanted : A → Bool) (seen items : List A) : List A :=
  items.foldl (fun seen x => if wanted x && !seen.contains x then seen ++ [x] else seen) seen

theorem pushNew_skip (wanted : A → Bool) (seen : List A) (x : A) (items : List A)
    (skip : wanted x = true → x ∈ seen) : pushNew wanted seen (x :: items) = pushNew wanted seen items := by
  simp only [pushNew, List.foldl_cons]
  rw [if_neg]
  simpa using skip

theorem pushNew_take (wanted : A → Bool) (seen : List A) (x : A) (items : List A)
    (want : wanted x = true) (fresh : x ∉ seen) :
    pushNew wanted seen (x :: items) = pushNew wanted (seen ++ [x]) items := by
  simp only [pushNew, List.foldl_cons]
  rw [if_pos]
  simpa using ⟨want, fresh⟩

/-- What a pass over `items` adds behind `seen`. -/
structure Added (wanted : A → Bool) (seen items added : List A) : Prop where
  sublist : added.Sublist items
  mem : ∀ x, x ∈ added ↔ x ∈ items ∧ wanted x = true ∧ x ∉ seen
  nodup : added.Nodup
  order : added.Pairwise fun earlier later => items.idxOf earlier < items.idxOf later

theorem Added.skip {wanted : A → Bool} {seen items added : List A} {x : A}
    (rest : Added wanted seen items added) (skip : wanted x = true → x ∈ seen) :
    Added wanted seen (x :: items) added := by
  have other : ∀ y ∈ added, x ≠ y := by
    rintro y member rfl
    obtain ⟨_, want, fresh⟩ := (rest.mem x).mp member
    exact fresh (skip want)
  refine ⟨rest.sublist.cons x, ?_, rest.nodup, ?_⟩
  · intro y
    rw [rest.mem y, List.mem_cons]
    constructor
    · rintro ⟨member, want, fresh⟩
      exact ⟨Or.inr member, want, fresh⟩
    · rintro ⟨rfl | member, want, fresh⟩
      · exact absurd (skip want) fresh
      · exact ⟨member, want, fresh⟩
  · refine rest.order.imp_of_mem ?_
    intro first second memberFirst memberSecond below
    rw [List.idxOf_cons_ne _ (other first memberFirst), List.idxOf_cons_ne _ (other second memberSecond)]
    exact Nat.succ_lt_succ below

theorem Added.take {wanted : A → Bool} {seen items added : List A} {x : A}
    (rest : Added wanted (seen ++ [x]) items added) (want : wanted x = true) (fresh : x ∉ seen) :
    Added wanted seen (x :: items) (x :: added) := by
  have other : ∀ y ∈ added, x ≠ y := by
    rintro y member rfl
    exact ((rest.mem x).mp member).2.2 (by simp)
  have absent : x ∉ added := fun member => other x member rfl
  refine ⟨rest.sublist.cons_cons x, ?_, List.nodup_cons.mpr ⟨absent, rest.nodup⟩, ?_⟩
  · intro y
    rw [List.mem_cons, rest.mem y, List.mem_cons]
    by_cases same : y = x
    · subst same
      simp [want, fresh]
    · simp [same]
  · refine List.pairwise_cons.mpr ⟨?_, rest.order.imp_of_mem ?_⟩
    · intro y member
      rw [List.idxOf_cons_self, List.idxOf_cons_ne _ (other y member)]
      exact Nat.succ_pos _
    · intro first second memberFirst memberSecond below
      rw [List.idxOf_cons_ne _ (other first memberFirst), List.idxOf_cons_ne _ (other second memberSecond)]
      exact Nat.succ_lt_succ below

/-- The pass keeps what was there and adds the wanted elements by their first occurrence. -/
theorem pushNew_added (wanted : A → Bool) (seen items : List A) :
    ∃ added, pushNew wanted seen items = seen ++ added ∧ Added wanted seen items added := by
  induction items generalizing seen with
  | nil =>
      exact ⟨[], (List.append_nil seen).symm, List.Sublist.refl _, by simp, List.nodup_nil, .nil⟩
  | cons x items ih =>
      by_cases push : wanted x = true ∧ x ∉ seen
      · obtain ⟨added, whole, rest⟩ := ih (seen ++ [x])
        refine ⟨x :: added, ?_, rest.take push.1 push.2⟩
        rw [pushNew_take wanted seen x items push.1 push.2, whole, List.append_assoc, List.singleton_append]
      · have skip : wanted x = true → x ∈ seen := fun want => by
          by_contra fresh
          exact push ⟨want, fresh⟩
        obtain ⟨added, whole, rest⟩ := ih seen
        exact ⟨added, (pushNew_skip wanted seen x items skip).trans whole, rest.skip skip⟩

end Pigs.Lib
