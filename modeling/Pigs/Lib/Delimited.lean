import Mathlib.Tactic

/-! Self-delimiting encodings: what is encoded can be read off the front of a stream. -/

namespace Pigs.Lib

variable {α β : Type*}

def Delimited (good : α → Prop) (encode : α → List β) : Prop :=
  ∀ a b, good a → good b → ∀ s t, encode a ++ s = encode b ++ t → a = b ∧ s = t

/-- A stream of self-delimiting codes determines the list of what was encoded. -/
theorem Delimited.flatMap_injective {good : α → Prop} {encode : α → List β}
    (delimited : Delimited good encode) (nonempty : ∀ a, good a → encode a ≠ [])
    (l m : List α) (goodL : ∀ a ∈ l, good a) (goodM : ∀ a ∈ m, good a)
    (same : l.flatMap encode = m.flatMap encode) : l = m := by
  induction l generalizing m with
  | nil =>
      cases m with
      | nil => rfl
      | cons b m =>
          have empty : encode b = [] := by
            simp only [List.flatMap_nil, List.flatMap_cons] at same
            exact (List.append_eq_nil_iff.mp same.symm).1
          exact absurd empty (nonempty b (goodM b List.mem_cons_self))
  | cons a l ih =>
      have goodA := goodL a List.mem_cons_self
      cases m with
      | nil =>
          have empty : encode a = [] := by
            simp only [List.flatMap_nil, List.flatMap_cons] at same
            exact (List.append_eq_nil_iff.mp same).1
          exact absurd empty (nonempty a goodA)
      | cons b m =>
          obtain ⟨rfl, rest⟩ := delimited a b goodA (goodM b List.mem_cons_self) _ _
            (by simpa only [List.flatMap_cons] using same)
          rw [ih m (fun x member => goodL x (List.mem_cons_of_mem _ member))
            (fun x member => goodM x (List.mem_cons_of_mem _ member)) rest]

end Pigs.Lib
