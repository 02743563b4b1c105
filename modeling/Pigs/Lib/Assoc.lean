import Mathlib.Data.List.Nodup

/-! Association lists with one entry for each key, as the tables that programs keep. -/

namespace Pigs.Lib

variable {Key Value : Type} [DecidableEq Key]

theorem lookup_snoc_of_some (table : List (Key × Value)) (entry : Key × Value) (key : Key) (value : Value)
    (found : table.lookup key = some value) : (table ++ [entry]).lookup key = some value := by
  rw [List.lookup_append, found]
  rfl

theorem lookup_snoc_self (table : List (Key × Value)) (key : Key) (value : Value)
    (absent : table.lookup key = none) : (table ++ [(key, value)]).lookup key = some value := by
  rw [List.lookup_append, absent, List.lookup_cons_self]
  rfl

theorem lookup_snoc_other (table : List (Key × Value)) (key other : Key) (value : Value)
    (apart : other ≠ key) : (table ++ [(key, value)]).lookup other = table.lookup other := by
  rw [List.lookup_append, List.lookup_cons, beq_eq_false_iff_ne.mpr apart, List.lookup_nil, Option.or_none]

theorem lookup_without_self (table : List (Key × Value)) (key : Key) :
    (table.filter fun entry => entry.1 ≠ key).lookup key = none := by
  rw [List.lookup_eq_none_iff]
  intro entry member
  simpa using Ne.symm (of_decide_eq_true (List.mem_filter.mp member).2)

theorem lookup_without_other (table : List (Key × Value)) (key other : Key) (apart : other ≠ key) :
    (table.filter fun entry => entry.1 ≠ key).lookup other = table.lookup other := by
  induction table with
  | nil => rfl
  | cons first table ih =>
      obtain ⟨name, value⟩ := first
      by_cases here : name = key
      · rw [List.filter_cons_of_neg (by simpa using here), ih, List.lookup_cons,
          beq_eq_false_iff_ne.mpr (fun same => apart (same.trans here))]
      · rw [List.filter_cons_of_pos (by simpa using here), List.lookup_cons, List.lookup_cons, ih]

theorem lookup_without_iff (table : List (Key × Value)) (key other : Key) (value : Value) :
    (table.filter fun entry => entry.1 ≠ key).lookup other = some value ↔
      other ≠ key ∧ table.lookup other = some value := by
  by_cases here : other = key
  · rw [here, lookup_without_self]
    simp
  · rw [lookup_without_other _ _ _ here]
    simp [here]

theorem lookup_iff_mem (table : List (Key × Value)) (keys : (table.map Prod.fst).Nodup) (key : Key)
    (value : Value) : table.lookup key = some value ↔ (key, value) ∈ table := by
  induction table with
  | nil => simp
  | cons first table ih =>
      obtain ⟨name, called⟩ := first
      simp only [List.map_cons, List.nodup_cons] at keys
      rw [List.lookup_cons, List.mem_cons, Prod.mk.injEq]
      by_cases here : key = name
      · subst here
        simp only [beq_self_eq_true, true_and]
        constructor
        · intro same
          exact .inl (Option.some.inj same).symm
        · rintro (rfl | later)
          · rfl
          · exact absurd (List.mem_map.mpr ⟨_, later, rfl⟩) keys.1
      · rw [beq_eq_false_iff_ne.mpr here]
        simp only [here, false_and, false_or]
        exact ih keys.2

theorem not_mem_of_lookup (table : List (Key × Value)) (key : Key) (absent : table.lookup key = none) :
    key ∉ table.map Prod.fst := by
  intro member
  obtain ⟨entry, present, rfl⟩ := List.mem_map.mp member
  have other := List.lookup_eq_none_iff.mp absent entry present
  simp at other

theorem lookup_zip_map {Other : Type} [BEq Other] [LawfulBEq Other] (rename : Key → Other) (keys : List Key)
    (values : List Value) (key : Key) (apart : ∀ other ∈ keys, rename other = rename key → other = key) :
    ((keys.map rename).zip values).lookup (rename key) = (keys.zip values).lookup key := by
  induction keys generalizing values with
  | nil => rfl
  | cons first keys ih =>
      cases values with
      | nil => rfl
      | cons value values =>
          have rest := ih values fun other member => apart other (List.mem_cons_of_mem _ member)
          rw [List.map_cons, List.zip_cons_cons, List.zip_cons_cons, List.lookup_cons, List.lookup_cons, rest]
          by_cases here : key = first
          · rw [here, beq_self_eq_true, beq_self_eq_true]
          · have there : rename key ≠ rename first := fun same =>
              here (apart first List.mem_cons_self same.symm).symm
            rw [beq_eq_false_iff_ne.mpr here, beq_eq_false_iff_ne.mpr there]

theorem lookup_zip_isSome (keys : List Key) (values : List Value) (lengths : values.length = keys.length)
    (key : Key) : ((keys.zip values).lookup key).isSome ↔ key ∈ keys := by
  induction keys generalizing values with
  | nil => simp
  | cons first keys ih =>
      cases values with
      | nil => cases lengths
      | cons value values =>
          rw [List.zip_cons_cons, List.lookup_cons]
          by_cases here : key = first
          · simp [here]
          · rw [beq_eq_false_iff_ne.mpr here, List.mem_cons, or_iff_right here]
            exact ih values (Nat.succ.inj lengths)

end Pigs.Lib
