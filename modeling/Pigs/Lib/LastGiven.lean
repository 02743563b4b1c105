import Mathlib.Data.List.Induction

/-! Options that a list of settings may give any number of times: the last one counts. -/

namespace Pigs.Lib

variable {S A V E : Type*}

def lastGiven (given : A → Option V) (items : List A) : Option V := (items.filterMap given).getLast?

@[simp] theorem lastGiven_nil (given : A → Option V) : lastGiven given [] = none := rfl

theorem lastGiven_concat (given : A → Option V) (items : List A) (item : A) :
    lastGiven given (items ++ [item]) = (given item).or (lastGiven given items) := by
  cases found : given item with
  | none => simp [lastGiven, found]
  | some value => simp [lastGiven, found]

/-- A field that every setting overwrites or leaves holds the last value that was given. -/
theorem foldl_lastGiven (apply : S → A → S) (field : S → Option V) (given : A → Option V)
    (overwrites : ∀ state item, field (apply state item) = (given item).or (field state)) (state : S)
    (items : List A) :
    field (items.foldl apply state) = (lastGiven given items).or (field state) := by
  induction items using List.reverseRecOn with
  | nil => rfl
  | append_singleton items item ih =>
      rw [List.foldl_append, List.foldl_cons, List.foldl_nil, overwrites, ih, lastGiven_concat, Option.or_assoc]

/-- A fold whose steps either complain or go on stops at the first complaint. -/
theorem foldlM_findSome (step : S → A → Except E S) (apply : S → A → S) (complaint : A → Option E)
    (one : ∀ state item, step state item =
      match complaint item with
      | some error => .error error
      | none => .ok (apply state item)) (state : S) (items : List A) :
    items.foldlM step state =
      match items.findSome? complaint with
      | some error => .error error
      | none => .ok (items.foldl apply state) := by
  induction items generalizing state with
  | nil => rfl
  | cons item items ih =>
      rw [List.foldlM_cons, one, List.findSome?_cons]
      cases complaint item with
      | some error => rfl
      | none => exact ih (apply state item)

end Pigs.Lib
