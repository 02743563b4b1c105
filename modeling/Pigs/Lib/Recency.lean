import Mathlib.Tactic
import Mathlib.Data.List.Nodup

/-! Keyed lists in order of last insertion: a new item displaces the one with its key and
goes to the end. -/

namespace Pigs.Lib

variable {α κ : Type*} [DecidableEq κ] (key : α → κ)

def dropKeyed (k : κ) (l : List α) : List α := l.filter fun x => key x ≠ k

def putLast (x : α) (l : List α) : List α := dropKeyed key (key x) l ++ [x]

def findKeyed (k : κ) (l : List α) : Option α := l.find? fun x => key x = k

variable {key}

@[simp] theorem mem_dropKeyed (k : κ) (l : List α) (y : α) :
    y ∈ dropKeyed key k l ↔ y ∈ l ∧ key y ≠ k := by
  simp [dropKeyed]

@[simp] theorem mem_putLast (x : α) (l : List α) (y : α) :
    y ∈ putLast key x l ↔ (y ∈ l ∧ key y ≠ key x) ∨ y = x := by
  simp [putLast]

theorem nodup_dropKeyed (k : κ) (l : List α) (distinct : (l.map key).Nodup) :
    ((dropKeyed key k l).map key).Nodup :=
  (List.filter_sublist.map key).nodup distinct

theorem nodup_putLast (x : α) (l : List α) (distinct : (l.map key).Nodup) :
    ((putLast key x l).map key).Nodup := by
  rw [putLast, List.map_append, List.nodup_append]
  refine ⟨nodup_dropKeyed (key x) l distinct, by simp, ?_⟩
  intro a member b single
  rcases List.mem_map.mp member with ⟨y, inside, rfl⟩
  obtain rfl : b = key x := by simpa using single
  exact ((mem_dropKeyed (key x) l y).mp inside).2

theorem findKeyed_dropKeyed_self (k : κ) (l : List α) : findKeyed key k (dropKeyed key k l) = none := by
  simp [findKeyed, dropKeyed]

theorem findKeyed_dropKeyed_of_ne (k other : κ) (l : List α) (ne : other ≠ k) :
    findKeyed key other (dropKeyed key k l) = findKeyed key other l := by
  simp only [findKeyed, dropKeyed, List.find?_filter]
  congr 1
  funext x
  by_cases same : key x = other
  · simp [same, ne]
  · simp [same]

theorem findKeyed_putLast_self (x : α) (l : List α) : findKeyed key (key x) (putLast key x l) = some x := by
  have gone : (dropKeyed key (key x) l).find? (fun y => key y = key x) = none :=
    findKeyed_dropKeyed_self (key x) l
  simp [findKeyed, putLast, gone]

theorem findKeyed_putLast_of_ne (x : α) (l : List α) (other : κ) (ne : other ≠ key x) :
    findKeyed key other (putLast key x l) = findKeyed key other l := by
  have rest : (dropKeyed key (key x) l).find? (fun y => key y = other) = findKeyed key other l :=
    findKeyed_dropKeyed_of_ne (key x) other l ne
  simp [findKeyed, putLast, rest, ne.symm]

/-- With distinct keys, lookup answers membership. -/
theorem findKeyed_eq_some_iff (k : κ) (l : List α) (distinct : (l.map key).Nodup) (x : α) :
    findKeyed key k l = some x ↔ x ∈ l ∧ key x = k := by
  constructor
  · intro found
    exact ⟨List.mem_of_find?_eq_some found, by simpa using List.find?_some found⟩
  · intro found
    rcases found with ⟨member, rfl⟩
    cases found : findKeyed key (key x) l with
    | none =>
        have missed := List.find?_eq_none.mp found x member
        simp at missed
    | some y =>
        have same : key y = key x := by simpa using List.find?_some found
        rw [List.inj_on_of_nodup_map distinct (List.mem_of_find?_eq_some found) member same]

theorem findKeyed_eq_none_iff (k : κ) (l : List α) :
    findKeyed key k l = none ↔ ∀ x ∈ l, key x ≠ k := by
  simp [findKeyed]

/-! A group of keys keeps its own order. -/

theorem filter_dropKeyed (group : κ → Bool) (k : κ) (l : List α) :
    (dropKeyed key k l).filter (fun x => group (key x)) =
      dropKeyed key k (l.filter fun x => group (key x)) := by
  simp only [dropKeyed, List.filter_filter]
  congr 1
  funext x
  exact Bool.and_comm _ _

theorem dropKeyed_sublist (k : κ) (l : List α) : (dropKeyed key k l).Sublist l :=
  List.filter_sublist

theorem putLast_sublist (x : α) (l history : List α) (sub : l.Sublist history) :
    (putLast key x l).Sublist (history ++ [x]) :=
  ((dropKeyed_sublist (key x) l).trans sub).append (List.Sublist.refl [x])

/-- A sublist of a list without repetitions is what its members are filtered to. -/
theorem filter_mem_of_sublist {β : Type*} [DecidableEq β] {l history : List β}
    (sub : l.Sublist history) (distinct : history.Nodup) : history.filter (· ∈ l) = l := by
  have kept : l.filter (· ∈ l) = l := by simp
  have inside : l.Sublist (history.filter (· ∈ l)) := by
    have filtered := sub.filter (· ∈ l)
    rwa [kept] at filtered
  have subset : history.filter (· ∈ l) ⊆ l := fun x member => by
    simpa using (List.mem_filter.mp member).2
  have size := ((distinct.filter (· ∈ l)).subperm subset).length_le
  exact (inside.eq_of_length_le size).symm

end Pigs.Lib
