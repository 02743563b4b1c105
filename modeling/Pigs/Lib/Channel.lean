import Mathlib.Tactic

/-! Bounded first-in first-out channels. -/

namespace Pigs.Lib

variable {Item : Type*} {capacity : Nat}

structure Channel (Item : Type*) (capacity : Nat) where
  queue : List Item
  bounded : queue.length ≤ capacity

namespace Channel

def empty : Channel Item capacity := ⟨[], Nat.zero_le capacity⟩

/-- `none` is the error of a full channel. -/
def trySend (c : Channel Item capacity) (item : Item) : Option (Channel Item capacity) :=
  if room : c.queue.length < capacity then
    some ⟨c.queue ++ [item], by simpa using room⟩
  else
    none

/-- `none` is a channel with nothing to receive. -/
def tryRecv (c : Channel Item capacity) : Option (Item × Channel Item capacity) :=
  match shape : c.queue with
  | [] => none
  | item :: rest => some (item, ⟨rest, by
      have bounded := c.bounded
      rw [shape, List.length_cons] at bounded
      omega⟩)

@[simp] theorem queue_empty : (empty : Channel Item capacity).queue = [] := rfl

theorem trySend_queue (c d : Channel Item capacity) (item : Item) (sent : c.trySend item = some d) :
    d.queue = c.queue ++ [item] := by
  rw [trySend] at sent
  split at sent
  · cases sent
    rfl
  · cases sent

theorem trySend_eq_none_iff (c : Channel Item capacity) (item : Item) :
    c.trySend item = none ↔ c.queue.length = capacity := by
  have bounded := c.bounded
  rw [trySend]
  split
  · simp only [reduceCtorEq, false_iff]
    omega
  · simp only [true_iff]
    omega

theorem tryRecv_queue (c d : Channel Item capacity) (item : Item)
    (received : c.tryRecv = some (item, d)) : c.queue = item :: d.queue := by
  rw [tryRecv] at received
  split at received
  · cases received
  · rename_i shape
    cases received
    exact shape

/-- What the channel accepted is what it gave out and then what it holds. -/
def Carries (c : Channel Item capacity) (accepted received : List Item) : Prop :=
  accepted = received ++ c.queue

theorem Carries.empty : (empty : Channel Item capacity).Carries [] [] := rfl

theorem Carries.trySend {c d : Channel Item capacity} {accepted received : List Item} {item : Item}
    (carries : c.Carries accepted received) (sent : c.trySend item = some d) :
    d.Carries (accepted ++ [item]) received := by
  have same : accepted = received ++ c.queue := carries
  rw [Carries, trySend_queue c d item sent, same, List.append_assoc]

theorem Carries.tryRecv {c d : Channel Item capacity} {accepted received : List Item} {item : Item}
    (carries : c.Carries accepted received) (taken : c.tryRecv = some (item, d)) :
    d.Carries accepted (received ++ [item]) := by
  have same : accepted = received ++ c.queue := carries
  rw [Carries, same, tryRecv_queue c d item taken, List.append_assoc]
  rfl

/-- In order, once each, and nothing else. -/
theorem Carries.received_isPrefix {c : Channel Item capacity} {accepted received : List Item}
    (carries : c.Carries accepted received) : received <+: accepted :=
  ⟨c.queue, Eq.symm carries⟩

end Channel

end Pigs.Lib
