import Pigs.Cache.C100k.Wheel

/-! The batches that a shard hands to its event channel: none is empty, none is over `BATCH`, and
between two operations nothing waits in the open batch. -/

namespace Pigs.Cache.C100k

namespace Shard

variable {K : Type} {cap : Nat}

structure Batched (s : Shard K cap) : Prop where
  room : s.batch.length < BATCH
  sized : ∀ batch ∈ s.sent, batch ≠ [] ∧ batch.length ≤ BATCH

/-- What every piece of the shard does to its batches. -/
structure Hands (s t : Shard K cap) : Prop where
  sent : s.sent <+: t.sent
  batched : s.Batched → t.Batched

theorem Batched.new : (Shard.new K cap).Batched where
  room := Nat.zero_lt_of_lt (show 0 < BATCH by decide)
  sized batch member := absurd member List.not_mem_nil

/-- Closing a nonempty batch that is not over the limit. -/
theorem Batched.flush (s : Shard K cap) (nonempty : s.batch ≠ []) (bounded : s.batch.length ≤ BATCH)
    (sized : ∀ batch ∈ s.sent, batch ≠ [] ∧ batch.length ≤ BATCH) : s.flush.Batched where
  room := Nat.zero_lt_of_lt (show 0 < BATCH by decide)
  sized batch member := by
    rcases List.mem_append.mp member with earlier | last
    · exact sized batch earlier
    · rw [List.mem_singleton.mp last]
      exact ⟨nonempty, bounded⟩

namespace Hands

theorem refl (s : Shard K cap) : Hands s s := ⟨List.prefix_rfl, id⟩

theorem trans {s t u : Shard K cap} (first : Hands s t) (second : Hands t u) : Hands s u :=
  ⟨first.sent.trans second.sent, second.batched ∘ first.batched⟩

theorem of_eq {s t : Shard K cap} (batch : t.batch = s.batch) (sent : t.sent = s.sent) : Hands s t where
  sent := by rw [sent]
  batched before := ⟨by rw [batch]; exact before.room, by rw [sent]; exact before.sized⟩

theorem pushEvent (s : Shard K cap) (event : CacheEvent K) : Hands s (s.pushEvent event) := by
  have longer : (s.batch ++ [event]).length = s.batch.length + 1 := List.length_append
  rw [Shard.pushEvent]
  split
  · constructor
    · exact List.prefix_append _ _
    · intro before
      apply Batched.flush
      · exact List.append_ne_nil_of_right_ne_nil _ (List.cons_ne_nil _ _)
      · have room := before.room
        rw [longer]
        omega
      · exact before.sized
  · rename_i open_
    constructor
    · exact List.prefix_rfl
    · intro before
      exact ⟨Nat.lt_of_not_le open_, before.sized⟩

theorem processRef (s : Shard K cap) (r : Ref cap) : Hands s (s.processRef r) := by
  by_cases valid : s.current r = true
  · by_cases early : s.tick < (s.entries r.1).expireTick
    · rw [processRef_of_early s r valid early]
      exact of_eq (schedule_batch s r.1) (schedule_sent s r.1)
    · cases held : (s.entries r.1).key with
      | none =>
          have stays : s.processRef r = s := by
            simp [Shard.processRef, valid, early, Entry.takeKey, held]
          rw [stays]
          exact refl s
      | some key =>
          rw [processRef_of_due s r key valid (Nat.le_of_not_lt early) held]
          exact (of_eq (release_batch s r.1) (release_sent s r.1)).trans (pushEvent _ _)
  · rw [processRef_of_stale s r (by simpa using valid)]
    exact refl s

theorem processBucket (bucket : List (Ref cap)) (s : Shard K cap) : Hands s (s.processBucket bucket) := by
  induction bucket generalizing s with
  | nil => exact refl s
  | cons r bucket ih => exact (processRef s r).trans (ih (s.processRef r))

theorem foldl_reschedule (bucket : List (Ref cap)) (s : Shard K cap) :
    Hands s (bucket.foldl reschedule s) := by
  induction bucket generalizing s with
  | nil => exact refl s
  | cons r bucket ih =>
      have first : Hands s (s.reschedule r) := by
        rw [reschedule]
        split
        · exact of_eq (schedule_batch s r.1) (schedule_sent s r.1)
        · exact refl s
      exact first.trans (ih (s.reschedule r))

theorem cascaded (s : Shard K cap) : Hands s s.cascaded := by
  have started : Hands s { s with tick := s.tick + 1 } := of_eq rfl rfl
  have second (t : Shard K cap) : Hands t t.cascadeL2 :=
    Hands.trans (t := { t with wheelL2 := Function.update t.wheelL2 (slotL2 t.tick) [] })
      (of_eq rfl rfl) (foldl_reschedule _ _)
  have third (t : Shard K cap) : Hands t t.cascadeL3 :=
    Hands.trans (t := { t with wheelL3 := Function.update t.wheelL3 (slotL3 t.tick) [] })
      (of_eq rfl rfl) (foldl_reschedule _ _)
  simp only [Shard.cascaded]
  split_ifs
  · exact started.trans ((second _).trans (third _))
  · exact started.trans (second _)
  · exact started

theorem tickOnce (s : Shard K cap) : Hands s s.tickOnce := by
  have emptied : Hands s.cascaded s.cascaded.drained := of_eq rfl rfl
  rw [tickOnce_eq]
  exact (cascaded s).trans (emptied.trans (processBucket _ _))

theorem catchUp (turns : Nat) (s : Shard K cap) : Hands s (s.catchUp turns) := by
  induction turns generalizing s with
  | zero => exact refl s
  | succ turns ih => exact (tickOnce s).trans (ih s.tickOnce)

theorem onTick (s : Shard K cap) (elapsed : Nat) : Hands s (s.onTick elapsed) := by
  have turned := catchUp (min (elapsed / TICK_MS) (s.tick + MAX_CATCHUP) - s.tick) s
  simp only [Shard.onTick]
  split
  · exact turned
  · rename_i left
    refine turned.trans ⟨List.prefix_append _ _, fun before => ?_⟩
    exact Batched.flush _ (by simpa using left) before.room.le before.sized

end Hands

theorem onTick_batch (s : Shard K cap) (elapsed : Nat) : (s.onTick elapsed).batch = [] := by
  simp only [onTick]
  split
  · rename_i empty
    exact List.isEmpty_iff.mp empty
  · rfl

section Commands

variable [DecidableEq K] (hash : K → UInt64)

theorem delete_batch (s : Shard K cap) (key : K) :
    (s.delete hash key).batch = s.batch ∧ (s.delete hash key).sent = s.sent := by
  simp only [delete]
  split
  · rw [removeIndex_eq]
    exact ⟨rfl, rfl⟩
  · exact ⟨rfl, rfl⟩

/-- No command reports anything. -/
theorem handle_batch (s : Shard K cap) (cmd : Command K) :
    (s.handle hash cmd).batch = s.batch ∧ (s.handle hash cmd).sent = s.sent := by
  cases cmd with
  | insert key ttl =>
      have cleared := delete_batch hash s key
      rw [handle, insert_eq]
      split
      · rw [schedule_batch, schedule_sent]
        exact cleared
      · exact cleared
  | refresh key =>
      rw [handle, refresh_eq]
      split
      · rw [schedule_batch, schedule_sent]
        exact ⟨rfl, rfl⟩
      · exact ⟨rfl, rfl⟩
  | delete key => exact delete_batch hash s key

theorem step_hands (s : Shard K cap) (op : Op K) : Hands s (s.step hash op) := by
  cases op with
  | handle cmd => exact .of_eq (handle_batch hash s cmd).1 (handle_batch hash s cmd).2
  | onTick elapsed => exact .onTick s elapsed

theorem run_hands (s : Shard K cap) (ops : List (Op K)) : Hands s (s.run hash ops) :=
  Lib.invariant_run (step hash) (Hands s) (fun t op before => before.trans (step_hands hash t op)) s ops (.refl s)

/-- Between two operations the open batch is empty. -/
theorem run_batch (s : Shard K cap) (ops : List (Op K)) (empty : s.batch = []) :
    (s.run hash ops).batch = [] := by
  apply Lib.invariant_run (step hash) (fun t => t.batch = []) _ s ops empty
  intro t op before
  cases op with
  | handle cmd => exact (handle_batch hash t cmd).1.trans before
  | onTick elapsed => exact onTick_batch t elapsed

end Commands

end Shard

end Pigs.Cache.C100k
