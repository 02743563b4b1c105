import Pigs.Cache.C100k.Wheel

/-! The compaction of a long bucket drops only references that `process_bucket` passes over, and nothing
is put back into the slot that is being drained. -/

namespace Pigs.Cache.C100k.Shard

variable {K : Type} {cap : Nat}

theorem processRef_of_unheld (s : Shard K cap) (r : Ref cap) (valid : s.current r = true)
    (due : ¬s.tick < (s.entries r.1).expireTick) (held : (s.entries r.1).key = none) :
    s.processRef r = s := by
  simp [processRef, valid, due, Entry.takeKey, held]

/-- A reference that is stale stays so while the bucket is processed: an entry is given back, but none is
stored or renewed. -/
theorem stale_processRef (s : Shard K cap) (r other : Ref cap) (stale : s.current r = false) :
    (s.processRef other).current r = false := by
  cases valid : s.current other with
  | false => rwa [processRef_of_stale s other valid]
  | true =>
      by_cases early : s.tick < (s.entries other.1).expireTick
      · rw [processRef_of_early s other valid early]
        simpa [current] using stale
      · cases held : (s.entries other.1).key with
        | none => rwa [processRef_of_unheld s other valid early held]
        | some key =>
            rw [processRef_of_due s other key valid (Nat.le_of_not_lt early) held]
            by_cases same : r.1 = other.1
            · simp [current, same]
            · simpa [current, same] using stale

/-- Only stale references are left out. -/
theorem processBucket_filter (s : Shard K cap) (kept : Ref cap → Bool) (bucket : List (Ref cap))
    (stale : ∀ r, kept r = false → s.current r = false) :
    s.processBucket (bucket.filter kept) = s.processBucket bucket := by
  induction bucket generalizing s with
  | nil => rfl
  | cons r bucket ih =>
      have later := ih (s.processRef r) fun other out => stale_processRef s other r (stale other out)
      cases out : kept r with
      | false =>
          have idle := processRef_of_stale s r (stale r out)
          rw [idle] at later
          rw [List.filter_cons_of_neg (by simp [out]), later]
          simp only [processBucket, List.foldl_cons, idle]
      | true =>
          rw [List.filter_cons_of_pos out]
          exact later

/-- An entry that is not due is scheduled for another slot than the one of the tick. -/
theorem schedule_early_slot (s : Shard K cap) (idx : Fin cap)
    (early : s.tick < (s.entries idx).expireTick) :
    (s.schedule idx).wheelL1 (slotL1 s.tick) = s.wheelL1 (slotL1 s.tick) := by
  have later : ¬(s.entries idx).expireTick ≤ s.tick := Nat.not_le_of_lt early
  simp only [schedule, if_neg later]
  split_ifs with near
  · have apart : slotL1 s.tick ≠ slotL1 (s.entries idx).expireTick := by
      intro same
      have mods := congrArg Fin.val same
      simp only [slotL1, WHEEL_L1] at mods near
      omega
    exact Function.update_of_ne apart _ _
  · rfl
  · rfl

theorem processRef_slot (s : Shard K cap) (r : Ref cap) :
    (s.processRef r).wheelL1 (slotL1 s.tick) = s.wheelL1 (slotL1 s.tick) := by
  cases valid : s.current r with
  | false => rw [processRef_of_stale s r valid]
  | true =>
      by_cases early : s.tick < (s.entries r.1).expireTick
      · rw [processRef_of_early s r valid early, schedule_early_slot s r.1 early]
      · cases held : (s.entries r.1).key with
        | none => rw [processRef_of_unheld s r valid early held]
        | some key =>
            rw [processRef_of_due s r key valid (Nat.le_of_not_lt early) held]
            simp

theorem processBucket_slot (s : Shard K cap) (bucket : List (Ref cap)) :
    (s.processBucket bucket).wheelL1 (slotL1 s.tick) = s.wheelL1 (slotL1 s.tick) := by
  induction bucket generalizing s with
  | nil => rfl
  | cons r bucket ih =>
      have later := ih (s.processRef r)
      rw [processRef_tick] at later
      exact later.trans (processRef_slot s r)

/-- Whatever the bucket, its compaction leaves the same shard, the turn of `on_tick` that may compact is
the one that does not, and at every point of the bucket the slot that it came from is as it was. -/
theorem compaction_unobservable (s : Shard K cap) (bucket : List (Ref cap)) :
    s.processBucket (bucket.filter s.current) = s.processBucket bucket ∧
      s.tickOnce = s.cascaded.drained.processBucket (s.cascaded.wheelL1 (slotL1 s.cascaded.tick)) ∧
      ∀ front, front <+: bucket →
        (s.processBucket front).wheelL1 (slotL1 s.tick) = s.wheelL1 (slotL1 s.tick) := by
  refine ⟨processBucket_filter s s.current bucket fun _ out => out, ?_,
    fun front _ => processBucket_slot s front⟩
  rw [tickOnce_eq, compacted]
  split_ifs
  · exact processBucket_filter _ s.cascaded.current _ fun _ out => out
  · rfl

end Pigs.Cache.C100k.Shard
