import Pigs.Cache.C100k.Wheel
import Mathlib.Algebra.BigOperators.Fin
import Mathlib.Algebra.BigOperators.Group.Finset.Basic

/-! Version stamps of wheel references. `refresh` counts the version of a slot up, but a slot
that changes its tenant starts again at version one, and a version wraps, so that references left
behind can carry the stamp of a later entry. -/

namespace Pigs.Cache.C100k

variable {K : Type} {cap : Nat}

/-- How often a reference stands on one wheel. -/
def wheelCount {n : Nat} (wheel : Fin n → List (Ref cap)) (r : Ref cap) : Nat :=
  ∑ slot, (wheel slot).count r

theorem wheelCount_update {n : Nat} (wheel : Fin n → List (Ref cap)) (slot : Fin n)
    (bucket : List (Ref cap)) (r : Ref cap) :
    wheelCount (Function.update wheel slot bucket) r + (wheel slot).count r =
      wheelCount wheel r + bucket.count r := by
  have rest : ∑ i ∈ {slot}ᶜ, (Function.update wheel slot bucket i).count r =
      ∑ i ∈ {slot}ᶜ, (wheel i).count r := by
    apply Finset.sum_congr rfl
    intro i member
    have ne : i ≠ slot := by simpa using member
    rw [Function.update_of_ne ne]
  rw [wheelCount, wheelCount, Fintype.sum_eq_add_sum_compl slot, rest, Function.update_self,
    Fintype.sum_eq_add_sum_compl slot fun i => (wheel i).count r]
  omega

theorem wheelCount_push {n : Nat} (wheel : Fin n → List (Ref cap)) (slot : Fin n)
    (added r : Ref cap) :
    wheelCount (Function.update wheel slot (wheel slot ++ [added])) r =
      wheelCount wheel r + [added].count r := by
  have moved := wheelCount_update wheel slot (wheel slot ++ [added]) r
  rw [List.count_append] at moved
  omega

theorem wheelCount_take {n : Nat} (wheel : Fin n → List (Ref cap)) (slot : Fin n) (r : Ref cap) :
    wheelCount (Function.update wheel slot []) r + (wheel slot).count r = wheelCount wheel r :=
  wheelCount_update wheel slot [] r

namespace Shard

/-- How often a reference stands on the three wheels together. -/
def refCount (s : Shard K cap) (r : Ref cap) : Nat :=
  wheelCount s.wheelL1 r + wheelCount s.wheelL2 r + wheelCount s.wheelL3 r

theorem refCount_congr (s t : Shard K cap) (l1 : t.wheelL1 = s.wheelL1)
    (l2 : t.wheelL2 = s.wheelL2) (l3 : t.wheelL3 = s.wheelL3) : t.refCount = s.refCount := by
  funext r
  rw [refCount, refCount, l1, l2, l3]

/-- `schedule` puts exactly one reference on the wheels. -/
theorem schedule_refCount (s : Shard K cap) (idx : Fin cap) (r : Ref cap) :
    (s.schedule idx).refCount r = s.refCount r + [s.refOf idx].count r := by
  simp only [schedule]
  split_ifs
  · have pushed := wheelCount_push s.wheelL1 (slotL1 (s.tick + 1)) (s.refOf idx) r
    simp only [refCount, pushL1, refOf] at pushed ⊢
    omega
  · have pushed := wheelCount_push s.wheelL1 (slotL1 (s.entries idx).expireTick) (s.refOf idx) r
    simp only [refCount, pushL1, refOf] at pushed ⊢
    omega
  · have pushed := wheelCount_push s.wheelL2 (slotL2 (s.entries idx).expireTick) (s.refOf idx) r
    simp only [refCount, pushL2, refOf] at pushed ⊢
    omega
  · have pushed := wheelCount_push s.wheelL3 (slotL3 (s.entries idx).expireTick) (s.refOf idx) r
    simp only [refCount, pushL3, refOf] at pushed ⊢
    omega

/-- A drained level-two or level-three bucket puts back its current references, each as often
as it held them, and drops the others. -/
theorem foldl_reschedule_refCount (bucket : List (Ref cap)) (s : Shard K cap) (r : Ref cap) :
    (bucket.foldl reschedule s).refCount r =
      s.refCount r + if s.current r then bucket.count r else 0 := by
  induction bucket generalizing s with
  | nil => simp
  | cons head bucket ih =>
      rw [List.foldl_cons]
      cases valid : s.current head with
      | false =>
          have kept : s.reschedule head = s := by simp [reschedule, valid]
          rw [kept, ih]
          by_cases same : head = r
          · subst same
            simp [valid]
          · simp [List.count_cons_of_ne same]
      | true =>
          have moved : s.reschedule head = s.schedule head.1 := by simp [reschedule, valid]
          rcases eq_refOf_of_current s head valid with ⟨_, own⟩
          have still : (s.schedule head.1).current r = s.current r := by simp [current]
          rw [moved, ih, still, schedule_refCount, ← own]
          by_cases same : head = r
          · subst same
            simp only [valid, if_true, List.count_cons_self, List.count_nil]
            omega
          · simp [List.count_cons_of_ne same]

/-- Draining the bucket of a tick does the same for the slots that stay in use. -/
theorem processBucket_refCount {hash : K → UInt64} (bucket : List (Ref cap)) (s : Shard K cap)
    (slab : Slab hash s) (r : Ref cap)
    (alive : s.current r = true → ((s.processBucket bucket).entries r.1).inUse = true) :
    (s.processBucket bucket).refCount r =
      s.refCount r + if s.current r then bucket.count r else 0 := by
  induction bucket generalizing s with
  | nil => simp [processBucket]
  | cons head bucket ih =>
      change ((s.processRef head).processBucket bucket).refCount r = _
      change s.current r = true →
        (((s.processRef head).processBucket bucket).entries r.1).inUse = true at alive
      cases valid : s.current head with
      | false =>
          have kept := processRef_of_stale s head valid
          rw [kept] at alive ⊢
          rw [ih s slab alive]
          by_cases same : head = r
          · subst same
            simp [valid]
          · simp [List.count_cons_of_ne same]
      | true =>
          rcases eq_refOf_of_current s head valid with ⟨used, own⟩
          by_cases early : s.tick < (s.entries head.1).expireTick
          · have moved := processRef_of_early s head valid early
            have still : (s.schedule head.1).current r = s.current r := by simp [current]
            rw [moved] at alive ⊢
            rw [ih _ (slab.schedule head.1) (by rwa [still]), still, schedule_refCount, ← own]
            by_cases same : head = r
            · subst same
              simp only [valid, if_true, List.count_cons_self, List.count_nil]
              omega
            · simp [List.count_cons_of_ne same]
          · rcases slab.keyed head.1 used with ⟨key, held, _⟩
            have gone := processRef_of_due s head key valid (by omega) held
            have after : Slab hash (s.processRef head) := slab.processRef head
            rw [gone] at alive after ⊢
            set t := (s.release head.1).pushEvent
              { key := key, hash := (s.entries head.1).hash, version := (s.entries head.1).version }
              with tEq
            have freed : (t.entries head.1).inUse = false := by simp [tEq]
            have wheels : t.refCount r = s.refCount r :=
              congrFun (refCount_congr s t (by simp [tEq]) (by simp [tEq]) (by simp [tEq])) r
            by_cases slot : r.1 = head.1
            · -- the slot has just been given back, so `r` cannot have been current
              have stale : s.current r = false := by
                by_contra live
                have back := alive (by simpa using live)
                have entry := processBucket_entry bucket after r.1 back
                rw [entry, slot, freed] at back
                cases back
              have staleAfter : t.current r = false := by
                simp [current, slot, freed]
              rw [ih t after (by rw [staleAfter]; intro h; cases h), wheels, stale, staleAfter]
              simp
            · have entry : t.entries r.1 = s.entries r.1 := by
                simp [tEq, Function.update_of_ne slot]
              have still : t.current r = s.current r := by simp [current, entry]
              have ne : head ≠ r := fun same => slot (congrArg Prod.fst same.symm)
              rw [ih t after (by rwa [still]), wheels, still, List.count_cons_of_ne ne]

/-! What a tick drops and what it keeps. -/

/-- A reference that `schedule` does not push keeps its place in every bucket. -/
theorem schedule_counts_of_ne (s : Shard K cap) (idx : Fin cap) (r : Ref cap)
    (ne : r ≠ s.refOf idx) :
    (∀ slot, ((s.schedule idx).wheelL1 slot).count r = (s.wheelL1 slot).count r) ∧
      (∀ slot, ((s.schedule idx).wheelL2 slot).count r = (s.wheelL2 slot).count r) ∧
      (∀ slot, ((s.schedule idx).wheelL3 slot).count r = (s.wheelL3 slot).count r) := by
  have pushed {n : Nat} (wheel : Fin n → List (Ref cap)) (at_ slot : Fin n) :
      (Function.update wheel at_ (wheel at_ ++ [s.refOf idx]) slot).count r =
        (wheel slot).count r := by
    by_cases same : slot = at_
    · subst same
      simp [List.count_cons_of_ne ne.symm]
    · rw [Function.update_of_ne same]
  simp only [schedule]
  split_ifs
  · exact ⟨fun slot => pushed s.wheelL1 _ slot, fun _ => rfl, fun _ => rfl⟩
  · exact ⟨fun slot => pushed s.wheelL1 _ slot, fun _ => rfl, fun _ => rfl⟩
  · exact ⟨fun _ => rfl, fun slot => pushed s.wheelL2 _ slot, fun _ => rfl⟩
  · exact ⟨fun _ => rfl, fun _ => rfl, fun slot => pushed s.wheelL3 _ slot⟩

theorem foldl_reschedule_counts (bucket : List (Ref cap)) (s : Shard K cap) (r : Ref cap)
    (stale : s.current r = false) :
    (∀ slot, ((bucket.foldl reschedule s).wheelL1 slot).count r = (s.wheelL1 slot).count r) ∧
      (∀ slot, ((bucket.foldl reschedule s).wheelL3 slot).count r = (s.wheelL3 slot).count r) := by
  induction bucket generalizing s with
  | nil => exact ⟨fun _ => rfl, fun _ => rfl⟩
  | cons head bucket ih =>
      rw [List.foldl_cons]
      cases valid : s.current head with
      | false =>
          have kept : s.reschedule head = s := by simp [reschedule, valid]
          rw [kept]
          exact ih s stale
      | true =>
          have moved : s.reschedule head = s.schedule head.1 := by simp [reschedule, valid]
          have still : (s.schedule head.1).current r = s.current r := by simp [current]
          rcases eq_refOf_of_current s head valid with ⟨used, own⟩
          have ne : r ≠ s.refOf head.1 := by
            intro equal
            subst equal
            rw [current_refOf s head.1 used] at stale
            cases stale
          have rest := ih (s.schedule head.1) (still.trans stale)
          have counts := schedule_counts_of_ne s head.1 r ne
          rw [moved]
          exact ⟨fun slot => (rest.1 slot).trans (counts.1 slot),
            fun slot => (rest.2 slot).trans (counts.2.2 slot)⟩

theorem cascadeL2_refCount (s : Shard K cap) (r : Ref cap) :
    s.cascadeL2.refCount r + (if s.current r then 0 else (s.wheelL2 (slotL2 s.tick)).count r) =
      s.refCount r := by
  have fold := foldl_reschedule_refCount (s.wheelL2 (slotL2 s.tick))
    { s with wheelL2 := Function.update s.wheelL2 (slotL2 s.tick) [] } r
  have taken := wheelCount_take s.wheelL2 (slotL2 s.tick) r
  change s.cascadeL2.refCount r = _ + if s.current r then _ else _ at fold
  rw [fold]
  simp only [refCount]
  split_ifs <;> omega

theorem cascadeL3_refCount (s : Shard K cap) (r : Ref cap) :
    s.cascadeL3.refCount r + (if s.current r then 0 else (s.wheelL3 (slotL3 s.tick)).count r) =
      s.refCount r := by
  have fold := foldl_reschedule_refCount (s.wheelL3 (slotL3 s.tick))
    { s with wheelL3 := Function.update s.wheelL3 (slotL3 s.tick) [] } r
  have taken := wheelCount_take s.wheelL3 (slotL3 s.tick) r
  change s.cascadeL3.refCount r = _ + if s.current r then _ else _ at fold
  rw [fold]
  simp only [refCount]
  split_ifs <;> omega

theorem current_congr (s t : Shard K cap) (entries : t.entries = s.entries) :
    t.current = s.current := by
  funext r
  simp only [current, entries]

/-- How often a reference stands in the buckets that the next tick cascades or processes. -/
def visited (s : Shard K cap) (r : Ref cap) : Nat :=
  let tick := s.tick + 1
  (if tick % WHEEL_L1 = 0 then
    (s.wheelL2 (slotL2 tick)).count r +
      (if tick / WHEEL_L1 % WHEEL_L2 = 0 then (s.wheelL3 (slotL3 tick)).count r else 0)
  else 0) + (s.wheelL1 (slotL1 tick)).count r

/-- The shard at the next tick, its wheels untouched. -/
def advanced (s : Shard K cap) : Shard K cap := { s with tick := s.tick + 1 }

theorem cascaded_eq (s : Shard K cap) :
    s.cascaded =
      if (s.tick + 1) % WHEEL_L1 = 0 then
        if (s.tick + 1) / WHEEL_L1 % WHEEL_L2 = 0 then s.advanced.cascadeL2.cascadeL3
        else s.advanced.cascadeL2
      else s.advanced := by
  simp only [cascaded, advanced, cascadeL2_tick]

theorem advanced_refCount (s : Shard K cap) : s.advanced.refCount = s.refCount :=
  refCount_congr s s.advanced rfl rfl rfl

theorem advanced_current (s : Shard K cap) : s.advanced.current = s.current :=
  current_congr s s.advanced rfl

theorem cascaded_refCount_of_current (s : Shard K cap) (r : Ref cap) (valid : s.current r = true) :
    s.cascaded.refCount r = s.refCount r := by
  have first := cascadeL2_refCount s.advanced r
  have second := cascadeL3_refCount s.advanced.cascadeL2 r
  rw [current_congr _ _ (cascadeL2_entries _)] at second
  rw [advanced_current, if_pos valid, advanced_refCount] at first
  rw [advanced_current, if_pos valid] at second
  rw [cascaded_eq]
  split_ifs
  · omega
  · omega
  · rw [advanced_refCount]

theorem cascadeL2_counts (s : Shard K cap) (r : Ref cap) (stale : s.current r = false) :
    (∀ slot, (s.cascadeL2.wheelL1 slot).count r = (s.wheelL1 slot).count r) ∧
      (∀ slot, (s.cascadeL2.wheelL3 slot).count r = (s.wheelL3 slot).count r) :=
  foldl_reschedule_counts (s.wheelL2 (slotL2 s.tick))
    { s with wheelL2 := Function.update s.wheelL2 (slotL2 s.tick) [] } r stale

theorem cascadeL3_counts (s : Shard K cap) (r : Ref cap) (stale : s.current r = false)
    (slot : Fin WHEEL_L1) : (s.cascadeL3.wheelL1 slot).count r = (s.wheelL1 slot).count r :=
  (foldl_reschedule_counts (s.wheelL3 (slotL3 s.tick))
    { s with wheelL3 := Function.update s.wheelL3 (slotL3 s.tick) [] } r stale).1 slot

/-- The cascades drop the stale references of the buckets they move, and leave those of the
bucket to be processed where they are. -/
theorem cascaded_counts_of_stale (s : Shard K cap) (r : Ref cap) (stale : s.current r = false) :
    s.cascaded.refCount r + s.visited r =
        s.refCount r + (s.cascaded.wheelL1 (slotL1 (s.tick + 1))).count r := by
  have staleAdvanced : s.advanced.current r = false := by rw [advanced_current, stale]
  have staleCascaded : s.advanced.cascadeL2.current r = false := by
    rw [current_congr _ _ (cascadeL2_entries _), staleAdvanced]
  have first : s.advanced.cascadeL2.refCount r + (s.wheelL2 (slotL2 (s.tick + 1))).count r =
      s.refCount r := by
    have dropped := cascadeL2_refCount s.advanced r
    rw [staleAdvanced, advanced_refCount] at dropped
    exact dropped
  have second : s.advanced.cascadeL2.cascadeL3.refCount r +
      (s.wheelL3 (slotL3 (s.tick + 1))).count r = s.advanced.cascadeL2.refCount r := by
    have dropped := cascadeL3_refCount s.advanced.cascadeL2 r
    rw [staleCascaded, (cascadeL2_counts s.advanced r staleAdvanced).2, cascadeL2_tick] at dropped
    exact dropped
  have bucketL2 : (s.advanced.cascadeL2.wheelL1 (slotL1 (s.tick + 1))).count r =
      (s.wheelL1 (slotL1 (s.tick + 1))).count r :=
    (cascadeL2_counts s.advanced r staleAdvanced).1 (slotL1 (s.tick + 1))
  have bucketL3 : (s.advanced.cascadeL2.cascadeL3.wheelL1 (slotL1 (s.tick + 1))).count r =
      (s.advanced.cascadeL2.wheelL1 (slotL1 (s.tick + 1))).count r :=
    cascadeL3_counts s.advanced.cascadeL2 r staleCascaded (slotL1 (s.tick + 1))
  simp only [cascaded_eq, visited]
  split_ifs
  · omega
  · omega
  · rw [advanced_refCount, Nat.zero_add]
    rfl

theorem count_compacted_of_current (s : Shard K cap) (r : Ref cap) (valid : s.current r = true) :
    s.compacted.count r = (s.wheelL1 (slotL1 s.tick)).count r := by
  simp only [compacted]
  split_ifs
  · exact List.count_filter valid
  · rfl

theorem drained_refCount (s : Shard K cap) (r : Ref cap) :
    s.drained.refCount r + (s.wheelL1 (slotL1 s.tick)).count r = s.refCount r := by
  have taken := wheelCount_take s.wheelL1 (slotL1 s.tick) r
  simp only [drained, refCount]
  omega

/-- The reference of a slot that stays in use is neither lost nor doubled by a tick. -/
theorem tickOnce_refCount_of_used {hash : K → UInt64} {s : Shard K cap} (slab : Slab hash s)
    (r : Ref cap) (valid : s.current r = true) (used : (s.tickOnce.entries r.1).inUse = true) :
    s.tickOnce.refCount r = s.refCount r := by
  have drained : Slab hash s.cascaded.drained := (cascaded_slab slab).congr _ rfl rfl rfl
  have same : s.cascaded.current r = true :=
    (congrFun (current_congr s _ (cascaded_entries s)) r).trans valid
  have process := processBucket_refCount s.cascaded.compacted s.cascaded.drained drained r
    (fun _ => used)
  change s.tickOnce.refCount r = _ + if s.cascaded.current r then _ else 0 at process
  rw [if_pos same, count_compacted_of_current s.cascaded r same] at process
  calc s.tickOnce.refCount r
      = s.cascaded.drained.refCount r +
          (s.cascaded.wheelL1 (slotL1 s.cascaded.tick)).count r := process
    _ = s.cascaded.refCount r := drained_refCount s.cascaded r
    _ = s.refCount r := cascaded_refCount_of_current s r valid

/-- A stale reference in a bucket that the tick visits is dropped. -/
theorem tickOnce_refCount_of_stale {hash : K → UInt64} {s : Shard K cap} (slab : Slab hash s)
    (r : Ref cap) (stale : s.current r = false) :
    s.tickOnce.refCount r + s.visited r = s.refCount r := by
  have drained : Slab hash s.cascaded.drained := (cascaded_slab slab).congr _ rfl rfl rfl
  have same : s.cascaded.current r = false :=
    (congrFun (current_congr s _ (cascaded_entries s)) r).trans stale
  have process := processBucket_refCount s.cascaded.compacted s.cascaded.drained drained r
    (fun valid => by
      change s.cascaded.current r = true at valid
      rw [same] at valid
      cases valid)
  change s.tickOnce.refCount r = _ + if s.cascaded.current r then _ else 0 at process
  have left := drained_refCount s.cascaded r
  have moved := cascaded_counts_of_stale s r stale
  rw [cascaded_tick] at left
  rw [process, same]
  simp only [Bool.false_eq_true, if_false]
  omega

/-- A turn never makes a reference current. -/
theorem catchUp_stale {hash : K → UInt64} {s : Shard K cap} (slab : Slab hash s) (turns : Nat)
    (r : Ref cap) (stale : s.current r = false) : (s.catchUp turns).current r = false := by
  by_contra live
  have valid : (s.catchUp turns).current r = true := by simpa using live
  have used := (eq_refOf_of_current _ r valid).1
  simp only [current, slab.catchUp_entry turns r.1 used] at valid
  rw [show s.current r = true from valid] at stale
  cases stale

theorem catchUp_refCount_of_used {hash : K → UInt64} {s : Shard K cap} (slab : Slab hash s)
    (turns : Nat) (i : Fin cap) (used : ((s.catchUp turns).entries i).inUse = true) :
    (s.catchUp turns).refCount (s.refOf i) = s.refCount (s.refOf i) := by
  induction turns generalizing s with
  | zero => rfl
  | succ turns ih =>
      have rest := slab.tickOnce.catchUp_entry turns i used
      have usedNext : (s.tickOnce.entries i).inUse = true := by rwa [← rest]
      have entry := slab.tickOnce_entry i usedNext
      have same : s.tickOnce.refOf i = s.refOf i := by simp only [refOf, entry]
      have valid : s.current (s.refOf i) = true := current_refOf s i (by rwa [← entry])
      have later := ih slab.tickOnce used
      rw [same] at later
      exact later.trans (tickOnce_refCount_of_used slab (s.refOf i) valid usedNext)

end Shard

/-! One operation stamps at most one reference. -/

/-- After an operation that scheduled the new reference `r`. -/
structure Stamped (s t : Shard K cap) (r : Ref cap) : Prop where
  others : ∀ i, i ≠ r.1 → t.entries i = s.entries i
  used : (t.entries r.1).inUse = true
  own : t.refOf r.1 = r
  counts : ∀ q, t.refCount q = s.refCount q + [r].count q

/-- After an operation that scheduled no new reference. -/
structure Unstamped (s t : Shard K cap) : Prop where
  entries : ∀ i, (t.entries i).inUse = true → t.entries i = s.entries i
  counts : ∀ i, (t.entries i).inUse = true → t.refCount (s.refOf i) = s.refCount (s.refOf i)

theorem Unstamped.refl (s : Shard K cap) : Unstamped s s := ⟨fun _ _ => rfl, fun _ _ => rfl⟩

theorem Unstamped.stale {s t : Shard K cap} (kept : Unstamped s t) (r : Ref cap)
    (stale : s.current r = false) : t.current r = false := by
  by_contra live
  have valid : t.current r = true := by simpa using live
  have used := (Shard.eq_refOf_of_current t r valid).1
  simp only [Shard.current, kept.entries r.1 used] at valid
  rw [show s.current r = true from valid] at stale
  cases stale

theorem Stamped.stale {s t : Shard K cap} {r : Ref cap} (new : Stamped s t r) (q : Ref cap)
    (stale : s.current q = false ∨ q.1 = r.1) (ne : q ≠ r) : t.current q = false := by
  by_contra live
  have valid : t.current q = true := by simpa using live
  rcases Shard.eq_refOf_of_current t q valid with ⟨used, ownQ⟩
  by_cases slot : q.1 = r.1
  · rw [slot, new.own] at ownQ
    exact ne ownQ
  · simp only [Shard.current, new.others q.1 slot] at valid
    rcases stale with stale | same
    · rw [show s.current q = true from valid] at stale
      cases stale
    · exact slot same

namespace Shard

theorem release_refCount (s : Shard K cap) (idx : Fin cap) :
    (s.release idx).refCount = s.refCount :=
  refCount_congr s (s.release idx) (by simp) (by simp) (by simp)

theorem release_unstamped (s : Shard K cap) (idx : Fin cap) : Unstamped s (s.release idx) := by
  constructor
  · intro i used
    by_cases same : i = idx
    · subst same
      simp at used
    · simp [Function.update_of_ne same]
  · intro i _
    rw [release_refCount]

theorem onTick_unstamped {hash : K → UInt64} {s : Shard K cap} (slab : Slab hash s)
    (elapsed : Nat) : Unstamped s (s.onTick elapsed) := by
  constructor
  · exact fun i used => slab.onTick_entry elapsed i used
  · intro i used
    simp only [onTick] at used ⊢
    split_ifs at used ⊢
    · exact catchUp_refCount_of_used slab _ i used
    · exact catchUp_refCount_of_used slab _ i used

/-- Storing a key in the head of the free list and scheduling it stamps version one. -/
theorem store_stamped (s : Shard K cap) (idx : Fin cap) (key : K) (h : UInt64) (ttl : Nat) :
    Stamped s ((s.store idx key h ttl).schedule idx) (idx, 1) := by
  refine ⟨?_, by simp [Entry.write], by simp [refOf, Entry.write], ?_⟩
  · intro i ne
    simp [Function.update_of_ne ne]
  · intro q
    have wheels : (s.store idx key h ttl).refCount = s.refCount :=
      refCount_congr s _ rfl rfl rfl
    have own : (s.store idx key h ttl).refOf idx = (idx, 1) := by
      simp [refOf, Entry.write]
    rw [schedule_refCount, wheels, own]

theorem renew_stamped (s : Shard K cap) (idx : Fin cap) (used : (s.entries idx).inUse = true) :
    Stamped s ((s.renew idx).schedule idx) (idx, Entry.nextVersion (s.entries idx).version) := by
  refine ⟨?_, by simp [used], by simp [refOf], ?_⟩
  · intro i ne
    simp [Function.update_of_ne ne]
  · intro q
    have wheels : (s.renew idx).refCount = s.refCount := refCount_congr s _ rfl rfl rfl
    have own : (s.renew idx).refOf idx = (idx, Entry.nextVersion (s.entries idx).version) := by simp [refOf]
    rw [schedule_refCount, wheels, own]

variable [DecidableEq K] (hash : K → UInt64)

/-- The slot and version that an insert or refresh is about to put on a wheel: the slot of the
live key, or the head of the free list for a new key. -/
def stamp (s : Shard K cap) : Op K → Option (Ref cap)
  | .handle (.insert key _) =>
      match s.findEntry key (hash key) with
      | some idx => some (idx, 1)
      | none => if inside : s.freeHead < cap then some (⟨s.freeHead, inside⟩, 1) else none
  | .handle (.refresh key) =>
      (s.findEntry key (hash key)).map fun idx => (idx, Entry.nextVersion (s.entries idx).version)
  | .handle (.delete _) => none
  | .onTick _ => none

/-- The operation deletes, overwrites or refreshes the entry in the slot. -/
def Supersedes (s : Shard K cap) (op : Op K) (idx : Fin cap) : Prop :=
  ∃ key, s.findEntry key (hash key) = some idx ∧
    (op = .handle (.delete key) ∨ op = .handle (.refresh key) ∨
      ∃ ttl, op = .handle (.insert key ttl))

variable {hash} {s : Shard K cap}

theorem delete_unstamped (slab : Slab hash s) (key : K) : Unstamped s (s.delete hash key) := by
  cases found : s.findEntry key (hash key) with
  | none =>
      rw [delete_of_none hash s key found]
      exact Unstamped.refl s
  | some idx =>
      rw [slab.delete_found key idx found]
      exact release_unstamped s idx

theorem insert_stamped (slab : Slab hash s) (key : K) (ttl : Nat) (r : Ref cap)
    (stamped : s.stamp hash (.handle (.insert key ttl)) = some r) :
    Stamped s (s.insert hash key ttl) r := by
  simp only [stamp] at stamped
  cases found : s.findEntry key (hash key) with
  | none =>
      rw [found] at stamped
      simp only at stamped
      split_ifs at stamped with inside
      obtain rfl := Option.some.inj stamped
      rw [insert_eq, delete_of_none hash s key found, dif_pos inside]
      exact store_stamped s _ key (hash key) ttl
  | some idx =>
      rw [found] at stamped
      obtain rfl := Option.some.inj stamped
      have head : (s.delete hash key).freeHead = idx := by
        rw [slab.delete_found key idx found, release_freeHead]
      have slot : (⟨(s.delete hash key).freeHead, by omega⟩ : Fin cap) = idx := Fin.ext head
      rw [insert_eq, dif_pos (by omega), slot, slab.delete_found key idx found]
      have stored := store_stamped (s.release idx) idx key (hash key) ttl
      refine ⟨?_, stored.used, stored.own, ?_⟩
      · intro i ne
        rw [stored.others i ne, release_entries, Function.update_of_ne ne]
      · intro q
        rw [stored.counts q, release_refCount]

theorem step_stamped (slab : Slab hash s) (op : Op K) (r : Ref cap)
    (stamped : s.stamp hash op = some r) : Stamped s (s.step hash op) r := by
  cases op with
  | onTick elapsed => cases stamped
  | handle cmd =>
      cases cmd with
      | insert key ttl => exact insert_stamped slab key ttl r stamped
      | delete key => cases stamped
      | refresh key =>
          rcases Option.map_eq_some_iff.mp stamped with ⟨idx, found, rfl⟩
          have used := ((slab.findEntry_eq_some_iff key idx).mp found).1
          change Stamped s (s.refresh hash key) _
          rw [refresh_eq, found]
          exact renew_stamped s idx used

theorem step_unstamped (slab : Slab hash s) (op : Op K) (silent : s.stamp hash op = none) :
    Unstamped s (s.step hash op) := by
  cases op with
  | onTick elapsed => exact onTick_unstamped slab elapsed
  | handle cmd =>
      cases cmd with
      | delete key => exact delete_unstamped slab key
      | refresh key =>
          have absent : s.findEntry key (hash key) = none := by
            simpa [stamp] using silent
          change Unstamped s (s.refresh hash key)
          rw [refresh_eq, absent]
          exact Unstamped.refl s
      | insert key ttl =>
          simp only [stamp] at silent
          cases found : s.findEntry key (hash key) with
          | some idx => simp [found] at silent
          | none =>
              simp only [found, dite_eq_right_iff, reduceCtorEq, imp_false] at silent
              change Unstamped s (s.insert hash key ttl)
              rw [insert_eq, delete_of_none hash s key found, dif_neg silent]
              exact Unstamped.refl s

/-- A superseded reference is recognised as stale, unless the operation stamps it again. -/
theorem Supersedes.stale {op : Op K} {q : Ref cap} (superseded : s.Supersedes hash op q.1)
    (slab : Slab hash s) (fresh : s.stamp hash op ≠ some q) :
    (s.step hash op).current q = false := by
  rcases superseded with ⟨key, found, rfl | rfl | ⟨ttl, rfl⟩⟩
  · change (s.delete hash key).current q = false
    rw [slab.delete_found key q.1 found]
    simp [current]
  · have stamped : s.stamp hash (.handle (.refresh key)) =
        some (q.1, Entry.nextVersion (s.entries q.1).version) := by simp [stamp, found]
    exact (step_stamped slab _ _ stamped).stale q (Or.inr rfl) fun same =>
      fresh (stamped.trans (congrArg some same.symm))
  · have stamped : s.stamp hash (.handle (.insert key ttl)) = some (q.1, 1) := by
      simp [stamp, found]
    exact (step_stamped slab _ _ stamped).stale q (Or.inr rfl) fun same =>
      fresh (stamped.trans (congrArg some same.symm))

end Shard

/-! Live references are counted slot by slot. -/

namespace Shard

def liveRefs (s : Shard K cap) : Nat :=
  ∑ slot, (s.wheelL1 slot).countP s.current + ∑ slot, (s.wheelL2 slot).countP s.current +
    ∑ slot, (s.wheelL3 slot).countP s.current

def liveSlots (s : Shard K cap) : Finset (Fin cap) :=
  Finset.univ.filter fun i => (s.entries i).inUse = true

theorem countP_current (s : Shard K cap) (bucket : List (Ref cap)) :
    bucket.countP s.current = ∑ i ∈ s.liveSlots, bucket.count (s.refOf i) := by
  induction bucket with
  | nil => simp
  | cons head bucket ih =>
      have one : (∑ i ∈ s.liveSlots, if head == s.refOf i then 1 else 0) =
          if s.current head then 1 else 0 := by
        cases valid : s.current head with
        | true =>
            rcases eq_refOf_of_current s head valid with ⟨used, own⟩
            rw [Finset.sum_eq_single head.1]
            · simp [← own]
            · intro i _ ne
              have differs : head ≠ s.refOf i := fun same => ne (congrArg Prod.fst same).symm
              simp [differs]
            · intro outside
              simp [liveSlots, used] at outside
        | false =>
            apply Finset.sum_eq_zero
            intro i member
            have used : (s.entries i).inUse = true := by simpa [liveSlots] using member
            have differs : head ≠ s.refOf i := by
              intro equal
              subst equal
              rw [current_refOf s i used] at valid
              cases valid
            simp [differs]
      simp only [List.countP_cons, List.count_cons, Finset.sum_add_distrib, ih, one]

theorem liveRefs_eq (s : Shard K cap) :
    s.liveRefs = ∑ i ∈ s.liveSlots, s.refCount (s.refOf i) := by
  simp only [liveRefs, refCount, wheelCount, countP_current, Finset.sum_add_distrib]
  rw [Finset.sum_comm, Finset.sum_comm (s := Finset.univ (α := Fin WHEEL_L2)),
    Finset.sum_comm (s := Finset.univ (α := Fin WHEEL_L3))]

/-- Every slot in use has exactly one reference on the wheels. -/
def OneRef (s : Shard K cap) : Prop :=
  ∀ i, (s.entries i).inUse = true → s.refCount (s.refOf i) = 1

theorem OneRef.liveRefs {s : Shard K cap} (one : s.OneRef) : s.liveRefs = s.liveSlots.card := by
  rw [liveRefs_eq, Finset.card_eq_sum_ones]
  apply Finset.sum_congr rfl
  intro i member
  exact one i (by simpa [liveSlots] using member)

theorem OneRef.new : (Shard.new K cap).OneRef := by
  intro i used
  cases used

variable [DecidableEq K] {hash : K → UInt64} {s : Shard K cap}

theorem OneRef.step (one : s.OneRef) (slab : Slab hash s) (op : Op K)
    (fresh : ∀ r, s.stamp hash op = some r → s.refCount r = 0) : (s.step hash op).OneRef := by
  intro i used
  cases stamped : s.stamp hash op with
  | none =>
      have kept := step_unstamped slab op stamped
      have entry := kept.entries i used
      have same : (s.step hash op).refOf i = s.refOf i := by simp only [refOf, entry]
      rw [same, kept.counts i used]
      exact one i (by rwa [← entry])
  | some r =>
      have new := step_stamped slab op r stamped
      by_cases slot : i = r.1
      · rw [slot, new.own, new.counts, fresh r stamped]
        simp
      · have entry := new.others i slot
        have same : (s.step hash op).refOf i = s.refOf i := by simp only [refOf, entry]
        have differs : r ≠ s.refOf i := fun eq => slot (congrArg Prod.fst eq).symm
        rw [same, new.counts, one i (by rwa [← entry])]
        simp [differs]

/-- In a slot with one reference, a stamp that is current afterwards was new on the wheels. -/
theorem OneRef.fresh (slab : Slab hash s) (op : Op K) (after : (s.step hash op).OneRef)
    (r : Ref cap) (stamped : s.stamp hash op = some r) : s.refCount r = 0 := by
  have new := step_stamped slab op r stamped
  have once := after r.1 new.used
  rw [new.own, new.counts, List.count_singleton_self] at once
  omega

end Shard

variable [DecidableEq K]

/-- `r` has been on a wheel ever since its entry was deleted, overwritten or refreshed. -/
inductive LeftBehind (hash : K → UInt64) (cap : Nat) : List (Op K) → Ref cap → Prop where
  | left (pre : List (Op K)) (op : Op K) (r : Ref cap)
      (live : ((Shard.new K cap).run hash pre).current r = true)
      (superseded : ((Shard.new K cap).run hash pre).Supersedes hash op r.1)
      (present : 0 < ((Shard.new K cap).run hash pre).refCount r) : LeftBehind hash cap (pre ++ [op]) r
  | still (pre : List (Op K)) (op : Op K) (r : Ref cap) (behind : LeftBehind hash cap pre r)
      (present : 0 < ((Shard.new K cap).run hash pre).refCount r) : LeftBehind hash cap (pre ++ [op]) r

/-- In every state of the run each slot in use has exactly one reference, there are no more live
references than live entries, and whatever is left behind stays stale and goes with the next
turn that visits its bucket. -/
def StampsSound (hash : K → UInt64) (cap : Nat) (ops : List (Op K)) : Prop :=
  ∀ pre post, ops = pre ++ post →
    let s := (Shard.new K cap).run hash pre
    s.OneRef ∧ s.liveRefs ≤ s.liveSlots.card ∧
      ∀ r, LeftBehind hash cap pre r → ∀ turns,
        (s.catchUp turns).current r = false ∧
          (s.catchUp turns).tickOnce.refCount r + (s.catchUp turns).visited r =
            (s.catchUp turns).refCount r

/-- No reference with the slot and version that an insert or refresh is about to stamp is still
on a wheel. -/
def FreshStamps (hash : K → UInt64) (cap : Nat) (ops : List (Op K)) : Prop :=
  ∀ pre op post, ops = pre ++ op :: post →
    ∀ r, ((Shard.new K cap).run hash pre).stamp hash op = some r →
      ((Shard.new K cap).run hash pre).refCount r = 0

theorem FreshStamps.front {hash : K → UInt64} {pre post : List (Op K)}
    (fresh : FreshStamps hash cap (pre ++ post)) : FreshStamps hash cap pre := by
  intro front op back split
  exact fresh front op (back ++ post) (by simp [split])

theorem FreshStamps.oneRef {hash : K → UInt64} (bound : cap < 2 ^ 32) (ops : List (Op K))
    (fresh : FreshStamps hash cap ops) : ((Shard.new K cap).run hash ops).OneRef := by
  induction ops using List.reverseRecOn with
  | nil => exact Shard.OneRef.new
  | append_singleton pre op ih =>
      rw [Shard.run_append]
      exact (ih fresh.front).step (Slab.reachable bound pre) op fun r stamped =>
        fresh pre op [] rfl r stamped

theorem FreshStamps.stale_of_leftBehind {hash : K → UInt64} (bound : cap < 2 ^ 32)
    (ops : List (Op K)) (fresh : FreshStamps hash cap ops) (r : Ref cap)
    (behind : LeftBehind hash cap ops r) :
    ((Shard.new K cap).run hash ops).current r = false := by
  induction behind with
  | left pre op r live superseded present =>
      have unstamped : ((Shard.new K cap).run hash pre).stamp hash op ≠ some r := by
        intro stamped
        have gone := fresh pre op [] rfl r stamped
        omega
      rw [Shard.run_append]
      exact superseded.stale (Slab.reachable bound pre) unstamped
  | still pre op r behind present ih =>
      have slab : Slab hash ((Shard.new K cap).run hash pre) := Slab.reachable bound pre
      have stale := ih fresh.front
      rw [Shard.run_append]
      change (((Shard.new K cap).run hash pre).step hash op).current r = false
      cases stamped : ((Shard.new K cap).run hash pre).stamp hash op with
      | none => exact (Shard.step_unstamped slab op stamped).stale r stale
      | some q =>
          refine (Shard.step_stamped slab op q stamped).stale r (Or.inl stale) ?_
          intro equal
          subst equal
          have gone := fresh pre op [] rfl r stamped
          omega

/-- References are unique along a run exactly when no stamp of the run is already on a wheel. -/
theorem stamps_sound_iff_fresh (hash : K → UInt64) (cap : Nat) (bound : cap < 2 ^ 32)
    (ops : List (Op K)) : StampsSound hash cap ops ↔ FreshStamps hash cap ops := by
  constructor
  · intro sound pre op post split r stamped
    have after := (sound (pre ++ [op]) post (by simp [split])).1
    rw [Shard.run_append] at after
    exact Shard.OneRef.fresh (Slab.reachable bound pre) op after r stamped
  · rintro fresh pre post rfl s
    have slab : Slab hash s := Slab.reachable bound pre
    have one : s.OneRef := fresh.front.oneRef bound pre
    refine ⟨one, one.liveRefs.le, ?_⟩
    intro r behind turns
    have stale := fresh.front.stale_of_leftBehind bound pre r behind
    have staleThen := Shard.catchUp_stale slab turns r stale
    exact ⟨staleThen, Shard.tickOnce_refCount_of_stale (slab.catchUp turns) r staleThen⟩

/-- One insert into an empty shard stamps a reference that no wheel holds. -/
theorem stamps_sound_iff_fresh_single :
    FreshStamps (fun _ => 0) 1 [Op.handle (Command.insert 7 5)] ∧
      StampsSound (fun _ => 0) 1 [Op.handle (Command.insert 7 5)] := by
  have fresh : FreshStamps (fun _ => 0) 1 [Op.handle (Command.insert 7 5)] := by
    intro pre op post split r stamped
    cases pre with
    | nil => simp [Shard.run, Shard.new, Shard.refCount, wheelCount]
    | cons head pre => simp at split
  exact ⟨fresh, (stamps_sound_iff_fresh (fun _ => 0) 1 (by decide) _).mpr fresh⟩

/-- Overwriting a key puts the stamp of the old entry on the wheels a second time. -/
theorem stamps_unsound_after_overwrite :
    ¬ StampsSound (fun _ => 0) 1
      [Op.handle (Command.insert 7 5), Op.handle (Command.insert 7 5)] := by
  intro sound
  have twice := (sound [Op.handle (Command.insert 7 5), Op.handle (Command.insert 7 5)] [] rfl).1
  set s := (Shard.new Nat 1).run (fun _ => 0) [Op.handle (Command.insert 7 5)] with sEq
  have one : (s.step (fun _ => 0) (.handle (.insert 7 5))).OneRef := by
    have split := Shard.run_append (fun _ => 0) (Shard.new Nat 1) [Op.handle (Command.insert 7 5)]
      [Op.handle (Command.insert 7 5)]
    rw [List.singleton_append] at split
    rwa [split] at twice
  have slabNew : Slab (fun _ => 0) (Shard.new Nat 1) := Slab.new (by decide)
  have slab : Slab (fun _ => 0) s := slabNew.run _
  have first : (Shard.new Nat 1).stamp (fun _ => 0) (.handle (.insert 7 5)) = some (0, 1) := rfl
  have second : s.stamp (fun _ => 0) (.handle (.insert 7 5)) = some (0, 1) := by decide
  have before := (Shard.step_stamped slabNew _ _ first).counts (0, 1)
  have absent := Shard.OneRef.fresh slab (.handle (.insert 7 5)) one (0, 1) second
  change s.refCount (0, 1) = _ at before
  rw [List.count_singleton_self] at before
  omega

end Pigs.Cache.C100k
