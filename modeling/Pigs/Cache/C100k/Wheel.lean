import Pigs.Cache.C100k.Slab

/-! The timing wheel keeps, for every live entry, a reference in a bucket that is drained
no later than the entry's own tick, up to the one-tick delay of a cascade. -/

namespace Pigs.Cache.C100k

variable {K : Type} {cap : Nat}

/-- An expiry tick that is not overdue at `tick`. Entries moved down by a cascade on their own
tick wait for the next bucket, which is the only way to be late. -/
def Timely (tick expire : Nat) : Prop :=
  tick < expire ∨ (expire = tick ∧ WHEEL_L1 ∣ expire)

/-- Reference `r` waits in the bucket that an entry expiring at `expire` needs. -/
inductive Placed (s : Shard K cap) (r : Ref cap) (expire : Nat) : Prop where
  | l1 (later : s.tick < expire) (near : expire < s.tick + WHEEL_L1)
      (member : r ∈ s.wheelL1 (slotL1 expire))
  | next (now : expire = s.tick) (aligned : WHEEL_L1 ∣ expire)
      (member : r ∈ s.wheelL1 (slotL1 (s.tick + 1)))
  | l2 (later : s.tick / WHEEL_L1 < expire / WHEEL_L1)
      (near : expire / WHEEL_L1 ≤ s.tick / WHEEL_L1 + WHEEL_L2)
      (member : r ∈ s.wheelL2 (slotL2 expire))
  | l3 (later : s.tick / (WHEEL_L1 * WHEEL_L2) < expire / (WHEEL_L1 * WHEEL_L2))
      (member : r ∈ s.wheelL3 (slotL3 expire))

theorem Placed.timely {s : Shard K cap} {r : Ref cap} {expire : Nat} (placed : Placed s r expire) :
    Timely s.tick expire := by
  cases placed with
  | l1 later near member => exact Or.inl later
  | next now aligned member => exact Or.inr ⟨now, aligned⟩
  | l2 later near member =>
      left
      simp only [WHEEL_L1] at later
      omega
  | l3 later member =>
      left
      simp only [WHEEL_L1, WHEEL_L2] at later
      omega

namespace Shard

/-- The reference that the current tenant of a slot was scheduled under. -/
def refOf (s : Shard K cap) (idx : Fin cap) : Ref cap := (idx, (s.entries idx).version)

/-- Every live entry has a well placed reference. -/
def WheelOk (s : Shard K cap) : Prop :=
  ∀ idx, (s.entries idx).inUse = true → Placed s (s.refOf idx) (s.entries idx).expireTick

/-- No live entry is overdue. -/
def AllTimely (s : Shard K cap) : Prop :=
  ∀ idx, (s.entries idx).inUse = true → Timely s.tick (s.entries idx).expireTick

theorem WheelOk.allTimely {s : Shard K cap} (ok : s.WheelOk) : s.AllTimely :=
  fun idx used => (ok idx used).timely

/-- `t` has the references of `s`, and perhaps more, at the same tick. -/
structure Extends (s t : Shard K cap) : Prop where
  tick : t.tick = s.tick
  l1 : ∀ slot r, r ∈ s.wheelL1 slot → r ∈ t.wheelL1 slot
  l2 : ∀ slot r, r ∈ s.wheelL2 slot → r ∈ t.wheelL2 slot
  l3 : ∀ slot r, r ∈ s.wheelL3 slot → r ∈ t.wheelL3 slot

theorem Extends.of_eq {s t : Shard K cap} (tick : t.tick = s.tick) (l1 : t.wheelL1 = s.wheelL1)
    (l2 : t.wheelL2 = s.wheelL2) (l3 : t.wheelL3 = s.wheelL3) : Extends s t where
  tick := tick
  l1 := by intro slot r member; rwa [l1]
  l2 := by intro slot r member; rwa [l2]
  l3 := by intro slot r member; rwa [l3]

theorem mem_update_append {n : Nat} (wheel : Fin n → List (Ref cap)) (slot other : Fin n)
    (r added : Ref cap) (member : r ∈ wheel other) :
    r ∈ Function.update wheel slot (wheel slot ++ [added]) other := by
  by_cases same : other = slot
  · subst same
    rw [Function.update_self]
    exact List.mem_append_left _ member
  · rwa [Function.update_of_ne same]

theorem mem_update_of_ne {n : Nat} (wheel : Fin n → List (Ref cap)) (slot other : Fin n)
    (r : Ref cap) (bucket : List (Ref cap)) (ne : other ≠ slot) (member : r ∈ wheel other) :
    r ∈ Function.update wheel slot bucket other := by
  rwa [Function.update_of_ne ne]

theorem schedule_extends (s : Shard K cap) (idx : Fin cap) : Extends s (s.schedule idx) := by
  constructor
  · simp
  · intro slot r member
    simp only [schedule]
    split_ifs
    · exact mem_update_append _ _ _ _ _ member
    · exact mem_update_append _ _ _ _ _ member
    · exact member
    · exact member
  · intro slot r member
    simp only [schedule]
    split_ifs
    · exact member
    · exact member
    · exact mem_update_append _ _ _ _ _ member
    · exact member
  · intro slot r member
    simp only [schedule]
    split_ifs
    · exact member
    · exact member
    · exact member
    · exact mem_update_append _ _ _ _ _ member

end Shard

theorem Placed.mono {s t : Shard K cap} {r : Ref cap} {expire : Nat} (placed : Placed s r expire)
    (ext : Shard.Extends s t) : Placed t r expire := by
  cases placed with
  | l1 later near member =>
      exact .l1 (by rwa [ext.tick]) (by rwa [ext.tick]) (ext.l1 _ _ member)
  | next now aligned member =>
      exact .next (by rwa [ext.tick]) aligned (by rw [ext.tick]; exact ext.l1 _ _ member)
  | l2 later near member =>
      exact .l2 (by rwa [ext.tick]) (by rwa [ext.tick]) (ext.l2 _ _ member)
  | l3 later member => exact .l3 (by rwa [ext.tick]) (ext.l3 _ _ member)

/-- `schedule` puts a timely entry where it belongs. -/
theorem Placed.of_schedule (s : Shard K cap) (idx : Fin cap)
    (timely : Timely s.tick (s.entries idx).expireTick) :
    Placed (s.schedule idx) (s.refOf idx) (s.entries idx).expireTick := by
  simp only [Shard.schedule]
  split_ifs with due near mid
  · rcases timely with later | ⟨now, aligned⟩
    · omega
    · exact .next now aligned (by simp [Shard.pushL1, Shard.refOf])
  · refine .l1 (by simp only [Shard.pushL1]; omega) (by simp only [Shard.pushL1]; omega) ?_
    simp [Shard.pushL1, Shard.refOf]
  · simp only [WHEEL_L1, WHEEL_L2] at near mid
    refine .l2 ?_ ?_ (by simp [Shard.pushL2, Shard.refOf])
    · simp only [Shard.pushL2, WHEEL_L1]
      omega
    · simp only [Shard.pushL2, WHEEL_L1, WHEEL_L2]
      omega
  · simp only [WHEEL_L1, WHEEL_L2] at mid
    refine .l3 ?_ (by simp [Shard.pushL3, Shard.refOf])
    simp only [Shard.pushL3, WHEEL_L1, WHEEL_L2]
    omega

namespace Shard

theorem current_refOf (s : Shard K cap) (idx : Fin cap) (used : (s.entries idx).inUse = true) :
    s.current (s.refOf idx) = true := by
  simp [current, refOf, used]

theorem eq_refOf_of_current (s : Shard K cap) (r : Ref cap) (valid : s.current r = true) :
    (s.entries r.1).inUse = true ∧ r = s.refOf r.1 := by
  simp only [current, Bool.and_eq_true, beq_iff_eq] at valid
  exact ⟨valid.1, Prod.ext rfl valid.2.symm⟩

/-! The commands keep the wheel invariant. -/

theorem WheelOk.release {s : Shard K cap} (ok : s.WheelOk) (idx : Fin cap) :
    (s.release idx).WheelOk := by
  intro i used
  by_cases same : i = idx
  · subst same
    simp at used
  · have entry : (s.release idx).entries i = s.entries i := by simp [Function.update_of_ne same]
    rw [entry] at used
    rw [refOf, entry]
    exact (ok i used).mono (.of_eq (by simp) (by simp) (by simp) (by simp))

/-- Replacing the tenant of one slot and scheduling it. -/
theorem WheelOk.schedule_of_update {s : Shard K cap} (ok : s.WheelOk) (t : Shard K cap)
    (idx : Fin cap) (ext : Extends s t) (other : ∀ i, i ≠ idx → t.entries i = s.entries i)
    (timely : Timely t.tick (t.entries idx).expireTick) : (t.schedule idx).WheelOk := by
  intro i used
  rw [schedule_entries] at used
  have own : (t.schedule idx).refOf i = t.refOf i := by simp [refOf]
  rw [own, schedule_entries]
  by_cases same : i = idx
  · subst same
    exact Placed.of_schedule t i timely
  · have entry := other i same
    rw [entry] at used
    rw [refOf, entry]
    exact ((ok i used).mono ext).mono (schedule_extends t idx)

theorem WheelOk.delete [DecidableEq K] {hash : K → UInt64} {s : Shard K cap} (ok : s.WheelOk)
    (slab : Slab hash s) (key : K) : (s.delete hash key).WheelOk := by
  cases found : s.findEntry key (hash key) with
  | none => rwa [delete_of_none hash s key found]
  | some idx =>
      rw [slab.delete_found key idx found]
      exact ok.release idx

theorem WheelOk.insert [DecidableEq K] {hash : K → UInt64} {s : Shard K cap} (ok : s.WheelOk)
    (slab : Slab hash s) (key : K) (ttlTick : Nat) (positive : 1 ≤ ttlTick) :
    (s.insert hash key ttlTick).WheelOk := by
  rw [insert_eq]
  split_ifs with inside
  · apply (ok.delete slab key).schedule_of_update
    · exact .of_eq rfl rfl rfl rfl
    · intro i ne
      simp [Function.update_of_ne ne]
    · left
      simp only [store_tick, store_entries, Function.update_self, Entry.write]
      omega
  · exact ok.delete slab key

/-- A time to live of zero ticks is never stored. -/
def TtlPositive (s : Shard K cap) : Prop :=
  ∀ idx, (s.entries idx).inUse = true → 1 ≤ (s.entries idx).ttlTick

theorem WheelOk.refresh [DecidableEq K] {hash : K → UInt64} {s : Shard K cap} (ok : s.WheelOk)
    (slab : Slab hash s) (positive : s.TtlPositive) (key : K) :
    (s.refresh hash key).WheelOk := by
  rw [refresh_eq]
  split
  · rename_i idx found
    have used := ((slab.findEntry_eq_some_iff key idx).mp found).1
    have ttl := positive idx used
    apply ok.schedule_of_update
    · exact .of_eq rfl rfl rfl rfl
    · intro i ne
      simp [Function.update_of_ne ne]
    · left
      simp only [renew_tick, renew_entries, Function.update_self]
      omega
  · exact ok

/-! One tick. The two cascades first move every reference of their slot down, then the
level-one bucket of the tick is drained. -/

/-- Draining a bucket through `reschedule` carries over any placement predicate that
`schedule` establishes and only ever extends. -/
theorem foldl_reschedule (P : Shard K cap → Fin cap → Prop)
    (mono : ∀ s i j, P s i → P (s.schedule j) i) (bucket : List (Ref cap)) (s : Shard K cap)
    (placed : ∀ t : Shard K cap, t.entries = s.entries → t.tick = s.tick →
      ∀ i, (s.entries i).inUse = true → P (t.schedule i) i)
    (covered : ∀ i, (s.entries i).inUse = true → P s i ∨ s.refOf i ∈ bucket) :
    ∀ i, (s.entries i).inUse = true → P (bucket.foldl reschedule s) i := by
  induction bucket generalizing s with
  | nil =>
      intro i used
      rcases covered i used with done | member
      · exact done
      · cases member
  | cons r bucket ih =>
      rw [List.foldl_cons]
      by_cases valid : s.current r = true
      · have moved : s.reschedule r = s.schedule r.1 := by rw [reschedule, if_pos valid]
        rw [moved]
        have own := eq_refOf_of_current s r valid
        have fields : (s.schedule r.1).entries = s.entries := schedule_entries s r.1
        have after := ih (s.schedule r.1)
          (by
            intro t entries tick
            rw [fields] at entries ⊢
            exact placed t entries (by simpa using tick))
          (by
            intro i used
            rw [fields] at used
            have sameRef : (s.schedule r.1).refOf i = s.refOf i := by simp [refOf]
            rw [sameRef]
            rcases covered i used with done | member
            · exact Or.inl (mono s i r.1 done)
            · rcases List.mem_cons.mp member with head | tail
              · have slot : i = r.1 := congrArg Prod.fst head
                rw [slot]
                exact Or.inl (placed s rfl rfl r.1 own.1)
              · exact Or.inr tail)
        simpa only [fields] using after
      · have kept : s.reschedule r = s := by rw [reschedule, if_neg valid]
        rw [kept]
        apply ih s placed
        intro i used
        rcases covered i used with done | member
        · exact Or.inl done
        · rcases List.mem_cons.mp member with head | tail
          · rw [← head] at valid
            exact absurd (current_refOf s i used) valid
          · exact Or.inr tail

theorem foldl_reschedule_entries (bucket : List (Ref cap)) (s : Shard K cap) :
    (bucket.foldl reschedule s).entries = s.entries ∧
      (bucket.foldl reschedule s).tick = s.tick := by
  induction bucket generalizing s with
  | nil => exact ⟨rfl, rfl⟩
  | cons r bucket ih =>
      have head : (s.reschedule r).entries = s.entries ∧ (s.reschedule r).tick = s.tick := by
        unfold reschedule
        split <;> simp
      rw [List.foldl_cons, (ih _).1, (ih _).2]
      exact head

@[simp] theorem cascadeL2_entries (s : Shard K cap) : s.cascadeL2.entries = s.entries :=
  (foldl_reschedule_entries _ _).1

@[simp] theorem cascadeL2_tick (s : Shard K cap) : s.cascadeL2.tick = s.tick :=
  (foldl_reschedule_entries _ _).2

@[simp] theorem cascadeL3_entries (s : Shard K cap) : s.cascadeL3.entries = s.entries :=
  (foldl_reschedule_entries _ _).1

@[simp] theorem cascadeL3_tick (s : Shard K cap) : s.cascadeL3.tick = s.tick :=
  (foldl_reschedule_entries _ _).2

end Shard

/-- What a tick may find for a live entry before the cascades have run: a reference in the
bucket about to be drained, well placed for the new tick, or in the level-two or level-three
slot about to be moved down. -/
inductive Arriving (s : Shard K cap) (r : Ref cap) (expire : Nat) : Prop where
  | ripe (member : r ∈ s.wheelL1 (slotL1 s.tick))
  | placed (placed : Placed s r expire)
  | fallL2 (aligned : s.tick % WHEEL_L1 = 0) (member : r ∈ s.wheelL2 (slotL2 s.tick))
  | fallL3 (aligned : s.tick % WHEEL_L1 = 0) (turn : s.tick / WHEEL_L1 % WHEEL_L2 = 0)
      (member : r ∈ s.wheelL3 (slotL3 s.tick))

/-- The clock moves on by one tick. -/
theorem Placed.advance {s : Shard K cap} {r : Ref cap} {expire : Nat}
    (placed : Placed s r expire) : Arriving { s with tick := s.tick + 1 } r expire := by
  cases placed with
  | l1 later near member =>
      by_cases now : expire = s.tick + 1
      · subst now
        exact .ripe member
      · exact .placed (.l1 (by simp only; omega) (by simp only; omega) member)
  | next now aligned member => exact .ripe member
  | l2 later near member =>
      simp only [WHEEL_L1, WHEEL_L2] at later near
      by_cases now : expire / WHEEL_L1 = (s.tick + 1) / WHEEL_L1
      · refine .fallL2 ?_ ?_
        · simp only [WHEEL_L1] at now ⊢
          omega
        · have slot : slotL2 expire = slotL2 (s.tick + 1) := Fin.ext (by simp [slotL2, now])
          rwa [slot] at member
      · simp only [WHEEL_L1] at now
        refine .placed (.l2 ?_ ?_ member)
        · simp only [WHEEL_L1]
          omega
        · simp only [WHEEL_L1, WHEEL_L2]
          omega
  | l3 later member =>
      simp only [WHEEL_L1, WHEEL_L2] at later
      by_cases now : expire / (WHEEL_L1 * WHEEL_L2) = (s.tick + 1) / (WHEEL_L1 * WHEEL_L2)
      · refine .fallL3 ?_ ?_ ?_
        · simp only [WHEEL_L1, WHEEL_L2] at now ⊢
          omega
        · simp only [WHEEL_L1, WHEEL_L2] at now ⊢
          omega
        · have slot : slotL3 expire = slotL3 (s.tick + 1) := Fin.ext (by simp [slotL3, now])
          rwa [slot] at member
      · simp only [WHEEL_L1, WHEEL_L2] at now
        refine .placed (.l3 ?_ member)
        simp only [WHEEL_L1, WHEEL_L2]
        omega

namespace Shard

/-- A live entry is in the bucket of the tick or well placed. -/
def Ready (s : Shard K cap) (idx : Fin cap) : Prop :=
  s.refOf idx ∈ s.wheelL1 (slotL1 s.tick) ∨ Placed s (s.refOf idx) (s.entries idx).expireTick

theorem Ready.schedule {s : Shard K cap} {i : Fin cap} (ready : s.Ready i) (j : Fin cap) :
    (s.schedule j).Ready i := by
  have same : (s.schedule j).refOf i = s.refOf i := by simp [refOf]
  have ext := schedule_extends s j
  rcases ready with ripe | placed
  · left
    rw [same, ext.tick]
    exact ext.l1 _ _ ripe
  · right
    rw [same, schedule_entries]
    exact placed.mono ext

theorem Ready.of_schedule {s t : Shard K cap} (timely : s.AllTimely)
    (entries : t.entries = s.entries) (tick : t.tick = s.tick) (i : Fin cap)
    (used : (s.entries i).inUse = true) : (t.schedule i).Ready i := by
  have same : (t.schedule i).refOf i = t.refOf i := by simp [refOf]
  right
  rw [same, schedule_entries]
  apply Placed.of_schedule
  rw [entries, tick]
  exact timely i used

theorem cascadeL3_ready (s : Shard K cap) (timely : s.AllTimely)
    (arriving : ∀ i, (s.entries i).inUse = true →
      s.Ready i ∨ s.refOf i ∈ s.wheelL3 (slotL3 s.tick)) :
    ∀ i, (s.cascadeL3.entries i).inUse = true → s.cascadeL3.Ready i := by
  rw [cascadeL3_entries]
  refine foldl_reschedule Ready (fun _ i j ready => Ready.schedule ready j)
    (s.wheelL3 (slotL3 s.tick))
    { s with wheelL3 := Function.update s.wheelL3 (slotL3 s.tick) [] } ?_ ?_
  · intro t entries tick i used
    exact Ready.of_schedule timely entries tick i used
  · intro i used
    rcases arriving i used with (ripe | placed) | falling
    · exact Or.inl (Or.inl ripe)
    · cases placed with
      | l1 later near member => exact Or.inl (Or.inr (.l1 later near member))
      | next now aligned member => exact Or.inl (Or.inr (.next now aligned member))
      | l2 later near member => exact Or.inl (Or.inr (.l2 later near member))
      | l3 later member =>
          by_cases slot : slotL3 (s.entries i).expireTick = slotL3 s.tick
          · rw [slot] at member
            exact Or.inr member
          · exact Or.inl (Or.inr (.l3 later (mem_update_of_ne _ _ _ _ _ slot member)))
    · exact Or.inr falling

theorem cascadeL2_ready (s : Shard K cap) (timely : s.AllTimely)
    (arriving : ∀ i, (s.entries i).inUse = true →
      (s.Ready i ∨ (s.tick / WHEEL_L1 % WHEEL_L2 = 0 ∧
        s.refOf i ∈ s.wheelL3 (slotL3 s.tick))) ∨ s.refOf i ∈ s.wheelL2 (slotL2 s.tick)) :
    ∀ i, (s.cascadeL2.entries i).inUse = true → s.cascadeL2.Ready i ∨
      (s.cascadeL2.tick / WHEEL_L1 % WHEEL_L2 = 0 ∧
        s.cascadeL2.refOf i ∈ s.cascadeL2.wheelL3 (slotL3 s.cascadeL2.tick)) := by
  rw [cascadeL2_entries]
  refine foldl_reschedule (fun t i => t.Ready i ∨ (t.tick / WHEEL_L1 % WHEEL_L2 = 0 ∧
      t.refOf i ∈ t.wheelL3 (slotL3 t.tick))) ?_
    (s.wheelL2 (slotL2 s.tick))
    { s with wheelL2 := Function.update s.wheelL2 (slotL2 s.tick) [] } ?_ ?_
  · intro t i j found
    rcases found with ready | ⟨turn, falling⟩
    · exact Or.inl (ready.schedule j)
    · right
      have same : (t.schedule j).refOf i = t.refOf i := by simp [refOf]
      rw [same, schedule_tick]
      exact ⟨turn, (schedule_extends t j).l3 _ _ falling⟩
  · intro t entries tick i used
    exact Or.inl (Ready.of_schedule timely entries tick i used)
  · intro i used
    rcases arriving i used with ((ripe | placed) | fallL3) | fallL2
    · exact Or.inl (Or.inl (Or.inl ripe))
    · cases placed with
      | l1 later near member => exact Or.inl (Or.inl (Or.inr (.l1 later near member)))
      | next now aligned member => exact Or.inl (Or.inl (Or.inr (.next now aligned member)))
      | l2 later near member =>
          by_cases slot : slotL2 (s.entries i).expireTick = slotL2 s.tick
          · rw [slot] at member
            exact Or.inr member
          · exact Or.inl (Or.inl (Or.inr
              (.l2 later near (mem_update_of_ne _ _ _ _ _ slot member))))
      | l3 later member => exact Or.inl (Or.inl (Or.inr (.l3 later member)))
    · exact Or.inl (Or.inr fallL3)
    · exact Or.inr fallL2

/-- Draining the bucket of the tick: what was in it is dropped, moved on or expired. -/
theorem WheelOk.processBucket (hash : K → UInt64) (bucket : List (Ref cap)) (s : Shard K cap)
    (slab : Slab hash s)
    (covered : ∀ i, (s.entries i).inUse = true →
      Placed s (s.refOf i) (s.entries i).expireTick ∨ s.refOf i ∈ bucket) :
    (s.processBucket bucket).WheelOk := by
  induction bucket generalizing s with
  | nil =>
      intro i used
      rcases covered i used with placed | member
      · exact placed
      · cases member
  | cons r bucket ih =>
      apply ih (s.processRef r) (slab.processRef r)
      cases valid : s.current r with
      | false =>
          rw [processRef_of_stale s r valid]
          intro i used
          rcases covered i used with placed | member
          · exact Or.inl placed
          · rcases List.mem_cons.mp member with head | tail
            · rw [← head, current_refOf s i used] at valid
              cases valid
            · exact Or.inr tail
      | true =>
          rcases eq_refOf_of_current s r valid with ⟨used, own⟩
          by_cases early : s.tick < (s.entries r.1).expireTick
          · rw [processRef_of_early s r valid early]
            intro i usedI
            have same : (s.schedule r.1).refOf i = s.refOf i := by simp [refOf]
            rw [schedule_entries] at usedI ⊢
            rw [same]
            rcases covered i usedI with placed | member
            · exact Or.inl (placed.mono (schedule_extends s r.1))
            · rcases List.mem_cons.mp member with head | tail
              · have slot : i = r.1 := congrArg Prod.fst head
                rw [slot]
                exact Or.inl (Placed.of_schedule s r.1 (Or.inl early))
              · exact Or.inr tail
          · rcases slab.keyed r.1 used with ⟨key, held, _⟩
            rw [processRef_of_due s r key valid (by omega) held]
            intro i usedI
            rw [pushEvent_entries] at usedI
            by_cases slot : i = r.1
            · subst slot
              simp at usedI
            · have entry : (s.release r.1).entries i = s.entries i := by
                simp [Function.update_of_ne slot]
              rw [entry] at usedI
              rw [refOf, pushEvent_entries, entry]
              rcases covered i usedI with placed | member
              · exact Or.inl (placed.mono (.of_eq (by simp) (by simp) (by simp) (by simp)))
              · rcases List.mem_cons.mp member with head | tail
                · exact absurd (congrArg Prod.fst head) slot
                · exact Or.inr tail

/-- The state of a tick after the cascades, and the bucket then drained. -/
def cascaded (s : Shard K cap) : Shard K cap :=
  let s := { s with tick := s.tick + 1 }
  if s.tick % WHEEL_L1 = 0 then
    let s := s.cascadeL2
    if s.tick / WHEEL_L1 % WHEEL_L2 = 0 then s.cascadeL3 else s
  else
    s

def drained (s : Shard K cap) : Shard K cap :=
  { s with wheelL1 := Function.update s.wheelL1 (slotL1 s.tick) [] }

def compacted (s : Shard K cap) : List (Ref cap) :=
  let bucket := s.wheelL1 (slotL1 s.tick)
  if COMPACT_THRESHOLD < bucket.length then bucket.filter s.current else bucket

theorem tickOnce_eq (s : Shard K cap) :
    s.tickOnce = s.cascaded.drained.processBucket s.cascaded.compacted := rfl

@[simp] theorem cascaded_entries (s : Shard K cap) : s.cascaded.entries = s.entries := by
  simp only [cascaded]
  split_ifs <;> simp

@[simp] theorem cascaded_tick (s : Shard K cap) : s.cascaded.tick = s.tick + 1 := by
  simp only [cascaded]
  split_ifs <;> simp

theorem cascaded_slab {hash : K → UInt64} {s : Shard K cap} (slab : Slab hash s) :
    Slab hash s.cascaded := by
  have ticked : Slab hash { s with tick := s.tick + 1 } := slab.congr _ rfl rfl rfl
  simp only [cascaded]
  split_ifs
  · exact ticked.cascadeL2.cascadeL3
  · exact ticked.cascadeL2
  · exact ticked

theorem mem_compacted (s : Shard K cap) (i : Fin cap) (used : (s.entries i).inUse = true)
    (member : s.refOf i ∈ s.wheelL1 (slotL1 s.tick)) : s.refOf i ∈ s.compacted := by
  simp only [compacted]
  split_ifs
  · exact List.mem_filter.mpr ⟨member, current_refOf s i used⟩
  · exact member

/-- On a tick where a cascade runs, no live entry can be a tick late already. -/
theorem WheelOk.timely_of_aligned {s : Shard K cap} (ok : s.WheelOk)
    (aligned : (s.tick + 1) % WHEEL_L1 = 0) :
    AllTimely { s with tick := s.tick + 1 } := by
  intro i used
  simp only [WHEEL_L1] at aligned
  rcases ok.allTimely i used with later | ⟨now, multiple⟩
  · by_cases same : (s.entries i).expireTick = s.tick + 1
    · refine Or.inr ⟨same, ?_⟩
      simp only [WHEEL_L1]
      omega
    · left
      simp only
      omega
  · simp only [WHEEL_L1] at multiple
    omega

theorem WheelOk.cascaded_ready {s : Shard K cap} (ok : s.WheelOk) :
    ∀ i, (s.cascaded.entries i).inUse = true → s.cascaded.Ready i := by
  have arriving : ∀ i, (s.entries i).inUse = true → Arriving { s with tick := s.tick + 1 }
      (s.refOf i) (s.entries i).expireTick := fun i used => (ok i used).advance
  by_cases aligned : (s.tick + 1) % WHEEL_L1 = 0
  · have timely := ok.timely_of_aligned aligned
    have moved := cascadeL2_ready { s with tick := s.tick + 1 } timely (by
      intro i used
      cases arriving i used with
      | ripe member => exact Or.inl (Or.inl (Or.inl member))
      | placed placed => exact Or.inl (Or.inl (Or.inr placed))
      | fallL2 _ member => exact Or.inr member
      | fallL3 _ turn member => exact Or.inl (Or.inr ⟨turn, member⟩))
    simp only [cascaded, aligned, if_true, cascadeL2_tick]
    split_ifs with turn
    · apply cascadeL3_ready
      · intro i used
        rw [cascadeL2_entries] at used ⊢
        rw [cascadeL2_tick]
        exact timely i used
      · intro i used
        exact (moved i used).imp id And.right
    · intro i used
      rcases moved i used with ready | ⟨both, _⟩
      · exact ready
      · rw [cascadeL2_tick] at both
        exact absurd both turn
  · simp only [cascaded, if_neg aligned]
    intro i used
    cases arriving i used with
    | ripe member => exact Or.inl member
    | placed placed => exact Or.inr placed
    | fallL2 both _ => exact absurd both aligned
    | fallL3 both _ _ => exact absurd both aligned

theorem WheelOk.tickOnce {hash : K → UInt64} {s : Shard K cap} (ok : s.WheelOk)
    (slab : Slab hash s) : s.tickOnce.WheelOk := by
  rw [tickOnce_eq]
  apply WheelOk.processBucket hash
  · exact (cascaded_slab slab).congr _ rfl rfl rfl
  · intro i used
    set t := s.cascaded with tEq
    rcases ok.cascaded_ready i used with ripe | placed
    · exact Or.inr (mem_compacted t i used ripe)
    · cases placed with
      | l1 later near member =>
          by_cases slot : slotL1 (t.entries i).expireTick = slotL1 t.tick
          · rw [slot] at member
            exact Or.inr (mem_compacted t i used member)
          · exact Or.inl (.l1 later near (mem_update_of_ne _ _ _ _ _ slot member))
      | next now aligned member =>
          by_cases slot : slotL1 (t.tick + 1) = slotL1 t.tick
          · rw [slot] at member
            exact Or.inr (mem_compacted t i used member)
          · exact Or.inl (.next now aligned (mem_update_of_ne _ _ _ _ _ slot member))
      | l2 later near member => exact Or.inl (.l2 later near member)
      | l3 later member => exact Or.inl (.l3 later member)

theorem WheelOk.new : (Shard.new K cap).WheelOk := by
  intro i used
  simp [Shard.new, Entry.newEmpty] at used

/-! What a wake-up leaves of the entries and the tick. -/

theorem processRef_entry {hash : K → UInt64} {s : Shard K cap} (slab : Slab hash s) (r : Ref cap)
    (i : Fin cap) (used : ((s.processRef r).entries i).inUse = true) :
    (s.processRef r).entries i = s.entries i := by
  cases valid : s.current r with
  | false => rw [processRef_of_stale s r valid]
  | true =>
      by_cases early : s.tick < (s.entries r.1).expireTick
      · rw [processRef_of_early s r valid early, schedule_entries]
      · rcases eq_refOf_of_current s r valid with ⟨usedR, _⟩
        rcases slab.keyed r.1 usedR with ⟨key, held, _⟩
        rw [processRef_of_due s r key valid (by omega) held, pushEvent_entries] at used ⊢
        by_cases slot : i = r.1
        · subst slot
          simp at used
        · simp [Function.update_of_ne slot]

theorem processBucket_entry {hash : K → UInt64} (bucket : List (Ref cap)) {s : Shard K cap}
    (slab : Slab hash s) (i : Fin cap) (used : ((s.processBucket bucket).entries i).inUse = true) :
    (s.processBucket bucket).entries i = s.entries i := by
  induction bucket generalizing s with
  | nil => rfl
  | cons r bucket ih =>
      have rest := ih (slab.processRef r) used
      have first := processRef_entry slab r i (by
        rw [← rest]
        exact used)
      exact rest.trans first

theorem processRef_tick (s : Shard K cap) (r : Ref cap) : (s.processRef r).tick = s.tick := by
  simp only [processRef]
  split_ifs
  · rfl
  · simp
  · split
    · rfl
    · rw [pushEvent_tick]
      simp only [setEntry]
      rw [removeIndex_eq]

theorem processBucket_tick (bucket : List (Ref cap)) (s : Shard K cap) :
    (s.processBucket bucket).tick = s.tick := by
  induction bucket generalizing s with
  | nil => rfl
  | cons r bucket ih => exact (ih (s.processRef r)).trans (processRef_tick s r)

@[simp] theorem tickOnce_tick (s : Shard K cap) : s.tickOnce.tick = s.tick + 1 := by
  rw [tickOnce_eq, processBucket_tick]
  exact cascaded_tick s

theorem catchUp_tick (turns : Nat) (s : Shard K cap) : (s.catchUp turns).tick = s.tick + turns := by
  induction turns generalizing s with
  | zero => rfl
  | succ turns ih =>
      rw [catchUp, ih, tickOnce_tick]
      omega

theorem onTick_tick (s : Shard K cap) (elapsed : Nat) :
    (s.onTick elapsed).tick = max s.tick (min (elapsed / TICK_MS) (s.tick + MAX_CATCHUP)) := by
  have turned := catchUp_tick (min (elapsed / TICK_MS) (s.tick + MAX_CATCHUP) - s.tick) s
  simp only [onTick]
  split_ifs
  · rw [turned]
    omega
  · simp only [flush]
    rw [turned]
    omega

end Shard

namespace Slab

variable {hash : K → UInt64} {s : Shard K cap}

theorem tickOnce_entry (slab : Slab hash s) (i : Fin cap)
    (used : (s.tickOnce.entries i).inUse = true) : s.tickOnce.entries i = s.entries i := by
  have drained : Slab hash s.cascaded.drained :=
    (Shard.cascaded_slab slab).congr _ rfl rfl rfl
  exact (Shard.processBucket_entry _ drained i used).trans
    (congrFun (Shard.cascaded_entries s) i)

theorem catchUp_entry (slab : Slab hash s) (turns : Nat) (i : Fin cap)
    (used : ((s.catchUp turns).entries i).inUse = true) :
    (s.catchUp turns).entries i = s.entries i := by
  induction turns generalizing s with
  | zero => rfl
  | succ turns ih =>
      have rest := ih slab.tickOnce used
      exact rest.trans (slab.tickOnce_entry i (rest ▸ used))

/-- A wake-up only ever ends tenancies. -/
theorem onTick_entry (slab : Slab hash s) (elapsed : Nat) (i : Fin cap)
    (used : ((s.onTick elapsed).entries i).inUse = true) :
    (s.onTick elapsed).entries i = s.entries i := by
  simp only [Shard.onTick] at used ⊢
  split_ifs at used ⊢
  · exact slab.catchUp_entry _ i used
  · exact slab.catchUp_entry _ i used

end Slab

end Pigs.Cache.C100k
