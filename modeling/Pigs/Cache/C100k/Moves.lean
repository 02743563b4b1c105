import Pigs.Cache.C100k.Shard

/-! The operations of a shard as compositions of a few moves: release a slot, store a key
in a slot, renew a slot, schedule a reference, report an event. -/

namespace Pigs.Cache.C100k.Shard

variable {K : Type} {cap : Nat}

/-- Give a slot back: out of its index bucket, onto the free list. `delete`, the overwrite
inside `insert` and the expiry in `process_bucket` all end in this state. -/
def release (s : Shard K cap) (idx : Fin cap) : Shard K cap :=
  let e := s.entries idx
  { s.removeIndex e.hash idx with
    entries := Function.update s.entries idx
      { e with key := none, inUse := false, nextFree := s.freeHead }
    freeHead := idx }

/-- Put a key in a slot that was taken from the free list. -/
def store (s : Shard K cap) (idx : Fin cap) (key : K) (h : UInt64) (ttlTick : Nat) :
    Shard K cap :=
  let e := s.entries idx
  { s.insertIndex h idx with
    entries := Function.update s.entries idx (e.write key h ttlTick s.tick)
    freeHead := e.nextFree }

def renew (s : Shard K cap) (idx : Fin cap) : Shard K cap :=
  let e := s.entries idx
  s.setEntry idx { e with version := Entry.nextVersion e.version, expireTick := s.tick + e.ttlTick }

theorem removeIndex_eq (s : Shard K cap) (h : UInt64) (idx : Fin cap) :
    s.removeIndex h idx = { s with indexMap := (s.removeIndex h idx).indexMap } := by
  simp only [removeIndex]
  split <;> rfl

theorem removeIndex_indexMap_congr (s t : Shard K cap) (h : UInt64) (idx : Fin cap)
    (same : t.indexMap = s.indexMap) :
    (t.removeIndex h idx).indexMap = (s.removeIndex h idx).indexMap := by
  simp only [removeIndex, same]
  split <;> simp [same]

section Fields

variable (s : Shard K cap) (idx : Fin cap)

@[simp] theorem release_entries : (s.release idx).entries = Function.update s.entries idx
    { s.entries idx with key := none, inUse := false, nextFree := s.freeHead } := rfl

@[simp] theorem release_freeHead : (s.release idx).freeHead = idx := rfl

@[simp] theorem release_wheelL1 : (s.release idx).wheelL1 = s.wheelL1 := by
  simp only [release]
  rw [removeIndex_eq]

@[simp] theorem release_wheelL2 : (s.release idx).wheelL2 = s.wheelL2 := by
  simp only [release]
  rw [removeIndex_eq]

@[simp] theorem release_wheelL3 : (s.release idx).wheelL3 = s.wheelL3 := by
  simp only [release]
  rw [removeIndex_eq]

@[simp] theorem release_tick : (s.release idx).tick = s.tick := by
  simp only [release]
  rw [removeIndex_eq]

@[simp] theorem release_batch : (s.release idx).batch = s.batch := by
  simp only [release]
  rw [removeIndex_eq]

@[simp] theorem release_sent : (s.release idx).sent = s.sent := by
  simp only [release]
  rw [removeIndex_eq]

variable (key : K) (h : UInt64) (ttlTick : Nat)

@[simp] theorem store_entries : (s.store idx key h ttlTick).entries =
    Function.update s.entries idx ((s.entries idx).write key h ttlTick s.tick) := rfl

@[simp] theorem store_wheelL1 : (s.store idx key h ttlTick).wheelL1 = s.wheelL1 := rfl
@[simp] theorem store_wheelL2 : (s.store idx key h ttlTick).wheelL2 = s.wheelL2 := rfl
@[simp] theorem store_wheelL3 : (s.store idx key h ttlTick).wheelL3 = s.wheelL3 := rfl
@[simp] theorem store_tick : (s.store idx key h ttlTick).tick = s.tick := rfl
@[simp] theorem store_batch : (s.store idx key h ttlTick).batch = s.batch := rfl
@[simp] theorem store_sent : (s.store idx key h ttlTick).sent = s.sent := rfl

@[simp] theorem renew_entries : (s.renew idx).entries = Function.update s.entries idx
    { s.entries idx with
      version := Entry.nextVersion (s.entries idx).version
      expireTick := s.tick + (s.entries idx).ttlTick } := rfl

@[simp] theorem renew_freeHead : (s.renew idx).freeHead = s.freeHead := rfl
@[simp] theorem renew_indexMap : (s.renew idx).indexMap = s.indexMap := rfl
@[simp] theorem renew_wheelL1 : (s.renew idx).wheelL1 = s.wheelL1 := rfl
@[simp] theorem renew_wheelL2 : (s.renew idx).wheelL2 = s.wheelL2 := rfl
@[simp] theorem renew_wheelL3 : (s.renew idx).wheelL3 = s.wheelL3 := rfl
@[simp] theorem renew_tick : (s.renew idx).tick = s.tick := rfl
@[simp] theorem renew_batch : (s.renew idx).batch = s.batch := rfl
@[simp] theorem renew_sent : (s.renew idx).sent = s.sent := rfl

variable (event : CacheEvent K)

@[simp] theorem pushEvent_entries : (s.pushEvent event).entries = s.entries := by
  simp only [pushEvent, flush]
  split_ifs <;> rfl

@[simp] theorem pushEvent_freeHead : (s.pushEvent event).freeHead = s.freeHead := by
  simp only [pushEvent, flush]
  split_ifs <;> rfl

@[simp] theorem pushEvent_indexMap : (s.pushEvent event).indexMap = s.indexMap := by
  simp only [pushEvent, flush]
  split_ifs <;> rfl

@[simp] theorem pushEvent_wheelL1 : (s.pushEvent event).wheelL1 = s.wheelL1 := by
  simp only [pushEvent, flush]
  split_ifs <;> rfl

@[simp] theorem pushEvent_wheelL2 : (s.pushEvent event).wheelL2 = s.wheelL2 := by
  simp only [pushEvent, flush]
  split_ifs <;> rfl

@[simp] theorem pushEvent_wheelL3 : (s.pushEvent event).wheelL3 = s.wheelL3 := by
  simp only [pushEvent, flush]
  split_ifs <;> rfl

@[simp] theorem pushEvent_tick : (s.pushEvent event).tick = s.tick := by
  simp only [pushEvent, flush]
  split_ifs <;> rfl

end Fields

/-! The operations in terms of the moves. -/

theorem processRef_of_stale (s : Shard K cap) (r : Ref cap) (stale : s.current r = false) :
    s.processRef r = s := by
  simp [processRef, stale]

theorem processRef_of_early (s : Shard K cap) (r : Ref cap) (valid : s.current r = true)
    (early : s.tick < (s.entries r.1).expireTick) : s.processRef r = s.schedule r.1 := by
  simp [processRef, valid, early]

theorem processRef_of_due (s : Shard K cap) (r : Ref cap) (key : K) (valid : s.current r = true)
    (due : (s.entries r.1).expireTick ≤ s.tick) (held : (s.entries r.1).key = some key) :
    s.processRef r = (s.release r.1).pushEvent
      { key := key, hash := (s.entries r.1).hash, version := (s.entries r.1).version } := by
  have notEarly : ¬ s.tick < (s.entries r.1).expireTick := by omega
  simp only [processRef, valid, Bool.not_true, Bool.false_eq_true, if_false, if_neg notEarly,
    Entry.takeKey, held, Option.map_some]
  congr 1
  set taken : Entry K := { s.entries r.1 with inUse := false, key := none } with takenEq
  have bare := removeIndex_eq (s.setEntry r.1 taken) (s.entries r.1).hash r.1
  rw [bare]
  simp only [release]
  rw [removeIndex_eq s,
    removeIndex_indexMap_congr s (s.setEntry r.1 taken) (s.entries r.1).hash r.1 rfl]
  simp [setEntry, takenEq]

theorem free_removeIndex (s : Shard K cap) (idx : Fin cap) (used : (s.entries idx).inUse = true) :
    (s.removeIndex (s.entries idx).hash idx).free idx = s.release idx := by
  rw [removeIndex_eq]
  simp only [free, setEntry, release, used, if_true, Entry.dropKey]
  rw [removeIndex_eq]

variable [DecidableEq K] (hash : K → UInt64)

theorem delete_of_none (s : Shard K cap) (key : K) (absent : s.findEntry key (hash key) = none) :
    s.delete hash key = s := by
  simp [delete, absent]

theorem delete_of_some (s : Shard K cap) (key : K) (idx : Fin cap)
    (found : s.findEntry key (hash key) = some idx) (used : (s.entries idx).inUse = true)
    (hashed : (s.entries idx).hash = hash key) : s.delete hash key = s.release idx := by
  simp only [delete, found]
  rw [← hashed]
  exact free_removeIndex s idx used

/-- The overwritten entry goes exactly as `delete` drops it. -/
theorem insert_eq (s : Shard K cap) (key : K) (ttlTick : Nat) :
    s.insert hash key ttlTick =
      if inside : (s.delete hash key).freeHead < cap then
        ((s.delete hash key).store ⟨_, inside⟩ key (hash key) ttlTick).schedule ⟨_, inside⟩
      else s.delete hash key := by
  by_cases inside : (s.delete hash key).freeHead < cap
  · have taken : (s.delete hash key).alloc = some (⟨_, inside⟩, _) := dif_pos inside
    rw [dif_pos inside]
    simp only [insert]
    simp only [delete] at taken
    rw [taken]
    rfl
  · have full : (s.delete hash key).alloc = none := dif_neg inside
    rw [dif_neg inside]
    simp only [insert]
    simp only [delete] at full
    rw [full]
    rfl

theorem refresh_eq (s : Shard K cap) (key : K) :
    s.refresh hash key =
      match s.findEntry key (hash key) with
      | some idx => (s.renew idx).schedule idx
      | none => s := rfl

end Pigs.Cache.C100k.Shard
