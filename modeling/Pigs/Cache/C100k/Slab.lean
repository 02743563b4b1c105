import Pigs.Cache.C100k.Moves
import Pigs.Lib.FreeChain

/-! Slab, free list and hash index of a shard agree in every reachable state. -/

namespace Pigs.Cache.C100k

variable {K : Type} {cap : Nat}

/-- The slab invariant. `freeList` threads exactly the unused slots up to the end mark `cap`;
`bucket` and `indexed` describe the hash index; `keyed` and `distinct` the keys held. -/
structure Slab (hash : K → UInt64) (s : Shard K cap) : Prop where
  freeList : ∃ cells : List (Fin cap),
    Lib.FreeChain (fun i => (s.entries i).nextFree) s.freeHead cells ∧ cells.Nodup ∧
      ∀ i, i ∈ cells ↔ (s.entries i).inUse = false
  bucket : ∀ h list, s.indexMap h = some list → list ≠ [] ∧ list.Nodup
  indexed : ∀ h i, i ∈ (s.indexMap h).getD [] ↔
    (s.entries i).inUse = true ∧ (s.entries i).hash = h
  keyed : ∀ i, (s.entries i).inUse = true →
    ∃ key, (s.entries i).key = some key ∧ (s.entries i).hash = hash key
  distinct : ∀ i j, (s.entries i).inUse = true → (s.entries j).inUse = true →
    (s.entries i).key = (s.entries j).key → i = j

namespace Slab

variable {hash : K → UInt64} {s : Shard K cap}

/-- The invariant reads the entries, the free head and the index only. -/
theorem congr (slab : Slab hash s) (t : Shard K cap) (entries : t.entries = s.entries)
    (freeHead : t.freeHead = s.freeHead) (indexMap : t.indexMap = s.indexMap) : Slab hash t := by
  constructor
  · rw [entries, freeHead]
    exact slab.freeList
  · rw [indexMap]
    exact slab.bucket
  · rw [entries, indexMap]
    exact slab.indexed
  · rw [entries]
    exact slab.keyed
  · rw [entries]
    exact slab.distinct

theorem new (bound : cap < 2 ^ 32) : Slab hash (Shard.new K cap) := by
  constructor
  · refine ⟨List.finRange cap, ?_, List.nodup_finRange cap, ?_⟩
    · apply Lib.FreeChain.finRange
      intro cell
      have below : cell.val + 1 < 2 ^ 32 := by omega
      exact Nat.mod_eq_of_lt below
    · intro i
      simp [Shard.new, Entry.newEmpty]
  · intro h list found
    simp [Shard.new] at found
  · intro h i
    simp [Shard.new, Entry.newEmpty]
  · intro i used
    simp [Shard.new, Entry.newEmpty] at used
  · intro i j used
    simp [Shard.new, Entry.newEmpty] at used

end Slab

/-! The index after a removal and after an insertion. -/

namespace Shard

theorem removeIndex_of_ne (s : Shard K cap) (h g : UInt64) (idx : Fin cap) (ne : g ≠ h) :
    (s.removeIndex h idx).indexMap g = s.indexMap g := by
  simp only [removeIndex]
  split
  · rfl
  · simp [Function.update_of_ne ne]

theorem removeIndex_self (s : Shard K cap) (h : UInt64) (idx : Fin cap) :
    ((s.removeIndex h idx).indexMap h).getD [] |>.Perm (((s.indexMap h).getD []).erase idx) := by
  cases found : s.indexMap h with
  | none => simp [removeIndex, found]
  | some v =>
      by_cases member : idx ∈ v
      · have erased := Lib.swapRemove_perm_erase v idx member
        cases empty : Lib.swapRemove v (v.idxOf idx) with
        | nil =>
            rw [empty] at erased
            simp [removeIndex, found, member, empty, erased.symm.eq_nil]
        | cons head tail =>
            rw [empty] at erased
            simpa [removeIndex, found, member, empty] using erased
      · cases v with
        | nil => simp [removeIndex, found]
        | cons head tail => simp [removeIndex, found, member, List.erase_of_not_mem]

theorem removeIndex_nonempty (s : Shard K cap) (h : UInt64) (idx : Fin cap) (list : List (Fin cap))
    (after : (s.removeIndex h idx).indexMap h = some list) : list ≠ [] := by
  cases found : s.indexMap h with
  | none => simp [removeIndex, found] at after
  | some v =>
      simp only [removeIndex, found, Function.update_self] at after
      split_ifs at after with member empty empty
      · rw [← Option.some.inj after]
        simpa using empty
      · rw [← Option.some.inj after]
        simpa using empty

theorem insertIndex_self (s : Shard K cap) (h : UInt64) (idx : Fin cap) :
    (s.insertIndex h idx).indexMap h = some ((s.indexMap h).getD [] ++ [idx]) := by
  simp [insertIndex]

theorem insertIndex_of_ne (s : Shard K cap) (h g : UInt64) (idx : Fin cap) (ne : g ≠ h) :
    (s.insertIndex h idx).indexMap g = s.indexMap g := by
  simp [insertIndex, Function.update_of_ne ne]

/-- A stored entry is indexed last among those of its hash. -/
theorem store_members (s : Shard K cap) (idx : Fin cap) (key : K) (hashed : UInt64) (ttlTick : Nat)
    (g : UInt64) :
    ((s.store idx key hashed ttlTick).indexMap g).getD [] =
      if g = hashed then (s.indexMap g).getD [] ++ [idx] else (s.indexMap g).getD [] := by
  by_cases same : g = hashed
  · subst same
    simp [store, insertIndex_self]
  · simp [store, same, insertIndex_of_ne]

end Shard

namespace Slab

variable {hash : K → UInt64} {s : Shard K cap}

theorem members_nodup (slab : Slab hash s) (h : UInt64) : ((s.indexMap h).getD []).Nodup := by
  cases found : s.indexMap h with
  | none => simp
  | some list => exact (slab.bucket h list found).2

/-- Releasing a live slot restores the free list, the flag and the index together. -/
theorem release (slab : Slab hash s) (idx : Fin cap) (used : (s.entries idx).inUse = true) :
    Slab hash (s.release idx) := by
  have other : ∀ i, i ≠ idx → (s.release idx).entries i = s.entries i := by
    intro i ne
    simp [Function.update_of_ne ne]
  have members : ∀ g, (((s.release idx).indexMap g).getD []).Perm
      (if g = (s.entries idx).hash then ((s.indexMap g).getD []).erase idx
        else (s.indexMap g).getD []) := by
    intro g
    by_cases same : g = (s.entries idx).hash
    · subst same
      simpa [Shard.release] using Shard.removeIndex_self s (s.entries idx).hash idx
    · simp [Shard.release, same, Shard.removeIndex_of_ne]
  constructor
  · rcases slab.freeList with ⟨cells, chain, nodup, exact⟩
    have fresh : idx ∉ cells := by
      intro member
      rw [exact, used] at member
      cases member
    refine ⟨idx :: cells, ?_, List.nodup_cons.mpr ⟨fresh, nodup⟩, ?_⟩
    · apply Lib.FreeChain.congr _ _ _ _ _ (Lib.FreeChain.push _ _ cells idx fresh chain)
      intro cell _
      by_cases same : cell = idx
      · subst same
        simp
      · simp [Function.update_of_ne same]
    · intro i
      by_cases same : i = idx
      · subst same
        simp
      · rw [other i same, List.mem_cons, exact]
        simp [same]
  · intro g list found
    have perm := members g
    rw [found, Option.getD_some] at perm
    have nodup := slab.members_nodup g
    by_cases same : g = (s.entries idx).hash
    · subst same
      refine ⟨Shard.removeIndex_nonempty s _ idx list found, perm.nodup_iff.mpr ?_⟩
      simpa using nodup.erase idx
    · rw [Shard.release, Shard.removeIndex_of_ne s _ g idx same] at found
      exact slab.bucket g list found
  · intro g i
    rw [(members g).mem_iff]
    by_cases same : g = (s.entries idx).hash
    · rw [if_pos same, (slab.members_nodup g).mem_erase_iff, slab.indexed]
      by_cases at_ : i = idx
      · subst at_
        simp
      · rw [other i at_]
        simp [at_]
    · rw [if_neg same, slab.indexed]
      by_cases at_ : i = idx
      · subst at_
        simp [Ne.symm same]
      · rw [other i at_]
  · intro i live
    by_cases same : i = idx
    · subst same
      simp at live
    · rw [other i same] at live ⊢
      exact slab.keyed i live
  · intro i j liveI liveJ keys
    by_cases sameI : i = idx
    · subst sameI
      simp at liveI
    · by_cases sameJ : j = idx
      · subst sameJ
        simp at liveJ
      · rw [other i sameI] at liveI keys
        rw [other j sameJ] at liveJ keys
        exact slab.distinct i j liveI liveJ keys

/-- Storing an absent key in the head of the free list. -/
theorem store (slab : Slab hash s) (key : K) (ttlTick : Nat) (inside : s.freeHead < cap)
    (absent : ∀ i, (s.entries i).inUse = true → (s.entries i).key ≠ some key) :
    Slab hash (s.store ⟨s.freeHead, inside⟩ key (hash key) ttlTick) := by
  set idx : Fin cap := ⟨s.freeHead, inside⟩ with idxEq
  have other : ∀ i, i ≠ idx →
      (s.store idx key (hash key) ttlTick).entries i = s.entries i := by
    intro i ne
    simp [Function.update_of_ne ne]
  rcases slab.freeList with ⟨cells, chain, nodup, exact⟩
  obtain ⟨rest, split, tail⟩ := Lib.FreeChain.of_head_lt _ _ cells chain inside
  rw [← idxEq] at split tail
  subst split
  have fresh : idx ∉ rest := (List.nodup_cons.mp nodup).1
  have unused : (s.entries idx).inUse = false := (exact idx).mp List.mem_cons_self
  have outside : ∀ g, idx ∉ (s.indexMap g).getD [] := by
    intro g
    rw [slab.indexed, unused]
    simp
  constructor
  · refine ⟨rest, ?_, (List.nodup_cons.mp nodup).2, ?_⟩
    · apply Lib.FreeChain.congr _ _ _ _ _ tail
      intro cell member
      have ne : cell ≠ idx := by
        intro equal
        subst equal
        exact fresh member
      rw [other cell ne]
    · intro i
      by_cases same : i = idx
      · subst same
        simp [Entry.write, fresh]
      · rw [other i same, ← exact i, List.mem_cons]
        simp [same]
  · intro g list found
    have listed := s.store_members idx key (hash key) ttlTick g
    rw [found, Option.getD_some] at listed
    by_cases same : g = hash key
    · rw [if_pos same] at listed
      rw [listed]
      refine ⟨by simp, List.nodup_append.mpr ⟨slab.members_nodup g, List.nodup_singleton idx, ?_⟩⟩
      intro a member b last eq
      rw [List.mem_singleton] at last
      subst last
      subst eq
      exact outside g member
    · rw [Shard.store] at found
      rw [Shard.insertIndex_of_ne s _ g idx same] at found
      exact slab.bucket g list found
  · intro g i
    rw [s.store_members]
    by_cases at_ : i = idx
    · subst at_
      by_cases same : g = hash key
      · simp [same, Entry.write]
      · simp [same, Entry.write, outside g, Ne.symm same]
    · rw [other i at_]
      by_cases same : g = hash key
      · rw [if_pos same, List.mem_append, slab.indexed]
        simp [at_]
      · rw [if_neg same, slab.indexed]
  · intro i live
    by_cases same : i = idx
    · subst same
      exact ⟨key, by simp [Entry.write]⟩
    · rw [other i same] at live ⊢
      exact slab.keyed i live
  · intro i j liveI liveJ keys
    by_cases sameI : i = idx
    · by_cases sameJ : j = idx
      · rw [sameI, sameJ]
      · subst sameI
        rw [other j sameJ] at liveJ keys
        have held : (s.entries j).key = some key := by
          rw [← keys]
          simp [Entry.write]
        exact absurd held (absent j liveJ)
    · by_cases sameJ : j = idx
      · subst sameJ
        rw [other i sameI] at liveI keys
        have held : (s.entries i).key = some key := by
          rw [keys]
          simp [Entry.write]
        exact absurd held (absent i liveI)
      · rw [other i sameI] at liveI keys
        rw [other j sameJ] at liveJ keys
        exact slab.distinct i j liveI liveJ keys

/-- A renewal keeps every field the invariant reads. -/
theorem renew (slab : Slab hash s) (idx : Fin cap) : Slab hash (s.renew idx) := by
  have fields : ∀ i, ((s.renew idx).entries i).inUse = (s.entries i).inUse ∧
      ((s.renew idx).entries i).key = (s.entries i).key ∧
      ((s.renew idx).entries i).hash = (s.entries i).hash ∧
      ((s.renew idx).entries i).nextFree = (s.entries i).nextFree := by
    intro i
    by_cases same : i = idx
    · subst same
      simp
    · simp [Function.update_of_ne same]
  constructor
  · rcases slab.freeList with ⟨cells, chain, nodup, exact⟩
    refine ⟨cells, ?_, nodup, ?_⟩
    · apply Lib.FreeChain.congr _ _ _ _ _ chain
      intro cell _
      exact (fields cell).2.2.2.symm
    · intro i
      rw [(fields i).1]
      exact exact i
  · exact slab.bucket
  · intro h i
    rw [(fields i).1, (fields i).2.2.1]
    exact slab.indexed h i
  · intro i live
    rw [(fields i).1] at live
    rw [(fields i).2.1, (fields i).2.2.1]
    exact slab.keyed i live
  · intro i j liveI liveJ keys
    rw [(fields i).1] at liveI
    rw [(fields j).1] at liveJ
    rw [(fields i).2.1, (fields j).2.1] at keys
    exact slab.distinct i j liveI liveJ keys

theorem schedule (slab : Slab hash s) (idx : Fin cap) : Slab hash (s.schedule idx) :=
  slab.congr _ (by simp) (by simp) (by simp)

theorem pushEvent (slab : Slab hash s) (event : CacheEvent K) : Slab hash (s.pushEvent event) :=
  slab.congr _ (by simp) (by simp) (by simp)

theorem flush (slab : Slab hash s) : Slab hash s.flush :=
  slab.congr _ rfl rfl rfl

/-! The tick. -/

theorem reschedule (slab : Slab hash s) (r : Ref cap) : Slab hash (s.reschedule r) := by
  unfold Shard.reschedule
  split
  · exact slab.schedule r.1
  · exact slab

theorem processRef (slab : Slab hash s) (r : Ref cap) : Slab hash (s.processRef r) := by
  cases valid : s.current r with
  | false =>
      rw [Shard.processRef_of_stale s r valid]
      exact slab
  | true =>
      by_cases early : s.tick < (s.entries r.1).expireTick
      · rw [Shard.processRef_of_early s r valid early]
        exact slab.schedule r.1
      · have used : (s.entries r.1).inUse = true := by
          simp only [Shard.current, Bool.and_eq_true] at valid
          exact valid.1
        rcases slab.keyed r.1 used with ⟨key, held, _⟩
        rw [Shard.processRef_of_due s r key valid (by omega) held]
        exact (slab.release r.1 used).pushEvent _

theorem foldl {f : Shard K cap → Ref cap → Shard K cap}
    (keeps : ∀ s r, Slab hash s → Slab hash (f s r)) (slab : Slab hash s)
    (bucket : List (Ref cap)) : Slab hash (bucket.foldl f s) := by
  induction bucket generalizing s with
  | nil => exact slab
  | cons r bucket ih => exact ih (keeps s r slab)

theorem cascadeL2 (slab : Slab hash s) : Slab hash s.cascadeL2 := by
  apply foldl (fun _ r inner => inner.reschedule r)
  exact slab.congr _ rfl rfl rfl

theorem cascadeL3 (slab : Slab hash s) : Slab hash s.cascadeL3 := by
  apply foldl (fun _ r inner => inner.reschedule r)
  exact slab.congr _ rfl rfl rfl

theorem processBucket (slab : Slab hash s) (bucket : List (Ref cap)) :
    Slab hash (s.processBucket bucket) :=
  foldl (fun _ r inner => inner.processRef r) slab bucket

theorem tickOnce (slab : Slab hash s) : Slab hash s.tickOnce := by
  have ticked : Slab hash { s with tick := s.tick + 1 } := slab.congr _ rfl rfl rfl
  simp only [Shard.tickOnce]
  apply Slab.processBucket
  split_ifs
  · exact ticked.cascadeL2.cascadeL3.congr _ rfl rfl rfl
  · exact ticked.cascadeL2.congr _ rfl rfl rfl
  · exact ticked.congr _ rfl rfl rfl

theorem catchUp (slab : Slab hash s) (turns : Nat) : Slab hash (s.catchUp turns) := by
  induction turns generalizing s with
  | zero => exact slab
  | succ turns ih => exact ih slab.tickOnce

theorem onTick (slab : Slab hash s) (elapsed : Nat) : Slab hash (s.onTick elapsed) := by
  simp only [Shard.onTick]
  split_ifs
  · exact slab.catchUp _
  · exact (slab.catchUp _).flush

/-- The free list is used up exactly when every slot holds an entry. -/
theorem freeHead_ge_iff (slab : Slab hash s) :
    cap ≤ s.freeHead ↔ ∀ i, (s.entries i).inUse = true := by
  rcases slab.freeList with ⟨cells, chain, _, exact⟩
  constructor
  · intro outside i
    have empty := Lib.FreeChain.of_head_ge _ _ cells chain outside
    subst empty
    have notFree : ¬ (s.entries i).inUse = false := by simp [← exact i]
    simpa using notFree
  · intro full
    by_contra inside
    obtain ⟨rest, split, _⟩ := Lib.FreeChain.of_head_lt _ _ cells chain (by omega)
    have unused := (exact ⟨s.freeHead, by omega⟩).mp (by rw [split]; exact List.mem_cons_self)
    rw [full] at unused
    cases unused

/-! Lookup and the commands. -/

variable [DecidableEq K]

/-- `find_entry` answers the slot that holds the key. -/
theorem findEntry_eq_some_iff (slab : Slab hash s) (key : K) (idx : Fin cap) :
    s.findEntry key (hash key) = some idx ↔
      (s.entries idx).inUse = true ∧ (s.entries idx).key = some key := by
  constructor
  · intro found
    unfold Shard.findEntry at found
    split at found
    · cases found
    · have holds := List.find?_some found
      simpa using holds
  · intro found
    rcases found with ⟨used, held⟩
    rcases slab.keyed idx used with ⟨own, ownHeld, hashed⟩
    have sameKey : own = key := Option.some.inj (ownHeld.symm.trans held)
    subst sameKey
    have member : idx ∈ (s.indexMap (hash own)).getD [] := (slab.indexed _ idx).mpr ⟨used, hashed⟩
    cases bucket : s.indexMap (hash own) with
    | none => simp [bucket] at member
    | some list =>
        rw [bucket, Option.getD_some] at member
        simp only [Shard.findEntry, bucket]
        -- the first match is some slot with this key, and keys are distinct
        cases found : list.find? fun i =>
            (s.entries i).inUse && decide ((s.entries i).key = some own) with
        | none =>
            have missed := List.find?_eq_none.mp found idx member
            simp [used, held] at missed
        | some other =>
            have holds := List.find?_some found
            simp only [Bool.and_eq_true, decide_eq_true_eq] at holds
            rw [slab.distinct other idx holds.1 used (holds.2.trans held.symm)]

theorem findEntry_eq_none_iff (slab : Slab hash s) (key : K) :
    s.findEntry key (hash key) = none ↔
      ∀ i, (s.entries i).inUse = true → (s.entries i).key ≠ some key := by
  constructor
  · intro absent i used held
    rw [(slab.findEntry_eq_some_iff key i).mpr ⟨used, held⟩] at absent
    cases absent
  · intro absent
    cases found : s.findEntry key (hash key) with
    | none => rfl
    | some idx =>
        rcases (slab.findEntry_eq_some_iff key idx).mp found with ⟨used, held⟩
        exact absurd held (absent idx used)

theorem hash_of_found (slab : Slab hash s) (key : K) (idx : Fin cap)
    (found : s.findEntry key (hash key) = some idx) : (s.entries idx).hash = hash key := by
  rcases (slab.findEntry_eq_some_iff key idx).mp found with ⟨used, held⟩
  rcases slab.keyed idx used with ⟨own, ownHeld, hashed⟩
  rw [hashed, Option.some.inj (ownHeld.symm.trans held)]

theorem delete_found (slab : Slab hash s) (key : K) (idx : Fin cap)
    (found : s.findEntry key (hash key) = some idx) : s.delete hash key = s.release idx :=
  Shard.delete_of_some hash s key idx found
    ((slab.findEntry_eq_some_iff key idx).mp found).1 (slab.hash_of_found key idx found)

theorem delete (slab : Slab hash s) (key : K) : Slab hash (s.delete hash key) := by
  cases found : s.findEntry key (hash key) with
  | none =>
      rw [Shard.delete_of_none hash s key found]
      exact slab
  | some idx =>
      rw [slab.delete_found key idx found]
      exact slab.release idx ((slab.findEntry_eq_some_iff key idx).mp found).1

theorem delete_absent (slab : Slab hash s) (key : K) (i : Fin cap)
    (used : ((s.delete hash key).entries i).inUse = true) :
    ((s.delete hash key).entries i).key ≠ some key := by
  cases found : s.findEntry key (hash key) with
  | none =>
      rw [Shard.delete_of_none hash s key found] at used ⊢
      exact (slab.findEntry_eq_none_iff key).mp found i used
  | some idx =>
      rw [slab.delete_found key idx found] at used ⊢
      rcases (slab.findEntry_eq_some_iff key idx).mp found with ⟨usedIdx, held⟩
      by_cases same : i = idx
      · subst same
        simp at used
      · simp only [Shard.release_entries, Function.update_of_ne same] at used ⊢
        intro heldI
        exact same (slab.distinct i idx used usedIdx (heldI.trans held.symm))

theorem insert (slab : Slab hash s) (key : K) (ttlTick : Nat) :
    Slab hash (s.insert hash key ttlTick) := by
  rw [Shard.insert_eq]
  split_ifs with inside
  · exact ((slab.delete key).store key ttlTick inside (slab.delete_absent key)).schedule _
  · exact slab.delete key

theorem refresh (slab : Slab hash s) (key : K) : Slab hash (s.refresh hash key) := by
  rw [Shard.refresh_eq]
  split
  · exact (slab.renew _).schedule _
  · exact slab

theorem step (slab : Slab hash s) (op : Op K) : Slab hash (s.step hash op) := by
  cases op with
  | handle cmd =>
      cases cmd with
      | insert key ttl => exact slab.insert key ttl
      | refresh key => exact slab.refresh key
      | delete key => exact slab.delete key
  | onTick elapsed => exact slab.onTick elapsed

theorem run (slab : Slab hash s) (ops : List (Op K)) : Slab hash (s.run hash ops) :=
  Lib.invariant_run (Shard.step hash) (Slab hash) (fun _ op inner => inner.step op) s ops slab

theorem reachable (bound : cap < 2 ^ 32) (ops : List (Op K)) :
    Slab hash ((Shard.new K cap).run hash ops) :=
  (Slab.new bound).run ops

end Slab

namespace Shard

variable [DecidableEq K] (hash : K → UInt64)

/-- The branch of `insert` that logs `Cache capacity full`. -/
def insertRejected (s : Shard K cap) (key : K) : Prop := (s.delete hash key).alloc = none

theorem insertRejected_iff (s : Shard K cap) (key : K) :
    s.insertRejected hash key ↔ cap ≤ (s.delete hash key).freeHead := by
  unfold insertRejected alloc
  split_ifs with inside
  · simp only [false_iff]
    omega
  · simp only [true_iff]
    omega

end Shard

namespace Slab

variable {hash : K → UInt64} {s : Shard K cap} [DecidableEq K]

theorem insert_live_accepted (slab : Slab hash s) (key : K) (idx : Fin cap)
    (found : s.findEntry key (hash key) = some idx) : ¬ s.insertRejected hash key := by
  rw [Shard.insertRejected_iff, slab.delete_found key idx found, Shard.release_freeHead]
  have bound := idx.isLt
  omega

theorem insert_new_rejected_iff (slab : Slab hash s) (key : K)
    (absent : s.findEntry key (hash key) = none) :
    s.insertRejected hash key ↔ ∀ i, (s.entries i).inUse = true := by
  rw [Shard.insertRejected_iff, Shard.delete_of_none hash s key absent]
  exact slab.freeHead_ge_iff

theorem insert_new_rejected_eq (key : K) (ttlTick : Nat)
    (absent : s.findEntry key (hash key) = none) (rejected : s.insertRejected hash key) :
    s.insert hash key ttlTick = s := by
  rw [Shard.insertRejected_iff, Shard.delete_of_none hash s key absent] at rejected
  rw [Shard.insert_eq, Shard.delete_of_none hash s key absent, dif_neg (by omega)]

/-- An insert that is not refused stores its key. -/
theorem insert_accepted_stores (slab : Slab hash s) (key : K) (ttlTick : Nat)
    (accepted : ¬ s.insertRejected hash key) :
    ∃ idx, (s.insert hash key ttlTick).findEntry key (hash key) = some idx ∧
      ((s.insert hash key ttlTick).entries idx).ttlTick = ttlTick := by
  rw [Shard.insertRejected_iff, Nat.not_le] at accepted
  have stored : (s.insert hash key ttlTick).entries =
      Function.update (s.delete hash key).entries ⟨_, accepted⟩
        (((s.delete hash key).entries ⟨_, accepted⟩).write key (hash key) ttlTick (s.delete hash key).tick) := by
    rw [Shard.insert_eq, dif_pos accepted, Shard.schedule_entries, Shard.store_entries]
  refine ⟨⟨_, accepted⟩, ?_, ?_⟩
  · rw [(slab.insert key ttlTick).findEntry_eq_some_iff, stored, Function.update_self]
    exact ⟨rfl, rfl⟩
  · rw [stored, Function.update_self]
    rfl

/-- In every reachable state the slab invariant holds, lookup finds the one slot of a live
key, and insertion is refused exactly to new keys in a full shard, without effect; any other insertion
stores its key. -/
theorem reachable_consistent (hash : K → UInt64) (cap : Nat) (bound : cap < 2 ^ 32)
    (ops : List (Op K)) :
    let s := (Shard.new K cap).run hash ops
    Slab hash s ∧
    (∀ key idx, s.findEntry key (hash key) = some idx ↔
      (s.entries idx).inUse = true ∧ (s.entries idx).key = some key) ∧
    (∀ key idx, (s.entries idx).inUse = true → (s.entries idx).key = some key →
      ¬ s.insertRejected hash key) ∧
    (∀ key ttl, ¬ s.insertRejected hash key →
      ∃ idx, (s.insert hash key ttl).findEntry key (hash key) = some idx ∧
        ((s.insert hash key ttl).entries idx).ttlTick = ttl) ∧
    (∀ key, (∀ idx, (s.entries idx).inUse = true → (s.entries idx).key ≠ some key) →
      (s.insertRejected hash key ↔ ∀ i, (s.entries i).inUse = true) ∧
      (s.insertRejected hash key → ∀ ttl, s.insert hash key ttl = s)) := by
  intro s
  have slab : Slab hash s := Slab.reachable bound ops
  refine ⟨slab, slab.findEntry_eq_some_iff, ?_, slab.insert_accepted_stores, ?_⟩
  · intro key idx used held
    exact slab.insert_live_accepted key idx ((slab.findEntry_eq_some_iff key idx).mpr ⟨used, held⟩)
  · intro key absent
    have missing := (slab.findEntry_eq_none_iff key).mpr absent
    exact ⟨slab.insert_new_rejected_iff key missing,
      fun rejected ttl => insert_new_rejected_eq key ttl missing rejected⟩

/-- Two colliding keys fill two slots, so a third one is refused without effect, and one of the two is
stored anew. -/
theorem reachable_consistent_full :
    let s := (Shard.new Nat 2).run (fun _ => 0) [.handle (.insert 7 3), .handle (.insert 8 3)]
    s.insertRejected (fun _ => 0) 9 ∧ (∀ ttl, s.insert (fun _ => 0) 9 ttl = s) ∧
      ∃ idx, (s.insert (fun _ => 0) 8 5).findEntry 8 0 = some idx ∧
        ((s.insert (fun _ => 0) 8 5).entries idx).ttlTick = 5 := by
  intro s
  have spec := reachable_consistent (fun _ => 0) 2 (by decide)
    [.handle (.insert 7 3), .handle (.insert (8 : Nat) 3)]
  have fresh := spec.2.2.2.2 9 (by decide)
  have rejected := fresh.1.mpr (by decide)
  have live := spec.2.2.1 8 1 (by decide) (by decide)
  exact ⟨rejected, fresh.2 rejected, spec.2.2.2.1 8 5 live⟩

end Slab

end Pigs.Cache.C100k
