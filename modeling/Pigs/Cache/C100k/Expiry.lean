import Pigs.Cache.C100k.Wheel
import Pigs.Cache.C100k.Periods

/-! A shard refines the live periods of its keys, so that every key is reported once,
on time, unless it is overwritten or deleted first. -/

namespace Pigs.Cache.C100k

variable {K : Type} {cap : Nat}

namespace Shard

/-- Every event ever pushed to the batch, sent or not. -/
def pushed (s : Shard K cap) : List (CacheEvent K) := s.sent.flatten ++ s.batch

@[simp] theorem flush_pushed (s : Shard K cap) : s.flush.pushed = s.pushed := by
  simp [flush, pushed]

@[simp] theorem pushEvent_pushed (s : Shard K cap) (event : CacheEvent K) :
    (s.pushEvent event).pushed = s.pushed ++ [event] := by
  simp only [pushEvent]
  split_ifs
  · rw [flush_pushed]
    simp [pushed]
  · simp [pushed]

theorem pushed_congr (s t : Shard K cap) (batch : t.batch = s.batch) (sent : t.sent = s.sent) :
    t.pushed = s.pushed := by
  rw [pushed, pushed, batch, sent]

def periodAt (s : Shard K cap) (idx : Fin cap) : Period where
  expire := (s.entries idx).expireTick
  ttl := (s.entries idx).ttlTick
  version := (s.entries idx).version

variable [DecidableEq K] (hash : K → UInt64)

/-- The live period of a key, read off its slot. -/
def period (s : Shard K cap) (key : K) : Option Period :=
  (s.findEntry key (hash key)).map s.periodAt

/-! The history of a run: what each operation does to keys. -/

def observeTurn (s : Shard K cap) : List (Obs K) :=
  (s.tickOnce.pushed.drop s.pushed.length).map fun event => .expired event s.tickOnce.tick

def observeTurns : Nat → Shard K cap → List (Obs K)
  | 0, _ => []
  | turns + 1, s => s.observeTurn ++ observeTurns turns s.tickOnce

/-- An insert is observed where it stored its key, a refresh or delete where it found one. -/
def observe (s : Shard K cap) : Op K → List (Obs K)
  | .handle (.insert key ttl) =>
      if ((s.insert hash key ttl).findEntry key (hash key)).isSome then
        [.inserted key ttl s.tick]
      else []
  | .handle (.refresh key) =>
      if (s.findEntry key (hash key)).isSome then [.refreshed key s.tick] else []
  | .handle (.delete key) =>
      if (s.findEntry key (hash key)).isSome then [.deleted key] else []
  | .onTick elapsed =>
      s.observeTurns (min (elapsed / TICK_MS) (s.tick + MAX_CATCHUP) - s.tick)

def history (s : Shard K cap) : List (Op K) → List (Obs K)
  | [] => []
  | op :: ops => s.observe hash op ++ history (s.step hash op) ops

end Shard

/-- All that is kept along a run. -/
structure Good (hash : K → UInt64) (s : Shard K cap) : Prop where
  slab : Slab hash s
  wheel : s.WheelOk
  ttl : s.TtlPositive

namespace Slab

variable [DecidableEq K] {hash : K → UInt64} {s : Shard K cap}

theorem period_eq_some_iff (slab : Slab hash s) (key : K) (p : Period) :
    s.period hash key = some p ↔
      ∃ idx, (s.entries idx).inUse = true ∧ (s.entries idx).key = some key ∧ s.periodAt idx = p := by
  simp only [Shard.period, Option.map_eq_some_iff, slab.findEntry_eq_some_iff, and_assoc]

theorem period_eq_none_iff (slab : Slab hash s) (key : K) :
    s.period hash key = none ↔
      ∀ idx, (s.entries idx).inUse = true → (s.entries idx).key ≠ some key := by
  rw [Shard.period, Option.map_eq_none_iff, slab.findEntry_eq_none_iff]

theorem period_of_held (slab : Slab hash s) (key : K) (idx : Fin cap)
    (used : (s.entries idx).inUse = true) (held : (s.entries idx).key = some key) :
    s.period hash key = some (s.periodAt idx) :=
  (slab.period_eq_some_iff key _).mpr ⟨idx, used, held, rfl⟩

/-- Two states whose slots hold the same keys, apart from one, have the same periods apart
from that key's. -/
theorem period_eq_update {t : Shard K cap} (slab : Slab hash s) (after : Slab hash t) (key : K)
    (value : Option Period) (own : t.period hash key = value)
    (other : ∀ idx k p, k ≠ key →
      ((t.entries idx).inUse = true ∧ (t.entries idx).key = some k ∧ t.periodAt idx = p ↔
        (s.entries idx).inUse = true ∧ (s.entries idx).key = some k ∧ s.periodAt idx = p)) :
    t.period hash = Function.update (s.period hash) key value := by
  funext k
  by_cases same : k = key
  · subst same
    rw [Function.update_self]
    exact own
  · rw [Function.update_of_ne same]
    apply Option.ext
    intro p
    rw [after.period_eq_some_iff, slab.period_eq_some_iff]
    exact exists_congr fun idx => other idx k p same

theorem period_congr {t : Shard K cap} (entries : t.entries = s.entries)
    (indexMap : t.indexMap = s.indexMap) : t.period hash = s.period hash := by
  have slots : t.periodAt = s.periodAt := by
    funext idx
    simp only [Shard.periodAt, entries]
  funext key
  simp only [Shard.period, Shard.findEntry, slots, entries, indexMap]

theorem period_release (slab : Slab hash s) (key : K) (idx : Fin cap)
    (used : (s.entries idx).inUse = true) (held : (s.entries idx).key = some key) :
    (s.release idx).period hash = Function.update (s.period hash) key none := by
  have after := slab.release idx used
  apply slab.period_eq_update after
  · rw [after.period_eq_none_iff]
    intro i live
    by_cases same : i = idx
    · subst same
      simp at live
    · simp only [Shard.release_entries, Function.update_of_ne same] at live ⊢
      intro heldI
      exact same (slab.distinct i idx live used (heldI.trans held.symm))
  · intro i k p ne
    by_cases same : i = idx
    · subst same
      have otherKey : some key ≠ some k := fun eq => ne (Option.some.inj eq).symm
      simp [held, otherKey]
    · simp [Shard.periodAt, Function.update_of_ne same]

theorem period_store (slab : Slab hash s) (key : K) (ttlTick : Nat) (inside : s.freeHead < cap)
    (absent : ∀ i, (s.entries i).inUse = true → (s.entries i).key ≠ some key) :
    (s.store ⟨s.freeHead, inside⟩ key (hash key) ttlTick).period hash =
      Function.update (s.period hash) key
        (some { expire := s.tick + ttlTick, ttl := ttlTick, version := 1 }) := by
  have after := slab.store key ttlTick inside absent
  have unused : (s.entries ⟨s.freeHead, inside⟩).inUse = false := by
    rcases slab.freeList with ⟨cells, chain, _, exact⟩
    obtain ⟨rest, split, _⟩ := Lib.FreeChain.of_head_lt _ _ cells chain inside
    exact (exact _).mp (by rw [split]; exact List.mem_cons_self)
  apply slab.period_eq_update after
  · rw [after.period_eq_some_iff]
    exact ⟨⟨s.freeHead, inside⟩, by simp [Entry.write, Shard.periodAt]⟩
  · intro i k p ne
    by_cases same : i = ⟨s.freeHead, inside⟩
    · subst same
      simp [unused, Entry.write, Ne.symm ne]
    · simp [Shard.periodAt, Function.update_of_ne same]

theorem period_renew (slab : Slab hash s) (key : K) (idx : Fin cap)
    (used : (s.entries idx).inUse = true) (held : (s.entries idx).key = some key) :
    (s.renew idx).period hash = Function.update (s.period hash) key
      ((s.period hash key).map fun p =>
        { p with expire := s.tick + p.ttl, version := Entry.nextVersion p.version }) := by
  have after := slab.renew idx
  apply slab.period_eq_update after
  · rw [slab.period_of_held key idx used held, Option.map_some, after.period_eq_some_iff]
    refine ⟨idx, by simp [used], by simp [held], ?_⟩
    simp only [Shard.periodAt, Shard.renew_entries, Function.update_self]
  · intro i k p ne
    by_cases same : i = idx
    · subst same
      have otherKey : some key ≠ some k := fun eq => ne (Option.some.inj eq).symm
      simp [held, otherKey]
    · simp [Shard.periodAt, Function.update_of_ne same]

theorem period_delete (slab : Slab hash s) (key : K) :
    (s.delete hash key).period hash = Function.update (s.period hash) key none := by
  cases found : s.findEntry key (hash key) with
  | none =>
      have absent : s.period hash key = none := by simp [Shard.period, found]
      rw [Shard.delete_of_none hash s key found, ← absent, Function.update_eq_self]
  | some idx =>
      rcases (slab.findEntry_eq_some_iff key idx).mp found with ⟨used, held⟩
      rw [slab.delete_found key idx found]
      exact slab.period_release key idx used held

theorem delete_pushed (slab : Slab hash s) (key : K) : (s.delete hash key).pushed = s.pushed := by
  cases found : s.findEntry key (hash key) with
  | none => rw [Shard.delete_of_none hash s key found]
  | some idx =>
      rw [slab.delete_found key idx found]
      exact Shard.pushed_congr _ _ (by simp) (by simp)

theorem insert_pushed (slab : Slab hash s) (key : K) (ttl : Nat) :
    (s.insert hash key ttl).pushed = s.pushed := by
  rw [← slab.delete_pushed key, Shard.insert_eq]
  split_ifs
  · exact Shard.pushed_congr _ _ (by simp) (by simp)
  · rfl

end Slab

/-! Draining a bucket reports what it releases. -/

namespace Shard

theorem foldl_reschedule_pushed (bucket : List (Ref cap)) (s : Shard K cap) :
    (bucket.foldl reschedule s).pushed = s.pushed := by
  induction bucket generalizing s with
  | nil => rfl
  | cons r bucket ih =>
      rw [List.foldl_cons, ih]
      unfold reschedule
      split
      · exact pushed_congr _ _ (by simp) (by simp)
      · rfl

theorem foldl_reschedule_indexMap (bucket : List (Ref cap)) (s : Shard K cap) :
    (bucket.foldl reschedule s).indexMap = s.indexMap := by
  induction bucket generalizing s with
  | nil => rfl
  | cons r bucket ih =>
      rw [List.foldl_cons, ih]
      unfold reschedule
      split <;> simp

theorem cascaded_pushed (s : Shard K cap) : s.cascaded.pushed = s.pushed := by
  simp only [cascaded]
  split_ifs
  · exact (foldl_reschedule_pushed _ _).trans (foldl_reschedule_pushed _ _)
  · exact foldl_reschedule_pushed _ _
  · rfl

theorem cascaded_indexMap (s : Shard K cap) : s.cascaded.indexMap = s.indexMap := by
  simp only [cascaded]
  split_ifs
  · exact (foldl_reschedule_indexMap _ _).trans (foldl_reschedule_indexMap _ _)
  · exact foldl_reschedule_indexMap _ _
  · rfl

end Shard

/-- The observations `obs` lead from the periods of `s` to those of `t`, and their reports
are the events pushed on the way. -/
structure Refines [DecidableEq K] (hash : K → UInt64) (s t : Shard K cap) (obs : List (Obs K)) :
    Prop where
  legal : LegalTrace (s.period hash) obs
  periods : livePeriods (s.period hash) obs = t.period hash
  pushed : t.pushed = s.pushed ++ obs.filterMap Obs.event

namespace Refines

variable [DecidableEq K] {hash : K → UInt64} {s t u : Shard K cap}

theorem silent (same : t.period hash = s.period hash) (pushed : t.pushed = s.pushed) :
    Refines hash s t [] :=
  ⟨trivial, same.symm, by simp [pushed]⟩

/-- A command that reports nothing. -/
theorem command (o : Obs K) (quiet : o.event = none)
    (periods : o.apply (s.period hash) = t.period hash) (pushed : t.pushed = s.pushed) :
    Refines hash s t [o] := by
  refine ⟨⟨?_, trivial⟩, periods, by simp [quiet, pushed]⟩
  cases o with
  | expired event tick => simp [Obs.event] at quiet
  | inserted key ttl tick => trivial
  | refreshed key tick => trivial
  | deleted key => trivial

theorem trans {front back : List (Obs K)} (first : Refines hash s t front)
    (second : Refines hash t u back) : Refines hash s u (front ++ back) := by
  constructor
  · rw [legalTrace_append, first.periods]
    exact ⟨first.legal, second.legal⟩
  · rw [livePeriods_append, first.periods]
    exact second.periods
  · rw [second.pushed, first.pushed, List.filterMap_append, List.append_assoc]

/-- Every reference of a bucket is dropped, moved on, or reported at its time. -/
theorem processBucket (bucket : List (Ref cap)) (slab : Slab hash s)
    (late : ∀ i, (s.entries i).inUse = true → s.tick ≤ (s.entries i).expireTick ∨
      ((s.entries i).expireTick + 1 = s.tick ∧ WHEEL_L1 ∣ (s.entries i).expireTick)) :
    ∃ events : List (CacheEvent K),
      Refines hash s (s.processBucket bucket) (events.map (.expired · s.tick)) := by
  induction bucket generalizing s with
  | nil => exact ⟨[], silent rfl rfl⟩
  | cons r bucket ih =>
      have kept : ∀ i, ((s.processRef r).entries i).inUse = true →
          (s.entries i).inUse = true ∧ (s.processRef r).entries i = s.entries i := by
        intro i used
        have entry := Shard.processRef_entry slab r i used
        rw [entry] at used
        exact ⟨used, entry⟩
      obtain ⟨events, refined⟩ := ih (slab.processRef r)
        (by
          intro i used
          rw [(kept i used).2, Shard.processRef_tick]
          exact late i (kept i used).1)
      rw [Shard.processRef_tick] at refined
      cases valid : s.current r with
      | false =>
          have stale := Shard.processRef_of_stale s r valid
          rw [stale] at refined
          exact ⟨events, by simpa [Shard.processBucket, stale] using refined⟩
      | true =>
          rcases Shard.eq_refOf_of_current s r valid with ⟨used, _⟩
          by_cases early : s.tick < (s.entries r.1).expireTick
          · have moved := Shard.processRef_of_early s r valid early
            have start : Refines hash s (s.processRef r) [] := by
              rw [moved]
              exact silent (Slab.period_congr (by simp) (by simp))
                (Shard.pushed_congr _ _ (by simp) (by simp))
            exact ⟨events, start.trans refined⟩
          · rcases slab.keyed r.1 used with ⟨key, held, _⟩
            have gone := Shard.processRef_of_due s r key valid (by omega) held
            set event : CacheEvent K :=
              { key := key, hash := (s.entries r.1).hash, version := (s.entries r.1).version }
              with eventEq
            have report : Refines hash s (s.processRef r) [.expired event s.tick] := by
              constructor
              · refine ⟨⟨s.periodAt r.1, slab.period_of_held key r.1 used held, ?_, ?_⟩, trivial⟩
                · rfl
                · rcases late r.1 used with now | ⟨after, aligned⟩
                  · left
                    simp only [Shard.periodAt]
                    omega
                  · exact Or.inr ⟨after.symm, aligned⟩
              · rw [gone, Slab.period_congr (Shard.pushEvent_entries _ _)
                  (Shard.pushEvent_indexMap _ _), slab.period_release key r.1 used held]
                rfl
              · rw [gone, Shard.pushEvent_pushed,
                  Shard.pushed_congr s (s.release r.1) (by simp) (by simp)]
                rfl
            exact ⟨event :: events, report.trans refined⟩

end Refines

/-! Every operation keeps `Good` and refines its observations. -/

namespace Good

variable {hash : K → UInt64} {s : Shard K cap}

theorem new (bound : cap < 2 ^ 32) : Good hash (Shard.new K cap) where
  slab := Slab.new bound
  wheel := Shard.WheelOk.new
  ttl := by
    intro i used
    simp [Shard.new, Entry.newEmpty] at used

theorem tickOnce (good : Good hash s) : Good hash s.tickOnce where
  slab := good.slab.tickOnce
  wheel := good.wheel.tickOnce good.slab
  ttl := by
    intro i used
    have entry := good.slab.tickOnce_entry i used
    rw [entry] at used ⊢
    exact good.ttl i used

theorem flush (good : Good hash s) : Good hash s.flush where
  slab := good.slab.flush
  wheel := fun i used => (good.wheel i used).mono (.of_eq rfl rfl rfl rfl)
  ttl := good.ttl

theorem catchUp (good : Good hash s) (turns : Nat) : Good hash (s.catchUp turns) := by
  induction turns generalizing s with
  | zero => exact good
  | succ turns ih => exact ih good.tickOnce

theorem onTick (good : Good hash s) (elapsed : Nat) : Good hash (s.onTick elapsed) := by
  simp only [Shard.onTick]
  split_ifs
  · exact good.catchUp _
  · exact (good.catchUp _).flush

variable [DecidableEq K]

theorem turn_refines (good : Good hash s) : Refines hash s s.tickOnce s.observeTurn := by
  have slab : Slab hash s.cascaded.drained :=
    (Shard.cascaded_slab good.slab).congr _ rfl rfl rfl
  have fields : s.cascaded.drained.entries = s.entries := Shard.cascaded_entries s
  have tick : s.cascaded.drained.tick = s.tick + 1 := Shard.cascaded_tick s
  obtain ⟨events, refined⟩ := Refines.processBucket s.cascaded.compacted slab
    (by
      intro i used
      rw [fields] at used ⊢
      rw [tick]
      rcases good.wheel.allTimely i used with later | ⟨now, aligned⟩
      · exact Or.inl later
      · exact Or.inr ⟨by rw [now], aligned⟩)
  have before : s.cascaded.drained.pushed = s.pushed := Shard.cascaded_pushed s
  have start : Refines hash s s.cascaded.drained [] :=
    Refines.silent (Slab.period_congr fields (Shard.cascaded_indexMap s)) before
  have observed : s.observeTurn = events.map (.expired · s.cascaded.drained.tick) := by
    rw [Shard.observeTurn, Shard.tickOnce_tick, tick, Shard.tickOnce_eq, refined.pushed, before,
      List.drop_left, Obs.filterMap_event_expired]
  rw [observed]
  exact start.trans refined

theorem turns_refine (good : Good hash s) (turns : Nat) :
    Refines hash s (s.catchUp turns) (s.observeTurns turns) := by
  induction turns generalizing s with
  | zero => exact Refines.silent rfl rfl
  | succ turns ih => exact good.turn_refines.trans (ih good.tickOnce)

theorem onTick_refines (good : Good hash s) (elapsed : Nat) :
    Refines hash s (s.onTick elapsed) (s.observe hash (.onTick elapsed)) := by
  have turns := good.turns_refine (min (elapsed / TICK_MS) (s.tick + MAX_CATCHUP) - s.tick)
  simp only [Shard.onTick, Shard.observe]
  split_ifs
  · exact turns
  · exact ⟨turns.legal, turns.periods.trans (Slab.period_congr rfl rfl).symm,
      (Shard.flush_pushed _).trans turns.pushed⟩

/-- An accepted insert opens a period of its key and touches no other. -/
theorem period_insert (good : Good hash s) (key : K) (ttl : Nat)
    (accepted : ¬ s.insertRejected hash key) :
    (s.insert hash key ttl).period hash = Function.update (s.period hash) key
      (some { expire := s.tick + ttl, ttl := ttl, version := 1 }) := by
  have inside : (s.delete hash key).freeHead < cap := by
    rw [Shard.insertRejected_iff] at accepted
    omega
  have stored := (good.slab.delete key).period_store key ttl inside (good.slab.delete_absent key)
  have tick : (s.delete hash key).tick = s.tick := by
    cases found : s.findEntry key (hash key) with
    | none => rw [Shard.delete_of_none hash s key found]
    | some idx => rw [good.slab.delete_found key idx found, Shard.release_tick]
  rw [Shard.insert_eq, dif_pos inside,
    Slab.period_congr (Shard.schedule_entries _ _) (Shard.schedule_indexMap _ _), stored,
    good.slab.period_delete key, Function.update_idem, tick]

/-- After an insert the key is held exactly where a slot was free for it. -/
theorem insert_refines (good : Good hash s) (key : K) (ttl : Nat) :
    Refines hash s (s.insert hash key ttl) (s.observe hash (.handle (.insert key ttl))) := by
  simp only [Shard.observe]
  by_cases rejected : s.insertRejected hash key
  · have missing : s.findEntry key (hash key) = none := by
      cases found : s.findEntry key (hash key) with
      | none => rfl
      | some idx => exact absurd rejected (good.slab.insert_live_accepted key idx found)
    rw [Slab.insert_new_rejected_eq key ttl missing rejected, missing]
    exact Refines.silent rfl rfl
  · have after := good.period_insert key ttl rejected
    have found : ((s.insert hash key ttl).findEntry key (hash key)).isSome = true := by
      have own := congrFun after key
      rw [Function.update_self, Shard.period, Option.map_eq_some_iff] at own
      rcases own with ⟨idx, held, _⟩
      rw [held]
      rfl
    rw [if_pos found]
    exact Refines.command _ rfl after.symm (good.slab.insert_pushed key ttl)

theorem refresh_refines (good : Good hash s) (key : K) :
    Refines hash s (s.refresh hash key) (s.observe hash (.handle (.refresh key))) := by
  rw [Shard.refresh_eq]
  simp only [Shard.observe]
  cases found : s.findEntry key (hash key) with
  | none => exact Refines.silent rfl rfl
  | some idx =>
      rcases (good.slab.findEntry_eq_some_iff key idx).mp found with ⟨used, held⟩
      refine Refines.command _ rfl ?_ (Shard.pushed_congr s _ (by simp) (by simp))
      rw [Slab.period_congr (Shard.schedule_entries _ _) (Shard.schedule_indexMap _ _),
        good.slab.period_renew key idx used held]
      rfl

theorem delete_refines (good : Good hash s) (key : K) :
    Refines hash s (s.delete hash key) (s.observe hash (.handle (.delete key))) := by
  simp only [Shard.observe]
  cases found : s.findEntry key (hash key) with
  | none =>
      rw [Shard.delete_of_none hash s key found]
      exact Refines.silent rfl rfl
  | some idx =>
      exact Refines.command _ rfl (good.slab.period_delete key).symm (good.slab.delete_pushed key)

theorem step_refines (good : Good hash s) (op : Op K) :
    Refines hash s (s.step hash op) (s.observe hash op) := by
  cases op with
  | handle cmd =>
      cases cmd with
      | insert key ttl => exact good.insert_refines key ttl
      | refresh key => exact good.refresh_refines key
      | delete key => exact good.delete_refines key
  | onTick elapsed => exact good.onTick_refines elapsed

/-- What the commands do to the entry of a slot that is live afterwards. -/
theorem delete_entry (good : Good hash s) (key : K) (i : Fin cap)
    (used : ((s.delete hash key).entries i).inUse = true) :
    (s.delete hash key).entries i = s.entries i := by
  cases found : s.findEntry key (hash key) with
  | none => rw [Shard.delete_of_none hash s key found]
  | some idx =>
      rw [good.slab.delete_found key idx found] at used ⊢
      by_cases same : i = idx
      · subst same
        simp at used
      · simp [Function.update_of_ne same]

theorem delete (good : Good hash s) (key : K) : Good hash (s.delete hash key) where
  slab := good.slab.delete key
  wheel := good.wheel.delete good.slab key
  ttl := by
    intro i used
    have entry := good.delete_entry key i used
    rw [entry] at used ⊢
    exact good.ttl i used

/-- What every live entry has and every new entry is written with. -/
theorem used_insert (P : Entry K → Prop) (key : K) (ttl : Nat)
    (written : ∀ (old : Entry K) tick, P (old.write key (hash key) ttl tick))
    (before : ∀ i, ((s.delete hash key).entries i).inUse = true → P ((s.delete hash key).entries i)) :
    ∀ i, ((s.insert hash key ttl).entries i).inUse = true → P ((s.insert hash key ttl).entries i) := by
  rw [Shard.insert_eq]
  split_ifs with inside
  · rw [Shard.schedule_entries, Shard.store_entries]
    refine (Function.forall_update_iff (s.delete hash key).entries fun _ entry =>
      entry.inUse = true → P entry).mpr ⟨?_, ?_⟩
    · intro _
      exact written _ _
    · intro i _
      exact before i
  · exact before

/-- What every live entry has and keeps with a new version and a new expiry. -/
theorem used_refresh (P : Entry K → Prop) (key : K)
    (renewed : ∀ (old : Entry K) expire, (old.inUse = true → P old) → old.inUse = true →
      P { old with version := Entry.nextVersion old.version, expireTick := expire })
    (before : ∀ i, (s.entries i).inUse = true → P (s.entries i)) :
    ∀ i, ((s.refresh hash key).entries i).inUse = true → P ((s.refresh hash key).entries i) := by
  rw [Shard.refresh_eq]
  split
  · next idx found =>
      rw [Shard.schedule_entries, Shard.renew_entries]
      refine (Function.forall_update_iff s.entries fun _ entry => entry.inUse = true → P entry).mpr ⟨?_, ?_⟩
      · exact renewed _ _ (before idx)
      · intro i _
        exact before i
  · exact before

theorem insert (good : Good hash s) (key : K) (ttl : Nat) (positive : 1 ≤ ttl) :
    Good hash (s.insert hash key ttl) where
  slab := good.slab.insert key ttl
  wheel := good.wheel.insert good.slab key ttl positive
  ttl := used_insert (fun entry => 1 ≤ entry.ttlTick) key ttl (fun _ _ => positive) (good.delete key).ttl

theorem refresh (good : Good hash s) (key : K) : Good hash (s.refresh hash key) where
  slab := good.slab.refresh key
  wheel := good.wheel.refresh good.slab good.ttl key
  ttl := used_refresh (fun entry => 1 ≤ entry.ttlTick) key (fun _ _ kept used => kept used) good.ttl

end Good

/-- Time to live values as `ttl_to_tick` makes them: at least one tick. -/
def PositiveTtl (ops : List (Op K)) : Prop :=
  ∀ key ttl, Op.handle (.insert key ttl) ∈ ops → 1 ≤ ttl

namespace Good

variable [DecidableEq K] {hash : K → UInt64} {s : Shard K cap}

theorem step (good : Good hash s) (op : Op K) (positive : PositiveTtl [op]) :
    Good hash (s.step hash op) := by
  cases op with
  | handle cmd =>
      cases cmd with
      | insert key ttl => exact good.insert key ttl (positive key ttl List.mem_cons_self)
      | refresh key => exact good.refresh key
      | delete key => exact good.delete key
  | onTick elapsed => exact good.onTick elapsed

theorem run_refines (good : Good hash s) (ops : List (Op K)) (positive : PositiveTtl ops) :
    Good hash (s.run hash ops) ∧ Refines hash s (s.run hash ops) (s.history hash ops) := by
  induction ops generalizing s with
  | nil => exact ⟨good, Refines.silent rfl rfl⟩
  | cons op ops ih =>
      have first : PositiveTtl [op] := by
        intro key ttl member
        exact positive key ttl (List.mem_singleton.mp member ▸ List.mem_cons_self)
      have rest := ih (good.step op first)
        (fun key ttl member => positive key ttl (List.mem_cons_of_mem op member))
      exact ⟨rest.1, (good.step_refines op).trans rest.2⟩

/-- From the empty shard: the history is legal, yields the periods of the final state, and
reports the events pushed. -/
theorem reachable (hash : K → UInt64) (bound : cap < 2 ^ 32) (ops : List (Op K))
    (positive : PositiveTtl ops) :
    Good hash ((Shard.new K cap).run hash ops) ∧
      LegalTrace (fun _ => none) ((Shard.new K cap).history hash ops) ∧
      livePeriods (fun _ => none) ((Shard.new K cap).history hash ops) =
        ((Shard.new K cap).run hash ops).period hash ∧
      ((Shard.new K cap).run hash ops).pushed =
        ((Shard.new K cap).history hash ops).filterMap Obs.event := by
  have empty : (Shard.new K cap).period hash = fun _ => none := rfl
  rcases (Good.new bound).run_refines ops positive with ⟨good, legal, periods, pushed⟩
  rw [empty] at legal periods
  exact ⟨good, legal, periods, pushed⟩

theorem period_timely (good : Good hash s) (key : K) (p : Period)
    (live : s.period hash key = some p) : Timely s.tick p.expire := by
  rcases (good.slab.period_eq_some_iff key p).mp live with ⟨idx, used, _, rfl⟩
  exact good.wheel.allTimely idx used

end Good

/-- Every live period ends once: overwritten, deleted, or reported by one event with version
one plus its refreshes (as a `u32` counts), at its expiry tick, or a tick later where that tick is a multiple of
512. Until then the shard holds it and it is not overdue. No other event is ever pushed. -/
theorem every_period_ends_once [DecidableEq K] (hash : K → UInt64) (cap : Nat)
    (bound : cap < 2 ^ 32) (ops : List (Op K)) (positive : PositiveTtl ops) :
    let s := (Shard.new K cap).run hash ops
    let history := (Shard.new K cap).history hash ops
    s.pushed = history.filterMap Obs.event ∧
    (∀ before key ttl start after, history = before ++ .inserted key ttl start :: after →
      ∃ span rest, after = span ++ rest ∧ (∀ o ∈ span, ¬ o.Ends key) ∧
        let expire := deadline key ttl start span
        ((rest = [] ∧ Timely s.tick expire ∧ s.period hash key = some
            { expire := expire, ttl := ttl, version := (1 + refreshCount key span) % 2 ^ 32 }) ∨
          (∃ ttl' tick tail, rest = .inserted key ttl' tick :: tail) ∨
          (∃ tail, rest = .deleted key :: tail) ∨
          (∃ event tick tail, rest = .expired event tick :: tail ∧ event.key = key ∧
            event.version = (1 + refreshCount key span) % 2 ^ 32 ∧
            (tick = expire ∨ (tick = expire + 1 ∧ WHEEL_L1 ∣ expire))))) ∧
    (∀ before event tick after, history = before ++ .expired event tick :: after →
      ∃ front ttl start span, before = front ++ .inserted event.key ttl start :: span ∧
        ∀ o ∈ span, ¬ o.Ends event.key) := by
  intro s history
  obtain ⟨good, legal, periods, pushed⟩ := Good.reachable hash bound ops positive
  change LegalTrace (fun _ => none) history at legal
  refine ⟨pushed, ?_, ?_⟩
  · intro before key ttl start after split
    rcases Obs.exists_span key after with ⟨span, rest, cut, running, last⟩
    refine ⟨span, rest, cut, running, ?_⟩
    have upTo : livePeriods (fun _ => none) (before ++ .inserted key ttl start :: span) key =
        some { expire := deadline key ttl start span, ttl := ttl,
               version := versionAfter (refreshCount key span) } := by
      rw [livePeriods_append]
      exact livePeriods_span _ key ttl start span running
    rcases last with empty | ⟨o, tail, head, ended⟩
    · left
      subst empty
      have whole : history = before ++ .inserted key ttl start :: span := by simp [split, cut]
      rw [← whole, periods] at upTo
      exact ⟨rfl, good.period_timely key _ upTo, upTo⟩
    · right
      subst head
      have whole : history = (before ++ .inserted key ttl start :: span) ++ o :: tail := by
        simp [split, cut]
      cases o with
      | inserted k ttl' tick =>
          cases ended
          exact Or.inl ⟨ttl', tick, tail, rfl⟩
      | refreshed k tick => exact absurd ended id
      | deleted k =>
          cases ended
          exact Or.inr (Or.inl ⟨tail, rfl⟩)
      | expired event tick =>
          right
          right
          rw [whole] at legal
          rcases legal.legal_at with ⟨p, live, version, timing⟩
          have same : event.key = key := ended
          rw [same, upTo, Option.some.injEq] at live
          subst live
          exact ⟨event, tick, tail, rfl, same, version, timing⟩
  · intro before event tick after split
    rw [split] at legal
    rcases legal.legal_at with ⟨p, live, _⟩
    exact exists_inserted_of_live before event.key (by simp [live])

/-- One key in a one-slot shard, stored at tick 0 for one tick and reported at tick 1. -/
theorem every_period_ends_once_single :
    (Shard.new Nat 1).history (fun _ => 0) [.handle (.insert 7 1), .onTick 200] =
      [.inserted 7 1 0, .expired ⟨7, 0, 1⟩ 1] ∧
    ∃ front ttl start span, [Obs.inserted 7 1 0] = front ++ .inserted 7 ttl start :: span := by
  have observed : (Shard.new Nat 1).history (fun _ => 0) [.handle (.insert 7 1), .onTick 200] =
      [.inserted 7 1 0, .expired ⟨7, 0, 1⟩ 1] := by decide
  have spec := every_period_ends_once (fun _ => 0) 1 (by decide)
    [.handle (.insert 7 1), .onTick 200] (by simp [PositiveTtl])
  obtain ⟨front, ttl, start, span, split, _⟩ :=
    spec.2.2 [.inserted 7 1 0] ⟨7, 0, 1⟩ 1 [] observed
  exact ⟨observed, front, ttl, start, span, split⟩

end Pigs.Cache.C100k
