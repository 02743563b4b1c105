import Mathlib.Tactic
import Pigs.Lib.SwapRemove
import Pigs.Lib.Run

/-! One shard of the `c100k` expiry cache: a slab of entries with a free list, a hash
index over the slab, and a three-level timing wheel of (slot, version) references.

Ticks are natural numbers, that is, no `u64` tick wraps; a `u32` version wraps, as it does in a
release build (a debug build panics there). The only cast that matters for a large capacity,
`(i + 1) as u32` in `Shard::new`, is kept. A vector of fixed length is a function on its indices; a
slot taken from the free list is in range by the check in `alloc`, so slots are indices of the slab. -/

namespace Pigs.Cache.C100k

def WHEEL_L1 : Nat := 512
def WHEEL_L2 : Nat := 128
def WHEEL_L3 : Nat := 128
def MAX_CATCHUP : Nat := 1024
def TICK_MS : Nat := 200
def BATCH : Nat := 64
def COMPACT_THRESHOLD : Nat := 1024

structure CacheEvent (K : Type) where
  key : K
  hash : UInt64
  version : Nat
  deriving DecidableEq, Repr

inductive Command (K : Type) where
  | insert (key : K) (ttl : Nat)
  | refresh (key : K)
  | delete (key : K)
  deriving DecidableEq, Repr

/-- `key` is `none` where the source holds uninitialised or moved-out memory. -/
structure Entry (K : Type) where
  key : Option K
  hash : UInt64
  version : Nat
  expireTick : Nat
  ttlTick : Nat
  nextFree : Nat
  inUse : Bool
  deriving DecidableEq, Repr

namespace Entry

variable {K : Type}

def newEmpty (nextFree : Nat) : Entry K where
  key := none
  hash := 0
  version := 0
  expireTick := 0
  ttlTick := 0
  nextFree := nextFree
  inUse := false

def write (e : Entry K) (key : K) (hash : UInt64) (ttlTick nowTick : Nat) : Entry K :=
  { e with
    key := some key
    hash := hash
    version := 1
    ttlTick := ttlTick
    expireTick := nowTick + ttlTick
    inUse := true }

/-- `version += 1` -/
def nextVersion (version : Nat) : Nat := (version + 1) % 2 ^ 32

def dropKey (e : Entry K) : Entry K := { e with key := none }

/-- `none` is the read of uninitialised memory. -/
def takeKey (e : Entry K) : Option (K × Entry K) :=
  e.key.map fun key => (key, { e with inUse := false, key := none })

end Entry

/-- A wheel reference: the slot and the version it was scheduled under. -/
abbrev Ref (cap : Nat) := Fin cap × Nat

/-- `sent` lists the batches handed to `event_tx.try_send`, whose result the shard only
logs. The command receiver is the argument of the run, and the clock that of `onTick`. -/
structure Shard (K : Type) (cap : Nat) where
  entries : Fin cap → Entry K
  freeHead : Nat
  indexMap : UInt64 → Option (List (Fin cap))
  wheelL1 : Fin WHEEL_L1 → List (Ref cap)
  wheelL2 : Fin WHEEL_L2 → List (Ref cap)
  wheelL3 : Fin WHEEL_L3 → List (Ref cap)
  tick : Nat
  batch : List (CacheEvent K)
  sent : List (List (CacheEvent K))

def slotL1 (tick : Nat) : Fin WHEEL_L1 := ⟨tick % WHEEL_L1, Nat.mod_lt _ (by decide)⟩

def slotL2 (tick : Nat) : Fin WHEEL_L2 :=
  ⟨tick / WHEEL_L1 % WHEEL_L2, Nat.mod_lt _ (by decide)⟩

def slotL3 (tick : Nat) : Fin WHEEL_L3 :=
  ⟨tick / (WHEEL_L1 * WHEEL_L2) % WHEEL_L3, Nat.mod_lt _ (by decide)⟩

namespace Shard

variable {K : Type} {cap : Nat}

def new (K : Type) (capacity : Nat) : Shard K capacity where
  entries i := Entry.newEmpty ((i.val + 1) % 2 ^ 32)
  freeHead := 0
  indexMap _ := none
  wheelL1 _ := []
  wheelL2 _ := []
  wheelL3 _ := []
  tick := 0
  batch := []
  sent := []

def setEntry (s : Shard K cap) (idx : Fin cap) (e : Entry K) : Shard K cap :=
  { s with entries := Function.update s.entries idx e }

def alloc (s : Shard K cap) : Option (Fin cap × Shard K cap) :=
  if inside : s.freeHead < cap then
    some (⟨s.freeHead, inside⟩, { s with freeHead := (s.entries ⟨s.freeHead, inside⟩).nextFree })
  else
    none

def free (s : Shard K cap) (idx : Fin cap) : Shard K cap :=
  let e := s.entries idx
  let e := if e.inUse then e.dropKey else e
  { s.setEntry idx { e with inUse := false, nextFree := s.freeHead } with freeHead := idx }

def insertIndex (s : Shard K cap) (hash : UInt64) (idx : Fin cap) : Shard K cap :=
  { s with
    indexMap := Function.update s.indexMap hash (some ((s.indexMap hash).getD [] ++ [idx])) }

def removeIndex (s : Shard K cap) (hash : UInt64) (idx : Fin cap) : Shard K cap :=
  match s.indexMap hash with
  | none => s
  | some v =>
      let v := if idx ∈ v then Lib.swapRemove v (v.idxOf idx) else v
      { s with indexMap := Function.update s.indexMap hash (if v.isEmpty then none else some v) }

def findEntry [DecidableEq K] (s : Shard K cap) (key : K) (hash : UInt64) : Option (Fin cap) :=
  match s.indexMap hash with
  | none => none
  | some list => list.find? fun idx => (s.entries idx).inUse && (s.entries idx).key = some key

def pushL1 (s : Shard K cap) (slot : Fin WHEEL_L1) (r : Ref cap) : Shard K cap :=
  { s with wheelL1 := Function.update s.wheelL1 slot (s.wheelL1 slot ++ [r]) }

def pushL2 (s : Shard K cap) (slot : Fin WHEEL_L2) (r : Ref cap) : Shard K cap :=
  { s with wheelL2 := Function.update s.wheelL2 slot (s.wheelL2 slot ++ [r]) }

def pushL3 (s : Shard K cap) (slot : Fin WHEEL_L3) (r : Ref cap) : Shard K cap :=
  { s with wheelL3 := Function.update s.wheelL3 slot (s.wheelL3 slot ++ [r]) }

def schedule (s : Shard K cap) (idx : Fin cap) : Shard K cap :=
  let e := s.entries idx
  if e.expireTick ≤ s.tick then
    -- already due: the next bucket, so that it goes as soon as possible
    s.pushL1 (slotL1 (s.tick + 1)) (idx, e.version)
  else
    let diff := e.expireTick - s.tick
    if diff < WHEEL_L1 then
      s.pushL1 (slotL1 e.expireTick) (idx, e.version)
    else if diff < WHEEL_L1 * WHEEL_L2 then
      s.pushL2 (slotL2 e.expireTick) (idx, e.version)
    else
      s.pushL3 (slotL3 e.expireTick) (idx, e.version)

/-- The test `e.in_use && e.version == ver` on a reference. -/
def current (s : Shard K cap) (r : Ref cap) : Bool :=
  (s.entries r.1).inUse && (s.entries r.1).version == r.2

def reschedule (s : Shard K cap) (r : Ref cap) : Shard K cap :=
  if s.current r then s.schedule r.1 else s

def cascadeL2 (s : Shard K cap) : Shard K cap :=
  let slot := slotL2 s.tick
  let bucket := s.wheelL2 slot
  bucket.foldl reschedule { s with wheelL2 := Function.update s.wheelL2 slot [] }

def cascadeL3 (s : Shard K cap) : Shard K cap :=
  let slot := slotL3 s.tick
  let bucket := s.wheelL3 slot
  bucket.foldl reschedule { s with wheelL3 := Function.update s.wheelL3 slot [] }

def flush (s : Shard K cap) : Shard K cap := { s with sent := s.sent ++ [s.batch], batch := [] }

def pushEvent (s : Shard K cap) (event : CacheEvent K) : Shard K cap :=
  let s := { s with batch := s.batch ++ [event] }
  if BATCH ≤ s.batch.length then s.flush else s

/-- The body of the loop of `process_bucket`. The `none` branch is the read of an
uninitialised key, which no reachable state takes. -/
def processRef (s : Shard K cap) (r : Ref cap) : Shard K cap :=
  let e := s.entries r.1
  if !s.current r then
    s
  else if s.tick < e.expireTick then
    s.schedule r.1
  else
    match e.takeKey with
    | none => s
    | some (key, taken) =>
        let s := (s.setEntry r.1 taken).removeIndex e.hash r.1
        let s := s.setEntry r.1 { s.entries r.1 with nextFree := s.freeHead }
        let s := { s with freeHead := r.1 }
        s.pushEvent { key := key, hash := e.hash, version := e.version }

def processBucket (s : Shard K cap) (bucket : List (Ref cap)) : Shard K cap :=
  bucket.foldl processRef s

/-- One turn of the loop of `on_tick`. -/
def tickOnce (s : Shard K cap) : Shard K cap :=
  let s := { s with tick := s.tick + 1 }
  let s :=
    if s.tick % WHEEL_L1 = 0 then
      let s := s.cascadeL2
      if s.tick / WHEEL_L1 % WHEEL_L2 = 0 then s.cascadeL3 else s
    else
      s
  let slot := slotL1 s.tick
  let bucket := s.wheelL1 slot
  let s := { s with wheelL1 := Function.update s.wheelL1 slot [] }
  let bucket := if COMPACT_THRESHOLD < bucket.length then bucket.filter s.current else bucket
  s.processBucket bucket

def catchUp : Nat → Shard K cap → Shard K cap
  | 0, s => s
  | turns + 1, s => catchUp turns s.tickOnce

/-- `elapsed` is the clock reading in milliseconds since `start`. Each turn of the source's
`while self.tick < target` adds one to `tick`, so the loop turns `target - tick` times. -/
def onTick (s : Shard K cap) (elapsed : Nat) : Shard K cap :=
  let expectedTick := elapsed / TICK_MS
  let target := min expectedTick (s.tick + MAX_CATCHUP)
  let s := s.catchUp (target - s.tick)
  if s.batch.isEmpty then s else s.flush

variable [DecidableEq K] (hash : K → UInt64)

def insert (s : Shard K cap) (key : K) (ttlTick : Nat) : Shard K cap :=
  let h := hash key
  let s :=
    match s.findEntry key h with
    | some oldIdx => (s.removeIndex h oldIdx).free oldIdx
    | none => s
  match s.alloc with
  | some (idx, s) =>
      let s := s.setEntry idx ((s.entries idx).write key h ttlTick s.tick)
      (s.insertIndex h idx).schedule idx
  | none => s

def refresh (s : Shard K cap) (key : K) : Shard K cap :=
  match s.findEntry key (hash key) with
  | some idx =>
      let e := s.entries idx
      let s := s.setEntry idx { e with version := Entry.nextVersion e.version, expireTick := s.tick + e.ttlTick }
      s.schedule idx
  | none => s

def delete (s : Shard K cap) (key : K) : Shard K cap :=
  let h := hash key
  match s.findEntry key h with
  | some idx => (s.removeIndex h idx).free idx
  | none => s

def handle (s : Shard K cap) : Command K → Shard K cap
  | .insert key ttl => s.insert hash key ttl
  | .refresh key => s.refresh hash key
  | .delete key => s.delete hash key

end Shard

/-- What the loop of `Shard::run` does: handle one received command, or wake up on the
ticker with a clock reading. -/
inductive Op (K : Type) where
  | handle (cmd : Command K)
  | onTick (elapsed : Nat)
  deriving DecidableEq, Repr

namespace Shard

variable {K : Type} {cap : Nat} [DecidableEq K] (hash : K → UInt64)

def step (s : Shard K cap) : Op K → Shard K cap
  | .handle cmd => s.handle hash cmd
  | .onTick elapsed => s.onTick elapsed

def run (s : Shard K cap) (ops : List (Op K)) : Shard K cap := ops.foldl (step hash) s

theorem run_append (s : Shard K cap) (front back : List (Op K)) :
    s.run hash (front ++ back) = (s.run hash front).run hash back :=
  Lib.runFrom_append s front back

end Shard

/-! What the pieces leave alone. -/

namespace Shard

variable {K : Type} {cap : Nat}

@[simp] theorem schedule_entries (s : Shard K cap) (idx : Fin cap) :
    (s.schedule idx).entries = s.entries := by
  simp only [schedule]
  split_ifs <;> rfl

@[simp] theorem schedule_freeHead (s : Shard K cap) (idx : Fin cap) :
    (s.schedule idx).freeHead = s.freeHead := by
  simp only [schedule]
  split_ifs <;> rfl

@[simp] theorem schedule_indexMap (s : Shard K cap) (idx : Fin cap) :
    (s.schedule idx).indexMap = s.indexMap := by
  simp only [schedule]
  split_ifs <;> rfl

@[simp] theorem schedule_tick (s : Shard K cap) (idx : Fin cap) :
    (s.schedule idx).tick = s.tick := by
  simp only [schedule]
  split_ifs <;> rfl

@[simp] theorem schedule_batch (s : Shard K cap) (idx : Fin cap) :
    (s.schedule idx).batch = s.batch := by
  simp only [schedule]
  split_ifs <;> rfl

@[simp] theorem schedule_sent (s : Shard K cap) (idx : Fin cap) :
    (s.schedule idx).sent = s.sent := by
  simp only [schedule]
  split_ifs <;> rfl

end Shard

end Pigs.Cache.C100k
