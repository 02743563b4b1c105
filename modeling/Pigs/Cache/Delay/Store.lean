import Pigs.Lib.Run
import Pigs.Cache.Delay.Timers

/-! `Cache` with its map, its command channel and its purge task. A client call is cut at its
access to the map and at its send; the purge task at the yield of the delay queue, at its access
to the map and at the `try_send` of the expired value. -/

namespace Pigs.Cache.Delay

/-- One insertion: the insert call, the value's `expire_ttl` and the time of the map write. -/
structure CachedValue where
  id : Nat
  ttl : Option Nat
  inserted : Nat
  deriving DecidableEq

inductive Request (K : Type) where
  | insert (key : K) (ttl : Option Nat)
  | remove (key : K)
  | refresh (key : K)

/-- An insert is `sending` after its map write, a remove `removing` after its send. A refresh that
has found a value holds the guard of the map entry in `guarded` and `releasing`. -/
inductive CallPc where
  | idle
  | start
  | sending
  | removing
  | guarded (ttl : Option Nat)
  | releasing
  | returned (value : Option CachedValue)

/-- `expiring` has a key from the delay queue and `handing` the value it took out of the map;
`clearing` has left the loop. -/
inductive PurgePc (K : Type) where
  | selecting
  | expiring (key : K)
  | handing (value : CachedValue)
  | clearing
  | stopped
  | panicked

structure Setting (K : Type) where
  alloc : TokenAlloc
  maxDelay : Nat
  request : Nat → Request K

/-- A command in the channel carries the call that sent it. `applied` is the insert call whose
command the purge task has taken last for a key, `taken` what expiries took out of the map and
`handed` what went to `call_tx`, each with the time. -/
structure DelayCache (K : Type) where
  now : Nat
  map : K → Option CachedValue
  guards : List (Nat × K)
  channel : List (Nat × DelayCommand K)
  timers : Timers K
  purge : PurgePc K
  cancelled : Bool
  applied : K → Option Nat
  taken : List (Nat × CachedValue)
  handed : List (Nat × CachedValue)
  calls : Nat → CallPc

inductive CacheAct (K : Type) where
  | tick (elapsed : Nat)
  | call (id : Nat)
  | advance (id : Nat)
  | command
  | expire (token : Nat)
  | advancePurge
  | cancel
  | leave
  | clear (key : K)

namespace DelayCache

variable {K : Type}

def init : DelayCache K where
  now := 0
  map _ := none
  guards := []
  channel := []
  timers := Timers.new
  purge := .selecting
  cancelled := false
  applied _ := none
  taken := []
  handed := []
  calls _ := .idle

def setCall (s : DelayCache K) (id : Nat) (pc : CallPc) : DelayCache K :=
  { s with calls := Function.update s.calls id pc }

/-- `cmd_tx.send`, which fails once the purge task and its receiver are gone. -/
def send (s : DelayCache K) (id : Nat) (command : DelayCommand K) : DelayCache K :=
  match s.purge with
  | .stopped => s
  | .panicked => s
  | _ => { s with channel := s.channel ++ [(id, command)] }

variable [DecidableEq K]

/-- Nobody can write an entry of the map while a refresh holds its guard. -/
def locked (s : DelayCache K) (key : K) : Bool := s.guards.any fun guard => guard.2 = key

def setMap (s : DelayCache K) (key : K) (value : Option CachedValue) : DelayCache K :=
  { s with map := Function.update s.map key value }

/-- The next step of `insert`. -/
def advanceInsert (s : DelayCache K) (id : Nat) (key : K) (ttl : Option Nat) : DelayCache K :=
  match s.calls id with
  | .start =>
      if s.locked key then
        s
      else
        (s.setMap key (some { id := id, ttl := ttl, inserted := s.now })).setCall id .sending
  | .sending => (s.send id (.insert key ttl)).setCall id (.returned none)
  | _ => s

/-- The next step of `remove`. -/
def advanceRemove (s : DelayCache K) (id : Nat) (key : K) : DelayCache K :=
  match s.calls id with
  | .start => (s.send id (.remove key)).setCall id .removing
  | .removing =>
      if s.locked key then
        s
      else
        (s.setMap key none).setCall id (.returned (s.map key))
  | _ => s

/-- The next step of `refresh`. -/
def advanceRefresh (s : DelayCache K) (id : Nat) (key : K) : DelayCache K :=
  match s.calls id with
  | .start =>
      match s.map key with
      | none => s.setCall id (.returned none)
      | some value =>
          { s with guards := (id, key) :: s.guards }.setCall id (.guarded value.ttl)
  | .guarded (some ttl) => (s.send id (.refresh key ttl)).setCall id .releasing
  | .guarded none => s.setCall id .releasing
  | .releasing =>
      { s with guards := s.guards.filter fun guard => guard.1 ≠ id }.setCall id (.returned none)
  | _ => s

variable (c : Setting K)

def advance (s : DelayCache K) (id : Nat) : DelayCache K :=
  match c.request id with
  | .insert key ttl => s.advanceInsert id key ttl
  | .remove key => s.advanceRemove id key
  | .refresh key => s.advanceRefresh id key

def apply (s : DelayCache K) (id : Nat) (command : DelayCommand K) : DelayCache K :=
  match s.timers.apply c.alloc c.maxDelay s.now command with
  | .error _ => { s with channel := [], purge := .panicked }
  | .ok timers =>
      match command with
      | .insert key _ => { s with timers := timers, applied := Function.update s.applied key (some id) }
      | _ => { s with timers := timers }

/-- The command branch of the purge task. -/
def command (s : DelayCache K) : DelayCache K :=
  match s.purge, s.channel with
  | .selecting, (id, command) :: rest => { s with channel := rest }.apply c id command
  | _, _ => s

/-- The expiry branch up to its access to the map. -/
def expire (s : DelayCache K) (token : Nat) : DelayCache K :=
  match s.purge with
  | .selecting =>
      match s.timers.expire token s.now with
      | none => s
      | some (key, timers) => { s with timers := timers, purge := .expiring key }
  | _ => s

def advancePurge (s : DelayCache K) : DelayCache K :=
  match s.purge with
  | .expiring key =>
      if s.locked key then
        s
      else
        match s.map key with
        | none => { s with purge := .selecting }
        | some value =>
            { s.setMap key none with taken := s.taken ++ [(s.now, value)], purge := .handing value }
  | .handing value => { s with handed := s.handed ++ [(s.now, value)], purge := .selecting }
  | .clearing => { s with channel := [], purge := .stopped }
  | _ => s

def step (s : DelayCache K) : CacheAct K → DelayCache K
  | .tick elapsed => { s with now := s.now + elapsed }
  | .call id =>
      match s.calls id with
      | .idle => s.setCall id .start
      | _ => s
  | .advance id => s.advance c id
  | .command => s.command c
  | .expire token => s.expire token
  | .advancePurge => s.advancePurge
  | .cancel => { s with cancelled := true }
  | .leave =>
      match s.purge with
      | .selecting => if s.cancelled then { s with timers := Timers.new, purge := .clearing } else s
      | _ => s
  | .clear key =>
      match s.purge with
      | .clearing => if s.locked key then s else s.setMap key none
      | _ => s

def run (s : DelayCache K) (acts : List (CacheAct K)) : DelayCache K := Lib.runFrom (step c) s acts

end DelayCache

end Pigs.Cache.Delay
