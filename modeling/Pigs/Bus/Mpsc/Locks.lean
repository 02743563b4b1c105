import Mathlib.Logic.Function.Basic

/-! The mpsc `TypedMessageBus`: its calls by tasks, cut at every lock of a shard of the map and at every
poll of a channel. -/

namespace Pigs.Bus.Mpsc

def DEFAULT_CHANNEL_SIZE : Nat := 64

inductive MessageBusError where
  | alreadyExists
  | notFound
  | full
  | channelClosed
  deriving DecidableEq

/-- A channel of the map; it is closed once its receiver is dropped. -/
structure Channel (Msg : Type) where
  queue : List Msg
  closed : Bool

/-- What a call gave back: the message of a `recv`, nothing of the others. -/
abbrev Returned (Msg : Type) := Except MessageBusError (Option Msg)

/-- A task inside a bus call: before the lock of the shard (`subscribe`, `tryPublish`, `publish`) or with
a guard of it. -/
inductive Call (Key Msg : Type) where
  | idle (last : Option (Returned Msg))
  | subscribe (key : Key)
  | inserting (key : Key)
  | tryPublish (key : Key) (msg : Msg)
  | trySending (key : Key) (msg : Msg)
  | publish (key : Key) (msg : Msg)
  | sending (key : Key) (msg : Msg)

structure State (Key Msg : Type) where
  channels : Key → Option (Channel Msg)
  owner : Key → Option Nat
  writer : Nat → Option Nat
  readers : Nat → List Nat
  calls : Nat → Call Key Msg

inductive Action (Key Msg : Type) where
  | subTypeChannel (task : Nat) (key : Key)
  | tryPublish (task : Nat) (key : Key) (msg : Msg)
  | publish (task : Nat) (key : Key) (msg : Msg)
  | entry (task : Nat)
  | insert (task : Nat)
  | get (task : Nat)
  | trySend (task : Nat)
  | send (task : Nat)
  | cancel (task : Nat)
  | recv (task : Nat) (key : Key)
  | dropReceiver (task : Nat) (key : Key)
  | give (task : Nat) (key : Key) (other : Nat)

variable {Key Msg : Type} [DecidableEq Key]

namespace State

def initial : State Key Msg where
  channels := fun _ => none
  owner := fun _ => none
  writer := fun _ => none
  readers := fun _ => []
  calls := fun _ => .idle none

def setCall (s : State Key Msg) (task : Nat) (call : Call Key Msg) : State Key Msg :=
  { s with calls := Function.update s.calls task call }

def setWriter (s : State Key Msg) (index : Nat) (holder : Option Nat) : State Key Msg :=
  { s with writer := Function.update s.writer index holder }

def setReaders (s : State Key Msg) (index : Nat) (holders : List Nat) : State Key Msg :=
  { s with readers := Function.update s.readers index holders }

def setChannel (s : State Key Msg) (key : Key) (channel : Channel Msg) : State Key Msg :=
  { s with channels := Function.update s.channels key (some channel) }

def setOwner (s : State Key Msg) (key : Key) (task : Option Nat) : State Key Msg :=
  { s with owner := Function.update s.owner key task }

/-- A task starts a call outside any other. -/
def start (s : State Key Msg) (task : Nat) (call : Call Key Msg) : State Key Msg :=
  match s.calls task with
  | .idle _ => s.setCall task call
  | _ => s

/-- `channels.entry(type_id)` takes the shard's lock for writing. -/
def entry (shard : Key → Nat) (s : State Key Msg) (task : Nat) : State Key Msg :=
  match s.calls task with
  | .subscribe key =>
      if s.writer (shard key) = none ∧ s.readers (shard key) = [] then
        (s.setWriter (shard key) (some task)).setCall task (.inserting key)
      else
        s
  | _ => s

/-- An occupied entry is refused, a vacant one gets the channel; the lock goes with the entry. -/
def insert (shard : Key → Nat) (s : State Key Msg) (task : Nat) : State Key Msg :=
  match s.calls task with
  | .inserting key =>
      match s.channels key with
      | some _ =>
          (s.setWriter (shard key) none).setCall task (.idle (some (.error .alreadyExists)))
      | none =>
          (((s.setChannel key ⟨[], false⟩).setOwner key (some task)).setWriter (shard key) none).setCall
            task (.idle (some (.ok none)))
  | _ => s

/-- `channels.get(&type_id)` takes the shard's lock for reading, and keeps it if there is an entry. -/
def get (shard : Key → Nat) (s : State Key Msg) (task : Nat) : State Key Msg :=
  match s.calls task with
  | .tryPublish key msg =>
      if s.writer (shard key) = none then
        match s.channels key with
        | none => s.setCall task (.idle (some (.error .notFound)))
        | some _ =>
            (s.setReaders (shard key) (task :: s.readers (shard key))).setCall task (.trySending key msg)
      else
        s
  | .publish key msg =>
      if s.writer (shard key) = none then
        match s.channels key with
        | none => s.setCall task (.idle (some (.error .notFound)))
        | some _ =>
            (s.setReaders (shard key) (task :: s.readers (shard key))).setCall task (.sending key msg)
      else
        s
  | _ => s

/-- The end of a call that has a guard for reading. -/
def release (shard : Key → Nat) (s : State Key Msg) (task : Nat) (key : Key) (result : Returned Msg) :
    State Key Msg :=
  (s.setReaders (shard key) ((s.readers (shard key)).erase task)).setCall task (.idle (some result))

def trySend (shard : Key → Nat) (s : State Key Msg) (task : Nat) : State Key Msg :=
  match s.calls task with
  | .trySending key msg =>
      match s.channels key with
      | none => s
      | some channel =>
          if channel.closed then
            s.release shard task key (.error .channelClosed)
          else if channel.queue.length < DEFAULT_CHANNEL_SIZE then
            (s.setChannel key { channel with queue := channel.queue ++ [msg] }).release shard task key
              (.ok none)
          else
            s.release shard task key (.error .full)
  | _ => s

/-- A poll of `send`, which waits for capacity with the guard in hand. -/
def send (shard : Key → Nat) (s : State Key Msg) (task : Nat) : State Key Msg :=
  match s.calls task with
  | .sending key msg =>
      match s.channels key with
      | none => s
      | some channel =>
          if channel.closed then
            s.release shard task key (.error .channelClosed)
          else if channel.queue.length < DEFAULT_CHANNEL_SIZE then
            (s.setChannel key { channel with queue := channel.queue ++ [msg] }).release shard task key
              (.ok none)
          else
            s
  | _ => s

/-- The future of a waiting `publish` is dropped, and its guard with it. -/
def cancel (shard : Key → Nat) (s : State Key Msg) (task : Nat) : State Key Msg :=
  match s.calls task with
  | .sending key _ =>
      (s.setReaders (shard key) ((s.readers (shard key)).erase task)).setCall task (.idle none)
  | _ => s

/-- A poll of `recv` by the owner of the receiver, which takes no lock. -/
def recv (s : State Key Msg) (task : Nat) (key : Key) : State Key Msg :=
  match s.calls task, s.channels key with
  | .idle _, some channel =>
      if s.owner key = some task then
        match channel.queue with
        | [] => s
        | msg :: queue =>
            (s.setChannel key { channel with queue }).setCall task (.idle (some (.ok (some msg))))
      else
        s
  | _, _ => s

/-- The drop of a receiver closes its channel and drops what is still queued there. -/
def dropReceiver (s : State Key Msg) (task : Nat) (key : Key) : State Key Msg :=
  match s.calls task, s.channels key with
  | .idle _, some _ =>
      if s.owner key = some task then
        (s.setChannel key ⟨[], true⟩).setOwner key none
      else
        s
  | _, _ => s

/-- A receiver moves from one task to another, neither of them inside a bus call. -/
def give (s : State Key Msg) (task : Nat) (key : Key) (other : Nat) : State Key Msg :=
  match s.calls task, s.calls other with
  | .idle _, .idle _ => if s.owner key = some task then s.setOwner key (some other) else s
  | _, _ => s

def step (shard : Key → Nat) (s : State Key Msg) : Action Key Msg → State Key Msg
  | .subTypeChannel task key => s.start task (.subscribe key)
  | .tryPublish task key msg => s.start task (.tryPublish key msg)
  | .publish task key msg => s.start task (.publish key msg)
  | .entry task => s.entry shard task
  | .insert task => s.insert shard task
  | .get task => s.get shard task
  | .trySend task => s.trySend shard task
  | .send task => s.send shard task
  | .cancel task => s.cancel shard task
  | .recv task key => s.recv task key
  | .dropReceiver task key => s.dropReceiver task key
  | .give task key other => s.give task key other

/-- `task` is inside a bus call on a lock that `holder` has. -/
def BlockedBy (shard : Key → Nat) (s : State Key Msg) (task : Nat) (key : Key) (holder : Nat) : Prop :=
  (s.calls task = .subscribe key ∧
      (holder ∈ s.readers (shard key) ∨ s.writer (shard key) = some holder)) ∨
    (∃ msg, (s.calls task = .tryPublish key msg ∨ s.calls task = .publish key msg) ∧
      s.writer (shard key) = some holder)

/-- `task` waits for capacity on the full channel of `key`. -/
def WaitsFor (s : State Key Msg) (task : Nat) (key : Key) : Prop :=
  ∃ msg channel, s.calls task = .sending key msg ∧ s.channels key = some channel ∧
    channel.closed = false ∧ DEFAULT_CHANNEL_SIZE ≤ channel.queue.length

/-- A publisher waits for the owner of the receiver, which is blocked on the publisher's lock inside a
call for another type. -/
def Wedged (shard : Key → Nat) (s : State Key Msg) : Prop :=
  ∃ publisher task key other, s.WaitsFor publisher key ∧ s.owner key = some task ∧ other ≠ key ∧
    s.BlockedBy shard task other publisher

end State

end Pigs.Bus.Mpsc
