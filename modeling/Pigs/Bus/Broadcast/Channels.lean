import Mathlib.Logic.Function.Basic

/-! The broadcast `TypedMessageBus`: a map from types to the senders of their channels, behind one lock
for each shard, with the calls and the cleanup task cut at every access to the map and to a channel. -/

namespace Pigs.Bus.Broadcast

def DEFAULT_CHANNEL_SIZE : Nat := 64

/-- Who has a sender of a channel: the map, or a `sub_type_channel` call with its clone. -/
inductive Holder where
  | map
  | call (id : Nat)
  deriving DecidableEq

/-- A `broadcast` channel: every message it has taken, its receivers and its senders. -/
structure Channel (Msg : Type) where
  sent : List Msg
  receivers : List Nat
  senders : List Holder

/-- What one poll of a receiver tells. -/
inductive Event (Msg : Type) where
  | message (msg : Msg)
  | lagged (missed : Nat)
  | closed

/-- A receiver with its next position, the latest event first. `start` is the position and `since` the
count of published messages at which it subscribed. -/
structure Receiver (Key Msg : Type) where
  key : Key
  chan : Nat
  start : Nat
  since : Nat
  next : Nat
  events : List (Event Msg)

inductive Call (Key Msg : Type) where
  | publish (key : Key) (msg : Msg)
  | sending (key : Key) (msg : Msg) (chan : Nat)
  | published (receivers : Option Nat)
  | subscribe (key : Key)
  | cloning (key : Key) (chan : Nat)
  | subscribing (key : Key) (chan : Nat)
  | subscribed

/-- The cleanup task: asleep, before shard `shard` of its scan, at the entries of one, or removing. -/
inductive Cleaner (Key : Type) where
  | sleeping
  | scanning (shard : Nat) (toRemove : List Key)
  | visiting (shard : Nat) (entries : List Key) (toRemove : List Key)
  | removing (toRemove : List Key)

/-- `writer` and `readers` are the locks of the shards, held by calls and by cleanup tasks; `published`
is every message that `publish` has passed to the channel of its type. -/
structure State (Key Msg : Type) where
  channels : List (Key × Nat)
  writer : Nat → Option Nat
  readers : Nat → List Nat
  channel : Nat → Channel Msg
  next : Nat
  calls : Nat → Option (Call Key Msg)
  receivers : Nat → Option (Receiver Key Msg)
  cleaners : Nat → Cleaner Key
  published : Key → List Msg

inductive Action (Key Msg : Type) where
  | publish (id : Nat) (key : Key) (msg : Msg)
  | subTypeChannel (id : Nat) (key : Key)
  | entry (id : Nat)
  | send (id : Nat)
  | clone (id : Nat)
  | subscribe (id : Nat)
  | drop (receiver : Nat)
  | recv (receiver : Nat)
  | wake (cleaner : Nat)
  | enterShard (cleaner : Nat)
  | receiverCount (cleaner : Nat) (key : Key)
  | leaveShard (cleaner : Nat)
  | remove (cleaner : Nat)

variable {Key Msg : Type} [DecidableEq Key]

namespace State

def initial : State Key Msg where
  channels := []
  writer := fun _ => none
  readers := fun _ => []
  channel := fun _ => ⟨[], [], []⟩
  next := 0
  calls := fun _ => none
  receivers := fun _ => none
  cleaners := fun _ => .sleeping
  published := fun _ => []

/-- The shard's lock can be taken for writing. -/
def free (s : State Key Msg) (shard : Nat) : Bool :=
  (s.writer shard).isNone && (s.readers shard).isEmpty

def setCall (s : State Key Msg) (id : Nat) (call : Call Key Msg) : State Key Msg :=
  { s with calls := Function.update s.calls id (some call) }

def setChannel (s : State Key Msg) (chan : Nat) (channel : Channel Msg) : State Key Msg :=
  { s with channel := Function.update s.channel chan channel }

def setWriter (s : State Key Msg) (shard : Nat) (holder : Option Nat) : State Key Msg :=
  { s with writer := Function.update s.writer shard holder }

def setCleaner (s : State Key Msg) (cleaner : Nat) (phase : Cleaner Key) : State Key Msg :=
  { s with cleaners := Function.update s.cleaners cleaner phase }

/-- `or_insert_with` a new channel, whose own receiver is dropped at once. -/
def orInsert (s : State Key Msg) (key : Key) : State Key Msg :=
  match s.channels.lookup key with
  | some _ => s
  | none =>
      { s.setChannel s.next ⟨[], [], [.map]⟩ with
        channels := s.channels ++ [(key, s.next)]
        next := s.next + 1 }

def chanOf (s : State Key Msg) (key : Key) : Nat :=
  (s.channels.lookup key).getD s.next

/-- `channels.entry(type_id)` takes the lock of the shard and keeps it. -/
def entry (shard : Key → Nat) (s : State Key Msg) (id : Nat) : State Key Msg :=
  match s.calls id with
  | some (.publish key msg) =>
      if s.free (shard key) then
        ((s.orInsert key).setWriter (shard key) (some id)).setCall id (.sending key msg (s.chanOf key))
      else
        s
  | some (.subscribe key) =>
      if s.free (shard key) then
        ((s.orInsert key).setWriter (shard key) (some id)).setCall id (.cloning key (s.chanOf key))
      else
        s
  | _ => s

/-- `entry.send`, which a channel without receivers refuses; the entry's lock goes with it. -/
def send (shard : Key → Nat) (s : State Key Msg) (id : Nat) : State Key Msg :=
  match s.calls id with
  | some (.sending key msg chan) =>
      let channel := s.channel chan
      let s := { s with published := Function.update s.published key (s.published key ++ [msg]) }
      let s := s.setWriter (shard key) none
      if channel.receivers = [] then
        s.setCall id (.published none)
      else
        (s.setChannel chan { channel with sent := channel.sent ++ [msg] }).setCall id
          (.published (some channel.receivers.length))
  | _ => s

/-- The clone of the sender, at the end of the statement that holds the entry. -/
def clone (shard : Key → Nat) (s : State Key Msg) (id : Nat) : State Key Msg :=
  match s.calls id with
  | some (.cloning key chan) =>
      let channel := s.channel chan
      ((s.setChannel chan { channel with senders := channel.senders ++ [.call id] }).setWriter
        (shard key) none).setCall id (.subscribing key chan)
  | _ => s

/-- `tx.subscribe()`, and the clone dropped as the call returns. -/
def subscribe (s : State Key Msg) (id : Nat) : State Key Msg :=
  match s.calls id with
  | some (.subscribing key chan) =>
      let channel := s.channel chan
      let receiver : Receiver Key Msg :=
        ⟨key, chan, channel.sent.length, (s.published key).length, channel.sent.length, []⟩
      let s := s.setChannel chan
        { channel with
          receivers := channel.receivers ++ [id]
          senders := channel.senders.erase (.call id) }
      { s.setCall id .subscribed with receivers := Function.update s.receivers id (some receiver) }
  | _ => s

def drop (s : State Key Msg) (id : Nat) : State Key Msg :=
  match s.receivers id with
  | some receiver =>
      let channel := s.channel receiver.chan
      { s.setChannel receiver.chan { channel with receivers := channel.receivers.erase id } with
        receivers := Function.update s.receivers id none }
  | none => s

/-- One poll: the next message, the count of those the ring has overwritten, or nothing yet. -/
def poll (channel : Channel Msg) (receiver : Receiver Key Msg) : Receiver Key Msg :=
  match channel.sent[receiver.next]? with
  | none =>
      if channel.senders = [] then { receiver with events := .closed :: receiver.events } else receiver
  | some msg =>
      let oldest := channel.sent.length - DEFAULT_CHANNEL_SIZE
      if receiver.next < oldest then
        { receiver with
          next := oldest
          events := .lagged (oldest - receiver.next) :: receiver.events }
      else
        { receiver with
          next := receiver.next + 1
          events := .message msg :: receiver.events }

def recv (s : State Key Msg) (id : Nat) : State Key Msg :=
  match s.receivers id with
  | some receiver =>
      { s with
        receivers := Function.update s.receivers id (some (poll (s.channel receiver.chan) receiver)) }
  | none => s

/-- The iterator takes the read lock of the next shard, until it has been through them all. -/
def enterShard (shard : Key → Nat) (shards : Nat) (s : State Key Msg) (cleaner : Nat) : State Key Msg :=
  match s.cleaners cleaner with
  | .scanning index toRemove =>
      if index < shards then
        if s.writer index = none then
          let entries := (s.channels.map Prod.fst).filter fun key => shard key = index
          { s.setCleaner cleaner (.visiting index entries toRemove) with
            readers := Function.update s.readers index (cleaner :: s.readers index) }
        else
          s
      else
        s.setCleaner cleaner (.removing toRemove)
  | _ => s

/-- `receiver_count() == 0` of one entry of the shard. -/
def receiverCount (s : State Key Msg) (cleaner : Nat) (key : Key) : State Key Msg :=
  match s.cleaners cleaner with
  | .visiting index entries toRemove =>
      if key ∈ entries then
        let unused := (s.channel (s.chanOf key)).receivers = []
        s.setCleaner cleaner
          (.visiting index (entries.erase key) (if unused then toRemove ++ [key] else toRemove))
      else
        s
  | _ => s

def leaveShard (s : State Key Msg) (cleaner : Nat) : State Key Msg :=
  match s.cleaners cleaner with
  | .visiting index [] toRemove =>
      { s.setCleaner cleaner (.scanning (index + 1) toRemove) with
        readers := Function.update s.readers index ((s.readers index).erase cleaner) }
  | _ => s

/-- `map.remove(&id)` drops the stored sender. -/
def remove (shard : Key → Nat) (s : State Key Msg) (cleaner : Nat) : State Key Msg :=
  match s.cleaners cleaner with
  | .removing [] => s.setCleaner cleaner .sleeping
  | .removing (key :: toRemove) =>
      if s.free (shard key) then
        match s.channels.lookup key with
        | some chan =>
            let channel := s.channel chan
            { (s.setChannel chan { channel with senders := channel.senders.erase .map }).setCleaner
                cleaner (.removing toRemove) with
              channels := s.channels.filter fun stored => stored.1 ≠ key }
        | none => s.setCleaner cleaner (.removing toRemove)
      else
        s
  | _ => s

def step (shard : Key → Nat) (shards : Nat) (s : State Key Msg) : Action Key Msg → State Key Msg
  | .publish id key msg => if (s.calls id).isNone then s.setCall id (.publish key msg) else s
  | .subTypeChannel id key => if (s.calls id).isNone then s.setCall id (.subscribe key) else s
  | .entry id => s.entry shard id
  | .send id => s.send shard id
  | .clone id => s.clone shard id
  | .subscribe id => s.subscribe id
  | .drop id => s.drop id
  | .recv id => s.recv id
  | .wake cleaner =>
      match s.cleaners cleaner with
      | .sleeping => s.setCleaner cleaner (.scanning 0 [])
      | _ => s
  | .enterShard cleaner => s.enterShard shard shards cleaner
  | .receiverCount cleaner key => s.receiverCount cleaner key
  | .leaveShard cleaner => s.leaveShard cleaner
  | .remove cleaner => s.remove shard cleaner

end State

end Pigs.Bus.Broadcast
