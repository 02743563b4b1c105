import Pigs.Lib.Channel
import Pigs.Cache.C100k.Batches
import Pigs.Cache.C100k.Clock
import Pigs.Cache.C100k.Routing
import Pigs.Cache.C100k.Ttl

/-! The whole `c100k` cache: callers that route commands by hash, shard tasks behind command
channels, and the event channel that `next_batch` reads. The callers, the tasks and the reader
interleave at every send and receive. -/

namespace Pigs.Cache.C100k

open Lib (Duration)

def CHANNEL : Nat := 65536

namespace Command

variable {K : Type}

def key : Command K → K
  | .insert key _ => key
  | .refresh key => key
  | .delete key => key

end Command

namespace Op

variable {K : Type}

def command : Op K → Option (Command K)
  | .handle cmd => some cmd
  | .onTick _ => none

end Op

/-- `outgoing` is what an `on_tick` under way still hands to `event_tx.try_send`. After `close` the
cache is dropped, with its command senders and its event receiver. -/
structure Tasks (K : Type) (cap last : Nat) where
  shards : Fin (last + 1) → Shard K cap
  commands : Fin (last + 1) → Lib.Channel (Command K) CHANNEL
  outgoing : Fin (last + 1) → List (List (CacheEvent K))
  stopped : Fin (last + 1) → Bool
  events : Lib.Channel (List (CacheEvent K)) CHANNEL
  closed : Bool

inductive Action (K : Type) (last : Nat) where
  | insert (key : K) (ttl : Duration)
  | refresh (key : K)
  | delete (key : K)
  | tryRecv (i : Fin (last + 1))
  | onTick (i : Fin (last + 1)) (elapsed : Nat)
  | sendEvents (i : Fin (last + 1))
  | disconnect (i : Fin (last + 1))
  | nextBatch
  | close

inductive Effect (K : Type) (last : Nat) where
  | accepted (cmd : Command K)
  | ran (i : Fin (last + 1)) (op : Op K)
  | sent (i : Fin (last + 1)) (batch : List (CacheEvent K))
  | lost (i : Fin (last + 1)) (batch : List (CacheEvent K))
  | received (batch : List (CacheEvent K))

namespace Tasks

variable {K : Type} {cap last : Nat}

/-- `Cache::with_capacity`. With no shard at all every call panics, so there is at least one. -/
def withCapacity (K : Type) (cap last : Nat) : Tasks K cap last where
  shards _ := Shard.new K cap
  commands _ := .empty
  outgoing _ := []
  stopped _ := false
  events := .empty
  closed := false

/-- The index `(hash as usize) & (self.shards.len() - 1)`. -/
def route (last : Nat) (hash : UInt64) : Fin (last + 1) :=
  ⟨hash.toNat &&& last, Nat.lt_succ_of_le Nat.and_le_right⟩

theorem route_eq_shardIndex (hash : UInt64) :
    (route last hash).val = (Cache.withCapacity K cap (last + 1)).shardIndex hash := by
  rw [Cache.shardIndex, Cache.length_withCapacity]
  rfl

variable (hash : K → UInt64)

/-- The `try_send` of a caller, to the shard of the key. -/
def send (s : Tasks K cap last) (cmd : Command K) : Tasks K cap last × List (Effect K last) :=
  let i := route last (hash cmd.key)
  if s.closed then
    (s, [])
  else
    match (s.commands i).trySend cmd with
    | none => (s, [])
    | some channel =>
        ({ s with commands := Function.update s.commands i channel }, [.accepted cmd])

/-- Nothing under way in the loop of `Shard::run`. -/
def idle (s : Tasks K cap last) (i : Fin (last + 1)) : Bool := !s.stopped i && (s.outgoing i).isEmpty

/-- `on_tick` as far as its first `try_send`, the batches still to be handed on in `outgoing`. -/
def tick (s : Tasks K cap last) (i : Fin (last + 1)) (elapsed : Nat) :
    Tasks K cap last × List (Effect K last) :=
  let shard := (s.shards i).onTick elapsed
  if s.idle i then
    ({ s with
        shards := Function.update s.shards i shard
        outgoing := Function.update s.outgoing i (shard.sent.drop (s.shards i).sent.length) },
      [.ran i (.onTick elapsed)])
  else
    (s, [])

/-- One `event_tx.try_send`; its error is only logged. -/
def sendEvents (s : Tasks K cap last) (i : Fin (last + 1)) : Tasks K cap last × List (Effect K last) :=
  match s.outgoing i with
  | [] => (s, [])
  | batch :: rest =>
      let s := { s with outgoing := Function.update s.outgoing i rest }
      if s.closed then
        (s, [.lost i batch])
      else
        match s.events.trySend batch with
        | none => (s, [.lost i batch])
        | some channel => ({ s with events := channel }, [.sent i batch])

/-- `try_recv` finds the command senders gone and the queue empty: hand the batch on and return. -/
def disconnect (s : Tasks K cap last) (i : Fin (last + 1)) : Tasks K cap last × List (Effect K last) :=
  if s.idle i && s.closed && (s.commands i).queue.isEmpty then
    ({ s with
        stopped := Function.update s.stopped i true
        outgoing := Function.update s.outgoing i
          (if (s.shards i).batch.isEmpty then [] else [(s.shards i).batch]) }, [])
  else
    (s, [])

def nextBatch (s : Tasks K cap last) : Tasks K cap last × List (Effect K last) :=
  match s.closed, s.events.tryRecv with
  | false, some (batch, channel) => ({ s with events := channel }, [.received batch])
  | _, _ => (s, [])

variable [DecidableEq K]

/-- One pass of the inner loop of `Shard::run`. -/
def handleNext (s : Tasks K cap last) (i : Fin (last + 1)) : Tasks K cap last × List (Effect K last) :=
  match s.idle i, (s.commands i).tryRecv with
  | true, some (cmd, channel) =>
      ({ s with
          commands := Function.update s.commands i channel
          shards := Function.update s.shards i ((s.shards i).handle hash cmd) },
        [.ran i (.handle cmd)])
  | _, _ => (s, [])

def act (s : Tasks K cap last) : Action K last → Tasks K cap last × List (Effect K last)
  | .insert key ttl => s.send hash (.insert key (ttlToTick ttl))
  | .refresh key => s.send hash (.refresh key)
  | .delete key => s.send hash (.delete key)
  | .tryRecv i => s.handleNext hash i
  | .onTick i elapsed => s.tick i elapsed
  | .sendEvents i => s.sendEvents i
  | .disconnect i => s.disconnect i
  | .nextBatch => s.nextBatch
  | .close => ({ s with closed := true }, [])

def step (s : Tasks K cap last) (a : Action K last) : Tasks K cap last := (s.act hash a).1

def emit (s : Tasks K cap last) (a : Action K last) : List (Effect K last) := (s.act hash a).2

end Tasks

/-! What a run did, read off its effects. -/

namespace Effect

variable {K : Type} {last : Nat}

def command : Effect K last → Option (Command K)
  | .accepted cmd => some cmd
  | _ => none

def op (i : Fin (last + 1)) : Effect K last → Option (Op K)
  | .ran j op => if j = i then some op else none
  | _ => none

def offered (i : Fin (last + 1)) : Effect K last → Option (List (CacheEvent K))
  | .sent j batch => if j = i then some batch else none
  | .lost j batch => if j = i then some batch else none
  | _ => none

def sentBy (i : Fin (last + 1)) : Effect K last → Option (List (CacheEvent K))
  | .sent j batch => if j = i then some batch else none
  | _ => none

def lostBy (i : Fin (last + 1)) : Effect K last → Option (List (CacheEvent K))
  | .lost j batch => if j = i then some batch else none
  | _ => none

def sentBatch : Effect K last → Option (List (CacheEvent K))
  | .sent _ batch => some batch
  | _ => none

def receivedBatch : Effect K last → Option (List (CacheEvent K))
  | .received batch => some batch
  | _ => none

end Effect

namespace Tasks

variable {K : Type} {cap last : Nat}

theorem outgoing_of_idle (s : Tasks K cap last) (i : Fin (last + 1)) (idle : s.idle i = true) :
    s.outgoing i = [] := by
  rw [Tasks.idle, Bool.and_eq_true] at idle
  exact List.isEmpty_iff.mp idle.2

/-- The operations of shard `i`, in order. -/
def ops (i : Fin (last + 1)) (past : List (Effect K last)) : List (Op K) := past.filterMap (Effect.op i)

variable (hash : K → UInt64)

/-- The commands that callers got accepted for the keys of shard `i`, in order. -/
def acceptedFor (i : Fin (last + 1)) (past : List (Effect K last)) : List (Command K) :=
  (past.filterMap Effect.command).filter fun cmd => route last (hash cmd.key) = i

variable [DecidableEq K]

/-- Each shard has run what its command queue gave it, and the channels carry what was sent. -/
structure Consistent (s : Tasks K cap last) (past : List (Effect K last)) : Prop where
  shards : ∀ i, s.shards i = (Shard.new K cap).run hash (ops i past)
  commands : ∀ i, (s.commands i).Carries (acceptedFor hash i past) ((ops i past).filterMap Op.command)
  outgoing : ∀ i, past.filterMap (Effect.offered i) ++ s.outgoing i = (s.shards i).sent
  events : s.events.Carries (past.filterMap Effect.sentBatch) (past.filterMap Effect.receivedBatch)
  positive : ∀ key ttl, .insert key ttl ∈ past.filterMap Effect.command → 1 ≤ ttl

variable {hash} {s : Tasks K cap last} {past : List (Effect K last)}

namespace Consistent

theorem start : Consistent hash (withCapacity K cap last) [] where
  shards _ := rfl
  commands _ := .empty
  outgoing _ := rfl
  events := .empty
  positive _ _ member := absurd member List.not_mem_nil

theorem send (kept : Consistent hash s past) (cmd : Command K)
    (positive : ∀ key ttl, cmd = .insert key ttl → 1 ≤ ttl) :
    Consistent hash (s.send hash cmd).1 (past ++ (s.send hash cmd).2) := by
  simp only [Tasks.send]
  split
  · simpa using kept
  split
  · simpa using kept
  rename_i channel sent
  refine ⟨?_, ?_, ?_, ?_, ?_⟩
  · intro i
    simpa [ops, Effect.op, List.filterMap_cons] using kept.shards i
  · intro i
    have before := kept.commands i
    by_cases here : route last (hash cmd.key) = i
    · subst here
      have carried := before.trySend sent
      simpa [acceptedFor, ops, Effect.op, Effect.command, List.filterMap_cons] using carried
    · simpa [acceptedFor, ops, Effect.op, Effect.command, here, Function.update_of_ne (Ne.symm here),
        List.filterMap_cons] using before
  · intro i
    simpa [Effect.offered, List.filterMap_cons] using kept.outgoing i
  · simpa [Effect.sentBatch, Effect.receivedBatch, List.filterMap_cons] using kept.events
  · intro key ttl member
    simp only [List.filterMap_append, List.filterMap_cons, Effect.command, List.filterMap_nil, List.mem_append,
      List.mem_singleton] at member
    rcases member with earlier | now
    · exact kept.positive key ttl earlier
    · exact positive key ttl now.symm

theorem handleNext (kept : Consistent hash s past) (i : Fin (last + 1)) :
    Consistent hash (s.handleNext hash i).1 (past ++ (s.handleNext hash i).2) := by
  simp only [Tasks.handleNext]
  split
  · rename_i cmd channel idle taken
    have ran (j : Fin (last + 1)) : ops j (past ++ [Effect.ran i (.handle cmd)]) =
        ops j past ++ if i = j then [Op.handle cmd] else [] := by
      by_cases here : i = j <;> simp [ops, Effect.op, here]
    refine ⟨?_, ?_, ?_, ?_, ?_⟩
    · intro j
      rw [ran, Shard.run_append, ← kept.shards j]
      by_cases here : i = j
      · subst here
        simp [Shard.run, Shard.step]
      · simp [here, Function.update_of_ne (Ne.symm here), Shard.run]
    · intro j
      rw [ran]
      have before := kept.commands j
      by_cases here : i = j
      · subst here
        have carried := before.tryRecv taken
        simpa [acceptedFor, Effect.command, Op.command, List.filterMap_cons] using carried
      · simpa [acceptedFor, Effect.command, here, Function.update_of_ne (Ne.symm here),
          List.filterMap_cons] using before
    · intro j
      have before := kept.outgoing j
      by_cases here : i = j
      · subst here
        simpa [Effect.offered, (Shard.handle_batch hash (s.shards i) cmd).2, List.filterMap_cons] using before
      · simpa [Effect.offered, Function.update_of_ne (Ne.symm here), List.filterMap_cons] using before
    · simpa [Effect.sentBatch, Effect.receivedBatch, List.filterMap_cons] using kept.events
    · simpa [Effect.command, List.filterMap_cons] using kept.positive
  · simpa using kept

theorem tick (kept : Consistent hash s past) (i : Fin (last + 1)) (elapsed : Nat) :
    Consistent hash (s.tick i elapsed).1 (past ++ (s.tick i elapsed).2) := by
  simp only [Tasks.tick]
  split
  · rename_i idle
    have ran (j : Fin (last + 1)) : ops j (past ++ [Effect.ran i (.onTick elapsed)]) =
        ops j past ++ if i = j then [Op.onTick elapsed] else [] := by
      by_cases here : i = j <;> simp [ops, Effect.op, here]
    refine ⟨?_, ?_, ?_, ?_, ?_⟩
    · intro j
      rw [ran, Shard.run_append, ← kept.shards j]
      by_cases here : i = j
      · subst here
        simp [Shard.run, Shard.step]
      · simp [here, Function.update_of_ne (Ne.symm here), Shard.run]
    · intro j
      rw [ran]
      have before := kept.commands j
      by_cases here : i = j
      · subst here
        simpa [acceptedFor, Effect.command, Op.command, List.filterMap_cons] using before
      · simpa [acceptedFor, Effect.command, here, List.filterMap_cons] using before
    · intro j
      have before := kept.outgoing j
      by_cases here : i = j
      · subst here
        rw [outgoing_of_idle s i idle, List.append_nil] at before
        have grown := List.prefix_iff_eq_append.mp (Shard.Hands.onTick (s.shards i) elapsed).sent
        simpa [Effect.offered, List.filterMap_cons, before] using grown
      · simpa [Effect.offered, List.filterMap_cons, Function.update_of_ne (Ne.symm here)] using before
    · simpa [Effect.sentBatch, Effect.receivedBatch, List.filterMap_cons] using kept.events
    · simpa [Effect.command, List.filterMap_cons] using kept.positive
  · simpa using kept

/-- The next outgoing batch of shard `i` leaves the shard, whatever becomes of it. -/
theorem outgoing_offered (kept : Consistent hash s past) (i : Fin (last + 1)) (batch : List (CacheEvent K))
    (rest : List (List (CacheEvent K))) (shape : s.outgoing i = batch :: rest) (e : Effect K last)
    (offered : ∀ j, e.offered j = if i = j then some batch else none) (j : Fin (last + 1)) :
    (past ++ [e]).filterMap (Effect.offered j) ++ Function.update s.outgoing i rest j = (s.shards j).sent := by
  have before := kept.outgoing j
  by_cases here : i = j
  · subst here
    rw [shape] at before
    simpa [offered, List.filterMap_cons] using before
  · simpa [offered, here, List.filterMap_cons, Function.update_of_ne (Ne.symm here)] using before

theorem sendEvents (kept : Consistent hash s past) (i : Fin (last + 1)) :
    Consistent hash (s.sendEvents i).1 (past ++ (s.sendEvents i).2) := by
  simp only [Tasks.sendEvents]
  split
  · simpa using kept
  rename_i batch rest shape
  have dropped : Consistent hash { s with outgoing := Function.update s.outgoing i rest }
      (past ++ [.lost i batch]) := by
    refine ⟨?_, ?_, ?_, ?_, ?_⟩
    · simpa [ops, Effect.op, List.filterMap_cons] using kept.shards
    · simpa [acceptedFor, ops, Effect.op, Effect.command, List.filterMap_cons] using kept.commands
    · exact kept.outgoing_offered i batch rest shape (.lost i batch) fun j => rfl
    · simpa [Effect.sentBatch, Effect.receivedBatch, List.filterMap_cons] using kept.events
    · simpa [Effect.command, List.filterMap_cons] using kept.positive
  split
  · exact dropped
  split
  · exact dropped
  rename_i channel sent
  refine ⟨?_, ?_, ?_, ?_, ?_⟩
  · simpa [ops, Effect.op, List.filterMap_cons] using kept.shards
  · simpa [acceptedFor, ops, Effect.op, Effect.command, List.filterMap_cons] using kept.commands
  · exact kept.outgoing_offered i batch rest shape (.sent i batch) fun j => rfl
  · have carried := kept.events.trySend sent
    simpa [Effect.sentBatch, Effect.receivedBatch, List.filterMap_cons] using carried
  · simpa [Effect.command, List.filterMap_cons] using kept.positive

/-- A shard that stops has nothing left to hand on. -/
theorem disconnect (kept : Consistent hash s past) (i : Fin (last + 1)) :
    Consistent hash (s.disconnect i).1 (past ++ (s.disconnect i).2) := by
  simp only [Tasks.disconnect]
  split
  · rename_i idle
    rw [Bool.and_eq_true, Bool.and_eq_true] at idle
    have empty : (s.shards i).batch = [] := by
      rw [kept.shards i]
      exact Shard.run_batch hash (Shard.new K cap) _ rfl
    have same : Function.update s.outgoing i
        (if (s.shards i).batch.isEmpty then [] else [(s.shards i).batch]) = s.outgoing := by
      rw [empty, ← outgoing_of_idle s i idle.1.1]
      exact Function.update_eq_self i s.outgoing
    rw [same, List.append_nil]
    exact ⟨kept.shards, kept.commands, kept.outgoing, kept.events, kept.positive⟩
  · simpa using kept

theorem nextBatch (kept : Consistent hash s past) :
    Consistent hash s.nextBatch.1 (past ++ s.nextBatch.2) := by
  simp only [Tasks.nextBatch]
  split
  · rename_i batch channel open_ taken
    have carried := kept.events.tryRecv taken
    refine ⟨?_, ?_, ?_, ?_, ?_⟩
    · simpa [ops, Effect.op, List.filterMap_cons] using kept.shards
    · simpa [acceptedFor, ops, Effect.op, Effect.command, List.filterMap_cons] using kept.commands
    · simpa [Effect.offered, List.filterMap_cons] using kept.outgoing
    · simpa [Effect.sentBatch, Effect.receivedBatch, List.filterMap_cons] using carried
    · simpa [Effect.command, List.filterMap_cons] using kept.positive
  · simpa using kept

theorem step (kept : Consistent hash s past) (a : Action K last) :
    Consistent hash (s.step hash a) (past ++ s.emit hash a) := by
  cases a with
  | insert key ttl =>
      apply kept.send
      intro other ticks same
      cases same
      exact one_le_ttlToTick ttl
  | refresh key =>
      apply kept.send
      intro other ticks same
      cases same
  | delete key =>
      apply kept.send
      intro other ticks same
      cases same
  | tryRecv i => exact kept.handleNext i
  | onTick i elapsed => exact kept.tick i elapsed
  | sendEvents i => exact kept.sendEvents i
  | disconnect i => exact kept.disconnect i
  | nextBatch => exact kept.nextBatch
  | close =>
      have same : past ++ (s.emit hash .close) = past := List.append_nil past
      rw [same]
      exact ⟨kept.shards, kept.commands, kept.outgoing, kept.events, kept.positive⟩

theorem run (acts : List (Action K last)) :
    Consistent hash (Lib.runFrom (Tasks.step hash) (withCapacity K cap last) acts)
      (Lib.traceFrom (Tasks.step hash) (emit hash) (withCapacity K cap last) acts) := by
  have along : Lib.Along (Tasks.step hash) (fun _ _ => True) (withCapacity K cap last) acts :=
    Lib.along_of_mem _ _ acts fun _ _ _ => trivial
  exact Lib.invariant_trace (Tasks.step hash) (emit hash) (Consistent hash) (fun _ _ a _ kept => kept.step a) _ []
    acts along .start

theorem command_accepted (kept : Consistent hash s past) (i : Fin (last + 1)) (cmd : Command K)
    (ran : Op.handle cmd ∈ ops i past) : cmd ∈ acceptedFor hash i past := by
  apply (kept.commands i).received_isPrefix.subset
  exact List.mem_filterMap.mpr ⟨_, ran, rfl⟩

theorem ttl_positive (kept : Consistent hash s past) (i : Fin (last + 1)) : PositiveTtl (ops i past) := by
  intro key ttl ran
  exact kept.positive key ttl (List.mem_filter.mp (kept.command_accepted i _ ran)).1

end Consistent

end Tasks

/-- What was stored was asked for. -/
theorem Shard.mem_history_inserted {K : Type} {cap : Nat} [DecidableEq K] (hash : K → UInt64)
    (s : Shard K cap) (ops : List (Op K)) (key : K) (ttl start : Nat)
    (member : Obs.inserted key ttl start ∈ s.history hash ops) : .handle (.insert key ttl) ∈ ops := by
  induction ops generalizing s with
  | nil => exact absurd member List.not_mem_nil
  | cons op ops ih =>
      rcases List.mem_append.mp member with now | later
      · cases op with
        | handle cmd =>
            cases cmd with
            | insert other ticks =>
                simp only [observe] at now
                split at now
                · cases List.mem_singleton.mp now
                  exact List.mem_cons_self
                · exact absurd now List.not_mem_nil
            | refresh other =>
                simp only [observe] at now
                split at now <;> simp at now
            | delete other =>
                simp only [observe] at now
                split at now <;> simp at now
        | onTick elapsed =>
            obtain ⟨event, tick, same⟩ := observeTurns_expired _ _ _ now
            cases same
      · exact List.mem_cons_of_mem op (ih _ later)

namespace Tasks

variable {K : Type} {cap last : Nat} (hash : K → UInt64)

/-- The events of the batches `sent` that name a key of shard `i`. -/
def eventsFor (i : Fin (last + 1)) (batches : List (List (CacheEvent K))) : List (CacheEvent K) :=
  batches.flatten.filter fun event => route last (hash event.key) = i

/-- Where every shard sends events of its own keys only, the events of a shard's keys are the ones
that it sent. -/
theorem eventsFor_sent (past : List (Effect K last))
    (own : ∀ i, ∀ batch ∈ past.filterMap (Effect.sentBy i), ∀ event ∈ batch, route last (hash event.key) = i)
    (i : Fin (last + 1)) :
    eventsFor hash i (past.filterMap Effect.sentBatch) = (past.filterMap (Effect.sentBy i)).flatten := by
  induction past with
  | nil => rfl
  | cons e past ih =>
      have rest := ih fun j batch member event inside =>
        own j batch (by rw [List.filterMap_cons]; split <;> simp [member]) event inside
      cases e with
      | sent j batch =>
          have mine : ∀ event ∈ batch, route last (hash event.key) = j :=
            own j batch (by simp [Effect.sentBy])
          rw [eventsFor] at rest
          simp only [eventsFor, List.filterMap_cons, Effect.sentBatch, Effect.sentBy, List.flatten_cons,
            List.filter_append, rest]
          by_cases here : j = i
          · subst here
            have all : batch.filter (fun event => route last (hash event.key) = j) = batch :=
              List.filter_eq_self.mpr fun event inside => decide_eq_true (mine event inside)
            simp [all]
          · have none : batch.filter (fun event => route last (hash event.key) = i) = [] :=
              List.filter_eq_nil_iff.mpr fun event inside => by simp [mine event inside, here]
            simp [none, here]
      | _ => simpa [List.filterMap_cons, Effect.sentBatch, Effect.sentBy] using rest

theorem sentBy_sublist (i : Fin (last + 1)) (past : List (Effect K last)) :
    (past.filterMap (Effect.sentBy i)).Sublist (past.filterMap (Effect.offered i)) := by
  induction past with
  | nil => exact .slnil
  | cons e past ih =>
      cases e with
      | sent j batch =>
          simp only [List.filterMap_cons, Effect.sentBy, Effect.offered]
          split
          · exact ih
          · exact ih.cons_cons _
      | lost j batch =>
          simp only [List.filterMap_cons, Effect.sentBy, Effect.offered]
          split
          · exact ih
          · exact ih.cons _
      | _ => simpa [List.filterMap_cons, Effect.sentBy, Effect.offered] using ih

theorem sentBy_of_none_lost (i : Fin (last + 1)) (past : List (Effect K last))
    (lossless : past.filterMap (Effect.lostBy i) = []) :
    past.filterMap (Effect.sentBy i) = past.filterMap (Effect.offered i) := by
  apply List.filterMap_congr
  intro e member
  have silent := List.filterMap_eq_nil_iff.mp lossless e member
  cases e with
  | lost j batch =>
      simp only [Effect.lostBy] at silent
      simp only [Effect.sentBy, Effect.offered]
      split at silent
      · cases silent
      · rename_i other
        rw [if_neg other]
  | _ => rfl

variable [DecidableEq K] {hash}

namespace Consistent

variable {s : Tasks K cap last} {past : List (Effect K last)}

/-- A shard reports keys of its own. -/
theorem pushed_route (kept : Consistent hash s past) (bound : cap < 2 ^ 32) (i : Fin (last + 1))
    (event : CacheEvent K) (member : event ∈ (s.shards i).pushed) : route last (hash event.key) = i := by
  obtain ⟨_, legal, _, pushed⟩ := Good.reachable hash bound (ops i past) (kept.ttl_positive i)
  rw [kept.shards i, pushed] at member
  obtain ⟨o, observed, reported⟩ := List.mem_filterMap.mp member
  cases o with
  | expired found tick =>
      cases reported
      obtain ⟨front, back, split⟩ := List.append_of_mem observed
      rw [split] at legal
      obtain ⟨period, live, _⟩ := legal.legal_at
      obtain ⟨before, ttl, start, span, cut, _⟩ :=
        exists_inserted_of_live front event.key (by simp [live])
      have stored : Obs.inserted event.key ttl start ∈ (Shard.new K cap).history hash (ops i past) := by
        rw [split, cut]
        simp
      have ran := Shard.mem_history_inserted hash _ _ _ _ _ stored
      exact of_decide_eq_true (List.mem_filter.mp (kept.command_accepted i _ ran)).2
  | inserted key ttl tick => cases reported
  | refreshed key tick => cases reported
  | deleted key => cases reported

theorem offered_subset (kept : Consistent hash s past) (i : Fin (last + 1)) (batch : List (CacheEvent K))
    (member : batch ∈ past.filterMap (Effect.offered i)) : batch ∈ (s.shards i).sent := by
  rw [← kept.outgoing i]
  exact List.mem_append_left _ member

theorem sent_route (kept : Consistent hash s past) (bound : cap < 2 ^ 32) (i : Fin (last + 1))
    (batch : List (CacheEvent K)) (member : batch ∈ past.filterMap (Effect.sentBy i))
    (event : CacheEvent K) (inside : event ∈ batch) : route last (hash event.key) = i := by
  apply kept.pushed_route bound i event
  have sent := kept.offered_subset i batch ((sentBy_sublist i past).subset member)
  exact List.mem_append_left _ (List.mem_flatten.mpr ⟨batch, sent, inside⟩)

end Consistent

/-- The interleaved cache is its shards, each fed the accepted commands of the keys that `Cache::shard` sends
to it, in order, and every reader's batch is part of a legal history of expiries of these keys, whole where
nothing was lost. -/
theorem cache_runs_its_shards (hash : K → UInt64) (cap last : Nat) (bound : cap < 2 ^ 32)
    (acts : List (Action K last)) :
    let s := Lib.runFrom (step hash) (withCapacity K cap last) acts
    let past := Lib.traceFrom (step hash) (emit hash) (withCapacity K cap last) acts
    let received := past.filterMap Effect.receivedBatch
    (∀ hashed, (route last hashed).val = (Cache.withCapacity K cap (last + 1)).shardIndex hashed) ∧
    (∀ batch ∈ received, batch ≠ [] ∧ batch.length ≤ BATCH) ∧
    ∀ i,
      let history := (Shard.new K cap).history hash (ops i past)
      s.shards i = (Shard.new K cap).run hash (ops i past) ∧
      acceptedFor hash i past = (ops i past).filterMap Op.command ++ (s.commands i).queue ∧
      LegalTrace (fun _ => none) history ∧
      (eventsFor hash i (received ++ s.events.queue)).Sublist (history.filterMap Obs.event) ∧
      (past.filterMap (Effect.lostBy i) = [] →
        eventsFor hash i (received ++ s.events.queue) ++ (s.outgoing i).flatten =
          history.filterMap Obs.event) := by
  intro s past received
  have kept : Consistent hash s past := Consistent.run acts
  have carried : past.filterMap Effect.sentBatch = received ++ s.events.queue := kept.events
  refine ⟨route_eq_shardIndex, ?_, ?_⟩
  · intro batch member
    have sent : batch ∈ past.filterMap Effect.sentBatch := kept.events.received_isPrefix.subset member
    obtain ⟨e, inside, same⟩ := List.mem_filterMap.mp sent
    cases e with
    | sent i found =>
        cases same
        have offered : batch ∈ past.filterMap (Effect.offered i) :=
          List.mem_filterMap.mpr ⟨_, inside, by simp [Effect.offered]⟩
        have handed := kept.offered_subset i batch offered
        rw [kept.shards i] at handed
        exact ((Shard.run_hands hash _ (ops i past)).batched Shard.Batched.new).sized batch handed
    | _ => cases same
  · intro i history
    obtain ⟨_, legal, _, pushed⟩ := Good.reachable hash bound (ops i past) (kept.ttl_positive i)
    have closed : (s.shards i).batch = [] := by
      rw [kept.shards i]
      exact Shard.run_batch hash _ _ rfl
    have flat : (past.filterMap (Effect.offered i)).flatten ++ (s.outgoing i).flatten =
        history.filterMap Obs.event := by
      calc
        _ = (past.filterMap (Effect.offered i) ++ s.outgoing i).flatten := List.flatten_append.symm
        _ = (s.shards i).sent.flatten := by rw [kept.outgoing i]
        _ = (s.shards i).pushed := by rw [Shard.pushed, closed, List.append_nil]
        _ = history.filterMap Obs.event := by rw [kept.shards i, pushed]
    have own := eventsFor_sent hash past (kept.sent_route bound) i
    rw [carried] at own
    refine ⟨kept.shards i, kept.commands i, legal, ?_, ?_⟩
    · rw [own, ← flat]
      exact (List.Sublist.flatten (sentBy_sublist i past)).trans (List.sublist_append_left _ _)
    · intro lossless
      rw [own, sentBy_of_none_lost i past lossless]
      exact flat

/-- One key through a cache of one shard, reported to the reader a tick later. -/
theorem cache_runs_its_shards_single :
    let acts : List (Action Nat 0) :=
      [.insert 7 (.ofNanos 200000000), .tryRecv 0, .onTick 0 200, .sendEvents 0, .nextBatch]
    let past := Lib.traceFrom (step fun _ => 0) (emit fun _ => 0) (withCapacity Nat 1 0) acts
    past.filterMap Effect.receivedBatch = [[⟨7, 0, 1⟩]] ∧
      ∀ batch ∈ past.filterMap Effect.receivedBatch, batch ≠ [] ∧ batch.length ≤ BATCH :=
  ⟨by decide, (cache_runs_its_shards (fun _ => 0) 1 0 (by decide) _).2.1⟩

end Tasks

end Pigs.Cache.C100k
