import Pigs.Bus.Mpsc.Wedge

/-! When a type can be subscribed again on the mpsc bus. -/

namespace Pigs.Bus.Mpsc

open Pigs.Lib

variable {Key Msg : Type}

namespace State

section Calls

variable [DecidableEq Key]

/-- `sub_type_channel` by a task that nobody else disturbs. -/
def subTypeChannelAlone (shard : Key → Nat) (s : State Key Msg) (task : Nat) (key : Key) : State Key Msg :=
  runFrom (State.step shard) s [.subTypeChannel task key, .entry task, .insert task]

def tryPublishAlone (shard : Key → Nat) (s : State Key Msg) (task : Nat) (key : Key) (msg : Msg) :
    State Key Msg :=
  runFrom (State.step shard) s [.tryPublish task key msg, .get task, .trySend task]

end Calls

def Idle (s : State Key Msg) (task : Nat) : Prop := ∃ last, s.calls task = .idle last

/-- The task is outside any call and the lock of the type's shard is free, so its call goes through. -/
structure CanEnter (shard : Key → Nat) (s : State Key Msg) (task : Nat) (key : Key) : Prop where
  idle : s.Idle task
  unlocked : s.writer (shard key) = none ∧ s.readers (shard key) = []

/-- Without a live receiver of the type the call gives one that the next message reaches, and it is refused
exactly because of a live one. -/
structure Resubscribes [DecidableEq Key] (shard : Key → Nat) (s : State Key Msg) (task : Nat)
    (key : Key) : Prop where
  succeeds : s.owner key = none →
    (s.subTypeChannelAlone shard task key).calls task = .idle (some (.ok none)) ∧
      (s.subTypeChannelAlone shard task key).owner key = some task
  reaches : s.owner key = none → ∀ other msg, (s.subTypeChannelAlone shard task key).Idle other →
    let published := (s.subTypeChannelAlone shard task key).tryPublishAlone shard other key msg
    published.calls other = .idle (some (.ok none)) ∧
      (published.recv task key).calls task = .idle (some (.ok (some msg)))
  refused : (s.subTypeChannelAlone shard task key).calls task = .idle (some (.error .alreadyExists)) ↔
    ∃ task, s.owner key = some task

/-- The drop of the live receiver of a type. -/
def DropsReceiver (key : Key) (s : State Key Msg) : Action Key Msg → Prop
  | .dropReceiver task other => other = key ∧ s.owner key = some task ∧ s.Idle task
  | _ => False

/-- The map has no sender of the type, or its receiver is alive. -/
def Attended (s : State Key Msg) (key : Key) : Prop := s.channels key = none ∨ s.owner key ≠ none

end State

section Step

variable {shard : Key → Nat} {s t : State Key Msg} {key : Key}

theorem quiet_attended (quiet : Quiet s t) : t.Attended key ↔ s.Attended key := by
  rw [State.Attended, State.Attended, quiet.owner, quiet.channels key]

theorem start_attended (task : Nat) (call : Call Key Msg) :
    (s.start task call).Attended key ↔ s.Attended key := by
  rw [State.start]
  split
  · exact Iff.rfl
  · exact Iff.rfl

variable [DecidableEq Key]

/-- A new channel comes with its receiver. -/
theorem insert_attended (task : Nat) : (s.insert shard task).Attended key ↔ s.Attended key := by
  rw [State.insert]
  split
  · rename_i other running
    split
    · exact Iff.rfl
    · rename_i vacant
      by_cases same : key = other
      · subst same
        simp [State.Attended, State.setChannel, State.setOwner, State.setWriter, State.setCall, vacant]
      · simp [State.Attended, State.setChannel, State.setOwner, State.setWriter, State.setCall,
          Function.update_of_ne same]
  · exact Iff.rfl

theorem give_attended (task : Nat) (other : Key) (taker : Nat) :
    (s.give task other taker).Attended key ↔ s.Attended key := by
  rw [State.give]
  split
  · split
    · rename_i owns
      by_cases same : key = other
      · subst same
        simp [State.Attended, State.setOwner, owns]
      · simp [State.Attended, State.setOwner, Function.update_of_ne same]
    · exact Iff.rfl
  · exact Iff.rfl

/-- Only the drop of its receiver leaves a topic unattended. -/
theorem drop_receiver_attended (inv : Inv shard s) (task : Nat) (other : Key) :
    (s.dropReceiver task other).Attended key ↔
      s.Attended key ∧ ¬s.DropsReceiver key (.dropReceiver task other) := by
  by_cases drops : s.DropsReceiver key (.dropReceiver task other)
  · obtain ⟨rfl, owns, last, idle⟩ := drops
    obtain ⟨channel, found, _⟩ := inv.owned other task owns
    simp [State.dropReceiver, State.Attended, State.DropsReceiver, State.Idle, State.setChannel,
      State.setOwner, idle, found, owns]
  · rw [and_iff_left drops, State.dropReceiver]
    split
    · rename_i last channel idle found
      split
      · rename_i owns
        have apart : key ≠ other := by
          rintro rfl
          exact drops ⟨rfl, owns, last, idle⟩
        simp [State.Attended, State.setChannel, State.setOwner, Function.update_of_ne apart]
      · exact Iff.rfl
    · exact Iff.rfl

theorem step_attended (inv : Inv shard s) (action : Action Key Msg) :
    (s.step shard action).Attended key ↔ s.Attended key ∧ ¬s.DropsReceiver key action := by
  cases action with
  | dropReceiver task other => exact drop_receiver_attended inv task other
  | subTypeChannel task other => exact (start_attended ..).trans (and_iff_left id).symm
  | tryPublish task other msg => exact (start_attended ..).trans (and_iff_left id).symm
  | publish task other msg => exact (start_attended ..).trans (and_iff_left id).symm
  | entry task => exact (quiet_attended (entry_quiet task)).trans (and_iff_left id).symm
  | insert task => exact (insert_attended task).trans (and_iff_left id).symm
  | get task => exact (quiet_attended (get_quiet task)).trans (and_iff_left id).symm
  | trySend task => exact (quiet_attended (try_send_quiet task)).trans (and_iff_left id).symm
  | send task => exact (quiet_attended (send_quiet task)).trans (and_iff_left id).symm
  | cancel task => exact (quiet_attended (cancel_quiet task)).trans (and_iff_left id).symm
  | recv task other => exact (quiet_attended (recv_quiet task other)).trans (and_iff_left id).symm
  | give task other taker => exact (give_attended task other taker).trans (and_iff_left id).symm

theorem run_attended (actions : List (Action Key Msg)) :
    (runFrom (State.step shard) State.initial actions).Attended key ↔
      Along (State.step shard) (fun s action => ¬s.DropsReceiver key action) State.initial actions := by
  have runs := runFrom_iff_along (State.step shard) (Inv shard) (fun s => s.Attended key)
    (fun _ action inv => step_inv inv action) (fun _ action inv => step_attended inv action)
    State.initial actions initial_inv
  exact runs.trans (and_iff_right (.inl rfl))

end Step

section Alone

variable [DecidableEq Key] {shard : Key → Nat} {s : State Key Msg} {task : Nat} {key : Key}

/-- The task comes to its entry with the lock. -/
theorem entered (ready : s.CanEnter shard task key) :
    s.subTypeChannelAlone shard task key =
      (((s.setCall task (.subscribe key)).setWriter (shard key) (some task)).setCall task
        (.inserting key)).insert shard task := by
  obtain ⟨last, idle⟩ := ready.idle
  have started : s.step shard (.subTypeChannel task key) = s.setCall task (.subscribe key) := by
    simp only [State.step, State.start, idle]
  have running : (s.setCall task (.subscribe key)).calls task = .subscribe key := Function.update_self ..
  have locked : (s.setCall task (.subscribe key)).entry shard task =
      ((s.setCall task (.subscribe key)).setWriter (shard key) (some task)).setCall task
        (.inserting key) := by
    rw [State.entry, running]
    exact if_pos ready.unlocked
  calc
    _ = ((s.step shard (.subTypeChannel task key)).entry shard task).insert shard task := rfl
    _ = _ := by rw [started, locked]

/-- An occupied entry refuses the call, whatever became of its receiver. -/
theorem occupied_refused (ready : s.CanEnter shard task key) (channel : Channel Msg)
    (found : s.channels key = some channel) :
    (s.subTypeChannelAlone shard task key).calls task = .idle (some (.error .alreadyExists)) := by
  rw [entered ready]
  simp [State.insert, State.setCall, State.setWriter, found]

/-- A vacant entry gives a receiver of a new channel, and lets the lock go. -/
theorem vacant_subscribes (ready : s.CanEnter shard task key) (vacant : s.channels key = none) :
    (s.subTypeChannelAlone shard task key).calls task = .idle (some (.ok none)) ∧
      (s.subTypeChannelAlone shard task key).owner key = some task ∧
      (s.subTypeChannelAlone shard task key).channels key = some ⟨[], false⟩ ∧
      (s.subTypeChannelAlone shard task key).writer (shard key) = none := by
  rw [entered ready]
  simp [State.insert, State.setCall, State.setWriter, State.setChannel, State.setOwner, vacant]

/-- A message to an open channel with room goes to the end of its queue. -/
theorem published_queues {other : Nat} {channel : Channel Msg} (msg : Msg) (idle : s.Idle other)
    (unlocked : s.writer (shard key) = none) (found : s.channels key = some channel)
    (opened : channel.closed = false) (room : channel.queue.length < DEFAULT_CHANNEL_SIZE) :
    let published := s.tryPublishAlone shard other key msg
    published.calls = Function.update s.calls other (.idle (some (.ok none))) ∧
      published.channels key = some { channel with queue := channel.queue ++ [msg] } ∧
      published.owner = s.owner := by
  obtain ⟨last, idle⟩ := idle
  simp [State.tryPublishAlone, State.step, State.start, State.get, State.trySend, State.release,
    State.setCall, State.setReaders, State.setChannel, idle, unlocked, found, opened, room]

/-- The owner of a receiver takes the first message of its queue. -/
theorem recv_takes {msg : Msg} (idle : s.Idle task) (owns : s.owner key = some task)
    (found : s.channels key = some ⟨[msg], false⟩) :
    (s.recv task key).calls task = .idle (some (.ok (some msg))) := by
  obtain ⟨last, idle⟩ := idle
  simp [State.recv, State.setCall, idle, owns, found]

/-- A message published by an idle task reaches the receiver of an empty channel. -/
theorem published_reaches {other : Nat} (msg : Msg) (owner : s.Idle task) (idle : s.Idle other)
    (owns : s.owner key = some task) (unlocked : s.writer (shard key) = none)
    (found : s.channels key = some ⟨[], false⟩) :
    (s.tryPublishAlone shard other key msg).calls other = .idle (some (.ok none)) ∧
      ((s.tryPublishAlone shard other key msg).recv task key).calls task = .idle (some (.ok (some msg))) := by
  have room : 0 < DEFAULT_CHANNEL_SIZE := by decide
  obtain ⟨calls, queued, owners⟩ := published_queues msg idle unlocked found rfl room
  have waiting : (s.tryPublishAlone shard other key msg).Idle task := by
    rw [State.Idle, calls]
    by_cases same : task = other
    · subst same
      exact ⟨_, Function.update_self ..⟩
    · rw [Function.update_of_ne same]
      exact owner
  constructor
  · rw [calls]
    exact Function.update_self ..
  · apply recv_takes waiting _ queued
    rw [owners]
    exact owns

theorem resubscribes_iff_attended (inv : Inv shard s) (ready : s.CanEnter shard task key) :
    s.Resubscribes shard task key ↔ s.Attended key := by
  constructor
  · intro again
    rcases Option.eq_none_or_eq_some (s.channels key) with vacant | ⟨channel, found⟩
    · exact .inl vacant
    · obtain ⟨owner, owns⟩ := again.refused.mp (occupied_refused ready channel found)
      right
      rw [owns]
      exact Option.some_ne_none owner
  · rintro (vacant | owned)
    · obtain ⟨returned, owns, opened, unlocked⟩ := vacant_subscribes ready vacant
      constructor
      case succeeds => exact fun _ => ⟨returned, owns⟩
      case reaches =>
        intro _ other msg idle
        exact published_reaches msg ⟨_, returned⟩ idle owns unlocked opened
      case refused =>
        constructor
        · intro refused
          cases refused.symm.trans returned
        · rintro ⟨owner, owned⟩
          obtain ⟨channel, found, _⟩ := inv.owned key owner owned
          cases found.symm.trans vacant
    · obtain ⟨owner, owns⟩ := Option.ne_none_iff_exists'.mp owned
      obtain ⟨channel, found, _⟩ := inv.owned key owner owns
      constructor
      case succeeds => exact fun dropped => absurd dropped owned
      case reaches => exact fun dropped => absurd dropped owned
      case refused => exact iff_of_true (occupied_refused ready channel found) ⟨owner, owns⟩

end Alone

/-- A type can be subscribed again exactly as long as no receiver of it has been dropped: nothing removes
the closed sender. -/
theorem topic_resubscribed_iff [DecidableEq Key] (shard : Key → Nat) (actions : List (Action Key Msg))
    (task : Nat) (key : Key)
    (ready : (runFrom (State.step shard) State.initial actions).CanEnter shard task key) :
    (runFrom (State.step shard) State.initial actions).Resubscribes shard task key ↔
      Along (State.step shard) (fun s action => ¬s.DropsReceiver key action) State.initial actions := by
  calc
    _ ↔ (runFrom (State.step shard) State.initial actions).Attended key :=
      resubscribes_iff_attended (run_inv actions) ready
    _ ↔ _ := run_attended actions

/-- Task 0 subscribes to a type and drops the receiver. -/
def subscribeAndDrop : List (Action Unit Nat) :=
  [.subTypeChannel 0 (), .entry 0, .insert 0, .dropReceiver 0 ()]

theorem dropped_topic_refused :
    ¬∀ (shard : Unit → Nat) (actions : List (Action Unit Nat)) (task : Nat) (key : Unit),
      (runFrom (State.step shard) State.initial actions).CanEnter shard task key →
        (runFrom (State.step shard) State.initial actions).Resubscribes shard task key := by
  intro claimed
  have again := claimed (fun _ => 0) subscribeAndDrop 0 () ⟨⟨_, rfl⟩, rfl, rfl⟩
  have refused : ((runFrom (State.step fun _ => 0) State.initial subscribeAndDrop).subTypeChannelAlone
      (fun _ => 0) 0 ()).calls 0 = .idle (some (.error .alreadyExists)) := rfl
  obtain ⟨owner, owns⟩ := again.refused.mp refused
  cases owns

/-- A message and a `recv` keep the receiver, so another task is refused for its sake. -/
theorem topic_resubscribed_after_recv :
    (runFrom (State.step fun _ => 0) State.initial
      ([.subTypeChannel 0 (), .entry 0, .insert 0, .tryPublish 1 () 5, .get 1, .trySend 1, .recv 0 ()] :
        List (Action Unit Nat))).Resubscribes (fun _ => 0) 1 () :=
  (topic_resubscribed_iff (fun _ => 0) _ 1 () ⟨⟨_, rfl⟩, rfl, rfl⟩).mpr
    ⟨id, id, id, id, id, id, id, trivial⟩

end Pigs.Bus.Mpsc
