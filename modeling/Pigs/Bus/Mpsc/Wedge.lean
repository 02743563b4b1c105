import Mathlib.Data.List.Nodup
import Pigs.Lib.Run
import Pigs.Bus.Mpsc.Locks

/-! When a publisher that waits for capacity can block the owner of the receiver it waits for. -/

namespace Pigs.Bus.Mpsc

open Pigs.Lib

variable {Key Msg : Type}

/-- The shard that a call has a guard of for reading. -/
def readsOf (shard : Key → Nat) : Call Key Msg → Option Nat
  | .trySending key _ | .sending key _ => some (shard key)
  | _ => none

/-- The shard that a call has locked for writing. -/
def writesOf (shard : Key → Nat) : Call Key Msg → Option Nat
  | .inserting key => some (shard key)
  | _ => none

/-- Every lock is held by a call that keeps its guard alive, a receiver's channel is open, and only
finitely many tasks have run. -/
structure Inv (shard : Key → Nat) (s : State Key Msg) : Prop where
  reader : ∀ index task, task ∈ s.readers index → readsOf shard (s.calls task) = some index
  writer : ∀ index task, s.writer index = some task → writesOf shard (s.calls task) = some index
  once : ∀ index, (s.readers index).Nodup
  owned : ∀ key task, s.owner key = some task →
    ∃ channel, s.channels key = some channel ∧ channel.closed = false
  unused : ∃ bound, ∀ task, bound ≤ task → s.calls task = .idle none

/-- No task that waits to subscribe owns a receiver of another type of the same shard. -/
def Separate (shard : Key → Nat) (s : State Key Msg) : Prop :=
  ∀ task key other, s.calls task = .subscribe key → other ≠ key → s.owner other = some task →
    shard other ≠ shard key

/-- No task calls `sub_type_channel` while it owns a receiver of another type of the same shard. -/
def Careful (shard : Key → Nat) (s : State Key Msg) : Action Key Msg → Prop
  | .subTypeChannel task key => ∀ last, s.calls task = .idle last → ∀ other, other ≠ key →
      s.owner other = some task → shard other ≠ shard key
  | _ => True

section Inv

variable {shard : Key → Nat} {s t : State Key Msg}

/-- A step that changes the call and the locks of one task. -/
theorem inv_task (inv : Inv shard s) (task : Nat) (call : Call Key Msg)
    (calls : t.calls = Function.update s.calls task call)
    (reader : ∀ index other, other ∈ t.readers index → other ≠ task ∧ other ∈ s.readers index ∨
      other = task ∧ readsOf shard call = some index)
    (writer : ∀ index other, t.writer index = some other → other ≠ task ∧ s.writer index = some other ∨
      other = task ∧ writesOf shard call = some index)
    (once : ∀ index, (t.readers index).Nodup)
    (owned : ∀ key owner, t.owner key = some owner →
      ∃ channel, t.channels key = some channel ∧ channel.closed = false) : Inv shard t where
  reader := by
    intro index other member
    rcases reader index other member with ⟨apart, before⟩ | ⟨rfl, now⟩
    · rw [calls, Function.update_of_ne apart]
      exact inv.reader index other before
    · rw [calls, Function.update_self]
      exact now
  writer := by
    intro index other held
    rcases writer index other held with ⟨apart, before⟩ | ⟨rfl, now⟩
    · rw [calls, Function.update_of_ne apart]
      exact inv.writer index other before
    · rw [calls, Function.update_self]
      exact now
  once := once
  owned := owned
  unused := by
    obtain ⟨bound, idle⟩ := inv.unused
    refine ⟨max bound (task + 1), ?_⟩
    intro other above
    rw [calls, Function.update_of_ne (by omega)]
    exact idle other (by omega)

/-- The locks of a task whose call has none. -/
theorem not_reader (inv : Inv shard s) (task : Nat) (none : readsOf shard (s.calls task) = none)
    (index other : Nat) (member : other ∈ s.readers index) : other ≠ task := by
  rintro rfl
  rw [inv.reader index other member] at none
  cases none

theorem not_writer (inv : Inv shard s) (task : Nat) (none : writesOf shard (s.calls task) = none)
    (index other : Nat) (held : s.writer index = some other) : other ≠ task := by
  rintro rfl
  rw [inv.writer index other held] at none
  cases none

/-- A task without locks takes another call without locks. -/
theorem inv_set_call (inv : Inv shard s) (task : Nat) (call : Call Key Msg)
    (reads : readsOf shard (s.calls task) = none) (writes : writesOf shard (s.calls task) = none) :
    Inv shard (s.setCall task call) := by
  apply inv_task inv task call rfl
  · exact fun index other member => .inl ⟨not_reader inv task reads index other member, member⟩
  · exact fun index other held => .inl ⟨not_writer inv task writes index other held, held⟩
  · exact inv.once
  · exact inv.owned

theorem start_inv (inv : Inv shard s) (task : Nat) (call : Call Key Msg) :
    Inv shard (s.start task call) := by
  rw [State.start]
  split
  · rename_i last idle
    exact inv_set_call inv task call (by rw [idle]; rfl) (by rw [idle]; rfl)
  · exact inv

theorem entry_inv (inv : Inv shard s) (task : Nat) : Inv shard (s.entry shard task) := by
  rw [State.entry]
  split
  · rename_i key running
    split
    · rename_i free
      apply inv_task inv task (.inserting key) rfl
      · intro index other member
        exact .inl ⟨not_reader inv task (by rw [running]; rfl) index other member, member⟩
      · intro index other held
        by_cases here : index = shard key
        · subst here
          simp only [State.setWriter, State.setCall, Function.update_self, Option.some.injEq] at held
          exact .inr ⟨held.symm, rfl⟩
        · simp only [State.setWriter, State.setCall, Function.update_of_ne here] at held
          exact .inl ⟨not_writer inv task (by rw [running]; rfl) index other held, held⟩
      · exact inv.once
      · exact inv.owned
    · exact inv
  · exact inv

/-- A guard for reading, taken by a task without locks. -/
theorem inv_guard (inv : Inv shard s) (task index : Nat) (call : Call Key Msg)
    (reads : readsOf shard (s.calls task) = none) (writes : writesOf shard (s.calls task) = none)
    (guards : readsOf shard call = some index) :
    Inv shard ((s.setReaders index (task :: s.readers index)).setCall task call) := by
  apply inv_task inv task call rfl
  · intro place other member
    by_cases here : place = index
    · subst here
      simp only [State.setReaders, State.setCall, Function.update_self, List.mem_cons] at member
      rcases member with rfl | before
      · exact .inr ⟨rfl, guards⟩
      · exact .inl ⟨not_reader inv task reads place other before, before⟩
    · simp only [State.setReaders, State.setCall, Function.update_of_ne here] at member
      exact .inl ⟨not_reader inv task reads place other member, member⟩
  · exact fun place other held => .inl ⟨not_writer inv task writes place other held, held⟩
  · intro place
    by_cases here : place = index
    · subst here
      simp only [State.setReaders, State.setCall, Function.update_self, List.nodup_cons]
      exact ⟨fun member => not_reader inv task reads place task member rfl, inv.once place⟩
    · simpa only [State.setReaders, State.setCall, Function.update_of_ne here] using inv.once place
  · exact inv.owned

/-- A lookup gives the guard back at once, or keeps it for the call that goes on with it. -/
theorem inv_lookup (inv : Inv shard s) (task : Nat) (key : Key) (call : Call Key Msg)
    (reads : readsOf shard (s.calls task) = none) (writes : writesOf shard (s.calls task) = none)
    (guards : readsOf shard call = some (shard key)) :
    Inv shard
      (if s.writer (shard key) = none then
        match s.channels key with
        | none => s.setCall task (.idle (some (.error .notFound)))
        | some _ => (s.setReaders (shard key) (task :: s.readers (shard key))).setCall task call
      else
        s) := by
  split
  · split
    · exact inv_set_call inv task _ reads writes
    · exact inv_guard inv task _ _ reads writes guards
  · exact inv

theorem get_inv (inv : Inv shard s) (task : Nat) : Inv shard (s.get shard task) := by
  rw [State.get]
  split
  · rename_i key msg running
    exact inv_lookup inv task key _ (by rw [running]; rfl) (by rw [running]; rfl) rfl
  · rename_i key msg running
    exact inv_lookup inv task key _ (by rw [running]; rfl) (by rw [running]; rfl) rfl
  · exact inv

/-- A guard for reading goes at the end of the call. -/
theorem inv_release (inv : Inv shard s) (task : Nat) (key : Key) (last : Option (Returned Msg))
    (guards : readsOf shard (s.calls task) = some (shard key))
    (writes : writesOf shard (s.calls task) = none) :
    Inv shard ((s.setReaders (shard key) ((s.readers (shard key)).erase task)).setCall task (.idle last)) := by
  apply inv_task inv task (.idle last) rfl
  · intro place other member
    left
    by_cases here : place = shard key
    · subst here
      simp only [State.setReaders, State.setCall, Function.update_self] at member
      exact ((inv.once _).mem_erase_iff).mp member
    · simp only [State.setReaders, State.setCall, Function.update_of_ne here] at member
      refine ⟨?_, member⟩
      rintro rfl
      rw [inv.reader place other member] at guards
      exact here (Option.some.inj guards)
  · exact fun place other held => .inl ⟨not_writer inv task writes place other held, held⟩
  · intro place
    by_cases here : place = shard key
    · subst here
      simp only [State.setReaders, State.setCall, Function.update_self]
      exact (inv.once _).erase task
    · simpa only [State.setReaders, State.setCall, Function.update_of_ne here] using inv.once place
  · exact inv.owned

theorem cancel_inv (inv : Inv shard s) (task : Nat) : Inv shard (s.cancel shard task) := by
  rw [State.cancel]
  split
  · rename_i key msg running
    exact inv_release inv task key none (by rw [running]; rfl) (by rw [running]; rfl)
  · exact inv

theorem closed_of_owner (inv : Inv shard s) (key : Key) (channel : Channel Msg)
    (found : s.channels key = some channel) (task : Nat) (owns : s.owner key = some task) :
    channel.closed = false := by
  obtain ⟨other, known, opened⟩ := inv.owned key task owns
  rw [found] at known
  cases known
  exact opened

theorem initial_inv : Inv shard (State.initial : State Key Msg) where
  reader _ _ member := by cases member
  writer _ _ held := by cases held
  once _ := List.nodup_nil
  owned _ _ owns := by cases owns
  unused := ⟨0, fun _ _ => rfl⟩

variable [DecidableEq Key]

theorem insert_inv (inv : Inv shard s) (task : Nat) : Inv shard (s.insert shard task) := by
  rw [State.insert]
  split
  · rename_i key running
    have reader : ∀ index other, other ∈ s.readers index → other ≠ task := fun index other member =>
      not_reader inv task (by rw [running]; rfl) index other member
    have released : ∀ index other, Function.update s.writer (shard key) none index = some other →
        other ≠ task ∧ s.writer index = some other := by
      intro index other held
      by_cases here : index = shard key
      · rw [here, Function.update_self] at held
        cases held
      · rw [Function.update_of_ne here] at held
        refine ⟨?_, held⟩
        rintro rfl
        have place := inv.writer index other held
        rw [running] at place
        exact here (Option.some.inj place).symm
    split
    · apply inv_task inv task (.idle (some (.error .alreadyExists))) rfl
      · exact fun index other member => .inl ⟨reader index other member, member⟩
      · exact fun index other held => .inl (released index other held)
      · exact inv.once
      · exact inv.owned
    · apply inv_task inv task (.idle (some (.ok none))) rfl
      · exact fun index other member => .inl ⟨reader index other member, member⟩
      · exact fun index other held => .inl (released index other held)
      · exact inv.once
      · intro name owner owns
        by_cases here : name = key
        · exact ⟨⟨[], false⟩, by simp [State.setCall, State.setWriter, State.setOwner, State.setChannel, here],
            rfl⟩
        · simp only [State.setCall, State.setWriter, State.setOwner, State.setChannel,
            Function.update_of_ne here] at owns ⊢
          exact inv.owned name owner owns
  · exact inv

/-- A channel that stays as open as it was. -/
theorem inv_set_channel (inv : Inv shard s) (key : Key) (channel : Channel Msg)
    (opened : ∀ task, s.owner key = some task → channel.closed = false) :
    Inv shard (s.setChannel key channel) where
  reader := inv.reader
  writer := inv.writer
  once := inv.once
  owned := by
    intro name task owns
    by_cases here : name = key
    · subst here
      exact ⟨channel, by simp [State.setChannel], opened task owns⟩
    · simp only [State.setChannel, Function.update_of_ne here]
      exact inv.owned name task owns
  unused := inv.unused

theorem inv_set_queue (inv : Inv shard s) (key : Key) (channel : Channel Msg)
    (found : s.channels key = some channel) (queue : List Msg) :
    Inv shard (s.setChannel key { channel with queue }) :=
  inv_set_channel inv key _ fun task owns => closed_of_owner inv key channel found task owns

theorem try_send_inv (inv : Inv shard s) (task : Nat) : Inv shard (s.trySend shard task) := by
  rw [State.trySend]
  split
  · rename_i key msg running
    have guards : readsOf shard (s.calls task) = some (shard key) := by rw [running]; rfl
    have writes : writesOf shard (s.calls task) = none := by rw [running]; rfl
    split
    · exact inv
    · rename_i channel found
      split
      · exact inv_release inv task key _ guards writes
      · split
        · exact inv_release (inv_set_queue inv key channel found _) task key _ guards writes
        · exact inv_release inv task key _ guards writes
  · exact inv

theorem send_inv (inv : Inv shard s) (task : Nat) : Inv shard (s.send shard task) := by
  rw [State.send]
  split
  · rename_i key msg running
    have guards : readsOf shard (s.calls task) = some (shard key) := by rw [running]; rfl
    have writes : writesOf shard (s.calls task) = none := by rw [running]; rfl
    split
    · exact inv
    · rename_i channel found
      split
      · exact inv_release inv task key _ guards writes
      · split
        · exact inv_release (inv_set_queue inv key channel found _) task key _ guards writes
        · exact inv
  · exact inv

theorem recv_inv (inv : Inv shard s) (task : Nat) (key : Key) : Inv shard (s.recv task key) := by
  rw [State.recv]
  split
  · rename_i last channel idle found
    split
    · split
      · exact inv
      · apply inv_set_call (inv_set_queue inv key channel found _) task
        · simp only [State.setChannel, idle]
          rfl
        · simp only [State.setChannel, idle]
          rfl
    · exact inv
  · exact inv

theorem drop_receiver_inv (inv : Inv shard s) (task : Nat) (key : Key) :
    Inv shard (s.dropReceiver task key) := by
  rw [State.dropReceiver]
  split
  · split
    · exact {
        reader := inv.reader
        writer := inv.writer
        once := inv.once
        owned := by
          intro name owner owns
          by_cases here : name = key
          · subst here
            simp [State.setOwner] at owns
          · simp only [State.setOwner, State.setChannel, Function.update_of_ne here] at owns ⊢
            exact inv.owned name owner owns
        unused := inv.unused }
    · exact inv
  · exact inv

theorem give_inv (inv : Inv shard s) (task : Nat) (key : Key) (other : Nat) :
    Inv shard (s.give task key other) := by
  rw [State.give]
  split
  · split
    · rename_i owns
      exact {
        reader := inv.reader
        writer := inv.writer
        once := inv.once
        owned := by
          intro name owner given
          by_cases here : name = key
          · subst here
            exact inv.owned name task owns
          · simp only [State.setOwner, Function.update_of_ne here] at given
            exact inv.owned name owner given
        unused := inv.unused }
    · exact inv
  · exact inv

theorem step_inv (inv : Inv shard s) (action : Action Key Msg) : Inv shard (s.step shard action) := by
  cases action with
  | subTypeChannel task key => exact start_inv inv task _
  | tryPublish task key msg => exact start_inv inv task _
  | publish task key msg => exact start_inv inv task _
  | entry task => exact entry_inv inv task
  | insert task => exact insert_inv inv task
  | get task => exact get_inv inv task
  | trySend task => exact try_send_inv inv task
  | send task => exact send_inv inv task
  | cancel task => exact cancel_inv inv task
  | recv task key => exact recv_inv inv task key
  | dropReceiver task key => exact drop_receiver_inv inv task key
  | give task key other => exact give_inv inv task key other

theorem run_inv (actions : List (Action Key Msg)) :
    Inv shard (runFrom (State.step shard) State.initial actions) :=
  invariant_run (State.step shard) (Inv shard) (fun _ action inv => step_inv inv action) State.initial
    actions initial_inv

end Inv

section Quiet

variable {shard : Key → Nat} {s t : State Key Msg}

/-- A step that makes no task wait to subscribe, and leaves every receiver to its owner and every type
with or without a channel. -/
structure Quiet (s t : State Key Msg) : Prop where
  waits : ∀ task key, t.calls task = .subscribe key → s.calls task = .subscribe key
  owner : t.owner = s.owner
  channels : ∀ key, t.channels key = none ↔ s.channels key = none

theorem Quiet.refl (s : State Key Msg) : Quiet s s where
  waits _ _ waits := waits
  owner := rfl
  channels _ := Iff.rfl

/-- A step of one task, to a call that does not wait to subscribe. -/
theorem Quiet.of_call (task : Nat) (call : Call Key Msg) (calls : t.calls = Function.update s.calls task call)
    (other : ∀ key, call ≠ .subscribe key) (owner : t.owner = s.owner)
    (channels : ∀ key, t.channels key = none ↔ s.channels key = none) : Quiet s t where
  waits := by
    intro waiter key waits
    by_cases here : waiter = task
    · rw [calls, here, Function.update_self] at waits
      exact absurd waits (other key)
    · rwa [calls, Function.update_of_ne here] at waits
  owner := owner
  channels := channels

/-- Such a step that does not touch a channel. -/
theorem Quiet.of_same (task : Nat) (call : Call Key Msg) (calls : t.calls = Function.update s.calls task call)
    (other : ∀ key, call ≠ .subscribe key) (owner : t.owner = s.owner) (channels : t.channels = s.channels) :
    Quiet s t := by
  apply Quiet.of_call task call calls other owner
  intro key
  rw [channels]

theorem start_quiet (task : Nat) (call : Call Key Msg) (other : ∀ key, call ≠ .subscribe key) :
    Quiet s (s.start task call) := by
  rw [State.start]
  split
  · exact Quiet.of_same task _ rfl other rfl rfl
  · exact Quiet.refl s

theorem entry_quiet (task : Nat) : Quiet s (s.entry shard task) := by
  rw [State.entry]
  split
  · split
    · exact Quiet.of_same task _ rfl nofun rfl rfl
    · exact Quiet.refl s
  · exact Quiet.refl s

theorem get_quiet (task : Nat) : Quiet s (s.get shard task) := by
  rw [State.get]
  split
  case h_1 | h_2 =>
    split
    · split
      · exact Quiet.of_same task _ rfl nofun rfl rfl
      · exact Quiet.of_same task _ rfl nofun rfl rfl
    · exact Quiet.refl s
  case h_3 => exact Quiet.refl s

theorem release_quiet (task : Nat) (key : Key) (result : Returned Msg) :
    Quiet s (s.release shard task key result) :=
  Quiet.of_same task _ rfl nofun rfl rfl

theorem cancel_quiet (task : Nat) : Quiet s (s.cancel shard task) := by
  rw [State.cancel]
  split
  · exact Quiet.of_same task _ rfl nofun rfl rfl
  · exact Quiet.refl s

variable [DecidableEq Key]

/-- A channel takes the place of another, and the call of the task ends. -/
theorem queue_quiet (task : Nat) (key : Key) (channel before : Channel Msg)
    (found : s.channels key = some before) (last : Option (Returned Msg))
    (calls : t.calls = Function.update s.calls task (.idle last)) (owner : t.owner = s.owner)
    (channels : t.channels = Function.update s.channels key (some channel)) : Quiet s t := by
  apply Quiet.of_call task _ calls nofun owner
  intro other
  rw [channels]
  by_cases same : other = key
  · subst same
    simp [found]
  · rw [Function.update_of_ne same]

theorem try_send_quiet (task : Nat) : Quiet s (s.trySend shard task) := by
  rw [State.trySend]
  split
  · rename_i key msg running
    split
    · exact Quiet.refl s
    · rename_i channel found
      split
      · exact release_quiet task key _
      · split
        · exact queue_quiet task key _ channel found _ rfl rfl rfl
        · exact release_quiet task key _
  · exact Quiet.refl s

theorem send_quiet (task : Nat) : Quiet s (s.send shard task) := by
  rw [State.send]
  split
  · rename_i key msg running
    split
    · exact Quiet.refl s
    · rename_i channel found
      split
      · exact release_quiet task key _
      · split
        · exact queue_quiet task key _ channel found _ rfl rfl rfl
        · exact Quiet.refl s
  · exact Quiet.refl s

theorem recv_quiet (task : Nat) (key : Key) : Quiet s (s.recv task key) := by
  rw [State.recv]
  split
  · rename_i last channel idle found
    split
    · split
      · exact Quiet.refl s
      · exact queue_quiet task key _ channel found _ rfl rfl rfl
    · exact Quiet.refl s
  · exact Quiet.refl s

end Quiet

section Separate

variable {shard : Key → Nat} {s t : State Key Msg}

/-- No new waiting subscriber, and a receiver goes to a task outside any call. -/
theorem Separate.frame (separate : Separate shard s)
    (calls : ∀ task key, t.calls task = .subscribe key → s.calls task = .subscribe key)
    (owner : ∀ key task, t.owner key = some task →
      s.owner key = some task ∨ ∃ last, t.calls task = .idle last) : Separate shard t := by
  intro task key other waits apart owns
  rcases owner other task owns with before | ⟨last, idle⟩
  · exact separate task key other (calls task key waits) apart before
  · rw [idle] at waits
    cases waits

theorem Separate.quiet (separate : Separate shard s) (quiet : Quiet s t) : Separate shard t :=
  separate.frame quiet.waits fun _ _ owns => .inl (quiet.owner ▸ owns)

theorem subscribe_separate (separate : Separate shard s) (task : Nat) (key : Key)
    (careful : Careful shard s (.subTypeChannel task key)) :
    Separate shard (s.start task (.subscribe key)) := by
  rw [State.start]
  split
  · rename_i last idle
    intro waiter name other waits apart owns
    by_cases here : waiter = task
    · subst here
      simp only [State.setCall, Function.update_self, Call.subscribe.injEq] at waits
      subst waits
      exact careful last idle other apart owns
    · simp only [State.setCall, Function.update_of_ne here] at waits
      exact separate waiter name other waits apart owns
  · exact separate

/-- The guard of a waiting publisher is on the shard of its type. -/
theorem not_wedged (inv : Inv shard s) (separate : Separate shard s) : ¬ s.Wedged shard := by
  rintro ⟨publisher, task, key, other, ⟨msg, channel, sending, -⟩, owns, apart, blocked⟩
  rcases blocked with ⟨waits, member | held⟩ | ⟨_, -, held⟩
  · have place := inv.reader _ _ member
    rw [sending] at place
    exact separate task other key waits apart.symm owns (Option.some.inj place)
  · have place := inv.writer _ _ held
    rw [sending] at place
    cases place
  · have place := inv.writer _ _ held
    rw [sending] at place
    cases place

variable [DecidableEq Key]

/-- The task that gets a receiver is outside any call. -/
theorem insert_separate (separate : Separate shard s) (task : Nat) :
    Separate shard (s.insert shard task) := by
  rw [State.insert]
  split
  · rename_i key running
    split
    · exact separate.quiet (Quiet.of_same task _ rfl nofun rfl rfl)
    · apply separate.frame
      · intro waiter name waits
        by_cases here : waiter = task
        · subst here
          simp [State.setCall] at waits
        · simp only [State.setCall, Function.update_of_ne here] at waits
          exact waits
      · intro name holder owns
        by_cases here : name = key
        · subst here
          simp only [State.setCall, State.setWriter, State.setOwner, State.setChannel,
            Function.update_self, Option.some.injEq] at owns
          subst owns
          exact .inr ⟨_, Function.update_self ..⟩
        · simp only [State.setCall, State.setWriter, State.setOwner, State.setChannel,
            Function.update_of_ne here] at owns
          exact .inl owns
  · exact separate

theorem drop_receiver_separate (separate : Separate shard s) (task : Nat) (key : Key) :
    Separate shard (s.dropReceiver task key) := by
  rw [State.dropReceiver]
  split
  · split
    · apply separate.frame
      · exact fun _ _ waits => waits
      · intro name holder owns
        by_cases here : name = key
        · subst here
          simp [State.setOwner] at owns
        · simp only [State.setOwner, State.setChannel, Function.update_of_ne here] at owns
          exact .inl owns
    · exact separate
  · exact separate

theorem give_separate (separate : Separate shard s) (task : Nat) (key : Key) (other : Nat) :
    Separate shard (s.give task key other) := by
  rw [State.give]
  split
  · rename_i given taken idle free
    split
    · apply separate.frame
      · exact fun _ _ waits => waits
      · intro name holder owns
        by_cases here : name = key
        · subst here
          simp only [State.setOwner, Function.update_self, Option.some.injEq] at owns
          subst owns
          exact .inr ⟨_, free⟩
        · simp only [State.setOwner, Function.update_of_ne here] at owns
          exact .inl owns
    · exact separate
  · exact separate

theorem step_separate (separate : Separate shard s) (action : Action Key Msg)
    (careful : Careful shard s action) : Separate shard (s.step shard action) := by
  cases action with
  | subTypeChannel task key => exact subscribe_separate separate task key careful
  | tryPublish task key msg => exact separate.quiet (start_quiet task _ nofun)
  | publish task key msg => exact separate.quiet (start_quiet task _ nofun)
  | entry task => exact separate.quiet (entry_quiet task)
  | insert task => exact insert_separate separate task
  | get task => exact separate.quiet (get_quiet task)
  | trySend task => exact separate.quiet (try_send_quiet task)
  | send task => exact separate.quiet (send_quiet task)
  | cancel task => exact separate.quiet (cancel_quiet task)
  | recv task key => exact separate.quiet (recv_quiet task key)
  | dropReceiver task key => exact drop_receiver_separate separate task key
  | give task key other => exact give_separate separate task key other

end Separate

section Careless

variable {shard : Key → Nat} {s : State Key Msg} [DecidableEq Key]

/-- A task waits to subscribe, another is free to publish to the channel it owns, which `count` more
messages fill. -/
structure Ready (shard : Key → Nat) (s : State Key Msg) (task other : Nat) (key owned : Key)
    (count : Nat) : Prop where
  waits : s.calls task = .subscribe key
  apart : other ≠ task
  idle : ∃ last, s.calls other = .idle last
  owns : s.owner owned = some task
  channel : ∃ channel, s.channels owned = some channel ∧ channel.closed = false ∧
    DEFAULT_CHANNEL_SIZE ≤ channel.queue.length + count
  unlocked : s.writer (shard owned) = none

/-- A free task starts to publish and gets its guard. -/
theorem try_publish_guards {task : Nat} {key : Key} {channel : Channel Msg} (msg : Msg)
    (idle : ∃ last, s.calls task = .idle last) (unlocked : s.writer (shard key) = none)
    (found : s.channels key = some channel) :
    runFrom (State.step shard) s [.tryPublish task key msg, .get task] =
      (s.setReaders (shard key) (task :: s.readers (shard key))).setCall task (.trySending key msg) := by
  obtain ⟨last, idle⟩ := idle
  simp [State.step, State.start, State.get, State.setCall, State.setReaders, idle, unlocked, found]

theorem publish_guards {task : Nat} {key : Key} {channel : Channel Msg} (msg : Msg)
    (idle : ∃ last, s.calls task = .idle last) (unlocked : s.writer (shard key) = none)
    (found : s.channels key = some channel) :
    runFrom (State.step shard) s [.publish task key msg, .get task] =
      (s.setReaders (shard key) (task :: s.readers (shard key))).setCall task (.sending key msg) := by
  obtain ⟨last, idle⟩ := idle
  simp [State.step, State.start, State.get, State.setCall, State.setReaders, idle, unlocked, found]

/-- One message more. -/
theorem ready_published {task other : Nat} {key owned : Key} {count : Nat} (msg : Msg)
    (ready : Ready shard s task other key owned (count + 1)) :
    Ready shard (runFrom (State.step shard) s [.tryPublish other owned msg, .get other, .trySend other])
      task other key owned count := by
  obtain ⟨channel, found, opened, room⟩ := ready.channel
  have guarded := try_publish_guards msg ready.idle ready.unlocked found
  rw [show [.tryPublish other owned msg, .get other, .trySend other] =
    [.tryPublish other owned msg, .get other] ++ [Action.trySend other] from rfl, runFrom_append, guarded,
    runFrom_cons, runFrom_nil]
  generalize held : (s.setReaders (shard owned) (other :: s.readers (shard owned))).setCall other
    (.trySending owned msg) = t
  have waits : ∀ call, Function.update t.calls other call task = .subscribe key := by
    intro call
    rw [Function.update_of_ne ready.apart.symm, ← held]
    simp only [State.setCall, State.setReaders, Function.update_of_ne ready.apart.symm]
    exact ready.waits
  have owns : t.owner owned = some task := held ▸ ready.owns
  have unlocked : t.writer (shard owned) = none := held ▸ ready.unlocked
  have stored : t.channels owned = some channel := held ▸ found
  have sending : t.calls other = .trySending owned msg := by
    rw [← held]
    exact Function.update_self ..
  by_cases full : channel.queue.length < DEFAULT_CHANNEL_SIZE
  · have sent : t.step shard (.trySend other) =
        (t.setChannel owned { channel with queue := channel.queue ++ [msg] }).release shard other owned
          (.ok none) := by
      simp [State.step, State.trySend, sending, stored, opened, full]
    rw [sent]
    exact {
      waits := waits _
      apart := ready.apart
      idle := ⟨_, Function.update_self ..⟩
      owns := owns
      channel := ⟨{ channel with queue := channel.queue ++ [msg] }, Function.update_self .., opened, by
        simp only [List.length_append, List.length_singleton]
        omega⟩
      unlocked := unlocked }
  · have refused : t.step shard (.trySend other) = t.release shard other owned (.error .full) := by
      simp [State.step, State.trySend, sending, stored, opened, full]
    rw [refused]
    exact {
      waits := waits _
      apart := ready.apart
      idle := ⟨_, Function.update_self ..⟩
      owns := owns
      channel := ⟨channel, stored, opened, by omega⟩
      unlocked := unlocked }

/-- `other` publishes `count` messages to the channel of `owned` and one more, which may have to wait. -/
def fillAndPublish (other : Nat) (owned : Key) (msg : Msg) : Nat → List (Action Key Msg)
  | 0 => [.publish other owned msg, .get other]
  | count + 1 => [.tryPublish other owned msg, .get other, .trySend other] ++ fillAndPublish other owned msg count

omit [DecidableEq Key] in
theorem fill_and_publish_careful (other : Nat) (owned : Key) (msg : Msg) (count : Nat) :
    ∀ action ∈ fillAndPublish other owned msg count, ∀ t : State Key Msg, Careful shard t action := by
  induction count with
  | zero => simp [fillAndPublish, Careful]
  | succ count ih =>
      intro action member t
      rcases List.mem_append.mp member with first | rest
      · fin_cases first <;> trivial
      · exact ih action rest t

/-- The last publisher waits, with its guard on the lock of the channel that it filled. -/
theorem ready_waits {task other : Nat} {key owned : Key} {count : Nat} (msg : Msg)
    (ready : Ready shard s task other key owned count) :
    let t := runFrom (State.step shard) s (fillAndPublish other owned msg count)
    t.WaitsFor other owned ∧ other ∈ t.readers (shard owned) ∧ t.owner owned = some task ∧
      t.calls task = .subscribe key := by
  induction count generalizing s with
  | zero =>
      obtain ⟨channel, found, opened, full⟩ := ready.channel
      rw [fillAndPublish, publish_guards msg ready.idle ready.unlocked found]
      refine ⟨⟨msg, channel, Function.update_self .., found, opened, full⟩, ?_, ready.owns, ?_⟩
      · simp [State.setCall, State.setReaders]
      · simp only [State.setCall, State.setReaders, Function.update_of_ne ready.apart.symm]
        exact ready.waits
  | succ count ih =>
      rw [fillAndPublish, runFrom_append]
      exact ih (ready_published msg ready)

/-- On one shard, the subscriber waits for that lock. -/
theorem ready_wedged {task other : Nat} {key owned : Key} {count : Nat} (msg : Msg)
    (ready : Ready shard s task other key owned count) (apart : owned ≠ key)
    (same : shard owned = shard key) :
    (runFrom (State.step shard) s (fillAndPublish other owned msg count)).Wedged shard := by
  obtain ⟨waits, guards, owns, subscribes⟩ := ready_waits msg ready
  rw [same] at guards
  exact ⟨other, task, owned, key, waits, owns, apart.symm, .inl ⟨subscribes, .inl guards⟩⟩

omit [DecidableEq Key] in
/-- There is always one more task. -/
theorem unused_task (inv : Inv shard s) (task : Nat) : ∃ other, other ≠ task ∧ s.calls other = .idle none := by
  obtain ⟨bound, idle⟩ := inv.unused
  exact ⟨max bound (task + 1), by omega, idle _ (by omega)⟩

/-- A subscriber in the middle of its entry lets the lock go. -/
theorem insert_unlocks {writer : Nat} {key : Key} (running : s.calls writer = .inserting key) (owned : Key)
    (task : Nat) (inv : Inv shard s) (owns : s.owner owned = some task) :
    (s.insert shard writer).writer (shard key) = none ∧
      (s.insert shard writer).owner owned = some task ∧
      ∀ other, other ≠ writer → (s.insert shard writer).calls other = s.calls other := by
  obtain ⟨channel, found, opened⟩ := inv.owned owned task owns
  rw [State.insert, running]
  dsimp only
  split
  · refine ⟨?_, owns, ?_⟩
    · simp only [State.setCall, State.setWriter, Function.update_self]
    · intro other apart
      simp only [State.setCall, State.setWriter, Function.update_of_ne apart]
  · rename_i vacant
    have apart : owned ≠ key := by
      rintro rfl
      rw [found] at vacant
      cases vacant
    refine ⟨?_, ?_, ?_⟩
    · simp only [State.setCall, State.setWriter, Function.update_self]
    · simp only [State.setCall, State.setWriter, State.setOwner, Function.update_of_ne apart]
      exact owns
    · intro other apart
      simp only [State.setCall, State.setWriter, State.setOwner, State.setChannel,
        Function.update_of_ne apart]

omit [DecidableEq Key] in
theorem ready_of_unlocked {task : Nat} {key owned : Key} (inv : Inv shard s)
    (waits : s.calls task = .subscribe key) (owns : s.owner owned = some task)
    (unlocked : s.writer (shard owned) = none) :
    ∃ other, Ready shard s task other key owned DEFAULT_CHANNEL_SIZE := by
  obtain ⟨other, apart, idle⟩ := unused_task inv task
  obtain ⟨channel, found, opened⟩ := inv.owned owned task owns
  exact ⟨other, {
    waits := waits
    apart := apart
    idle := ⟨none, idle⟩
    owns := owns
    channel := ⟨channel, found, opened, by omega⟩
    unlocked := unlocked }⟩

/-- A task that waits to subscribe with a receiver in hand can be brought there from any state. -/
theorem subscriber_ready {task : Nat} {key owned : Key} (inv : Inv shard s)
    (waits : s.calls task = .subscribe key) (owns : s.owner owned = some task) :
    ∃ more other, Ready shard (runFrom (State.step shard) s more) task other key owned
      DEFAULT_CHANNEL_SIZE := by
  cases held : s.writer (shard owned) with
  | none =>
      obtain ⟨other, ready⟩ := ready_of_unlocked inv waits owns held
      exact ⟨[], other, ready⟩
  | some writer =>
      have place := inv.writer _ _ held
      cases running : s.calls writer with
      | inserting name =>
          rw [running] at place
          have same : shard name = shard owned := Option.some.inj place
          have apart : task ≠ writer := by
            rintro rfl
            rw [waits] at running
            cases running
          obtain ⟨unlocked, kept, calls⟩ := insert_unlocks running owned task inv owns
          rw [same] at unlocked
          obtain ⟨other, ready⟩ := ready_of_unlocked (insert_inv inv writer)
            ((calls task apart).trans waits) kept unlocked
          exact ⟨[.insert writer], other, ready⟩
      | _ => rw [running] at place; cases place

theorem subscriber_wedges {task : Nat} {key owned : Key} (msg : Msg) (inv : Inv shard s)
    (waits : s.calls task = .subscribe key) (owns : s.owner owned = some task) (apart : owned ≠ key)
    (same : shard owned = shard key) : ∃ more, (runFrom (State.step shard) s more).Wedged shard := by
  obtain ⟨unlock, other, ready⟩ := subscriber_ready inv waits owns
  have wedged := ready_wedged msg ready apart same
  rw [← runFrom_append] at wedged
  exact ⟨_, wedged⟩

/-- A careless call of `sub_type_channel` can always end with the bus wedged. -/
theorem careless_wedges (msg : Msg) (inv : Inv shard s) (task : Nat) (key : Key)
    (careless : ¬ Careful shard s (.subTypeChannel task key)) :
    ∃ more, (runFrom (State.step shard) (s.step shard (.subTypeChannel task key)) more).Wedged shard := by
  simp only [Careful, not_forall, not_not] at careless
  obtain ⟨last, idle, owned, apart, owns, same⟩ := careless
  have started : s.step shard (.subTypeChannel task key) = s.setCall task (.subscribe key) := by
    simp only [State.step, State.start, idle]
  have after := step_inv inv (.subTypeChannel task key)
  rw [started] at after ⊢
  exact subscriber_wedges msg after (Function.update_self ..) owns apart same

end Careless

variable [DecidableEq Key]

theorem careful_separate (shard : Key → Nat) (actions : List (Action Key Msg))
    (careful : Along (State.step shard) (Careful shard) State.initial actions) :
    Separate shard (runFrom (State.step shard) State.initial actions) :=
  invariant_along (State.step shard) (Separate shard) (fun _ action allowed separate =>
    step_separate separate action allowed) State.initial actions careful
    (fun _ _ _ waits => by cases waits)

/-- Only a task that subscribes with the receiver of another type of the same shard in hand wedges the
bus, and any such call can. -/
theorem waiting_publisher_cannot_wedge (shard : Key → Nat) (actions : List (Action Key Msg)) (msg : Msg) :
    (Along (State.step shard) (Careful shard) State.initial actions →
      ¬ (runFrom (State.step shard) State.initial actions).Wedged shard) ∧
    ∀ task key,
      ¬ Careful shard (runFrom (State.step shard) State.initial actions) (.subTypeChannel task key) →
        ∃ more, (runFrom (State.step shard) State.initial
          (actions ++ .subTypeChannel task key :: more)).Wedged shard := by
  constructor
  · intro careful
    exact not_wedged (run_inv actions) (careful_separate shard actions careful)
  · intro task key careless
    obtain ⟨more, wedged⟩ := careless_wedges msg (run_inv actions) task key careless
    refine ⟨more, ?_⟩
    rw [runFrom_append, runFrom_cons]
    exact wedged

/-- Task 0 owns the receiver of `false` and subscribes to `true`, of the same shard. -/
def subscribeBoth : List (Action Bool Nat) :=
  [.subTypeChannel 0 false, .entry 0, .insert 0, .subTypeChannel 0 true]

theorem subscribe_both_wedges : ¬ ∀ (shard : Bool → Nat) (actions : List (Action Bool Nat)),
    ¬ (runFrom (State.step shard) State.initial actions).Wedged shard := by
  intro never
  have waits : (runFrom (State.step fun _ : Bool => 0) State.initial subscribeBoth).calls 0 =
      .subscribe true := rfl
  have owns : (runFrom (State.step fun _ : Bool => 0) State.initial subscribeBoth).owner false = some 0 :=
    rfl
  obtain ⟨more, wedged⟩ := subscriber_wedges 7 (run_inv subscribeBoth) waits owns (by decide) rfl
  rw [← runFrom_append] at wedged
  exact never _ _ wedged

/-- With the two types on two shards the same calls are careful, also behind a publisher that waits. -/
theorem waiting_publisher_cannot_wedge_two_shards :
    let actions := subscribeBoth ++ fillAndPublish 1 false 7 64
    let s := runFrom (State.step Bool.toNat) State.initial actions
    Along (State.step Bool.toNat) (Careful Bool.toNat) State.initial actions ∧ s.WaitsFor 1 false ∧
      s.calls 0 = .subscribe true ∧ ¬s.Wedged Bool.toNat := by
  intro actions s
  have ready : Ready Bool.toNat (runFrom (State.step Bool.toNat) State.initial subscribeBoth) 0 1 true false
      64 := {
    waits := rfl
    apart := by decide
    idle := ⟨none, rfl⟩
    owns := rfl
    channel := ⟨⟨[], false⟩, rfl, rfl, by decide⟩
    unlocked := rfl }
  have runs : runFrom (State.step Bool.toNat) (runFrom (State.step Bool.toNat) State.initial subscribeBoth)
      (fillAndPublish 1 false 7 64) = s := (runFrom_append ..).symm
  obtain ⟨waits, _, _, subscribes⟩ := ready_waits 7 ready
  rw [runs] at waits subscribes
  have careful : Along (State.step Bool.toNat) (Careful Bool.toNat) State.initial actions := by
    apply (along_append ..).mpr
    constructor
    · refine ⟨?_, trivial, trivial, ?_, trivial⟩
      · simp [Careful, State.initial]
      · intro last idle other apart owns
        cases other with
        | false => decide
        | true => exact absurd rfl apart
    · exact along_of_mem _ _ _ fun action member t => fill_and_publish_careful 1 false 7 64 action member t
  have never := (waiting_publisher_cannot_wedge Bool.toNat actions 7).1 careful
  exact ⟨careful, waits, subscribes, never⟩

end Pigs.Bus.Mpsc
