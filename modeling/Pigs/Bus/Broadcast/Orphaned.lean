import Mathlib.Data.List.Nodup
import Pigs.Bus.Broadcast.Subscribed

/-! What a removal does to the receivers of a channel that is still in use. -/

namespace Pigs.Bus.Broadcast

open Pigs.Lib

variable {Key Msg : Type}

/-- A channel counts the receivers there are and has the clones of the calls that go on with them, each
once. -/
structure Known (s : State Key Msg) : Prop where
  receiving : ∀ chan id, id ∈ (s.channel chan).receivers → ∃ rx, s.receivers id = some rx ∧ rx.chan = chan
  cloned : ∀ chan id, .call id ∈ (s.channel chan).senders →
    ∃ key, s.calls id = some (.subscribing key chan)
  once : ∀ chan, (s.channel chan).receivers.Nodup ∧ (s.channel chan).senders.Nodup
  returned : ∀ id rx, s.receivers id = some rx → s.calls id = some .subscribed

section Known

variable {s t : State Key Msg}

theorem Known.frame (known : Known s) (channel : t.channel = s.channel)
    (receivers : t.receivers = s.receivers) (calls : t.calls = s.calls) : Known t where
  receiving := by rw [channel, receivers]; exact known.receiving
  cloned := by rw [channel, calls]; exact known.cloned
  once := by rw [channel]; exact known.once
  returned := by rw [receivers, calls]; exact known.returned

/-- A call without a clone or a receiver goes on. -/
theorem Known.call (known : Known s) (id : Nat) (call : Call Key Msg)
    (bare : ∀ key chan, s.calls id ≠ some (.subscribing key chan)) (out : s.calls id ≠ some .subscribed)
    (channel : t.channel = s.channel) (receivers : t.receivers = s.receivers)
    (calls : t.calls = Function.update s.calls id (some call)) : Known t where
  receiving := by rw [channel, receivers]; exact known.receiving
  cloned := by
    intro chan other member
    rw [channel] at member
    obtain ⟨key, running⟩ := known.cloned chan other member
    have apart : other ≠ id := by
      rintro rfl
      exact bare key chan running
    exact ⟨key, by rw [calls, Function.update_of_ne apart, running]⟩
  once := by rw [channel]; exact known.once
  returned := by
    intro other rx alive
    rw [receivers] at alive
    have done := known.returned other rx alive
    have apart : other ≠ id := by
      rintro rfl
      exact out done
    rw [calls, Function.update_of_ne apart, done]

/-- A channel that gains neither receivers nor clones. -/
theorem Known.channel (known : Known s) (chan : Nat) (channel : Channel Msg)
    (receivers : channel.receivers.Sublist (s.channel chan).receivers)
    (clones : ∀ id, .call id ∈ channel.senders → .call id ∈ (s.channel chan).senders)
    (once : channel.senders.Nodup) : Known (s.setChannel chan channel) where
  receiving := by
    intro other id member
    by_cases here : other = chan
    · subst here
      simp only [State.setChannel, Function.update_self] at member
      exact known.receiving other id (receivers.subset member)
    · simp only [State.setChannel, Function.update_of_ne here] at member
      exact known.receiving other id member
  cloned := by
    intro other id member
    by_cases here : other = chan
    · subst here
      simp only [State.setChannel, Function.update_self] at member
      exact known.cloned other id (clones id member)
    · simp only [State.setChannel, Function.update_of_ne here] at member
      exact known.cloned other id member
  once := by
    intro other
    by_cases here : other = chan
    · subst here
      simp only [State.setChannel, Function.update_self]
      exact ⟨receivers.nodup (known.once other).1, once⟩
    · simpa only [State.setChannel, Function.update_of_ne here] using known.once other
  returned := known.returned

theorem initial_known : Known (State.initial : State Key Msg) where
  receiving _ _ member := by cases member
  cloned _ _ member := by cases member
  once _ := ⟨List.nodup_nil, List.nodup_nil⟩
  returned _ _ alive := by cases alive

theorem clone_known (shard : Key → Nat) (known : Known s) (id : Nat) : Known (s.clone shard id) := by
  rw [State.clone]
  split
  · rename_i key chan running
    have unknown : ∀ place, .call id ∉ (s.channel place).senders := by
      intro place member
      obtain ⟨name, other⟩ := known.cloned place id member
      rw [running] at other
      cases other
    refine ⟨?_, ?_, ?_, ?_⟩
    · intro place other member
      apply known.receiving place other
      by_cases here : place = chan
      · subst here
        simpa [State.setCall, State.setWriter, State.setChannel] using member
      · simpa only [State.setCall, State.setWriter, State.setChannel, Function.update_of_ne here] using member
    · intro place other member
      by_cases own : other = id
      · subst own
        by_cases here : place = chan
        · subst here
          exact ⟨key, Function.update_self ..⟩
        · simp only [State.setCall, State.setWriter, State.setChannel, Function.update_of_ne here] at member
          exact absurd member (unknown place)
      · have before : .call other ∈ (s.channel place).senders := by
          by_cases here : place = chan
          · subst here
            simpa [State.setCall, State.setWriter, State.setChannel, own] using member
          · simpa only [State.setCall, State.setWriter, State.setChannel, Function.update_of_ne here] using
              member
        obtain ⟨name, found⟩ := known.cloned place other before
        exact ⟨name, by simp only [State.setCall, State.setWriter, State.setChannel,
          Function.update_of_ne own, found]⟩
    · intro place
      by_cases here : place = chan
      · subst here
        simp only [State.setCall, State.setWriter, State.setChannel, Function.update_self]
        refine ⟨(known.once place).1, ?_⟩
        rw [List.nodup_append]
        refine ⟨(known.once place).2, List.nodup_singleton _, ?_⟩
        rintro holder member _ last rfl
        rw [List.mem_singleton] at last
        exact unknown place (last ▸ member)
      · simpa only [State.setCall, State.setWriter, State.setChannel, Function.update_of_ne here] using
          known.once place
    · intro other rx alive
      have done := known.returned other rx alive
      have apart : other ≠ id := by
        rintro rfl
        rw [running] at done
        cases done
      simp only [State.setCall, State.setWriter, State.setChannel, Function.update_of_ne apart, done]
  · exact known

theorem subscribe_known (known : Known s) (id : Nat) : Known (s.subscribe id) := by
  rw [State.subscribe]
  split
  · rename_i key chan running
    have absent : ∀ rx, s.receivers id ≠ some rx := by
      intro rx alive
      have done := known.returned id rx alive
      rw [running] at done
      cases done
    have uncounted : ∀ place, id ∉ (s.channel place).receivers := by
      intro place member
      obtain ⟨rx, alive, -⟩ := known.receiving place id member
      exact absent rx alive
    refine ⟨?_, ?_, ?_, ?_⟩
    · intro place other member
      by_cases own : other = id
      · subst own
        by_cases here : place = chan
        · subst here
          exact ⟨_, Function.update_self .., rfl⟩
        · simp only [State.setCall, State.setChannel, Function.update_of_ne here] at member
          exact absurd member (uncounted place)
      · have before : other ∈ (s.channel place).receivers := by
          by_cases here : place = chan
          · subst here
            simpa [State.setCall, State.setChannel, own] using member
          · simpa only [State.setCall, State.setChannel, Function.update_of_ne here] using member
        obtain ⟨rx, alive, same⟩ := known.receiving place other before
        exact ⟨rx, by simp only [State.setChannel, Function.update_of_ne own, alive], same⟩
    · intro place other member
      have before : .call other ∈ (s.channel place).senders ∧ other ≠ id := by
        by_cases here : place = chan
        · subst here
          simp only [State.setCall, State.setChannel, Function.update_self] at member
          obtain ⟨apart, present⟩ := ((known.once place).2.mem_erase_iff).mp member
          exact ⟨present, fun same => apart (same ▸ rfl)⟩
        · simp only [State.setCall, State.setChannel, Function.update_of_ne here] at member
          refine ⟨member, ?_⟩
          rintro rfl
          obtain ⟨name, found⟩ := known.cloned place other member
          rw [running] at found
          cases found
          exact here rfl
      obtain ⟨name, found⟩ := known.cloned place other before.1
      exact ⟨name, by simp only [State.setCall, State.setChannel, Function.update_of_ne before.2, found]⟩
    · intro place
      by_cases here : place = chan
      · subst here
        simp only [State.setCall, State.setChannel, Function.update_self]
        refine ⟨?_, (known.once place).2.erase _⟩
        rw [List.nodup_append]
        refine ⟨(known.once place).1, List.nodup_singleton _, ?_⟩
        rintro other member _ last rfl
        rw [List.mem_singleton] at last
        exact uncounted place (last ▸ member)
      · simpa only [State.setCall, State.setChannel, Function.update_of_ne here] using known.once place
    · intro other rx alive
      by_cases own : other = id
      · subst own
        exact Function.update_self ..
      · simp only [State.setCall, State.setChannel, Function.update_of_ne own] at alive ⊢
        exact known.returned other rx alive
  · exact known

theorem drop_known (known : Known s) (id : Nat) : Known (s.drop id) := by
  rw [State.drop]
  split
  · rename_i receiver alive
    have erased := known.channel receiver.chan
      { s.channel receiver.chan with receivers := (s.channel receiver.chan).receivers.erase id }
      List.erase_sublist (fun _ member => member) (known.once receiver.chan).2
    refine ⟨?_, erased.cloned, erased.once, ?_⟩
    · intro place other member
      obtain ⟨rx, left, same⟩ := erased.receiving place other member
      have apart : other ≠ id := by
        rintro rfl
        have own : receiver = rx := Option.some.inj (alive.symm.trans left)
        rw [← same, ← own] at member
        simp only [State.setChannel, Function.update_self] at member
        exact (known.once receiver.chan).1.not_mem_erase member
      exact ⟨rx, by simp only [Function.update_of_ne apart]; exact left, same⟩
    · intro other rx left
      by_cases own : other = id
      · subst own
        simp at left
      · simp only [Function.update_of_ne own] at left
        exact known.returned other rx left
  · exact known

theorem recv_known (known : Known s) (id : Nat) : Known (s.recv id) := by
  rw [State.recv]
  split
  · rename_i receiver alive
    have place : (State.poll (s.channel receiver.chan) receiver).chan = receiver.chan := by
      simp only [State.poll]
      split <;> split <;> rfl
    refine ⟨?_, known.cloned, known.once, ?_⟩
    · intro chan other member
      obtain ⟨rx, found, same⟩ := known.receiving chan other member
      by_cases own : other = id
      · subst own
        rw [alive] at found
        cases found
        exact ⟨_, Function.update_self .., place.trans same⟩
      · exact ⟨rx, by simp only [Function.update_of_ne own, found], same⟩
    · intro other rx found
      by_cases own : other = id
      · subst own
        exact known.returned other receiver alive
      · simp only [Function.update_of_ne own] at found
        exact known.returned other rx found
  · exact known

variable [DecidableEq Key]

theorem or_insert_known (known : Known s) (key : Key) : Known (s.orInsert key) := by
  rw [State.orInsert]
  split
  · exact known
  · exact (known.channel s.next ⟨[], [], [.map]⟩ (List.nil_sublist _) (by simp)
      (List.nodup_singleton _)).frame rfl rfl rfl

theorem or_insert_calls (s : State Key Msg) (key : Key) : (s.orInsert key).calls = s.calls := by
  rw [State.orInsert]
  split <;> rfl

theorem entry_known (shard : Key → Nat) (known : Known s) (id : Nat) : Known (s.entry shard id) := by
  rw [State.entry]
  split
  · rename_i key msg running
    split
    · refine (or_insert_known known key).call id _ ?_ ?_ rfl rfl rfl
      · simp [or_insert_calls, running]
      · simp [or_insert_calls, running]
    · exact known
  · rename_i key running
    split
    · refine (or_insert_known known key).call id _ ?_ ?_ rfl rfl rfl
      · simp [or_insert_calls, running]
      · simp [or_insert_calls, running]
    · exact known
  · exact known

theorem send_known (shard : Key → Nat) (known : Known s) (id : Nat) : Known (s.send shard id) := by
  rw [State.send]
  split
  · rename_i key msg chan running
    simp only
    split
    · exact known.call id _ (by simp [running]) (by simp [running]) rfl rfl rfl
    · have sent := known.channel chan
        { s.channel chan with sent := (s.channel chan).sent ++ [msg] } (List.Sublist.refl _)
        (fun _ member => member) (known.once chan).2
      refine sent.call id _ ?_ ?_ rfl rfl rfl
      · simp [State.setChannel, running]
      · simp [State.setChannel, running]
  · exact known

theorem remove_known (shard : Key → Nat) (known : Known s) (cleaner : Nat) :
    Known (s.remove shard cleaner) := by
  rw [State.remove]
  split
  · exact known.frame rfl rfl rfl
  · split
    · split
      · rename_i chan found
        have removed := known.channel chan
          { s.channel chan with senders := (s.channel chan).senders.erase .map } (List.Sublist.refl _)
          (fun _ member => List.mem_of_mem_erase member) ((known.once chan).2.erase _)
        exact removed.frame rfl rfl rfl
      · exact known.frame rfl rfl rfl
    · exact known
  · exact known

theorem step_known (shard : Key → Nat) (shards : Nat) (known : Known s) (action : Action Key Msg) :
    Known (s.step shard shards action) := by
  cases action with
  | publish id key msg =>
      simp only [State.step]
      split
      · rename_i idle
        rw [Option.isNone_iff_eq_none] at idle
        exact known.call id _ (by simp [idle]) (by simp [idle]) rfl rfl rfl
      · exact known
  | subTypeChannel id key =>
      simp only [State.step]
      split
      · rename_i idle
        rw [Option.isNone_iff_eq_none] at idle
        exact known.call id _ (by simp [idle]) (by simp [idle]) rfl rfl rfl
      · exact known
  | entry id => exact entry_known shard known id
  | send id => exact send_known shard known id
  | clone id => exact clone_known shard known id
  | subscribe id => exact subscribe_known known id
  | drop id => exact drop_known known id
  | recv id => exact recv_known known id
  | wake cleaner =>
      simp only [State.step]
      split
      · exact known.frame rfl rfl rfl
      · exact known
  | enterShard cleaner =>
      simp only [State.step, State.enterShard]
      split
      · split
        · split
          · exact known.frame rfl rfl rfl
          · exact known
        · exact known.frame rfl rfl rfl
      · exact known
  | receiverCount cleaner key =>
      simp only [State.step, State.receiverCount]
      split
      · split
        · exact known.frame rfl rfl rfl
        · exact known
      · exact known
  | leaveShard cleaner =>
      simp only [State.step, State.leaveShard]
      split
      · exact known.frame rfl rfl rfl
      · exact known
  | remove cleaner => exact remove_known shard known cleaner

theorem run_known (shard : Key → Nat) (shards : Nat) (actions : List (Action Key Msg)) :
    Known (runFrom (State.step shard shards) State.initial actions) :=
  invariant_run (State.step shard shards) Known (fun _ action known => step_known shard shards known action)
    State.initial actions initial_known

end Known

section Orphaned

variable {shard : Key → Nat} {s : State Key Msg} [DecidableEq Key]

/-- What a removal leaves of the type's receivers and of a call that is about to subscribe. -/
theorem remove_fields (cleaner : Nat) (key : Key) (toRemove : List Key) (chan : Nat)
    (phase : s.cleaners cleaner = .removing (key :: toRemove)) (free : s.free (shard key))
    (found : s.channels.lookup key = some chan) :
    (s.remove shard cleaner).channels.lookup key = none ∧
      (s.remove shard cleaner).receivers = s.receivers ∧ (s.remove shard cleaner).calls = s.calls := by
  simp only [State.remove, phase, if_pos free, found]
  exact ⟨lookup_without_self _ _, rfl, rfl⟩

/-- A removal that is not harmless leaves a receiver off the stored sender, at once or when the call that
has the clone subscribes. -/
theorem removal_orphans (shards : Nat) (inv : Inv shard s) (known : Known s) (cleaner : Nat)
    (harmful : ¬ Harmless shard s (.remove cleaner)) :
    ∃ more id rx,
      (runFrom (State.step shard shards) (s.step shard shards (.remove cleaner)) more).receivers id = some rx ∧
        ¬ Subscribed (runFrom (State.step shard shards) (s.step shard shards (.remove cleaner)) more) id rx := by
  simp only [Harmless, not_forall] at harmful
  obtain ⟨key, toRemove, chan, phase, free, found, used⟩ := harmful
  obtain ⟨gone, receivers, calls⟩ := remove_fields cleaner key toRemove chan phase free found
  by_cases receiving : (s.channel chan).receivers = []
  · have other : ∃ id, .call id ∈ (s.channel chan).senders := by
      by_contra absent
      rw [not_exists] at absent
      apply used
      refine ⟨receiving, ?_⟩
      have only : ∀ holder ∈ (s.channel chan).senders, holder = .map := by
        intro holder member
        cases holder with
        | map => rfl
        | call id => exact absurd member (absent id)
      have one := List.nodup_iff_count_le_one.mp (known.once chan).2 .map
      rw [List.eq_replicate_of_mem only] at one ⊢
      rw [List.count_replicate_self] at one
      have some := List.length_pos_of_mem (inv.held key chan found)
      rw [show (s.channel chan).senders.length = 1 by omega]
      rfl
    obtain ⟨id, clone⟩ := other
    obtain ⟨name, running⟩ := known.cloned chan id clone
    have same : name = key := inv.apart name key chan (inv.calls id _ running).1 found
    subst same
    rw [← calls] at running
    have subscribed : ∃ rx, ((s.remove shard cleaner).subscribe id).receivers id = some rx ∧ rx.key = name ∧
        ((s.remove shard cleaner).subscribe id).channels = (s.remove shard cleaner).channels := by
      simp only [State.subscribe, running]
      exact ⟨_, Function.update_self .., rfl, rfl⟩
    obtain ⟨rx, alive, own, channels⟩ := subscribed
    refine ⟨[.subscribe id], id, rx, alive, ?_⟩
    intro still
    have stored := still.stored
    rw [own] at stored
    exact absurd (stored.symm.trans ((congrArg (List.lookup name) channels).trans gone)) (by simp)
  · obtain ⟨id, member⟩ := List.exists_mem_of_ne_nil _ receiving
    obtain ⟨rx, alive, place⟩ := known.receiving chan id member
    have own : rx.key = key := inv.apart rx.key key chan (place ▸ (inv.receivers id rx alive).stored) found
    refine ⟨[], id, rx, (congrFun receivers id).trans alive, ?_⟩
    intro still
    have stored := still.stored
    rw [own] at stored
    exact absurd (stored.symm.trans gone) (by simp)

end Orphaned

variable [DecidableEq Key]

/-- In every run in which the cleanup removes only senders that nobody else has and nobody receives from,
every receiver is on the stored sender of its type and is told every later message. Any other removal can
take a receiver's sender. -/
theorem receivers_stay_subscribed (shard : Key → Nat) (shards : Nat) (actions : List (Action Key Msg))
    (harmless : Along (State.step shard shards) (Harmless shard) State.initial actions) :
    (∀ id rx, (runFrom (State.step shard shards) State.initial actions).receivers id = some rx →
      Subscribed (runFrom (State.step shard shards) State.initial actions) id rx) ∧
    ∀ cleaner,
      ¬ Harmless shard (runFrom (State.step shard shards) State.initial actions) (.remove cleaner) →
        ∃ more id rx,
          (runFrom (State.step shard shards) State.initial
            (actions ++ .remove cleaner :: more)).receivers id = some rx ∧
          ¬ Subscribed (runFrom (State.step shard shards) State.initial
            (actions ++ .remove cleaner :: more)) id rx := by
  have inv : Inv shard (runFrom (State.step shard shards) State.initial actions) :=
    invariant_along (State.step shard shards) (Inv shard)
      (fun _ action harmless inv => step_inv shards inv action harmless) State.initial actions harmless
      initial_inv
  refine ⟨inv.receivers, ?_⟩
  intro cleaner harmful
  obtain ⟨more, id, rx, alive, orphaned⟩ :=
    removal_orphans shards inv (run_known shard shards actions) cleaner harmful
  exact ⟨more, id, rx, by rwa [runFrom_append, runFrom_cons], by rwa [runFrom_append, runFrom_cons]⟩

/-- Type 0 has a channel that nobody receives from and type 1 a receiver when the cleanup passes; then
type 1 is published. -/
def unusedRemoved : List (Action Nat Nat) := [
  .publish 0 0 7, .entry 0, .send 0,
  .subTypeChannel 1 1, .entry 1, .clone 1, .subscribe 1,
  .wake 0, .enterShard 0, .receiverCount 0 1, .receiverCount 0 0, .leaveShard 0, .enterShard 0, .remove 0,
  .publish 2 1 8, .entry 2, .send 2, .recv 1]

theorem receivers_stay_subscribed_unused_removed :
    Subscribed (runFrom (State.step (fun _ => 0) 1) State.initial unusedRemoved) 1
      ⟨1, 1, 0, 0, 1, [.message 8]⟩ := by
  refine (receivers_stay_subscribed (fun _ => 0) 1 unusedRemoved ?_).1 _ _ ?_
  · refine ⟨trivial, trivial, trivial, trivial, trivial, trivial, trivial, trivial, trivial, trivial,
      trivial, trivial, trivial, ?_, trivial, trivial, trivial, trivial, trivial⟩
    intro key toRemove chan phase free found
    have only : Cleaner.removing [0] = Cleaner.removing (key :: toRemove) := phase
    cases only
    have first : some 0 = some chan := found
    cases first
    exact ⟨rfl, rfl⟩
  · rfl

/-- The scan counts no receiver of type 0; a subscriber comes before the removal. -/
def subscribedBeforeRemoval : List (Action Nat Nat) := [
  .publish 0 0 7, .entry 0, .send 0,
  .wake 0, .enterShard 0, .receiverCount 0 0, .leaveShard 0, .enterShard 0,
  .subTypeChannel 1 0, .entry 1, .clone 1, .subscribe 1,
  .remove 0, .recv 1]

/-- The receiver is told that its channel is closed. -/
theorem cleanup_orphans_subscriber :
    ¬ ∀ (shard : Nat → Nat) (shards : Nat) (actions : List (Action Nat Nat)) (id : Nat)
        (rx : Receiver Nat Nat),
      (runFrom (State.step shard shards) State.initial actions).receivers id = some rx →
        Subscribed (runFrom (State.step shard shards) State.initial actions) id rx := by
  intro always
  have subscribed := always (fun _ => 0) 1 subscribedBeforeRemoval 1 ⟨0, 0, 0, 1, 0, [.closed]⟩ rfl
  exact subscribed.explained

end Pigs.Bus.Broadcast
