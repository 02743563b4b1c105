import Pigs.Lib.Run
import Pigs.Lib.Assoc
import Pigs.Bus.Broadcast.Channels

/-! A receiver stays on the sender that the map has for its type as long as every removal finds the sender
without receivers and without clones. -/

namespace Pigs.Bus.Broadcast

open Pigs.Lib

variable {Key Msg : Type} [DecidableEq Key]

/-- The events lead from position `start` to `next`: each message is the one of its position, and what
was skipped has been reported. -/
def Explained (sent : List Msg) (start : Nat) : List (Event Msg) → Nat → Prop
  | [], next => next = start
  | .message msg :: earlier, next =>
      ∃ position, next = position + 1 ∧ sent[position]? = some msg ∧ Explained sent start earlier position
  | .lagged missed :: earlier, next =>
      ∃ position, next = position + missed ∧ 0 < missed ∧ Explained sent start earlier position
  | .closed :: _, _ => False

/-- The receiver is on the stored sender, and every message published since has been told to it or waits
for its next polls. -/
structure Subscribed (s : State Key Msg) (id : Nat) (rx : Receiver Key Msg) : Prop where
  stored : s.channels.lookup rx.key = some rx.chan
  counted : id ∈ (s.channel rx.chan).receivers
  since : rx.since ≤ (s.published rx.key).length
  same : (s.published rx.key).drop rx.since = (s.channel rx.chan).sent.drop rx.start
  explained : Explained (s.channel rx.chan).sent rx.start rx.events rx.next
  pending : rx.next ≤ (s.channel rx.chan).sent.length

/-- What a call in flight relies on. -/
def CallInv (shard : Key → Nat) (s : State Key Msg) (id : Nat) : Call Key Msg → Prop
  | .sending key _ chan | .cloning key chan =>
      s.writer (shard key) = some id ∧ s.channels.lookup key = some chan
  | .subscribing key chan =>
      s.channels.lookup key = some chan ∧ .call id ∈ (s.channel chan).senders
  | _ => True

structure Inv (shard : Key → Nat) (s : State Key Msg) : Prop where
  fresh : ∀ key chan, s.channels.lookup key = some chan → chan < s.next
  apart : ∀ key other chan, s.channels.lookup key = some chan → s.channels.lookup other = some chan →
    key = other
  held : ∀ key chan, s.channels.lookup key = some chan → .map ∈ (s.channel chan).senders
  calls : ∀ id call, s.calls id = some call → CallInv shard s id call
  receivers : ∀ id rx, s.receivers id = some rx → Subscribed s id rx

/-- A removal is harmless when nothing but the map has a sender of the channel, and nobody receives. -/
def Harmless (shard : Key → Nat) (s : State Key Msg) : Action Key Msg → Prop
  | .remove cleaner =>
      ∀ key toRemove chan, s.cleaners cleaner = .removing (key :: toRemove) → s.free (shard key) →
        s.channels.lookup key = some chan →
          (s.channel chan).receivers = [] ∧ (s.channel chan).senders = [.map]
  | _ => True

section Explained

theorem Explained.start_le {sent : List Msg} {start next : Nat} {events : List (Event Msg)}
    (explained : Explained sent start events next) : start ≤ next := by
  induction events generalizing next with
  | nil => exact Nat.le_of_eq explained.symm
  | cons event events ih =>
      cases event with
      | message msg =>
          obtain ⟨position, rfl, -, earlier⟩ := explained
          exact Nat.le_succ_of_le (ih earlier)
      | lagged missed =>
          obtain ⟨position, rfl, -, earlier⟩ := explained
          exact Nat.le_add_right_of_le (ih earlier)
      | closed => exact explained.elim

theorem Explained.append {sent : List Msg} {start next : Nat} {events : List (Event Msg)}
    (explained : Explained sent start events next) (more : List Msg) :
    Explained (sent ++ more) start events next := by
  induction events generalizing next with
  | nil => exact explained
  | cons event events ih =>
      cases event with
      | message msg =>
          obtain ⟨position, rfl, told, earlier⟩ := explained
          have within := (List.getElem?_eq_some_iff.mp told).1
          exact ⟨position, rfl, by rw [List.getElem?_append_left within, told], ih earlier⟩
      | lagged missed =>
          obtain ⟨position, rfl, some, earlier⟩ := explained
          exact ⟨position, rfl, some, ih earlier⟩
      | closed => exact explained.elim

end Explained

section Frames

variable {shard : Key → Nat} {s t : State Key Msg}

theorem CallInv.frame {id : Nat} {call : Call Key Msg} (inv : CallInv shard s id call)
    (writer : ∀ index, s.writer index = some id → t.writer index = some id)
    (lookup : ∀ key chan, s.channels.lookup key = some chan → t.channels.lookup key = some chan)
    (senders : ∀ key chan, s.channels.lookup key = some chan → .call id ∈ (s.channel chan).senders →
      .call id ∈ (t.channel chan).senders) : CallInv shard t id call := by
  cases call with
  | sending key msg chan => exact ⟨writer _ inv.1, lookup _ _ inv.2⟩
  | cloning key chan => exact ⟨writer _ inv.1, lookup _ _ inv.2⟩
  | subscribing key chan => exact ⟨lookup _ _ inv.1, senders _ _ inv.1 inv.2⟩
  | publish => trivial
  | published => trivial
  | subscribe => trivial
  | subscribed => trivial

theorem Subscribed.frame {id : Nat} {rx : Receiver Key Msg} (subscribed : Subscribed s id rx)
    (lookup : s.channels.lookup rx.key = some rx.chan → t.channels.lookup rx.key = some rx.chan)
    (counted : id ∈ (s.channel rx.chan).receivers → id ∈ (t.channel rx.chan).receivers)
    (sent : (t.channel rx.chan).sent = (s.channel rx.chan).sent)
    (published : t.published rx.key = s.published rx.key) : Subscribed t id rx where
  stored := lookup subscribed.stored
  counted := counted subscribed.counted
  since := by rw [published]; exact subscribed.since
  same := by rw [published, sent]; exact subscribed.same
  explained := by rw [sent]; exact subscribed.explained
  pending := by rw [sent]; exact subscribed.pending

end Frames

section Insert

variable {shard : Key → Nat} {s : State Key Msg}

theorem or_insert_lookup (s : State Key Msg) (key : Key) :
    (s.orInsert key).channels.lookup key = some (s.chanOf key) := by
  cases found : s.channels.lookup key with
  | some chan => simp [State.orInsert, State.chanOf, found]
  | none => simpa [State.orInsert, State.chanOf, found] using lookup_snoc_self _ _ s.next found

/-- Nothing that is there changes when a type gets its channel. -/
theorem inv_or_insert (inv : Inv shard s) (key : Key) : Inv shard (s.orInsert key) := by
  cases found : s.channels.lookup key with
  | some chan => simpa [State.orInsert, found] using inv
  | none =>
      have old : ∀ other chan, s.channels.lookup other = some chan →
          (s.channels ++ [(key, s.next)]).lookup other = some chan := by
        intro other chan stored
        rw [lookup_snoc_other _ _ _ _ (by rintro rfl; rw [found] at stored; cases stored)]
        exact stored
      have kept : ∀ other chan, s.channels.lookup other = some chan →
          (s.orInsert key).channel chan = s.channel chan := by
        intro other chan stored
        have below := inv.fresh other chan stored
        simp only [State.orInsert, found, State.setChannel]
        exact Function.update_of_ne (by omega) _ _
      have either : ∀ other chan, (s.channels ++ [(key, s.next)]).lookup other = some chan →
          s.channels.lookup other = some chan ∨ other = key ∧ chan = s.next := by
        intro other chan stored
        by_cases same : other = key
        · rw [same, lookup_snoc_self _ _ _ found] at stored
          exact .inr ⟨same, (Option.some.inj stored).symm⟩
        · rw [lookup_snoc_other _ _ _ _ same] at stored
          exact .inl stored
      have unfolded : (s.orInsert key).channels = s.channels ++ [(key, s.next)] ∧
          (s.orInsert key).next = s.next + 1 ∧ (s.orInsert key).channel s.next = ⟨[], [], [.map]⟩ := by
        simp [State.orInsert, found, State.setChannel]
      have others : (s.orInsert key).calls = s.calls ∧ (s.orInsert key).receivers = s.receivers ∧
          (s.orInsert key).writer = s.writer ∧ (s.orInsert key).published = s.published := by
        simp [State.orInsert, found, State.setChannel]
      obtain ⟨channels, next, new⟩ := unfolded
      obtain ⟨calls, receivers, writer, published⟩ := others
      refine ⟨?_, ?_, ?_, ?_, ?_⟩
      · intro other chan stored
        rw [channels] at stored
        rw [next]
        rcases either other chan stored with before | ⟨-, rfl⟩
        · exact Nat.lt_succ_of_lt (inv.fresh other chan before)
        · omega
      · intro first second chan one two
        rw [channels] at one two
        rcases either first chan one with before | ⟨rfl, rfl⟩
        · rcases either second chan two with earlier | ⟨rfl, rfl⟩
          · exact inv.apart first second chan before earlier
          · exact absurd (inv.fresh first _ before) (Nat.lt_irrefl _)
        · rcases either second _ two with earlier | ⟨rfl, -⟩
          · exact absurd (inv.fresh second _ earlier) (Nat.lt_irrefl _)
          · rfl
      · intro other chan stored
        rw [channels] at stored
        rcases either other chan stored with before | ⟨-, rfl⟩
        · rw [kept other chan before]
          exact inv.held other chan before
        · rw [new]
          exact List.mem_singleton_self _
      · intro id call running
        rw [calls] at running
        apply (inv.calls id call running).frame
        · exact fun index held => by rw [writer]; exact held
        · exact fun other chan stored => by rw [channels]; exact old other chan stored
        · intro other chan stored member
          rw [kept other chan stored]
          exact member
      · intro id rx alive
        rw [receivers] at alive
        have subscribed := inv.receivers id rx alive
        have untouched := kept _ _ subscribed.stored
        apply subscribed.frame
        · exact fun stored => by rw [channels]; exact old _ _ stored
        · rw [untouched]
          exact fun member => member
        · rw [untouched]
        · rw [published]

end Insert

section Moves

variable {shard : Key → Nat} {s : State Key Msg}

theorem inv_cleaners (inv : Inv shard s) (cleaners : Nat → Cleaner Key) (readers : Nat → List Nat) :
    Inv shard { s with cleaners, readers } where
  fresh := inv.fresh
  apart := inv.apart
  held := inv.held
  calls id call running :=
    (inv.calls id call running).frame (fun _ held => held) (fun _ _ stored => stored)
      (fun _ _ _ member => member)
  receivers id rx alive :=
    (inv.receivers id rx alive).frame (fun stored => stored) (fun member => member) rfl rfl

theorem inv_call (inv : Inv shard s) (id : Nat) (call : Call Key Msg) (index : Nat) (holder : Option Nat)
    (others : ∀ other, other ≠ id → s.writer index ≠ some other)
    (own : CallInv shard ((s.setWriter index holder).setCall id call) id call) :
    Inv shard ((s.setWriter index holder).setCall id call) where
  fresh := inv.fresh
  apart := inv.apart
  held := inv.held
  calls := by
    intro other running found
    by_cases here : other = id
    · subst here
      simp only [State.setCall, Function.update_self, Option.some.injEq] at found
      exact found ▸ own
    · simp only [State.setCall, State.setWriter, Function.update_of_ne here] at found
      apply (inv.calls other running found).frame
      · intro place held
        have apart : place ≠ index := by
          rintro rfl
          exact others other here held
        simpa only [State.setCall, State.setWriter, Function.update_of_ne apart] using held
      · exact fun _ _ stored => stored
      · exact fun _ _ _ member => member
  receivers id rx alive :=
    (inv.receivers id rx alive).frame (fun stored => stored) (fun member => member) rfl rfl

/-- A call that needs no lock. -/
theorem inv_set_call (inv : Inv shard s) (id : Nat) (call : Call Key Msg)
    (own : CallInv shard (s.setCall id call) id call) : Inv shard (s.setCall id call) where
  fresh := inv.fresh
  apart := inv.apart
  held := inv.held
  calls := by
    intro other running found
    by_cases here : other = id
    · subst here
      simp only [State.setCall, Function.update_self, Option.some.injEq] at found
      exact found ▸ own
    · simp only [State.setCall, Function.update_of_ne here] at found
      exact (inv.calls other running found).frame (fun _ held => held) (fun _ _ stored => stored)
        (fun _ _ _ member => member)
  receivers id rx alive :=
    (inv.receivers id rx alive).frame (fun stored => stored) (fun member => member) rfl rfl

/-- A channel that keeps its messages, the map's sender, the clones and the receivers there are. -/
theorem inv_set_channel (inv : Inv shard s) (chan : Nat) (channel : Channel Msg)
    (sent : channel.sent = (s.channel chan).sent)
    (held : .map ∈ (s.channel chan).senders → .map ∈ channel.senders)
    (clones : ∀ id key, s.calls id = some (.subscribing key chan) →
      .call id ∈ (s.channel chan).senders → .call id ∈ channel.senders)
    (counted : ∀ id rx, s.receivers id = some rx → rx.chan = chan → id ∈ channel.receivers) :
    Inv shard (s.setChannel chan channel) where
  fresh := inv.fresh
  apart := inv.apart
  held := by
    intro key other stored
    have before := inv.held key other stored
    by_cases here : other = chan
    · subst here
      simpa only [State.setChannel, Function.update_self] using held before
    · simpa only [State.setChannel, Function.update_of_ne here] using before
  calls := by
    intro id call running
    have own := inv.calls id call running
    cases call with
    | subscribing key other =>
        refine ⟨own.1, ?_⟩
        by_cases here : other = chan
        · subst here
          simpa only [State.setChannel, Function.update_self] using clones id key running own.2
        · simpa only [State.setChannel, Function.update_of_ne here] using own.2
    | sending => exact own
    | cloning => exact own
    | publish => trivial
    | published => trivial
    | subscribe => trivial
    | subscribed => trivial
  receivers := by
    intro id rx alive
    apply (inv.receivers id rx alive).frame
    · exact fun stored => stored
    · intro member
      by_cases here : rx.chan = chan
      · simp only [State.setChannel, here, Function.update_self]
        exact counted id rx alive here
      · simpa only [State.setChannel, Function.update_of_ne here] using member
    · by_cases here : rx.chan = chan
      · simp only [State.setChannel, here, Function.update_self, sent]
      · simp only [State.setChannel, Function.update_of_ne here]
    · rfl

theorem inv_set_receiver (inv : Inv shard s) (id : Nat) (receiver : Option (Receiver Key Msg))
    (own : ∀ rx, receiver = some rx → Subscribed s id rx) :
    Inv shard { s with receivers := Function.update s.receivers id receiver } where
  fresh := inv.fresh
  apart := inv.apart
  held := inv.held
  calls id call running :=
    (inv.calls id call running).frame (fun _ held => held) (fun _ _ stored => stored)
      (fun _ _ _ member => member)
  receivers := by
    intro other rx alive
    by_cases here : other = id
    · subst here
      simp only [Function.update_self] at alive
      exact (own rx alive).frame (fun stored => stored) (fun member => member) rfl rfl
    · simp only [Function.update_of_ne here] at alive
      exact (inv.receivers other rx alive).frame (fun stored => stored) (fun member => member) rfl rfl

end Moves

section Steps

variable {shard : Key → Nat} {s : State Key Msg}

omit [DecidableEq Key] in
theorem free_iff (s : State Key Msg) (index : Nat) :
    s.free index = true ↔ s.writer index = none ∧ s.readers index = [] := by
  simp [State.free]

theorem or_insert_writer (s : State Key Msg) (key : Key) : (s.orInsert key).writer = s.writer := by
  simp only [State.orInsert]
  split <;> rfl

theorem entry_inv (inv : Inv shard s) (id : Nat) : Inv shard (s.entry shard id) := by
  have locks : ∀ key call, s.free (shard key) = true →
      (CallInv shard (((s.orInsert key).setWriter (shard key) (some id)).setCall id call) id call) →
      Inv shard (((s.orInsert key).setWriter (shard key) (some id)).setCall id call) := by
    intro key call free own
    apply inv_call (inv_or_insert inv key) id call (shard key) (some id) ?_ own
    intro other _ held
    rw [or_insert_writer, ((free_iff s _).mp free).1] at held
    cases held
  rw [State.entry]
  split
  · split
    · rename_i free
      apply locks _ _ free
      exact ⟨Function.update_self .., or_insert_lookup s _⟩
    · exact inv
  · split
    · rename_i free
      apply locks _ _ free
      exact ⟨Function.update_self .., or_insert_lookup s _⟩
    · exact inv
  · exact inv

theorem clone_inv (inv : Inv shard s) (id : Nat) : Inv shard (s.clone shard id) := by
  rw [State.clone]
  split
  · rename_i key chan running
    obtain ⟨lock, stored⟩ := inv.calls id _ running
    have cloned := inv_set_channel inv chan
      { s.channel chan with senders := (s.channel chan).senders ++ [.call id] } rfl
      (fun held => List.mem_append_left _ held) (fun _ _ _ member => List.mem_append_left _ member)
      (fun other rx alive here => here ▸ (inv.receivers other rx alive).counted)
    apply inv_call cloned id _ (shard key) none
    · intro other apart held
      exact apart (Option.some.inj (held.symm.trans lock))
    · refine ⟨stored, ?_⟩
      simp [State.setCall, State.setWriter, State.setChannel]
  · exact inv

theorem subscribe_inv (inv : Inv shard s) (id : Nat) : Inv shard (s.subscribe id) := by
  rw [State.subscribe]
  split
  · rename_i key chan running
    obtain ⟨stored, clone⟩ := inv.calls id _ running
    have settled := inv_set_call inv id .subscribed trivial
    have swapped := inv_set_channel settled chan
      { s.channel chan with
        receivers := (s.channel chan).receivers ++ [id]
        senders := (s.channel chan).senders.erase (.call id) } rfl
      (fun held => (List.mem_erase_of_ne (by simp)).mpr held)
      (by
        intro other name found member
        have apart : other ≠ id := by
          rintro rfl
          simp [State.setCall] at found
        exact (List.mem_erase_of_ne (by simpa using apart)).mpr member)
      (fun other rx alive here => List.mem_append_left _ (here ▸ (inv.receivers other rx alive).counted))
    apply inv_set_receiver swapped id
    rintro rx new
    cases new
    exact {
      stored := stored
      counted := by simp [State.setChannel]
      since := Nat.le_refl _
      same := by simp [State.setChannel, State.setCall]
      explained := rfl
      pending := by simp [State.setChannel] }
  · exact inv

theorem drop_inv (inv : Inv shard s) (id : Nat) : Inv shard (s.drop id) := by
  rw [State.drop]
  split
  · rename_i receiver alive
    have gone := inv_set_receiver inv id none (fun rx none => by cases none)
    apply inv_set_channel gone receiver.chan
      { s.channel receiver.chan with receivers := (s.channel receiver.chan).receivers.erase id } rfl
      (fun held => held) (fun _ _ _ member => member)
    intro other rx left here
    have apart : other ≠ id := by
      rintro rfl
      simp at left
    simp only [Function.update_of_ne apart] at left
    exact (List.mem_erase_of_ne apart).mpr (here ▸ (inv.receivers other rx left).counted)
  · exact inv

/-- A poll of a channel that has a sender tells a message, a count of skipped ones, or nothing. -/
theorem poll_subscribed {id : Nat} {rx : Receiver Key Msg} (subscribed : Subscribed s id rx)
    (held : .map ∈ (s.channel rx.chan).senders) :
    Subscribed s id (State.poll (s.channel rx.chan) rx) := by
  have alive : (s.channel rx.chan).senders ≠ [] := List.ne_nil_of_mem held
  simp only [State.poll]
  split
  · rw [if_neg alive]
    exact subscribed
  · rename_i msg next
    have within := (List.getElem?_eq_some_iff.mp next).1
    by_cases behind : rx.next < (s.channel rx.chan).sent.length - DEFAULT_CHANNEL_SIZE
    · rw [if_pos behind]
      exact { subscribed with
        explained := ⟨rx.next, (Nat.add_sub_of_le behind.le).symm, Nat.sub_pos_of_lt behind,
          subscribed.explained⟩
        pending := Nat.sub_le .. }
    · rw [if_neg behind]
      exact { subscribed with
        explained := ⟨rx.next, rfl, next, subscribed.explained⟩
        pending := within }

theorem recv_inv (inv : Inv shard s) (id : Nat) : Inv shard (s.recv id) := by
  rw [State.recv]
  split
  · rename_i receiver alive
    have subscribed := inv.receivers id receiver alive
    apply inv_set_receiver inv id
    rintro rx polled
    cases polled
    exact poll_subscribed subscribed (inv.held _ _ subscribed.stored)
  · exact inv

/-- What a published message changes: the log of its type, and the channel's when someone receives. -/
theorem inv_published (inv : Inv shard s) (key : Key) (msg : Msg) (chan : Nat)
    (stored : s.channels.lookup key = some chan) (channel : Channel Msg)
    (sent : (s.channel chan).receivers ≠ [] → channel.sent = (s.channel chan).sent ++ [msg])
    (receivers : channel.receivers = (s.channel chan).receivers)
    (senders : channel.senders = (s.channel chan).senders) :
    Inv shard { s.setChannel chan channel with
      published := Function.update s.published key (s.published key ++ [msg]) } where
  fresh := inv.fresh
  apart := inv.apart
  held := by
    intro other place found
    have before := inv.held other place found
    by_cases here : place = chan
    · subst here
      simpa only [State.setChannel, Function.update_self, senders] using before
    · simpa only [State.setChannel, Function.update_of_ne here] using before
  calls := by
    intro id call running
    apply (inv.calls id call running).frame
    · exact fun _ held => held
    · exact fun _ _ found => found
    · intro other place found member
      by_cases here : place = chan
      · subst here
        simpa only [State.setChannel, Function.update_self, senders] using member
      · simpa only [State.setChannel, Function.update_of_ne here] using member
  receivers := by
    intro id rx alive
    have subscribed := inv.receivers id rx alive
    by_cases here : rx.key = key
    · have place : rx.chan = chan := by
        have found := subscribed.stored
        rw [here, stored] at found
        exact (Option.some.inj found).symm
      have some : (s.channel chan).receivers ≠ [] := by
        have counted := subscribed.counted
        rw [place] at counted
        exact List.ne_nil_of_mem counted
      have now := sent some
      have bound := subscribed.explained.start_le.trans subscribed.pending
      rw [place] at bound
      exact {
        stored := subscribed.stored
        counted := by
          simpa only [State.setChannel, place, Function.update_self, receivers] using subscribed.counted
        since := by
          have before := subscribed.since
          simp only [here, Function.update_self, List.length_append] at before ⊢
          omega
        same := by
          have before := subscribed.same
          have since := subscribed.since
          rw [here] at before since
          rw [place] at before
          simp only [State.setChannel, here, place, Function.update_self, now]
          rw [List.drop_append_of_le_length since, List.drop_append_of_le_length bound, before]
        explained := by
          have before := subscribed.explained
          rw [place] at before
          simpa only [State.setChannel, place, Function.update_self, now] using before.append [msg]
        pending := by
          have before := subscribed.pending
          rw [place] at before
          simp only [State.setChannel, place, Function.update_self, now, List.length_append]
          omega }
    · have elsewhere : rx.chan ≠ chan := by
        intro same
        exact here (inv.apart rx.key key chan (same ▸ subscribed.stored) stored)
      apply subscribed.frame
      · exact fun found => found
      · intro member
        simpa only [State.setChannel, Function.update_of_ne elsewhere] using member
      · simp only [State.setChannel, Function.update_of_ne elsewhere]
      · simp only [Function.update_of_ne here]

theorem send_inv (inv : Inv shard s) (id : Nat) : Inv shard (s.send shard id) := by
  rw [State.send]
  split
  · rename_i key msg chan running
    obtain ⟨lock, stored⟩ := inv.calls id _ running
    have alone : ∀ other, other ≠ id → s.writer (shard key) ≠ some other := by
      intro other apart held
      exact apart (Option.some.inj (held.symm.trans lock))
    simp only
    split
    · rename_i none
      have published := inv_published inv key msg chan stored (s.channel chan)
        (fun some => absurd none some) rfl rfl
      have same : s.setChannel chan (s.channel chan) = s := by
        simp [State.setChannel]
      rw [same] at published
      exact inv_call published id (.published .none) (shard key) .none alone trivial
    · rename_i some
      have published := inv_published inv key msg chan stored
        { s.channel chan with sent := (s.channel chan).sent ++ [msg] } (fun _ => rfl) rfl rfl
      exact inv_call published id (.published (.some (s.channel chan).receivers.length)) (shard key) .none
        alone trivial
  · exact inv

/-- The stored sender goes, and with it a channel that nobody knows. -/
theorem inv_removed (inv : Inv shard s) (key : Key) (chan : Nat) (channel : Channel Msg)
    (found : s.channels.lookup key = some chan) (unlocked : s.writer (shard key) = none)
    (unused : (s.channel chan).receivers = []) (only : (s.channel chan).senders = [.map]) :
    Inv shard { s.setChannel chan channel with
      channels := s.channels.filter fun stored => stored.1 ≠ key } := by
  have lookup : ∀ other place, other ≠ key → s.channels.lookup other = some place →
      (s.channels.filter fun stored => stored.1 ≠ key).lookup other = some place :=
    fun other place apart stored => (lookup_without_iff _ _ _ _).mpr ⟨apart, stored⟩
  have kept : ∀ other place, other ≠ key → s.channels.lookup other = some place →
      (s.setChannel chan channel).channel place = s.channel place := by
    intro other place apart stored
    have elsewhere : place ≠ chan := by
      rintro rfl
      exact apart (inv.apart other key place stored found)
    simp only [State.setChannel, Function.update_of_ne elsewhere]
  refine ⟨?_, ?_, ?_, ?_, ?_⟩
  · intro other place stored
    exact inv.fresh other place ((lookup_without_iff _ _ _ _).mp stored).2
  · intro first second place one two
    exact inv.apart first second place ((lookup_without_iff _ _ _ _).mp one).2
      ((lookup_without_iff _ _ _ _).mp two).2
  · intro other place stored
    obtain ⟨apart, before⟩ := (lookup_without_iff _ _ _ _).mp stored
    rw [kept other place apart before]
    exact inv.held other place before
  · intro id call running
    have own := inv.calls id call running
    have locked : ∀ name, s.writer (shard name) = some id → name ≠ key := by
      rintro name held rfl
      rw [unlocked] at held
      cases held
    cases call with
    | sending name msg place => exact ⟨own.1, lookup _ _ (locked name own.1) own.2⟩
    | cloning name place => exact ⟨own.1, lookup _ _ (locked name own.1) own.2⟩
    | subscribing name place =>
        obtain ⟨stored, clone⟩ := own
        have apart : name ≠ key := by
          rintro rfl
          rw [stored] at found
          cases found
          rw [only] at clone
          simp at clone
        refine ⟨lookup _ _ apart stored, ?_⟩
        rw [kept name place apart stored]
        exact clone
    | publish => trivial
    | published => trivial
    | subscribe => trivial
    | subscribed => trivial
  · intro id rx alive
    have subscribed := inv.receivers id rx alive
    have apart : rx.key ≠ key := by
      intro same
      have counted := subscribed.counted
      have stored := subscribed.stored
      rw [same, found] at stored
      rw [← Option.some.inj stored, unused] at counted
      cases counted
    have untouched := kept _ _ apart subscribed.stored
    apply subscribed.frame
    · exact fun stored => lookup _ _ apart stored
    · rw [untouched]
      exact fun member => member
    · rw [untouched]
    · rfl

theorem remove_inv (inv : Inv shard s) (cleaner : Nat) (harmless : Harmless shard s (.remove cleaner)) :
    Inv shard (s.remove shard cleaner) := by
  rw [State.remove]
  split
  · exact inv_cleaners inv _ _
  · rename_i key toRemove phase
    split
    · rename_i free
      cases found : s.channels.lookup key with
      | none => exact inv_cleaners inv _ _
      | some chan =>
          obtain ⟨unused, only⟩ := harmless key toRemove chan phase free found
          have unlocked := ((free_iff s _).mp free).1
          exact inv_cleaners (inv_removed inv key chan _ found unlocked unused only) _ _
    · exact inv
  · exact inv

theorem step_inv (shards : Nat) (inv : Inv shard s) (action : Action Key Msg)
    (harmless : Harmless shard s action) : Inv shard (s.step shard shards action) := by
  cases action with
  | publish id key msg =>
      simp only [State.step]
      split
      · exact inv_set_call inv id _ trivial
      · exact inv
  | subTypeChannel id key =>
      simp only [State.step]
      split
      · exact inv_set_call inv id _ trivial
      · exact inv
  | entry id => exact entry_inv inv id
  | send id => exact send_inv inv id
  | clone id => exact clone_inv inv id
  | subscribe id => exact subscribe_inv inv id
  | drop id => exact drop_inv inv id
  | recv id => exact recv_inv inv id
  | wake cleaner =>
      simp only [State.step]
      split
      · exact inv_cleaners inv _ _
      · exact inv
  | enterShard cleaner =>
      simp only [State.step, State.enterShard]
      split
      · split
        · split
          · exact inv_cleaners inv _ _
          · exact inv
        · exact inv_cleaners inv _ _
      · exact inv
  | receiverCount cleaner key =>
      simp only [State.step, State.receiverCount]
      split
      · split
        · exact inv_cleaners inv _ _
        · exact inv
      · exact inv
  | leaveShard cleaner =>
      simp only [State.step, State.leaveShard]
      split
      · exact inv_cleaners inv _ _
      · exact inv
  | remove cleaner => exact remove_inv inv cleaner harmless

theorem initial_inv : Inv shard (State.initial : State Key Msg) where
  fresh _ _ stored := by cases stored
  apart _ _ _ stored := by cases stored
  held _ _ stored := by cases stored
  calls _ _ running := by cases running
  receivers _ _ alive := by cases alive

end Steps

end Pigs.Bus.Broadcast
