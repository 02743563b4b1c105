import Pigs.Bus.Broadcast.Orphaned

/-! What a receiver is told whatever the cleanup removes: the messages of its channel in their order, how
many of them it has missed, and an end that is final. -/

namespace Pigs.Bus.Broadcast

open Pigs.Lib

variable {Key Msg : Type}

/-- The messages among the events, the earliest first. -/
def messages : List (Event Msg) → List Msg
  | [] => []
  | .message msg :: earlier => messages earlier ++ [msg]
  | .lagged _ :: earlier => messages earlier
  | .closed :: earlier => messages earlier

/-- How many messages the receiver has been told it missed. -/
def missed : List (Event Msg) → Nat
  | [] => 0
  | .message _ :: earlier => missed earlier
  | .lagged count :: earlier => missed earlier + count
  | .closed :: earlier => missed earlier

/-- A channel takes more messages only while somebody has a sender of it. -/
structure Grown (before after : Channel Msg) : Prop where
  more : ∃ more, after.sent = before.sent ++ more
  final : before.senders = [] → after.sent = before.sent ∧ after.senders = []

/-- The events are what the channel has sent since the subscription, and behind them only its end. -/
def Heard (channel : Channel Msg) (rx : Receiver Key Msg) : Prop :=
  ∃ closed told, rx.events = List.replicate closed .closed ++ told ∧
    Explained channel.sent rx.start told rx.next ∧ rx.next ≤ channel.sent.length ∧
    (0 < closed → channel.senders = [] ∧ rx.next = channel.sent.length)

section Events

variable {sent : List Msg} {start next : Nat} {events : List (Event Msg)}

theorem Explained.messages_sublist (explained : Explained sent start events next) :
    (messages events).Sublist ((sent.take next).drop start) := by
  induction events generalizing next with
  | nil => exact List.nil_sublist _
  | cons event events ih =>
      cases event with
      | message msg =>
          obtain ⟨position, rfl, told, earlier⟩ := explained
          have started := earlier.start_le
          have within := (List.getElem?_eq_some_iff.mp told).1
          have behind : start ≤ (sent.take position).length := by
            rw [List.length_take]
            omega
          rw [messages, List.take_add_one, told, Option.toList_some, List.drop_append_of_le_length behind]
          exact (ih earlier).append_right [msg]
      | lagged count =>
          obtain ⟨position, rfl, -, earlier⟩ := explained
          have front : (sent.take position).Sublist (sent.take (position + count)) :=
            List.take_sublist_take_left (Nat.le_add_right position count)
          rw [messages]
          exact (ih earlier).trans (front.drop start)
      | closed => exact explained.elim

theorem Explained.accounts (explained : Explained sent start events next) :
    start + (messages events).length + missed events = next := by
  induction events generalizing next with
  | nil =>
      rw [Explained] at explained
      simp [messages, missed, explained]
  | cons event events ih =>
      cases event with
      | message msg =>
          obtain ⟨position, rfl, -, earlier⟩ := explained
          have before := ih earlier
          simp only [messages, missed, List.length_append, List.length_singleton]
          omega
      | lagged count =>
          obtain ⟨position, rfl, -, earlier⟩ := explained
          have before := ih earlier
          simp only [messages, missed]
          omega
      | closed => exact explained.elim

theorem Explained.closed_not_mem (explained : Explained sent start events next) : .closed ∉ events := by
  induction events generalizing next with
  | nil => exact List.not_mem_nil
  | cons event events ih =>
      cases event with
      | message msg =>
          obtain ⟨position, -, -, earlier⟩ := explained
          simpa using ih earlier
      | lagged count =>
          obtain ⟨position, -, -, earlier⟩ := explained
          simpa using ih earlier
      | closed => exact explained.elim

/-- A receiver that has missed nothing has been told everything. -/
theorem Explained.messages_eq (explained : Explained sent start events next) (within : next ≤ sent.length)
    (none : missed events = 0) : messages events = (sent.take next).drop start := by
  apply explained.messages_sublist.eq_of_length
  have total := explained.accounts
  rw [List.length_drop, List.length_take]
  omega

end Events

section Channels

variable {before middle after : Channel Msg}

theorem Grown.refl (channel : Channel Msg) : Grown channel channel where
  more := ⟨[], (List.append_nil _).symm⟩
  final empty := ⟨rfl, empty⟩

theorem Grown.trans (first : Grown before middle) (second : Grown middle after) : Grown before after where
  more := by
    obtain ⟨front, one⟩ := first.more
    obtain ⟨back, two⟩ := second.more
    exact ⟨front ++ back, by rw [two, one, List.append_assoc]⟩
  final empty := by
    have closed := first.final empty
    have later := second.final closed.2
    exact ⟨later.1.trans closed.1, later.2⟩

theorem Grown.same (sent : after.sent = before.sent) (senders : before.senders = [] → after.senders = []) :
    Grown before after where
  more := ⟨[], by rw [sent, List.append_nil]⟩
  final empty := ⟨sent, senders empty⟩

theorem Grown.alive {holder : Holder} (held : holder ∈ before.senders)
    (more : ∃ more, after.sent = before.sent ++ more) : Grown before after where
  more := more
  final empty := by
    rw [empty] at held
    cases held

theorem Heard.grown {rx : Receiver Key Msg} (heard : Heard before rx) (grown : Grown before after) :
    Heard after rx := by
  obtain ⟨closed, told, events, explained, pending, last⟩ := heard
  obtain ⟨more, sent⟩ := grown.more
  refine ⟨closed, told, events, ?_, ?_, ?_⟩
  · rw [sent]
    exact explained.append more
  · rw [sent, List.length_append]
    omega
  · intro some
    have final := grown.final (last some).1
    exact ⟨final.2, by rw [final.1, (last some).2]⟩

/-- One poll tells the next message, the count of those that are gone, or the end. -/
theorem Heard.poll {channel : Channel Msg} {rx : Receiver Key Msg} (heard : Heard channel rx) :
    Heard channel (State.poll channel rx) := by
  obtain ⟨closed, told, events, explained, pending, last⟩ := heard
  rw [State.poll]
  cases next : channel.sent[rx.next]? with
  | none =>
      have drained : rx.next = channel.sent.length :=
        Nat.le_antisymm pending (List.getElem?_eq_none_iff.mp next)
      by_cases empty : channel.senders = []
      · simp only [if_pos empty]
        refine ⟨closed + 1, told, ?_, explained, pending, fun _ => ⟨empty, drained⟩⟩
        rw [events, List.replicate_succ, List.cons_append]
      · simp only [if_neg empty]
        exact ⟨closed, told, events, explained, pending, last⟩
  | some msg =>
      have within := (List.getElem?_eq_some_iff.mp next).1
      have unclosed : closed = 0 := by
        by_contra some
        have drained := (last (Nat.pos_of_ne_zero some)).2
        omega
      subst unclosed
      rw [List.replicate_zero, List.nil_append] at events
      by_cases behind : rx.next < channel.sent.length - DEFAULT_CHANNEL_SIZE
      · simp only [if_pos behind]
        refine ⟨0, .lagged (channel.sent.length - DEFAULT_CHANNEL_SIZE - rx.next) :: told, ?_, ?_,
          Nat.sub_le .., fun some => absurd some (Nat.lt_irrefl 0)⟩
        · rw [List.replicate_zero, List.nil_append, events]
        · exact ⟨rx.next, (Nat.add_sub_of_le behind.le).symm, Nat.sub_pos_of_lt behind, explained⟩
      · simp only [if_neg behind]
        refine ⟨0, .message msg :: told, ?_, ?_, within, fun some => absurd some (Nat.lt_irrefl 0)⟩
        · rw [List.replicate_zero, List.nil_append, events]
        · exact ⟨rx.next, rfl, next, explained⟩

end Channels

variable [DecidableEq Key]

/-- A channel that the map, a call or a receiver knows under its type. -/
inductive Named (s : State Key Msg) (key : Key) (chan : Nat) : Prop where
  | stored (found : s.channels.lookup key = some chan)
  | subscribing (id : Nat) (running : s.calls id = some (.subscribing key chan))
  | received (id : Nat) (rx : Receiver Key Msg) (alive : s.receivers id = some rx) (type : rx.key = key)
      (on : rx.chan = chan)

/-- The channel is of this type alone, and what it has sent was published for it. -/
structure Own (s : State Key Msg) (key : Key) (chan : Nat) : Prop where
  fresh : chan < s.next
  only : ∀ other, s.channels.lookup other = some chan → other = key
  sent : (s.channel chan).sent.Sublist (s.published key)

/-- A call that has an entry of the map has its shard's lock. -/
def Locking (shard : Key → Nat) (s : State Key Msg) (id : Nat) : Call Key Msg → Prop
  | .sending key _ chan => s.writer (shard key) = some id ∧ s.channels.lookup key = some chan
  | .cloning key chan => s.writer (shard key) = some id ∧ s.channels.lookup key = some chan
  | _ => True

structure Audible (shard : Key → Nat) (s : State Key Msg) : Prop where
  held : ∀ key chan, s.channels.lookup key = some chan → .map ∈ (s.channel chan).senders
  locking : ∀ id call, s.calls id = some call → Locking shard s id call
  cloned : ∀ id key chan, s.calls id = some (.subscribing key chan) →
    .call id ∈ (s.channel chan).senders
  named : ∀ key chan, Named s key chan → Own s key chan
  hears : ∀ id rx, s.receivers id = some rx → Heard (s.channel rx.chan) rx
  counted : ∀ id rx, s.receivers id = some rx → id ∈ (s.channel rx.chan).receivers

/-- A step on the part of one number, which is a call or a receiver, that leaves the map as it is. -/
structure Turn (shard : Key → Nat) (s t : State Key Msg) (id : Nat) : Prop where
  channels : t.channels = s.channels
  next : t.next = s.next
  grown : ∀ chan, Grown (s.channel chan) (t.channel chan)
  held : ∀ chan, .map ∈ (s.channel chan).senders → .map ∈ (t.channel chan).senders
  cloned : ∀ chan other, other ≠ id → .call other ∈ (s.channel chan).senders →
    .call other ∈ (t.channel chan).senders
  counted : ∀ chan other, other ≠ id → other ∈ (s.channel chan).receivers →
    other ∈ (t.channel chan).receivers
  sent : ∀ key chan, Own s key chan → (t.channel chan).sent.Sublist (t.published key)
  locks : ∀ index other, other ≠ id → s.writer index = some other → t.writer index = some other
  calls : ∀ other, other ≠ id → t.calls other = s.calls other
  receivers : ∀ other, other ≠ id → t.receivers other = s.receivers other
  call : ∀ call, t.calls id = some call → Locking shard t id call ∧
    ∀ key chan, call = .subscribing key chan → Named s key chan ∧ .call id ∈ (t.channel chan).senders
  receiver : ∀ rx, t.receivers id = some rx →
    Named s rx.key rx.chan ∧ Heard (t.channel rx.chan) rx ∧ id ∈ (t.channel rx.chan).receivers

section Turns

variable {shard : Key → Nat} {s t : State Key Msg} {id : Nat}

theorem Locking.frame {call : Call Key Msg} (locking : Locking shard s id call)
    (locks : ∀ index, s.writer index = some id → t.writer index = some id)
    (lookup : ∀ key chan, s.channels.lookup key = some chan → t.channels.lookup key = some chan) :
    Locking shard t id call := by
  cases call with
  | sending => exact ⟨locks _ locking.1, lookup _ _ locking.2⟩
  | cloning => exact ⟨locks _ locking.1, lookup _ _ locking.2⟩
  | publish => trivial
  | published => trivial
  | subscribe => trivial
  | subscribing => trivial
  | subscribed => trivial

/-- What was known stays known, and nothing else becomes so. -/
theorem Turn.named (turn : Turn shard s t id) (key : Key) (chan : Nat) (named : Named t key chan) :
    Named s key chan := by
  cases named with
  | stored found => exact .stored (by rwa [turn.channels] at found)
  | subscribing other running =>
      by_cases same : other = id
      · subst same
        exact ((turn.call _ running).2 key chan rfl).1
      · rw [turn.calls other same] at running
        exact .subscribing other running
  | received other rx alive type on =>
      by_cases same : other = id
      · subst same
        subst type on
        exact (turn.receiver rx alive).1
      · rw [turn.receivers other same] at alive
        exact .received other rx alive type on

theorem Audible.turn (audible : Audible shard s) (turn : Turn shard s t id) : Audible shard t where
  held key chan found := by
    rw [turn.channels] at found
    exact turn.held chan (audible.held key chan found)
  locking other call running := by
    by_cases same : other = id
    · subst same
      exact (turn.call call running).1
    · rw [turn.calls other same] at running
      apply (audible.locking other call running).frame
      · exact fun index held => turn.locks index other same held
      · exact fun key chan found => by rw [turn.channels]; exact found
  cloned other key chan running := by
    by_cases same : other = id
    · subst same
      exact ((turn.call _ running).2 key chan rfl).2
    · rw [turn.calls other same] at running
      exact turn.cloned chan other same (audible.cloned other key chan running)
  named key chan named := by
    have own := audible.named key chan (turn.named key chan named)
    constructor
    · rw [turn.next]
      exact own.fresh
    · rw [turn.channels]
      exact own.only
    · exact turn.sent key chan own
  hears other rx alive := by
    by_cases same : other = id
    · subst same
      exact (turn.receiver rx alive).2.1
    · rw [turn.receivers other same] at alive
      exact (audible.hears other rx alive).grown (turn.grown rx.chan)
  counted other rx alive := by
    by_cases same : other = id
    · subst same
      exact (turn.receiver rx alive).2.2
    · rw [turn.receivers other same] at alive
      exact turn.counted rx.chan other same (audible.counted other rx alive)

theorem Audible.receiver (audible : Audible shard s) (rx : Receiver Key Msg)
    (alive : s.receivers id = some rx) :
    Named s rx.key rx.chan ∧ Heard (s.channel rx.chan) rx ∧ id ∈ (s.channel rx.chan).receivers :=
  ⟨.received id rx alive rfl rfl, audible.hears id rx alive, audible.counted id rx alive⟩

theorem Audible.call (audible : Audible shard s) (call : Call Key Msg) (running : s.calls id = some call) :
    Locking shard s id call ∧
      ∀ key chan, call = .subscribing key chan →
        Named s key chan ∧ .call id ∈ (s.channel chan).senders := by
  refine ⟨audible.locking id call running, ?_⟩
  intro key chan same
  subst same
  exact ⟨.subscribing id running, audible.cloned id key chan running⟩

/-- No channel changes. -/
theorem Audible.still (audible : Audible shard s) (channels : t.channels = s.channels)
    (next : t.next = s.next) (channel : t.channel = s.channel) (receivers : t.receivers = s.receivers)
    (published : ∀ key, (s.published key).Sublist (t.published key))
    (locks : ∀ index other, other ≠ id → s.writer index = some other → t.writer index = some other)
    (calls : ∀ other, other ≠ id → t.calls other = s.calls other)
    (call : ∀ call, t.calls id = some call → Locking shard t id call ∧
      ∀ key chan, call = .subscribing key chan →
        Named s key chan ∧ .call id ∈ (t.channel chan).senders) :
    Turn shard s t id where
  channels := channels
  next := next
  grown chan := by
    rw [channel]
    exact .refl _
  held chan member := by rwa [channel]
  cloned chan other _ member := by rwa [channel]
  counted chan other _ member := by rwa [channel]
  sent key chan own := by
    rw [channel]
    exact own.sent.trans (published key)
  locks := locks
  calls := calls
  receivers other _ := by rw [receivers]
  call := call
  receiver rx alive := by
    rw [receivers] at alive
    rw [channel]
    exact audible.receiver rx alive

/-- A step keeps what is promised, and no channel that there was loses a message. -/
structure Advanced (shard : Key → Nat) (s t : State Key Msg) : Prop where
  audible : Audible shard t
  next : s.next ≤ t.next
  grown : ∀ chan < s.next, Grown (s.channel chan) (t.channel chan)

theorem Advanced.refl (audible : Audible shard s) : Advanced shard s s where
  audible := audible
  next := Nat.le_refl _
  grown _ _ := .refl _

theorem Advanced.trans {u : State Key Msg} (first : Advanced shard s t) (second : Advanced shard t u) :
    Advanced shard s u where
  audible := second.audible
  next := Nat.le_trans first.next second.next
  grown chan below := (first.grown chan below).trans (second.grown chan (Nat.lt_of_lt_of_le below first.next))

theorem Turn.advanced (turn : Turn shard s t id) (audible : Audible shard s) : Advanced shard s t where
  audible := audible.turn turn
  next := turn.next.symm.le
  grown chan _ := turn.grown chan

end Turns

section Steps

variable {shard : Key → Nat} {s : State Key Msg}

end Steps

section Told

variable {shard : Key → Nat} {s : State Key Msg}

/-- Message by message and lag by lag, what was told leads from the subscription to the receiver's position:
the messages told and those missed are what the channel has sent between the two. The end is told behind
all of it, when there is nothing left and nobody has a sender. -/
def Told (channel : Channel Msg) (rx : Receiver Key Msg) : Prop :=
  ∃ closed told, rx.events = List.replicate closed .closed ++ told ∧ .closed ∉ told ∧
    Explained channel.sent rx.start told rx.next ∧
    (messages told).Sublist ((channel.sent.take rx.next).drop rx.start) ∧
    rx.start + (messages told).length + missed told = rx.next ∧
    (missed told = 0 → messages told = (channel.sent.take rx.next).drop rx.start) ∧
    rx.next ≤ channel.sent.length ∧
    (0 < closed → channel.senders = [] ∧ rx.next = channel.sent.length)

omit [DecidableEq Key] in
theorem Heard.told {channel : Channel Msg} {rx : Receiver Key Msg} (heard : Heard channel rx) :
    Told channel rx := by
  obtain ⟨closed, told, events, explained, pending, last⟩ := heard
  exact ⟨closed, told, events, explained.closed_not_mem, explained, explained.messages_sublist,
    explained.accounts, explained.messages_eq pending, pending, last⟩

end Told

end Pigs.Bus.Broadcast
