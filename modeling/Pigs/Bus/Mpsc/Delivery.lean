import Pigs.Bus.Mpsc.Wedge

/-! What the mpsc bus delivers: per type the messages of the publishes that returned `Ok`, in their
order and once each, as long as the receiver lives. -/

namespace Pigs.Bus.Mpsc

open Pigs.Lib

variable {Key Msg : Type}

/-- A publish of `msg` returned `Ok`, the receiver of `key` was given `msg`, or was dropped with `msg` in
its queue. -/
inductive Effect (Key Msg : Type) where
  | published (key : Key) (msg : Msg)
  | received (key : Key) (msg : Msg)
  | discarded (key : Key) (msg : Msg)

/-- `Ok(())` -/
def Call.returnedOk : Call Key Msg → Bool
  | .idle (some (.ok none)) => true
  | _ => false

namespace State

/-- What the channel of a type holds; nothing where there is none. -/
def queueOf (s : State Key Msg) (key : Key) : List Msg := ((s.channels key).map Channel.queue).getD []

/-- The receiver of a type was dropped. -/
def closedOf (s : State Key Msg) (key : Key) : Bool := ((s.channels key).map Channel.closed).getD false

variable [DecidableEq Key]

/-- The end of a poll of `try_send` or `send`. -/
def publishes (shard : Key → Nat) (s : State Key Msg) (task : Nat) (action : Action Key Msg) :
    List (Effect Key Msg) :=
  match s.calls task with
  | .trySending key msg => if ((s.step shard action).calls task).returnedOk then [.published key msg] else []
  | .sending key msg => if ((s.step shard action).calls task).returnedOk then [.published key msg] else []
  | _ => []

def emit (shard : Key → Nat) (s : State Key Msg) : Action Key Msg → List (Effect Key Msg)
  | .trySend task => s.publishes shard task (.trySend task)
  | .send task => s.publishes shard task (.send task)
  | .recv task key =>
      match s.calls task, s.queueOf key with
      | .idle _, msg :: _ => if s.owner key = some task then [.received key msg] else []
      | _, _ => []
  | .dropReceiver task key =>
      match s.calls task with
      | .idle _ => if s.owner key = some task then (s.queueOf key).map (.discarded key) else []
      | _ => []
  | _ => []

end State

theorem queueOf_of_found {s : State Key Msg} {key : Key} {channel : Channel Msg}
    (found : s.channels key = some channel) : s.queueOf key = channel.queue := by
  rw [State.queueOf, found]
  rfl

theorem closedOf_of_found {s : State Key Msg} {key : Key} {channel : Channel Msg}
    (found : s.channels key = some channel) : s.closedOf key = channel.closed := by
  rw [State.closedOf, found]
  rfl

section Effects

variable [DecidableEq Key]

def publishedOf (key : Key) (past : List (Effect Key Msg)) : List Msg :=
  past.filterMap fun
    | .published other msg => if other = key then some msg else none
    | _ => none

def receivedOf (key : Key) (past : List (Effect Key Msg)) : List Msg :=
  past.filterMap fun
    | .received other msg => if other = key then some msg else none
    | _ => none

def discardedOf (key : Key) (past : List (Effect Key Msg)) : List Msg :=
  past.filterMap fun
    | .discarded other msg => if other = key then some msg else none
    | _ => none

/-- For one type, a step moves a message from its publisher to the queue's end, or from its front to the
receiver; nothing is published for a dropped receiver. -/
structure Carries (s t : State Key Msg) (effects : List (Effect Key Msg)) (key : Key) : Prop where
  messages : receivedOf key effects ++ t.queueOf key = s.queueOf key ++ publishedOf key effects
  discarded : discardedOf key effects = []
  closed : t.closedOf key = s.closedOf key
  shut : s.closedOf key = true → publishedOf key effects = []

/-- The receiver is dropped, and its queue with it. -/
structure Drops (s t : State Key Msg) (effects : List (Effect Key Msg)) (key : Key) : Prop where
  published : publishedOf key effects = []
  received : receivedOf key effects = []
  discarded : discardedOf key effects = s.queueOf key
  queue : t.queueOf key = []
  closed : t.closedOf key = true

def Moves (s t : State Key Msg) (effects : List (Effect Key Msg)) : Prop := ∀ key, Carries s t effects key

variable {shard : Key → Nat} {s t : State Key Msg}

theorem Carries.silent {effects : List (Effect Key Msg)} {key : Key} (published : publishedOf key effects = [])
    (received : receivedOf key effects = []) (discarded : discardedOf key effects = [])
    (queue : t.queueOf key = s.queueOf key) (closed : t.closedOf key = s.closedOf key) :
    Carries s t effects key where
  messages := by rw [published, received, queue, List.nil_append, List.append_nil]
  discarded := discarded
  closed := closed
  shut _ := published

theorem Moves.of_channels (queue : ∀ key, t.queueOf key = s.queueOf key)
    (closed : ∀ key, t.closedOf key = s.closedOf key) : Moves s t [] :=
  fun key => .silent rfl rfl rfl (queue key) (closed key)

theorem Moves.of_eq (channels : t.channels = s.channels) : Moves s t [] := by
  apply Moves.of_channels
  · intro key
    rw [State.queueOf, State.queueOf, channels]
  · intro key
    rw [State.closedOf, State.closedOf, channels]

theorem Carries.of_eq (key : Key) (channels : t.channels = s.channels) : Carries s t [] key :=
  Moves.of_eq channels key

theorem Moves.published (key : Key) (msg : Msg) (alive : s.closedOf key = false)
    (queue : ∀ other, t.queueOf other = if key = other then s.queueOf key ++ [msg] else s.queueOf other)
    (closed : ∀ other, t.closedOf other = s.closedOf other) : Moves s t [.published key msg] := by
  intro other
  by_cases here : key = other
  · subst here
    constructor
    case messages => simp [receivedOf, publishedOf, queue]
    case discarded => rfl
    case closed => exact closed key
    case shut =>
      intro dropped
      cases alive.symm.trans dropped
  · exact .silent (by simp [publishedOf, here]) rfl rfl (by rw [queue other, if_neg here]) (closed other)

theorem Moves.received (key : Key) (msg : Msg) (rest : List Msg) (held : s.queueOf key = msg :: rest)
    (queue : ∀ other, t.queueOf other = if key = other then rest else s.queueOf other)
    (closed : ∀ other, t.closedOf other = s.closedOf other) : Moves s t [.received key msg] := by
  intro other
  by_cases here : key = other
  · subst here
    constructor
    case messages => simp [receivedOf, publishedOf, queue, held]
    case discarded => rfl
    case closed => exact closed key
    case shut => exact fun _ => rfl
  · exact .silent rfl (by simp [receivedOf, here]) rfl (by rw [queue other, if_neg here]) (closed other)

theorem queueOf_setChannel (key other : Key) (channel : Channel Msg) :
    (s.setChannel key channel).queueOf other = if key = other then channel.queue else s.queueOf other := by
  by_cases here : key = other
  · subst here
    simp [State.queueOf, State.setChannel]
  · simp [State.queueOf, State.setChannel, here, Function.update_of_ne (Ne.symm here)]

theorem closedOf_setChannel (key other : Key) (channel : Channel Msg) :
    (s.setChannel key channel).closedOf other = if key = other then channel.closed else s.closedOf other := by
  by_cases here : key = other
  · subst here
    simp [State.closedOf, State.setChannel]
  · simp [State.closedOf, State.setChannel, here, Function.update_of_ne (Ne.symm here)]

/-- Another queue of the same channel. -/
theorem closedOf_set_queue {key : Key} {channel : Channel Msg} (found : s.channels key = some channel)
    (queue : List Msg) (other : Key) :
    (s.setChannel key { channel with queue }).closedOf other = s.closedOf other := by
  rw [closedOf_setChannel]
  split
  · rename_i same
    rw [← same, closedOf_of_found found]
  · rfl

theorem release_moves {task : Nat} {key : Key} {msg : Msg} {channel : Channel Msg}
    (found : s.channels key = some channel) (alive : channel.closed = false) :
    Moves s ((s.setChannel key { channel with queue := channel.queue ++ [msg] }).release shard task key (.ok none))
      [.published key msg] := by
  apply Moves.published
  · rw [closedOf_of_found found, alive]
  · intro other
    rw [queueOf_of_found found]
    exact queueOf_setChannel key other _
  · exact closedOf_set_queue found _

/-- What one poll of a send with a guard in hand can do. -/
inductive Polled (shard : Key → Nat) (s : State Key Msg) (task : Nat) (key : Key) (msg : Msg) :
    State Key Msg → Prop where
  | waits : Polled shard s task key msg s
  | fails (error : MessageBusError) : Polled shard s task key msg (s.release shard task key (.error error))
  | sends (channel : Channel Msg) (found : s.channels key = some channel) (alive : channel.closed = false)
      (room : channel.queue.length < DEFAULT_CHANNEL_SIZE) :
      Polled shard s task key msg
        ((s.setChannel key { channel with queue := channel.queue ++ [msg] }).release shard task key (.ok none))

theorem try_send_polled {task : Nat} {key : Key} {msg : Msg} (running : s.calls task = .trySending key msg) :
    Polled shard s task key msg (s.trySend shard task) := by
  rw [State.trySend, running]
  simp only
  split
  · exact .waits
  rename_i channel found
  split
  · exact .fails .channelClosed
  rename_i alive
  split
  · rename_i room
    exact .sends channel found (by simpa using alive) room
  · exact .fails .full

theorem send_polled {task : Nat} {key : Key} {msg : Msg} (running : s.calls task = .sending key msg) :
    Polled shard s task key msg (s.send shard task) := by
  rw [State.send, running]
  simp only
  split
  · exact .waits
  rename_i channel found
  split
  · exact .fails .channelClosed
  rename_i alive
  split
  · rename_i room
    exact .sends channel found (by simpa using alive) room
  · exact .waits

/-- A poll returns `Ok` exactly when it queued its message. -/
theorem Polled.moves {task : Nat} {key : Key} {msg : Msg} (polled : Polled shard s task key msg t)
    (pending : (s.calls task).returnedOk = false) :
    Moves s t (if (t.calls task).returnedOk then [.published key msg] else []) := by
  cases polled with
  | waits =>
      rw [pending]
      exact .of_eq rfl
  | fails error =>
      have failed : ((s.release shard task key (.error error)).calls task).returnedOk = false := by
        simp [State.release, State.setCall, Call.returnedOk]
      rw [failed]
      exact .of_eq rfl
  | sends channel found alive room =>
      have ok : (((s.setChannel key { channel with queue := channel.queue ++ [msg] }).release shard task key
          (.ok none)).calls task).returnedOk = true := by
        simp [State.release, State.setCall, Call.returnedOk]
      rw [ok]
      exact release_moves found alive

theorem try_send_moves (task : Nat) :
    Moves s (s.trySend shard task) (s.emit shard (.trySend task)) := by
  rw [State.emit, State.publishes]
  split
  · rename_i key msg running
    exact (try_send_polled running).moves (by rw [running]; rfl)
  · rename_i key msg running
    have same : s.trySend shard task = s := by rw [State.trySend, running]
    rw [State.step, same, running]
    exact .of_eq rfl
  · rename_i other _
    have same : s.trySend shard task = s := by
      rw [State.trySend]
      split
      · rename_i key msg running
        exact absurd running (other key msg)
      · rfl
    rw [same]
    exact .of_eq rfl

theorem send_moves (task : Nat) : Moves s (s.send shard task) (s.emit shard (.send task)) := by
  rw [State.emit, State.publishes]
  split
  · rename_i key msg running
    have same : s.send shard task = s := by rw [State.send, running]
    rw [State.step, same, running]
    exact .of_eq rfl
  · rename_i key msg running
    exact (send_polled running).moves (by rw [running]; rfl)
  · rename_i _ other
    have same : s.send shard task = s := by
      rw [State.send]
      split
      · rename_i key msg running
        exact absurd running (other key msg)
      · rfl
    rw [same]
    exact .of_eq rfl

theorem recv_moves (task : Nat) (key : Key) : Moves s (s.recv task key) (s.emit shard (.recv task key)) := by
  rw [State.emit, State.recv]
  cases running : s.calls task with
  | idle last =>
      cases found : s.channels key with
      | none =>
          have empty : s.queueOf key = [] := by rw [State.queueOf, found]; rfl
          rw [empty]
          exact .of_eq rfl
      | some channel =>
          rw [queueOf_of_found found]
          simp only
          split_ifs with owns
          · cases held : channel.queue with
            | nil => exact .of_eq rfl
            | cons msg rest =>
                simp only
                apply Moves.received key msg rest
                · rw [queueOf_of_found found, held]
                · intro other
                  exact queueOf_setChannel key other _
                · exact closedOf_set_queue found rest
          · split <;> exact .of_eq rfl
  | _ => exact .of_eq rfl

theorem insert_moves (task : Nat) : Moves s (s.insert shard task) [] := by
  rw [State.insert]
  split
  · rename_i key running
    split
    · exact .of_eq rfl
    · rename_i vacant
      apply Moves.of_channels
      · intro other
        have fresh := queueOf_setChannel (s := s) key other ⟨[], false⟩
        change (s.setChannel key ⟨[], false⟩).queueOf other = _
        rw [fresh]
        split
        · rename_i same
          rw [← same, State.queueOf, vacant]
          rfl
        · rfl
      · intro other
        have fresh := closedOf_setChannel (s := s) key other ⟨[], false⟩
        change (s.setChannel key ⟨[], false⟩).closedOf other = _
        rw [fresh]
        split
        · rename_i same
          rw [← same, State.closedOf, vacant]
          rfl
        · rfl
  · exact .of_eq rfl

/-- What one type sees of a step. -/
def Sees (s t : State Key Msg) (action : Action Key Msg) (effects : List (Effect Key Msg)) (key : Key) : Prop :=
  Carries s t effects key ∨ (∃ task, action = .dropReceiver task key) ∧ Drops s t effects key

theorem drop_receiver_sees (task : Nat) (key other : Key) :
    Sees s (s.dropReceiver task key) (.dropReceiver task key) (s.emit shard (.dropReceiver task key)) other := by
  have published : publishedOf other ((s.queueOf key).map (.discarded key)) = [] := by
    simp [publishedOf, List.filterMap_map]
  have received : receivedOf other ((s.queueOf key).map (.discarded key)) = [] := by
    simp [receivedOf, List.filterMap_map]
  rw [State.dropReceiver, State.emit]
  cases running : s.calls task with
  | idle last =>
      cases found : s.channels key with
      | none =>
          have empty : s.queueOf key = [] := by rw [State.queueOf, found]; rfl
          simp only [empty, List.map_nil, ite_self]
          exact .inl (.of_eq other rfl)
      | some channel =>
          simp only
          split_ifs with owns
          · by_cases here : key = other
            · subst here
              refine .inr ⟨⟨task, rfl⟩, published, received, ?_, ?_, ?_⟩
              · simp [discardedOf, List.filterMap_map]
              · exact (queueOf_setChannel key key _).trans (if_pos rfl)
              · exact (closedOf_setChannel key key _).trans (if_pos rfl)
            · refine .inl (.silent published received ?_ ?_ ?_)
              · simp [discardedOf, List.filterMap_map, here]
              · exact (queueOf_setChannel key other _).trans (if_neg here)
              · exact (closedOf_setChannel key other _).trans (if_neg here)
          · exact .inl (.of_eq other rfl)
  | _ => exact .inl (.of_eq other rfl)

/-- The steps that only take or give back locks, or start a call. -/
theorem lock_moves (task : Nat) : Moves s (s.entry shard task) [] ∧ Moves s (s.get shard task) [] ∧
    Moves s (s.cancel shard task) [] := by
  refine ⟨?_, ?_, ?_⟩
  · rw [State.entry]
    split
    · split <;> exact .of_eq rfl
    · exact .of_eq rfl
  · rw [State.get]
    split
    · split
      · split <;> exact .of_eq rfl
      · exact .of_eq rfl
    · split
      · split <;> exact .of_eq rfl
      · exact .of_eq rfl
    · exact .of_eq rfl
  · rw [State.cancel]
    split <;> exact .of_eq rfl

theorem start_moves (task : Nat) (call : Call Key Msg) : Moves s (s.start task call) [] := by
  rw [State.start]
  split <;> exact .of_eq rfl

theorem step_sees (shard : Key → Nat) (s : State Key Msg) (action : Action Key Msg) (key : Key) :
    Sees s (s.step shard action) action (s.emit shard action) key := by
  cases action with
  | subTypeChannel task other => exact .inl (start_moves task _ key)
  | tryPublish task other msg => exact .inl (start_moves task _ key)
  | publish task other msg => exact .inl (start_moves task _ key)
  | entry task => exact .inl ((lock_moves task).1 key)
  | insert task => exact .inl (insert_moves task key)
  | get task => exact .inl ((lock_moves task).2.1 key)
  | trySend task => exact .inl (try_send_moves task key)
  | send task => exact .inl (send_moves task key)
  | cancel task => exact .inl ((lock_moves task).2.2 key)
  | recv task other => exact .inl (recv_moves task other key)
  | dropReceiver task other => exact drop_receiver_sees task other key
  | give task other taker =>
      left
      simp only [State.step, State.give, State.emit]
      split
      · split <;> exact .of_eq key rfl
      · exact .of_eq key rfl

/-- The past of a type, and that its receiver was dropped only by its owner. -/
structure Accounts (s : State Key Msg) (past : List (Effect Key Msg)) (key : Key) : Prop where
  messages : publishedOf key past = receivedOf key past ++ discardedOf key past ++ s.queueOf key
  alive : s.closedOf key = false → discardedOf key past = []
  dropped : s.closedOf key = true → s.queueOf key = []

theorem Accounts.step {past : List (Effect Key Msg)} {key : Key} (accounts : Accounts s past key)
    (action : Action Key Msg) : Accounts (s.step shard action) (past ++ s.emit shard action) key := by
  have published : publishedOf key (past ++ s.emit shard action) =
      publishedOf key past ++ publishedOf key (s.emit shard action) := List.filterMap_append ..
  have received : receivedOf key (past ++ s.emit shard action) =
      receivedOf key past ++ receivedOf key (s.emit shard action) := List.filterMap_append ..
  have discarded : discardedOf key (past ++ s.emit shard action) =
      discardedOf key past ++ discardedOf key (s.emit shard action) := List.filterMap_append ..
  have messages := accounts.messages
  rcases step_sees shard s action key with carries | ⟨_, drops⟩
  · have moved := carries.messages
    rw [carries.discarded, List.append_nil] at discarded
    cases opened : s.closedOf key with
    | false =>
        have none := accounts.alive opened
        rw [none, List.append_nil] at messages
        constructor
        case messages =>
          rw [published, received, discarded, none, messages, List.append_nil, List.append_assoc, ← moved,
            ← List.append_assoc]
        case alive =>
          intro _
          rw [discarded, none]
        case dropped =>
          intro closed
          cases (opened.symm.trans carries.closed.symm).trans closed
    | true =>
        have empty := accounts.dropped opened
        have silent := carries.shut opened
        rw [empty, silent, List.append_nil] at moved
        obtain ⟨taken, left⟩ := List.append_eq_nil_iff.mp moved
        constructor
        case messages =>
          rw [published, received, discarded, silent, taken, left, messages, empty]
          simp only [List.append_nil]
        case alive =>
          intro closed
          cases (opened.symm.trans carries.closed.symm).trans closed
        case dropped => exact fun _ => left
  · rw [drops.published, List.append_nil] at published
    rw [drops.received, List.append_nil] at received
    constructor
    case messages =>
      rw [published, received, discarded, drops.discarded, drops.queue, messages, List.append_nil,
        List.append_assoc]
    case alive =>
      intro alive
      cases drops.closed.symm.trans alive
    case dropped => exact fun _ => drops.queue

theorem run_accounts (shard : Key → Nat) (actions : List (Action Key Msg)) (key : Key) :
    Accounts (runFrom (State.step shard) State.initial actions)
      (traceFrom (State.step shard) (State.emit shard) State.initial actions) key :=
  invariant_trace (State.step shard) (State.emit shard) (fun s past => Accounts s past key)
    (fun _ _ action (_ : True) accounts => accounts.step action) State.initial [] actions
    (along_of_mem _ _ actions fun _ _ _ => trivial)
    { messages := rfl
      alive := fun _ => rfl
      dropped := fun closed => by cases closed }

end Effects

/-! The messages of the calls under way. -/

/-- The message that a call still has to publish. -/
def Call.message : Call Key Msg → Option (Key × Msg)
  | .tryPublish key msg => some (key, msg)
  | .trySending key msg => some (key, msg)
  | .publish key msg => some (key, msg)
  | .sending key msg => some (key, msg)
  | _ => none

/-- Every call of `t` is over, or has the message that it had in `s`. -/
def KeepsMessages (s t : State Key Msg) : Prop :=
  ∀ task, (t.calls task).message = none ∨ (t.calls task).message = (s.calls task).message

section Calls

variable {shard : Key → Nat} {s t : State Key Msg}

theorem KeepsMessages.of_eq (calls : t.calls = s.calls) : KeepsMessages s t := by
  intro task
  rw [calls]
  exact .inr rfl

variable [DecidableEq Key]

end Calls

/-! The types of the messages. -/

section Types

variable {shard : Key → Nat} {s : State Key Msg}

variable [DecidableEq Key]

/-- The owner of the receiver takes what is queued, message by message. -/
theorem drained (task : Nat) (key : Key) (queue : List Msg) (held : s.queueOf key = queue)
    (owns : s.owner key = some task) (idle : ∃ last, s.calls task = .idle last) :
    receivedOf key (traceFrom (State.step shard) (State.emit shard) s
      (List.replicate queue.length (.recv task key))) = queue := by
  induction queue generalizing s with
  | nil => rfl
  | cons msg queue ih =>
      obtain ⟨last, resting⟩ := idle
      obtain ⟨channel, found⟩ : ∃ channel, s.channels key = some channel := by
        cases found : s.channels key with
        | none => simp [State.queueOf, found] at held
        | some channel => exact ⟨channel, rfl⟩
      rw [queueOf_of_found found] at held
      have received : s.recv task key =
          (s.setChannel key { channel with queue }).setCall task (.idle (some (.ok (some msg)))) := by
        simp only [State.recv, resting, found, held, owns, if_true]
      have emitted : s.emit shard (.recv task key) = [.received key msg] := by
        simp only [State.emit, resting, queueOf_of_found found, held, owns, if_true]
      have rest := ih (s := s.recv task key)
        (by rw [received]; exact (queueOf_setChannel key key _).trans (if_pos rfl))
        (by rw [received]; exact owns)
        (by rw [received]; exact ⟨_, Function.update_self ..⟩)
      simp only [receivedOf] at rest
      simp only [List.length_cons, List.replicate_succ, traceFrom, emitted, receivedOf, List.filterMap_append]
      rw [State.step, rest]
      simp

end Types

end Pigs.Bus.Mpsc
