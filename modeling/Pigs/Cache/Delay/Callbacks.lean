import Pigs.Lib.Channel
import Pigs.Cache.Delay.Fates

/-! The `cache-expire-callback` task behind the purge task: a bounded channel of expired values, a
semaphore, and one spawned task for each `expire_call`. -/

namespace Pigs.Cache.Delay

def CALL_CHANNEL : Nat := 10000
def CALLBACKS : Nat := 100

/-- `waiting` is the value received last, whose permit is not there yet. `started`, `ended`, `lost` and
`dropped` list the values whose callback was spawned, is over (returned or panicked), was not accepted by
`call_tx`, or was dropped with `call_rx`. -/
structure Worker where
  calls : Lib.Channel CachedValue CALL_CHANNEL
  waiting : Option CachedValue
  permits : Nat
  running : List CachedValue
  stopped : Bool
  started : List CachedValue
  ended : List CachedValue
  lost : List CachedValue
  dropped : List CachedValue

namespace Worker

def init : Worker where
  calls := .empty
  waiting := none
  permits := CALLBACKS
  running := []
  stopped := false
  started := []
  ended := []
  lost := []
  dropped := []

/-- `call_tx.try_send(value)`, whose error is only logged. -/
def trySend (w : Worker) (value : CachedValue) : Worker :=
  if w.stopped then
    { w with lost := w.lost ++ [value] }
  else
    match w.calls.trySend value with
    | none => { w with lost := w.lost ++ [value] }
    | some calls => { w with calls := calls }

/-- `call_rx.recv()` in the loop, which waits for the permit of the value before. -/
def recv (w : Worker) : Worker :=
  match w.stopped, w.waiting, w.calls.tryRecv with
  | false, none, some (value, calls) => { w with calls := calls, waiting := some value }
  | _, _, _ => w

/-- `acquire_owned` gets its permit and the callback is spawned. -/
def acquire (w : Worker) : Worker :=
  match w.waiting, w.permits with
  | some value, permits + 1 =>
      { w with
        waiting := none
        permits := permits
        running := w.running ++ [value]
        started := w.started ++ [value] }
  | _, _ => w

/-- A callback returns or panics; either way its task drops the permit. -/
def finish (w : Worker) (index : Nat) : Worker :=
  match w.running[index]? with
  | none => w
  | some value =>
      { w with
        running := w.running.eraseIdx index
        permits := w.permits + 1
        ended := w.ended ++ [value] }

/-- The loop sees the cancellation, which it does not while it waits for a permit. The end of the task
drops `call_rx` and what is queued there. -/
def leave (w : Worker) (cancelled : Bool) : Worker :=
  match w.waiting with
  | none =>
      if cancelled then
        { w with stopped := true, calls := .empty, dropped := w.dropped ++ w.calls.queue }
      else
        w
  | some _ => w

end Worker

/-- The cache with its purge task, and the callback task. -/
structure CallbackCache (K : Type) where
  cache : DelayCache K
  worker : Worker

inductive CallbackAct (K : Type) where
  | cache (act : CacheAct K)
  | recv
  | acquire
  | finish (index : Nat)
  | leave

namespace CallbackCache

variable {K : Type}

def init : CallbackCache K where
  cache := DelayCache.init
  worker := Worker.init

/-- The value that the purge task gives to `try_send` in this step. -/
def offered (s : CallbackCache K) : CallbackAct K → Option CachedValue
  | .cache .advancePurge =>
      match s.cache.purge with
      | .handing value => some value
      | _ => none
  | _ => none

variable [DecidableEq K] (c : Setting K)

def step (s : CallbackCache K) (act : CallbackAct K) : CallbackCache K :=
  match act with
  | .cache inner =>
      { cache := s.cache.step c inner
        worker := (s.offered act).elim s.worker s.worker.trySend }
  | .recv => { s with worker := s.worker.recv }
  | .acquire => { s with worker := s.worker.acquire }
  | .finish index => { s with worker := s.worker.finish index }
  | .leave => { s with worker := s.worker.leave s.cache.cancelled }

end CallbackCache

/-! Where the values that were handed over are. -/

namespace Worker

/-- The values that `call_tx` accepted, in order. -/
def accepted (w : Worker) : List CachedValue := w.started ++ w.waiting.toList ++ w.calls.queue ++ w.dropped

/-- The places of the worker, the lost and the dropped values among them. -/
def places (w : Worker) : List CachedValue :=
  w.calls.queue ++ w.waiting.toList ++ w.running ++ w.ended ++ w.dropped ++ w.lost

structure Accounts (w : Worker) (handed : List CachedValue) : Prop where
  permits : w.running.length + w.permits = CALLBACKS
  started : w.started.Perm (w.running ++ w.ended)
  order : w.accepted.Sublist handed
  all : handed.Perm (w.accepted ++ w.lost)
  alive : w.stopped = false → w.dropped = []
  gone : w.stopped = true → w.waiting = none ∧ w.calls.queue = []

variable {w : Worker} {handed : List CachedValue}

theorem Accounts.init : Accounts Worker.init [] where
  permits := rfl
  started := .refl _
  order := .slnil
  all := .refl _
  alive := fun _ => rfl
  gone := fun stopped => by cases stopped

theorem Accounts.places (accounts : w.Accounts handed) : handed.Perm w.places := by
  apply accounts.all.trans
  have started : (w.started ++ (w.waiting.toList ++ w.calls.queue)).Perm
      ((w.running ++ w.ended) ++ (w.calls.queue ++ w.waiting.toList)) :=
    accounts.started.append List.perm_append_comm
  have turned : ((w.running ++ w.ended) ++ (w.calls.queue ++ w.waiting.toList)).Perm
      ((w.calls.queue ++ w.waiting.toList) ++ (w.running ++ w.ended)) := List.perm_append_comm
  have rest := (started.trans turned).append_right (w.dropped ++ w.lost)
  rw [accepted, Worker.places]
  simpa only [List.append_assoc] using rest

/-- A value that is not accepted is lost. -/
theorem Accounts.lose (accounts : w.Accounts handed) (value : CachedValue) :
    Accounts { w with lost := w.lost ++ [value] } (handed ++ [value]) where
  permits := accounts.permits
  started := accounts.started
  order := accounts.order.trans (List.sublist_append_left handed [value])
  all := by
    have longer := accounts.all.append_right [value]
    rwa [List.append_assoc] at longer
  alive := accounts.alive
  gone := accounts.gone

theorem Accounts.trySend (accounts : w.Accounts handed) (value : CachedValue) :
    (w.trySend value).Accounts (handed ++ [value]) := by
  rw [Worker.trySend]
  split
  · exact accounts.lose value
  rename_i running
  split
  · exact accounts.lose value
  rename_i calls sent
  have queue := Lib.Channel.trySend_queue _ _ _ sent
  have kept := accounts.alive (Bool.eq_false_iff.mpr running)
  have longer : ({ w with calls := calls } : Worker).accepted = w.accepted ++ [value] := by
    simp [accepted, queue, kept]
  constructor
  · exact accounts.permits
  · exact accounts.started
  · rw [longer]
    exact accounts.order.append (.refl [value])
  · rw [longer]
    have both := accounts.all.append_right [value]
    rw [List.append_assoc] at both ⊢
    exact both.trans (List.Perm.append_left _ List.perm_append_comm)
  · exact accounts.alive
  · exact fun stopped => absurd stopped running

theorem Accounts.recv (accounts : w.Accounts handed) : w.recv.Accounts handed := by
  rw [Worker.recv]
  split
  · rename_i value calls alive free taken
    have queue := Lib.Channel.tryRecv_queue _ _ _ taken
    have same : ({ w with calls := calls, waiting := some value } : Worker).accepted = w.accepted := by
      simp [accepted, queue, free]
    exact ⟨accounts.permits, accounts.started, same ▸ accounts.order, same ▸ accounts.all, accounts.alive,
      fun stopped => by cases alive.symm.trans stopped⟩
  · exact accounts

theorem Accounts.acquire (accounts : w.Accounts handed) : w.acquire.Accounts handed := by
  have held := accounts.permits
  rw [Worker.acquire]
  split
  · rename_i value permits waits left
    rw [left] at held
    have same : w.started ++ [value] ++ [] ++ w.calls.queue ++ w.dropped = w.accepted := by
      simp [accepted, waits]
    refine ⟨?_, ?_, ?_, ?_, accounts.alive, ?_⟩
    · simp only [List.length_append, List.length_singleton]
      omega
    · have both := accounts.started.append_right [value]
      rw [List.append_assoc] at both
      apply both.trans
      rw [List.append_assoc]
      exact List.Perm.append_left _ List.perm_append_comm
    · change (w.started ++ [value] ++ [] ++ w.calls.queue ++ w.dropped).Sublist handed
      rw [same]
      exact accounts.order
    · change handed.Perm (w.started ++ [value] ++ [] ++ w.calls.queue ++ w.dropped ++ w.lost)
      rw [same]
      exact accounts.all
    · intro stopped
      cases waits.symm.trans (accounts.gone stopped).1
  · exact accounts

theorem Accounts.finish (accounts : w.Accounts handed) (index : Nat) : (w.finish index).Accounts handed := by
  have held := accounts.permits
  rw [Worker.finish]
  split
  · exact accounts
  rename_i value found
  obtain ⟨inside, at_⟩ := List.getElem?_eq_some_iff.mp found
  refine ⟨?_, ?_, accounts.order, accounts.all, accounts.alive, accounts.gone⟩
  · simp only [List.length_eraseIdx, if_pos inside]
    omega
  · have split : w.running.Perm (value :: w.running.eraseIdx index) := by
      rw [← at_]
      exact (List.getElem_cons_eraseIdx_perm inside).symm
    have moved : (value :: w.running.eraseIdx index ++ w.ended).Perm
        (w.running.eraseIdx index ++ (w.ended ++ [value])) := by
      rw [← List.append_assoc]
      exact (List.perm_append_singleton value _).symm
    exact accounts.started.trans ((split.append_right w.ended).trans moved)

theorem Accounts.leave (accounts : w.Accounts handed) (cancelled : Bool) :
    (w.leave cancelled).Accounts handed := by
  rw [Worker.leave]
  split
  · rename_i free
    split
    · -- The queue follows what was dropped before, of which there is nothing unless the queue is empty.
      have moved : w.calls.queue ++ w.dropped = w.dropped ++ w.calls.queue := by
        cases stopped : w.stopped with
        | false => rw [accounts.alive stopped, List.append_nil, List.nil_append]
        | true => rw [(accounts.gone stopped).2, List.append_nil, List.nil_append]
      have same : w.started ++ w.waiting.toList ++ [] ++ (w.dropped ++ w.calls.queue) = w.accepted := by
        rw [accepted, ← moved]
        simp only [List.append_nil, List.append_assoc]
      constructor
      case permits => exact accounts.permits
      case started => exact accounts.started
      case order =>
        change (w.started ++ w.waiting.toList ++ [] ++ (w.dropped ++ w.calls.queue)).Sublist handed
        rw [same]
        exact accounts.order
      case all =>
        change handed.Perm (w.started ++ w.waiting.toList ++ [] ++ (w.dropped ++ w.calls.queue) ++ w.lost)
        rw [same]
        exact accounts.all
      case alive =>
        intro running
        cases running
      case gone => exact fun _ => ⟨free, rfl⟩
    · exact accounts
  · exact accounts

/-- Nothing but the end of the task or a full channel refuses a value. -/
theorem trySend_lost (w : Worker) (value : CachedValue) :
    (w.trySend value).lost =
      if w.stopped = false ∧ w.calls.queue.length < CALL_CHANNEL then w.lost else w.lost ++ [value] := by
  have bounded := w.calls.bounded
  have full := w.calls.trySend_eq_none_iff value
  rw [trySend]
  split
  · rename_i gone
    simp [gone]
  · rename_i alive
    split
    · rename_i none
      have length := full.mp none
      simp [length]
    · rename_i calls sent
      have room : w.calls.queue.length ≠ CALL_CHANNEL := fun length => by
        rw [full.mpr length] at sent
        cases sent
      have below : w.calls.queue.length < CALL_CHANNEL := by omega
      simp [alive, below]

theorem trySend_dropped (w : Worker) (value : CachedValue) :
    (w.trySend value).dropped = w.dropped ∧ (w.trySend value).stopped = w.stopped := by
  rw [trySend]
  split
  · exact ⟨rfl, rfl⟩
  · split <;> exact ⟨rfl, rfl⟩

end Worker

namespace CallbackCache

variable {K : Type} {c : Setting K} {s : CallbackCache K}

/-- What went to `call_tx`, in order. -/
def handedValues (s : CallbackCache K) : List CachedValue := s.cache.handed.map Prod.snd

theorem offered_of_ne (act : CacheAct K) (other : act ≠ .advancePurge) : s.offered (.cache act) = none := by
  cases act with
  | advancePurge => exact absurd rfl other
  | _ => rfl

theorem send_handed (d : DelayCache K) (id : Nat) (command : DelayCommand K) :
    (d.send id command).handed = d.handed := by
  rw [DelayCache.send]
  split <;> rfl

theorem send_cancelled (d : DelayCache K) (id : Nat) (command : DelayCommand K) :
    (d.send id command).cancelled = d.cancelled := by
  rw [DelayCache.send]
  split <;> rfl

/-- A written value that was handed over twice would have two fates. -/
theorem count_handedOver {d : DelayCache K} {log : List (Write K)} (fated : DelayCache.Fated c d log)
    (write : Write K) (member : write ∈ log) : d.handedOver.count write.value ≤ 1 := by
  by_contra twice
  obtain ⟨i, j, before, first, second⟩ := List.duplicate_iff_exists_distinct_get.mp
    (List.duplicate_iff_two_le_count.mpr (by omega : 2 ≤ d.handedOver.count write.value))
  obtain ⟨fate, _, unique⟩ := fated.fate write member
  have at_ (index : Fin d.handedOver.length) (same : write.value = d.handedOver.get index) :
      Fate.handed index = fate := by
    apply unique
    change d.handedOver[index.val]? = some write.value
    rw [List.getElem?_eq_getElem index.isLt, same]
    rfl
  have one := at_ i first
  rw [← at_ j second, Fate.handed.injEq] at one
  exact absurd (Fin.ext one) before.ne

variable [DecidableEq K]

theorem move_handed {d t : DelayCache K} {act : CacheAct K} (move : DelayCache.Move c d act t)
    (other : act ≠ .advancePurge) : t.handed = d.handed := by
  cases move with
  | sendInsert id key ttl own sending => exact send_handed d id _
  | sendRemove id key own start => exact send_handed d id _
  | sendRefresh id key ttl own held => exact send_handed d id _
  | takeNothing key expiring free absent => exact absurd rfl other
  | take key value expiring free stored => exact absurd rfl other
  | hand value handing => exact absurd rfl other
  | stop clearing => exact absurd rfl other
  | _ => rfl

theorem move_cancelled {d t : DelayCache K} {act : CacheAct K} (move : DelayCache.Move c d act t)
    (other : act ≠ .cancel) : t.cancelled = d.cancelled := by
  cases move with
  | sendInsert id key ttl own sending => exact send_cancelled d id _
  | sendRemove id key own start => exact send_cancelled d id _
  | sendRefresh id key ttl own held => exact send_cancelled d id _
  | cancel => exact absurd rfl other
  | _ => rfl

/-- Only the purge task's `try_send` hands anything over. -/
theorem step_handed (act : CacheAct K) :
    (s.cache.step c act).handed.map Prod.snd = s.handedValues ++ (s.offered (.cache act)).toList := by
  by_cases purging : act = .advancePurge
  · subst purging
    simp only [DelayCache.step, DelayCache.advancePurge, offered, handedValues]
    cases running : s.cache.purge with
    | expiring key =>
        simp only [Option.toList_none, List.append_nil]
        split
        · rfl
        · split <;> rfl
    | handing value => simp
    | _ => simp
  · rw [offered_of_ne act purging, Option.toList_none, List.append_nil, handedValues]
    rw [move_handed (s.cache.step_move c act) purging]

theorem Worker.Accounts.step (accounts : s.worker.Accounts s.handedValues) (act : CallbackAct K) :
    (s.step c act).worker.Accounts (s.step c act).handedValues := by
  cases act with
  | cache inner =>
      have handed : (s.step c (.cache inner)).handedValues = _ := step_handed inner
      rw [handed]
      simp only [CallbackCache.step]
      cases s.offered (.cache inner) with
      | none =>
          rw [Option.toList_none, List.append_nil]
          exact accounts
      | some value => exact accounts.trySend value
  | recv => exact accounts.recv
  | acquire => exact accounts.acquire
  | finish index => exact accounts.finish index
  | leave => exact accounts.leave _

def run (c : Setting K) (acts : List (CallbackAct K)) : CallbackCache K :=
  Lib.runFrom (CallbackCache.step c) CallbackCache.init acts

theorem run_accounts (acts : List (CallbackAct K)) : (run c acts).worker.Accounts (run c acts).handedValues :=
  Lib.invariant_run (CallbackCache.step c) (fun s => s.worker.Accounts s.handedValues)
    (fun _ act accounts => Worker.Accounts.step accounts act) _ acts .init

/-- The part of a run that the cache sees. -/
def cacheActs (acts : List (CallbackAct K)) : List (CacheAct K) :=
  acts.filterMap fun
    | .cache act => some act
    | _ => none

/-- The callback task does not disturb the cache. -/
theorem run_cache (acts : List (CallbackAct K)) (s : CallbackCache K) :
    (Lib.runFrom (CallbackCache.step c) s acts).cache = s.cache.run c (cacheActs acts) := by
  induction acts generalizing s with
  | nil => rfl
  | cons act acts ih =>
      rw [Lib.runFrom_cons, ih]
      cases act <;> rfl

/-- Where this step hands a value over, the callback task is there and its channel has room. -/
def Accepts (s : CallbackCache K) (act : CallbackAct K) : Prop :=
  s.offered act ≠ none → s.worker.stopped = false ∧ s.worker.calls.queue.length < CALL_CHANNEL

/-- The callback task ends in this step. -/
def Leaves (s : CallbackCache K) (act : CallbackAct K) : Prop :=
  act = .leave ∧ s.cache.cancelled = true ∧ s.worker.waiting = none

/-- What a step does with the values that get no callback. -/
structure Disposes (s : CallbackCache K) (act : CallbackAct K) (t : CallbackCache K) : Prop where
  takes : s.Accepts act → t.worker.lost = s.worker.lost
  refuses : ¬s.Accepts act → ∃ value, s.offered act = some value ∧ t.worker.lost = s.worker.lost ++ [value]
  drops : s.Leaves act →
    t.worker.dropped = s.worker.dropped ++ s.worker.calls.queue ∧ t.worker.stopped = true
  keeps : ¬s.Leaves act → t.worker.dropped = s.worker.dropped ∧ t.worker.stopped = s.worker.stopped

omit [DecidableEq K] in
theorem Disposes.quiet {act : CallbackAct K} {t : CallbackCache K} (none : s.offered act = none)
    (stays : act ≠ .leave) (lost : t.worker.lost = s.worker.lost)
    (dropped : t.worker.dropped = s.worker.dropped) (stopped : t.worker.stopped = s.worker.stopped) :
    s.Disposes act t where
  takes _ := lost
  refuses refused := absurd (fun some => absurd none some) refused
  drops leaves := absurd leaves.1 stays
  keeps _ := ⟨dropped, stopped⟩

theorem step_disposes (s : CallbackCache K) (act : CallbackAct K) : s.Disposes act (s.step c act) := by
  cases act with
  | cache inner =>
      cases offer : s.offered (.cache inner) with
      | none =>
          have same : (s.step c (.cache inner)).worker = s.worker := by
            simp only [CallbackCache.step, offer, Option.elim_none]
          exact .quiet offer (fun leaves => by cases leaves) (by rw [same]) (by rw [same]) (by rw [same])
      | some value =>
          have worker : (s.step c (.cache inner)).worker = s.worker.trySend value := by
            simp only [CallbackCache.step, offer, Option.elim_some]
          have lost := s.worker.trySend_lost value
          have accepts : s.Accepts (.cache inner) ↔
              s.worker.stopped = false ∧ s.worker.calls.queue.length < CALL_CHANNEL := by
            simp [Accepts, offer]
          constructor
          case takes =>
            intro taken
            rw [worker, lost, if_pos (accepts.mp taken)]
          case refuses =>
            intro refused
            rw [accepts] at refused
            exact ⟨value, offer, by rw [worker, lost, if_neg refused]⟩
          case drops =>
            intro leaves
            cases leaves.1
          case keeps =>
            intro _
            rw [worker]
            exact s.worker.trySend_dropped value
  | recv =>
      refine .quiet rfl (fun leaves => by cases leaves) ?_ ?_ ?_ <;>
        simp only [CallbackCache.step, Worker.recv] <;> split <;> rfl
  | acquire =>
      refine .quiet rfl (fun leaves => by cases leaves) ?_ ?_ ?_ <;>
        simp only [CallbackCache.step, Worker.acquire] <;> split <;> rfl
  | finish index =>
      refine .quiet rfl (fun leaves => by cases leaves) ?_ ?_ ?_ <;>
        simp only [CallbackCache.step, Worker.finish] <;> split <;> rfl
  | leave =>
      have silent : s.offered .leave = none := rfl
      have lost : (s.step c .leave).worker.lost = s.worker.lost := by
        simp only [CallbackCache.step, Worker.leave]
        split
        · split <;> rfl
        · rfl
      constructor
      case takes => exact fun _ => lost
      case refuses => exact fun refused => absurd (fun some => absurd silent some) refused
      case drops =>
        rintro ⟨_, cancelled, free⟩
        simp [CallbackCache.step, Worker.leave, cancelled, free]
      case keeps =>
        intro stays
        simp only [CallbackCache.step, Worker.leave]
        split
        · rename_i free
          rw [if_neg fun cancelled => stays ⟨rfl, cancelled, free⟩]
          exact ⟨rfl, rfl⟩
        · exact ⟨rfl, rfl⟩

theorem step_lost_nil_iff (act : CallbackAct K) :
    (s.step c act).worker.lost = [] ↔ s.worker.lost = [] ∧ s.Accepts act := by
  have disposes : s.Disposes act (s.step c act) := step_disposes s act
  by_cases accepts : s.Accepts act
  · rw [disposes.takes accepts]
    exact (and_iff_left accepts).symm
  · obtain ⟨value, _, longer⟩ := disposes.refuses accepts
    rw [longer]
    exact iff_of_false (List.append_ne_nil_of_right_ne_nil _ (List.cons_ne_nil value [])) fun both =>
      accepts both.2

/-- Without a cancellation the callback task stays. -/
theorem run_stays (acts : List (CallbackAct K)) (notCancelled : .cache .cancel ∉ acts) :
    (run c acts).worker.stopped = false := by
  have along : Lib.Along (CallbackCache.step c) (fun _ act => act ≠ .cache .cancel) CallbackCache.init acts :=
    Lib.along_of_mem _ _ acts fun act member _ cancels => notCancelled (cancels ▸ member)
  have both := Lib.invariant_along (CallbackCache.step c)
    (fun s => s.cache.cancelled = false ∧ s.worker.stopped = false) ?_ CallbackCache.init acts along ⟨rfl, rfl⟩
  · exact both.2
  intro s act other inv
  have stays : ¬s.Leaves act := by
    rintro ⟨_, cancelled, _⟩
    cases inv.1.symm.trans cancelled
  constructor
  · cases act with
    | cache inner =>
        have kept := move_cancelled (s.cache.step_move c inner) fun same => other (same ▸ rfl)
        exact kept.trans inv.1
    | _ => exact inv.1
  · exact ((step_disposes s act).keeps stays).2.trans inv.2

/-- Every value that the purge task hands over is in one place: lost, in the channel, waiting for a permit,
with its callback running, past it, or dropped with the channel. At most 100 callbacks run, and they start
in the order of the expiries. A step loses the value that it hands over exactly where 10000 wait or the
callback task is gone, and drops what is queued exactly where that task ends. Without a cancellation it
does not, and a value written by an insert is handed over once at most, so its callback is. -/
theorem expired_values_called_once (c : Setting K) (acts : List (CallbackAct K)) :
    let s := run c acts
    s.handedValues.Perm s.worker.places ∧
    s.worker.running.length ≤ CALLBACKS ∧
    s.worker.accepted.Sublist s.handedValues ∧
    (∀ act, s.Disposes act (s.step c act)) ∧
    (s.worker.lost = [] ↔ Lib.Along (CallbackCache.step c) Accepts CallbackCache.init acts) ∧
    (s.worker.stopped = false → s.worker.dropped = []) ∧
    (s.worker.stopped = true → s.worker.waiting = none ∧ s.worker.calls.queue = []) ∧
    (.cache .cancel ∉ acts → s.worker.stopped = false ∧
      ∀ write ∈ Lib.traceFrom (DelayCache.step c) (DelayCache.writes c) DelayCache.init (cacheActs acts),
        s.worker.places.count write.value ≤ 1 ∧ s.worker.started.count write.value ≤ 1) := by
  intro s
  have accounts : s.worker.Accounts s.handedValues := run_accounts acts
  refine ⟨accounts.places, ?_, accounts.order, fun act => step_disposes s act, ?_, accounts.alive,
    accounts.gone, ?_⟩
  · have permits := accounts.permits
    omega
  · have every := Lib.runFrom_iff_along (CallbackCache.step c) (fun _ => True) (fun s => s.worker.lost = [])
      (fun _ _ _ => trivial) (fun s act _ => step_lost_nil_iff act) CallbackCache.init acts trivial
    rw [show s = Lib.runFrom (CallbackCache.step c) CallbackCache.init acts from rfl, every]
    exact and_iff_right rfl
  · intro notCancelled
    refine ⟨run_stays acts notCancelled, ?_⟩
    intro write member
    have inner : .cancel ∉ cacheActs acts := by
      intro inside
      obtain ⟨act, present, same⟩ := List.mem_filterMap.mp inside
      cases act with
      | cache found =>
          cases same
          exact notCancelled present
      | _ => cases same
    have fated := (DelayCache.Fated.init (c := c)).run (cacheActs acts) inner
    have once := count_handedOver fated write member
    have handed : s.handedValues.count write.value ≤ 1 := by
      have cache : s.cache = DelayCache.init.run c (cacheActs acts) := run_cache acts CallbackCache.init
      rw [← cache, DelayCache.handedOver, List.count_append] at once
      exact (Nat.le_add_right _ _).trans once
    constructor
    · rw [← accounts.places.count_eq]
      exact handed
    · have part : s.worker.started.Sublist s.handedValues :=
        (((List.sublist_append_left _ _).trans (List.sublist_append_left _ _)).trans
          (List.sublist_append_left _ _)).trans accounts.order
      exact (part.count_le _).trans handed

/-- A value is inserted, expires, is handed over and its callback runs to its end. -/
theorem expired_values_called_once_single :
    let acts : List (CallbackAct String) := [.cache (.call 0), .cache (.advance 0), .cache (.advance 0),
      .cache .command, .cache (.tick 1), .cache (.expire 0), .cache .advancePurge, .cache .advancePurge,
      .recv, .acquire, .finish 0]
    let s := run DelayCache.overlapping acts
    s.worker.ended = [{ id := 0, ttl := some 1, inserted := 0 }] ∧ s.worker.lost = [] ∧
      s.worker.dropped = [] ∧
      ∀ write ∈ Lib.traceFrom (DelayCache.step DelayCache.overlapping)
        (DelayCache.writes DelayCache.overlapping) DelayCache.init (cacheActs acts),
        s.worker.places.count write.value ≤ 1 ∧ s.worker.started.count write.value ≤ 1 := by
  intro acts s
  have called := expired_values_called_once DelayCache.overlapping acts
  exact ⟨rfl, rfl, rfl, (called.2.2.2.2.2.2.2 (by simp [acts])).2⟩

end CallbackCache

end Pigs.Cache.Delay
