import Pigs.Lib.Recency

/-! The timer table of the cache's purge task: `key_map` and the `DelayQueue` it points into. Time
and durations count from the start of the queue. -/

namespace Pigs.Cache.Delay

/-- How the queue picks the token of a new entry: one that no entry has. -/
structure TokenAlloc where
  next : List Nat → Nat
  fresh : ∀ used, next used ∉ used

structure Entry (K : Type) where
  token : Nat
  key : K
  deadline : Nat

abbrev DelayQueue (K : Type) := List (Entry K)

/-- Why an operation of the queue panics: the token is not in the queue, or the delay is greater
than the queue supports. -/
inductive DelayPanic where
  | missing
  | tooFar
  deriving DecidableEq

inductive DelayCommand (K : Type) where
  | insert (key : K) (ttl : Option Nat)
  | remove (key : K)
  | refresh (key : K) (ttl : Nat)

variable {K : Type}

namespace DelayQueue

def insert (alloc : TokenAlloc) (maxDelay : Nat) (queue : DelayQueue K) (key : K) (now ttl : Nat) :
    Except DelayPanic (Nat × DelayQueue K) :=
  if maxDelay < ttl then
    .error .tooFar
  else
    let token := alloc.next (queue.map Entry.token)
    .ok (token, queue ++ [{ token := token, key := key, deadline := now + ttl }])

def reset (maxDelay : Nat) (queue : DelayQueue K) (token now ttl : Nat) :
    Except DelayPanic (DelayQueue K) :=
  match Lib.findKeyed Entry.token token queue with
  | none => .error .missing
  | some entry =>
      if maxDelay < ttl then
        .error .tooFar
      else
        .ok (Lib.putLast Entry.token { entry with deadline := now + ttl } queue)

def remove (queue : DelayQueue K) (token : Nat) : Except DelayPanic (DelayQueue K) :=
  match Lib.findKeyed Entry.token token queue with
  | none => .error .missing
  | some _ => .ok (Lib.dropKeyed Entry.token token queue)

end DelayQueue

structure Timers (K : Type) where
  keyMap : K → Option Nat
  delayQueue : DelayQueue K

namespace Timers

def new : Timers K where
  keyMap _ := none
  delayQueue := []

/-! Every key has at most one timer, and `key_map` knows it. -/

structure Paired (t : Timers K) : Prop where
  distinct : (t.delayQueue.map Entry.token).Nodup
  known : ∀ entry ∈ t.delayQueue, t.keyMap entry.key = some entry.token
  present : ∀ key token, t.keyMap key = some token →
    ∃ entry ∈ t.delayQueue, entry.token = token ∧ entry.key = key

/-- When the timer of a key is due. -/
def deadlines (t : Timers K) (key : K) : Option Nat :=
  match t.keyMap key with
  | none => none
  | some token => (Lib.findKeyed Entry.token token t.delayQueue).map Entry.deadline

variable {t u : Timers K}

namespace Paired

theorem new : Paired (new : Timers K) := ⟨List.nodup_nil, nofun, nofun⟩

theorem find (paired : Paired t) (key : K) (token : Nat) (mapped : t.keyMap key = some token) :
    ∃ entry, Lib.findKeyed Entry.token token t.delayQueue = some entry ∧
      entry ∈ t.delayQueue ∧ entry.token = token ∧ entry.key = key := by
  rcases paired.present key token mapped with ⟨entry, member, same, own⟩
  exact ⟨entry, (Lib.findKeyed_eq_some_iff token t.delayQueue paired.distinct entry).mpr
    ⟨member, same⟩, member, same, own⟩

/-- Different keys have different tokens. -/
theorem apart (paired : Paired t) (key other : K) (token : Nat) (ne : other ≠ key)
    (mapped : t.keyMap key = some token) (entry : Entry K) (member : entry ∈ t.delayQueue)
    (own : entry.key = other) : entry.token ≠ token := by
  intro equal
  subst equal
  rcases paired.present key entry.token mapped with ⟨mine, inside, same, ofKey⟩
  have equal : mine = entry := List.inj_on_of_nodup_map paired.distinct inside member same
  exact ne (by rw [← own, ← equal, ofKey])

/-- The table with a new deadline in an entry. -/
theorem reset (paired : Paired t) (entry : Entry K) (member : entry ∈ t.delayQueue) (deadline : Nat)
    (map : u.keyMap = t.keyMap)
    (queue : u.delayQueue = Lib.putLast Entry.token { entry with deadline := deadline } t.delayQueue) :
    Paired u where
  distinct := by
    rw [queue]
    exact Lib.nodup_putLast _ t.delayQueue paired.distinct
  known other inside := by
    rw [queue, Lib.mem_putLast] at inside
    rw [map]
    rcases inside with ⟨old, -⟩ | rfl
    · exact paired.known other old
    · exact paired.known entry member
  present key token mapped := by
    rw [map] at mapped
    rcases paired.present key token mapped with ⟨other, inside, ofToken, own⟩
    rw [queue]
    by_cases same : other.token = entry.token
    · obtain rfl : other = entry := List.inj_on_of_nodup_map paired.distinct inside member same
      exact ⟨_, (Lib.mem_putLast ..).mpr (Or.inr rfl), ofToken, own⟩
    · exact ⟨other, (Lib.mem_putLast ..).mpr (Or.inl ⟨inside, same⟩), ofToken, own⟩

end Paired

variable [DecidableEq K]

/-- Drop the timer of a key, as an `Insert` without a time to live and a `Remove` do. -/
def disarm (t : Timers K) (key : K) : Except DelayPanic (Timers K) :=
  match t.keyMap key with
  | none => .ok t
  | some token =>
      match DelayQueue.remove t.delayQueue token with
      | .error panicked => .error panicked
      | .ok queue => .ok { keyMap := Function.update t.keyMap key none, delayQueue := queue }

def rearm (maxDelay : Nat) (t : Timers K) (token now ttl : Nat) : Except DelayPanic (Timers K) :=
  match DelayQueue.reset maxDelay t.delayQueue token now ttl with
  | .error panicked => .error panicked
  | .ok queue => .ok { t with delayQueue := queue }

/-- The command branch of the purge loop. -/
def apply (alloc : TokenAlloc) (maxDelay : Nat) (t : Timers K) (now : Nat) :
    DelayCommand K → Except DelayPanic (Timers K)
  | .insert key none => t.disarm key
  | .insert key (some ttl) =>
      match t.keyMap key with
      | some token => t.rearm maxDelay token now ttl
      | none =>
          match DelayQueue.insert alloc maxDelay t.delayQueue key now ttl with
          | .error panicked => .error panicked
          | .ok (token, queue) =>
              .ok { keyMap := Function.update t.keyMap key (some token), delayQueue := queue }
  | .remove key => t.disarm key
  | .refresh key ttl =>
      match t.keyMap key with
      | some token => t.rearm maxDelay token now ttl
      | none => .ok t

/-- `delay_queue.next()` and `key_map.remove`: the queue yields an entry whose deadline has
passed. -/
def expire (t : Timers K) (token now : Nat) : Option (K × Timers K) :=
  match Lib.findKeyed Entry.token token t.delayQueue with
  | none => none
  | some entry =>
      if entry.deadline ≤ now then
        some (entry.key,
          { keyMap := Function.update t.keyMap entry.key none
            delayQueue := Lib.dropKeyed Entry.token token t.delayQueue })
      else
        none

/-- What a command is for: it sets or drops the deadline of its key. -/
def setDeadline (deadlines : K → Option Nat) (now : Nat) : DelayCommand K → K → Option Nat
  | .insert key ttl => Function.update deadlines key (ttl.map (now + ·))
  | .remove key => Function.update deadlines key none
  | .refresh key ttl => Function.update deadlines key ((deadlines key).map fun _ => now + ttl)

namespace Paired

/-- The table without the timer of a key. -/
theorem drop (paired : Paired t) (key : K) (token : Nat) (mapped : t.keyMap key = some token)
    (map : u.keyMap = Function.update t.keyMap key none)
    (queue : u.delayQueue = Lib.dropKeyed Entry.token token t.delayQueue) : Paired u where
  distinct := by
    rw [queue]
    exact Lib.nodup_dropKeyed token t.delayQueue paired.distinct
  known entry member := by
    rw [queue, Lib.mem_dropKeyed] at member
    rw [map]
    have ne : entry.key ≠ key := by
      intro same
      have known := paired.known entry member.1
      rw [same, mapped] at known
      exact member.2 (Option.some.inj known).symm
    rw [Function.update_of_ne ne]
    exact paired.known entry member.1
  present other found stays := by
    rw [map] at stays
    by_cases same : other = key
    · subst same
      rw [Function.update_self] at stays
      cases stays
    · rw [Function.update_of_ne same] at stays
      rcases paired.present other found stays with ⟨entry, member, ofToken, own⟩
      refine ⟨entry, ?_, ofToken, own⟩
      rw [queue, Lib.mem_dropKeyed]
      exact ⟨member, paired.apart key other token same mapped entry member own⟩

theorem drop_deadlines (paired : Paired t) (key : K) (token : Nat)
    (mapped : t.keyMap key = some token) (map : u.keyMap = Function.update t.keyMap key none)
    (queue : u.delayQueue = Lib.dropKeyed Entry.token token t.delayQueue) :
    u.deadlines = Function.update t.deadlines key none := by
  funext other
  by_cases same : other = key
  · subst same
    rw [Function.update_self, deadlines, map, Function.update_self]
  · rw [Function.update_of_ne same, deadlines, map, Function.update_of_ne same, deadlines]
    cases found : t.keyMap other with
    | none => rfl
    | some theirs =>
        have ne : theirs ≠ token := by
          intro equal
          subst equal
          rcases paired.present other theirs found with ⟨entry, member, ofToken, own⟩
          exact paired.apart key other theirs same mapped entry member own ofToken
        simp only [queue]
        rw [Lib.findKeyed_dropKeyed_of_ne token theirs t.delayQueue ne]

theorem reset_deadlines (paired : Paired t) (entry : Entry K) (member : entry ∈ t.delayQueue)
    (deadline : Nat) (map : u.keyMap = t.keyMap)
    (queue : u.delayQueue = Lib.putLast Entry.token { entry with deadline := deadline } t.delayQueue) :
    u.deadlines = Function.update t.deadlines entry.key (some deadline) := by
  funext other
  rw [deadlines, map, queue]
  by_cases same : other = entry.key
  · subst same
    rw [Function.update_self, paired.known entry member]
    have found : Lib.findKeyed Entry.token entry.token _ = some { entry with deadline := deadline } :=
      Lib.findKeyed_putLast_self { entry with deadline := deadline } t.delayQueue
    simp only [found, Option.map_some]
  · rw [Function.update_of_ne same, deadlines]
    cases found : t.keyMap other with
    | none => rfl
    | some theirs =>
        have ne : theirs ≠ entry.token := by
          intro equal
          subst equal
          rcases paired.present other _ found with ⟨holder, inside, ofToken, own⟩
          exact paired.apart entry.key other _ same (paired.known entry member) holder inside own ofToken
        simp only
        rw [Lib.findKeyed_putLast_of_ne { entry with deadline := deadline } t.delayQueue theirs ne]

/-- The table with a first timer for a key. -/
theorem arm (paired : Paired t) (entry : Entry K) (unmapped : t.keyMap entry.key = none)
    (fresh : entry.token ∉ t.delayQueue.map Entry.token)
    (map : u.keyMap = Function.update t.keyMap entry.key (some entry.token))
    (queue : u.delayQueue = t.delayQueue ++ [entry]) : Paired u where
  distinct := by
    rw [queue, List.map_append, List.nodup_append]
    refine ⟨paired.distinct, List.nodup_singleton entry.token, ?_⟩
    intro token inside other single equal
    subst equal
    exact fresh (List.mem_singleton.mp single ▸ inside)
  known other inside := by
    rw [queue, List.mem_append, List.mem_singleton] at inside
    rw [map]
    rcases inside with old | rfl
    · have ne : other.key ≠ entry.key := by
        intro same
        have known := paired.known other old
        rw [same, unmapped] at known
        cases known
      rw [Function.update_of_ne ne]
      exact paired.known other old
    · rw [Function.update_self]
  present key token mapped := by
    rw [map] at mapped
    rw [queue]
    by_cases same : key = entry.key
    · subst same
      rw [Function.update_self] at mapped
      exact ⟨entry, by simp, Option.some.inj mapped, rfl⟩
    · rw [Function.update_of_ne same] at mapped
      rcases paired.present key token mapped with ⟨other, inside, ofToken, own⟩
      exact ⟨other, List.mem_append_left _ inside, ofToken, own⟩

theorem arm_deadlines (paired : Paired t) (entry : Entry K)
    (fresh : entry.token ∉ t.delayQueue.map Entry.token)
    (map : u.keyMap = Function.update t.keyMap entry.key (some entry.token))
    (queue : u.delayQueue = t.delayQueue ++ [entry]) :
    u.deadlines = Function.update t.deadlines entry.key (some entry.deadline) := by
  have absent : Lib.findKeyed Entry.token entry.token t.delayQueue = none := by
    rw [Lib.findKeyed_eq_none_iff]
    rintro other inside same
    exact fresh (List.mem_map.mpr ⟨other, inside, same⟩)
  funext other
  rw [deadlines, map, queue]
  by_cases same : other = entry.key
  · subst same
    rw [Function.update_self, Function.update_self]
    simp only [Lib.findKeyed] at absent
    simp [Lib.findKeyed, List.find?_append, absent]
  · rw [Function.update_of_ne same, Function.update_of_ne same, deadlines]
    cases found : t.keyMap other with
    | none => rfl
    | some theirs =>
        rcases paired.find other theirs found with ⟨holder, known, -, -, -⟩
        simp only [Lib.findKeyed] at known
        simp [Lib.findKeyed, List.find?_append, known]

theorem disarm (paired : Paired t) (key : K) (done : t.disarm key = .ok u) :
    Paired u ∧ u.deadlines = Function.update t.deadlines key none := by
  simp only [Timers.disarm] at done
  split at done
  · next unmapped =>
      cases done
      have unset : t.deadlines key = none := by rw [deadlines, unmapped]
      exact ⟨paired, by rw [← unset, Function.update_eq_self]⟩
  · next token mapped =>
      rcases paired.find key token mapped with ⟨entry, found, -, -, -⟩
      simp only [DelayQueue.remove, found] at done
      cases done
      exact ⟨paired.drop key token mapped rfl rfl, paired.drop_deadlines key token mapped rfl rfl⟩

theorem rearm (maxDelay : Nat) (paired : Paired t) (key : K) (token now ttl : Nat)
    (mapped : t.keyMap key = some token) (done : t.rearm maxDelay token now ttl = .ok u) :
    Paired u ∧ u.deadlines = Function.update t.deadlines key (some (now + ttl)) := by
  rcases paired.find key token mapped with ⟨entry, found, member, -, rfl⟩
  simp only [Timers.rearm, DelayQueue.reset, found] at done
  split_ifs at done with far
  cases done
  exact ⟨paired.reset entry member (now + ttl) rfl rfl,
    paired.reset_deadlines entry member (now + ttl) rfl rfl⟩

/-- A command that does not panic sets the deadline of its key and no other. -/
theorem apply (alloc : TokenAlloc) (maxDelay : Nat) (paired : Paired t) (now : Nat)
    (command : DelayCommand K) (done : t.apply alloc maxDelay now command = .ok u) :
    Paired u ∧ u.deadlines = setDeadline t.deadlines now command := by
  cases command with
  | insert key ttl =>
      cases ttl with
      | none => exact paired.disarm key done
      | some ttl =>
          simp only [Timers.apply] at done
          split at done
          · next token mapped => exact paired.rearm maxDelay key token now ttl mapped done
          · next unmapped =>
              simp only [DelayQueue.insert] at done
              split_ifs at done with far
              cases done
              have fresh := alloc.fresh (t.delayQueue.map Entry.token)
              let entry : Entry K :=
                { token := alloc.next (t.delayQueue.map Entry.token), key := key, deadline := now + ttl }
              exact ⟨paired.arm entry unmapped fresh rfl rfl, paired.arm_deadlines entry fresh rfl rfl⟩
  | remove key => exact paired.disarm key done
  | refresh key ttl =>
      simp only [Timers.apply] at done
      split at done
      · next token mapped =>
          obtain ⟨next, moved⟩ := paired.rearm maxDelay key token now ttl mapped done
          rcases paired.find key token mapped with ⟨entry, found, -, -, -⟩
          refine ⟨next, moved.trans ?_⟩
          simp [setDeadline, deadlines, mapped, found]
      · next unmapped =>
          cases done
          refine ⟨paired, ?_⟩
          simp [setDeadline, deadlines, unmapped]

theorem disarm_ne_error (paired : Paired t) (key : K) (panicked : DelayPanic) :
    t.disarm key ≠ .error panicked := by
  intro refused
  simp only [Timers.disarm] at refused
  split at refused
  · cases refused
  · next token mapped =>
      rcases paired.find key token mapped with ⟨entry, found, -, -, -⟩
      simp only [DelayQueue.remove, found] at refused
      cases refused

omit [DecidableEq K] in
theorem rearm_error (maxDelay : Nat) (paired : Paired t) (key : K) (token now ttl : Nat)
    (mapped : t.keyMap key = some token) (panicked : DelayPanic)
    (refused : t.rearm maxDelay token now ttl = .error panicked) :
    panicked = .tooFar ∧ maxDelay < ttl := by
  rcases paired.find key token mapped with ⟨entry, found, -, -, -⟩
  simp only [Timers.rearm, DelayQueue.reset, found] at refused
  split_ifs at refused with far
  cases refused
  exact ⟨rfl, far⟩

/-- The queue panics only at a delay that it does not support, and never for a token. -/
theorem apply_tooFar (alloc : TokenAlloc) (maxDelay : Nat) (paired : Paired t) (now : Nat)
    (command : DelayCommand K) (panicked : DelayPanic)
    (failed : t.apply alloc maxDelay now command = .error panicked) :
    panicked = .tooFar ∧
      ∃ key ttl, (command = .insert key (some ttl) ∨ command = .refresh key ttl) ∧ maxDelay < ttl := by
  cases command with
  | insert key ttl =>
      cases ttl with
      | none => exact absurd failed (paired.disarm_ne_error key panicked)
      | some ttl =>
          simp only [Timers.apply] at failed
          split at failed
          · next token mapped =>
              obtain ⟨why, far⟩ := paired.rearm_error maxDelay key token now ttl mapped panicked failed
              exact ⟨why, key, ttl, Or.inl rfl, far⟩
          · simp only [DelayQueue.insert] at failed
            split_ifs at failed with far
            cases failed
            exact ⟨rfl, key, ttl, Or.inl rfl, far⟩
  | remove key => exact absurd failed (paired.disarm_ne_error key panicked)
  | refresh key ttl =>
      simp only [Timers.apply] at failed
      split at failed
      · next token mapped =>
          obtain ⟨why, far⟩ := paired.rearm_error maxDelay key token now ttl mapped panicked failed
          exact ⟨why, key, ttl, Or.inr rfl, far⟩
      · cases failed

/-- An expiry is that of a due timer, which it uses up. -/
theorem expire (paired : Paired t) (token now : Nat) (key : K)
    (yielded : t.expire token now = some (key, u)) :
    Paired u ∧ u.deadlines = Function.update t.deadlines key none ∧
      ∃ deadline, t.deadlines key = some deadline ∧ deadline ≤ now := by
  simp only [Timers.expire] at yielded
  split at yielded
  · cases yielded
  · next entry found =>
      split_ifs at yielded with due
      cases yielded
      obtain ⟨member, rfl⟩ :=
        (Lib.findKeyed_eq_some_iff token t.delayQueue paired.distinct entry).mp found
      have mapped := paired.known entry member
      refine ⟨paired.drop entry.key entry.token mapped rfl rfl,
        paired.drop_deadlines entry.key entry.token mapped rfl rfl, entry.deadline, ?_, due⟩
      simp only [deadlines, mapped, found, Option.map_some]

end Paired

end Timers

end Pigs.Cache.Delay
