import Pigs.Cache.Delay.Links

/-! When the purge task takes values out of the map. -/

namespace Pigs.Cache.Delay

namespace DelayCache

variable {K : Type}

/-- The value has outlived its time to live. -/
def Due (value : CachedValue) (now : Nat) : Prop :=
  ∃ ttl, value.ttl = some ttl ∧ value.inserted + ttl ≤ now

/-- `armed` and `expiring` are about a value whose insert command is the last one applied. -/
structure Timely (c : Setting K) (s : DelayCache K) : Prop extends Linked c s where
  armed : ∀ key value deadline, s.map key = some value → s.applied key = some value.id →
    s.timers.deadlines key = some deadline → Due value deadline
  expiring : ∀ key value, s.purge = .expiring key → s.map key = some value →
    s.applied key = some value.id → Due value s.now
  handing : ∀ value, s.purge = .handing value → Due value s.now
  taken : ∀ entry ∈ s.taken, Due entry.2 entry.1
  handed : ∀ entry ∈ s.handed, Due entry.2 entry.1

/-- An expiry takes a value out of the map only if the last insert command applied for its key is
the one of that value. -/
def Current [DecidableEq K] (s : DelayCache K) (act : CacheAct K) : Prop :=
  ∀ key value, act = .advancePurge → s.purge = .expiring key → s.locked key = false →
    s.map key = some value → s.applied key = some value.id

/-- What expiries took out of the map, and what was handed on to its `expire_call`, had a time to
live that had passed. -/
def NeverEarly (s : DelayCache K) : Prop :=
  (∀ entry ∈ s.taken, Due entry.2 entry.1) ∧ ∀ entry ∈ s.handed, Due entry.2 entry.1

variable {c : Setting K} {s t : DelayCache K}

theorem Due.later {value : CachedValue} {now later : Nat} (due : Due value now) (after : now ≤ later) :
    Due value later := by
  rcases due with ⟨ttl, own, passed⟩
  exact ⟨ttl, own, passed.trans after⟩

namespace Timely

theorem init : Timely c (DelayCache.init : DelayCache K) where
  toLinked := Linked.init
  armed := nofun
  expiring := nofun
  handing := nofun
  taken := nofun
  handed := nofun

variable [DecidableEq K]

theorem erase (inv : Timely c s) (key : K) (free : s.locked key = false) :
    Timely c (s.setMap key none) where
  toLinked := inv.toLinked.erase key free
  armed other value deadline stored :=
    inv.armed other value deadline (map_of_erased key other value stored)
  expiring other value expiring stored :=
    inv.expiring other value expiring (map_of_erased key other value stored)
  handing := inv.handing
  taken := inv.taken
  handed := inv.handed

/-- A new value is bound by nothing the purge task has seen, since its command is not sent. -/
theorem write (inv : Timely c s) (id : Nat) (key : K) (ttl : Option Nat)
    (start : s.calls id = .start)
    (linked : Linked c
      ((s.setMap key (some { id := id, ttl := ttl, inserted := s.now })).setCall id .sending)) :
    Timely c
      ((s.setMap key (some { id := id, ttl := ttl, inserted := s.now })).setCall id .sending) := by
  have pending : ∀ other, s.applied other ≠ some id := by
    intro other applied
    rcases (inv.applied other id applied).1 with ⟨value, returned⟩
    rw [start] at returned
    cases returned
  refine { linked, inv with armed := ?_, expiring := ?_ }
  · intro other value deadline stored applied
    rcases map_of_put key other value _ stored with ⟨rfl, rfl⟩ | old
    · exact absurd applied (pending other)
    · exact inv.armed other value deadline old applied
  · intro other value expiring stored applied
    rcases map_of_put key other value _ stored with ⟨rfl, rfl⟩ | old
    · exact absurd applied (pending other)
    · exact inv.expiring other value expiring old applied

/-- For a value whose insert is the last one applied the new deadline is never too early. -/
theorem applyDone (inv : Timely c s) (id : Nat) (command : DelayCommand K)
    (rest : List (Nat × DelayCommand K)) (timers : Timers K) (selecting : s.purge = .selecting)
    (channel : s.channel = (id, command) :: rest)
    (done : s.timers.apply c.alloc c.maxDelay s.now command = .ok timers) :
    Timely c (s.applyDone id command rest timers) := by
  have linked := inv.toLinked.applyDone id command rest timers channel done
  have moved := (inv.paired.apply c.alloc c.maxDelay s.now command done).2
  refine { linked, inv with armed := ?_, expiring := ?_ }
  · intro other value deadline stored applied due
    simp only [DelayCache.applyDone, moved] at due
    cases command with
    | insert key ttl =>
        simp only [DelayCache.applyDone] at applied
        by_cases same : other = key
        · subst same
          rw [Function.update_self] at applied
          cases applied
          rcases inv.stored other value stored with ⟨theirs, past, -⟩
          have head : (value.id, .insert other ttl) ∈ s.channel := by
            rw [channel]
            exact List.mem_cons_self ..
          rw [(inv.inserts _ other ttl head).1] at theirs
          cases theirs
          rw [Timers.setDeadline, Function.update_self] at due
          rcases Option.map_eq_some_iff.mp due with ⟨length, given, rfl⟩
          exact ⟨length, given, Nat.add_le_add_right past length⟩
        · rw [Function.update_of_ne same] at applied
          rw [Timers.setDeadline, Function.update_of_ne same] at due
          exact inv.armed other value deadline stored applied due
    | remove key =>
        by_cases same : other = key
        · subst same
          rw [Timers.setDeadline, Function.update_self] at due
          cases due
        · rw [Timers.setDeadline, Function.update_of_ne same] at due
          exact inv.armed other value deadline stored applied due
    | refresh key ttl =>
        by_cases same : other = key
        · subst same
          rw [Timers.setDeadline, Function.update_self] at due
          rcases Option.map_eq_some_iff.mp due with ⟨-, -, rfl⟩
          rcases linked.applied other value.id applied with ⟨sent, absent⟩
          have given := inv.ordered other value stored sent [] id ttl rest channel absent
          exact ⟨ttl, given, Nat.add_le_add_right (inv.stored other value stored).2.1 ttl⟩
        · rw [Timers.setDeadline, Function.update_of_ne same] at due
          exact inv.armed other value deadline stored applied due
  · intro other value expiring
    have never := selecting.symm.trans expiring
    cases never

/-- The entry of a due timer becomes the one to expire. -/
theorem expire (inv : Timely c s) (token : Nat) (key : K) (timers : Timers K)
    (yielded : s.timers.expire token s.now = some (key, timers))
    (linked : Linked c { s with timers := timers, purge := .expiring key }) :
    Timely c { s with timers := timers, purge := .expiring key } := by
  obtain ⟨-, moved, deadline, set, passed⟩ := inv.paired.expire token s.now key yielded
  refine { linked, inv with armed := ?_, expiring := ?_, handing := nofun }
  · intro other value time stored applied due
    simp only [moved] at due
    by_cases same : other = key
    · subst same
      rw [Function.update_self] at due
      cases due
    · rw [Function.update_of_ne same] at due
      exact inv.armed other value time stored applied due
  · intro other value expiring stored applied
    cases expiring
    exact (inv.armed key value deadline stored applied set).later passed

theorem take (inv : Timely c s) (key : K) (value : CachedValue) (free : s.locked key = false)
    (due : Due value s.now) :
    Timely c
      { s.setMap key none with taken := s.taken ++ [(s.now, value)], purge := .handing value } := by
  have gone := inv.erase key free
  have linked := gone.toLinked.park (.handing value) nofun nofun
  refine
    { linked, gone with
      expiring := nofun
      handing := ?_
      taken := ?_ }
  · intro other handing
    cases handing
    exact due
  · intro entry member
    rcases List.mem_append.mp member with old | last
    · exact inv.taken entry old
    · obtain rfl := List.mem_singleton.mp last
      exact due

theorem move (inv : Timely c s) (act : CacheAct K) (move : Move c s act t)
    (current : s.Current act) : Timely c t := by
  have linked := inv.toLinked.move act move
  cases move with
  | stay => exact inv
  | wait => exact inv
  | idle => exact inv
  | tick elapsed =>
      have later : s.now ≤ s.now + elapsed := Nat.le_add_right ..
      refine { linked, inv with expiring := ?_, handing := ?_ }
      · intro key value expiring stored applied
        exact (inv.expiring key value expiring stored applied).later later
      · intro value handing
        exact (inv.handing value handing).later later
  | call id idle => exact { linked, inv with }
  | write id key ttl own start free => exact inv.write id key ttl start linked
  | sendInsert id key ttl own sending =>
      rcases s.send_eq id (.insert key ttl) with ⟨channel, same⟩
      rw [same] at linked ⊢
      exact { linked, inv with }
  | sendRemove id key own start =>
      rcases s.send_eq id (.remove key) with ⟨channel, same⟩
      rw [same] at linked ⊢
      exact { linked, inv with }
  | remove id key own removing free => exact { linked, inv.erase key free with }
  | refreshNothing id key own start absent => exact { linked, inv with }
  | guard id key value own start stored => exact { linked, inv with }
  | sendRefresh id key ttl own held =>
      rcases s.send_eq id (.refresh key ttl) with ⟨channel, same⟩
      rw [same] at linked ⊢
      exact { linked, inv with }
  | keepTimer id key own held => exact { linked, inv with }
  | release id key own releasing => exact { linked, inv with }
  | apply id command rest timers selecting channel done =>
      exact inv.applyDone id command rest timers selecting channel done
  | panic => exact { linked, inv with expiring := nofun, handing := nofun }
  | expire token key timers selecting yielded => exact inv.expire token key timers yielded linked
  | takeNothing => exact { linked, inv with expiring := nofun, handing := nofun }
  | take key value expiring free stored =>
      have due := inv.expiring key value expiring stored
        (current key value rfl expiring free stored)
      exact inv.take key value free due
  | hand value handing =>
      have due := inv.handing value handing
      refine
        { linked, inv with
          expiring := nofun
          handing := nofun
          handed := ?_ }
      intro entry member
      rcases List.mem_append.mp member with old | last
      · exact inv.handed entry old
      · obtain rfl := List.mem_singleton.mp last
        exact due
  | stop => exact { linked, inv with expiring := nofun, handing := nofun }
  | cancel => exact { linked, inv with }
  | leave =>
      exact
        { linked, inv with
          armed := nofun
          expiring := nofun
          handing := nofun }
  | clear key clearing free => exact inv.erase key free

theorem run (inv : Timely c s) (acts : List (CacheAct K))
    (current : Lib.Along (DelayCache.step c) Current s acts) : Timely c (s.run c acts) :=
  Lib.invariant_along (DelayCache.step c) (Timely c)
    (fun s act allowed inner => inner.move act (s.step_move c act) allowed) s acts current inv

end Timely

/-- In every run whose expiries take only values that the timer table has caught up with, no value
is taken out before its time, and none without a time to live. -/
theorem expiries_never_early [DecidableEq K] (c : Setting K) (acts : List (CacheAct K))
    (current : Lib.Along (step c) Current init acts) : (init.run c acts).NeverEarly := by
  have inv : Timely c (init.run c acts) := Timely.init.run acts current
  exact ⟨inv.taken, inv.handed⟩

/-- Tokens counted up. -/
def successorAlloc : TokenAlloc where
  next used := used.foldr (fun token next => max (token + 1) next) 0
  fresh used := by
    have above : ∀ token ∈ used, token < used.foldr (fun token next => max (token + 1) next) 0 := by
      induction used with
      | nil => exact nofun
      | cons head rest ih =>
          intro token member
          rcases List.mem_cons.mp member with rfl | inside
          · calc token < token + 1 := Nat.lt_succ_self token
              _ ≤ _ := le_max_left ..
          · calc token < rest.foldr (fun token next => max (token + 1) next) 0 := ih token inside
              _ ≤ _ := le_max_right ..
    intro member
    exact lt_irrefl _ (above _ member)

/-- Call 0 inserts with one unit to live, call 1 with a hundred, call 2 without end. -/
def replacing : Setting String where
  alloc := successorAlloc
  maxDelay := 1000
  request id := .insert "k" (if id = 0 then some 1 else if id = 1 then some 100 else none)

/-- A replaced value that expires at its own time. -/
theorem expiries_never_early_replaced :
    let acts : List (CacheAct String) := [.call 0, .advance 0, .advance 0, .call 1, .advance 1,
      .advance 1, .command, .command, .tick 100, .expire 0, .advancePurge, .advancePurge]
    let s := init.run replacing acts
    s.handed = [(100, { id := 1, ttl := some 100, inserted := 0 })] ∧ s.NeverEarly := by
  intro acts s
  refine ⟨rfl, expiries_never_early replacing acts ?_⟩
  refine ⟨nofun, nofun, nofun, nofun, nofun, nofun, nofun, nofun, nofun, nofun, ?_, ?_, trivial⟩
  · intro key value _ expiring _ stored
    cases expiring
    cases stored
    rfl
  · intro key value _ expiring
    cases expiring

/-- The timer of a replaced value is due, and its expiry takes the new value out of the map before
the new insert command has been sent. -/
theorem expires_early_after_replace :
    let front : List (CacheAct String) := [.call 0, .advance 0, .advance 0, .command, .tick 1]
    let back : List (CacheAct String) := [.expire 0, .advancePurge, .advancePurge]
    let s := init.run replacing (front ++ [.call 1, .advance 1] ++ back)
    let t := init.run replacing (front ++ [.call 2, .advance 2] ++ back)
    s.handed = [(1, { id := 1, ttl := some 100, inserted := 1 })] ∧ ¬ s.NeverEarly ∧
      t.handed = [(1, { id := 2, ttl := none, inserted := 1 })] ∧ ¬ t.NeverEarly := by
  intro front back s t
  have early : s.handed = [(1, { id := 1, ttl := some 100, inserted := 1 })] := rfl
  have endless : t.handed = [(1, { id := 2, ttl := none, inserted := 1 })] := rfl
  refine ⟨early, ?_, endless, ?_⟩
  · intro found
    rcases found with ⟨-, due⟩
    rw [early] at due
    rcases due _ (List.mem_singleton.mpr rfl) with ⟨ttl, given, passed⟩
    cases given
    exact absurd passed (by decide)
  · intro found
    rcases found with ⟨-, due⟩
    rw [endless] at due
    rcases due _ (List.mem_singleton.mpr rfl) with ⟨ttl, given, -⟩
    cases given

end DelayCache

end Pigs.Cache.Delay
