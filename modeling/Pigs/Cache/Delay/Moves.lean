import Pigs.Cache.Delay.Store

/-! What one step of the cache can do. -/

namespace Pigs.Cache.Delay

namespace DelayCache

variable {K : Type} [DecidableEq K]

/-- The purge task has taken a command from the channel and applied it. -/
def applyDone (s : DelayCache K) (id : Nat) (command : DelayCommand K)
    (rest : List (Nat × DelayCommand K)) (timers : Timers K) : DelayCache K :=
  { s with
    channel := rest
    timers := timers
    applied :=
      match command with
      | .insert key _ => Function.update s.applied key (some id)
      | _ => s.applied }

inductive Move (c : Setting K) (s : DelayCache K) : CacheAct K → DelayCache K → Prop
  | stay (act : CacheAct K) (noCall : ∀ id, act ≠ .advance id) (noCommand : act ≠ .command) :
      Move c s act s
  | wait (id : Nat) (blocked : ∀ key ttl, c.request id = .insert key ttl → s.calls id = .start →
      s.locked key = true) : Move c s (.advance id) s
  | idle (nothing : s.purge = .selecting → s.channel = []) : Move c s .command s
  | tick (elapsed : Nat) : Move c s (.tick elapsed) { s with now := s.now + elapsed }
  | call (id : Nat) (idle : s.calls id = .idle) : Move c s (.call id) (s.setCall id .start)
  | write (id : Nat) (key : K) (ttl : Option Nat) (own : c.request id = .insert key ttl)
      (start : s.calls id = .start) (free : s.locked key = false) :
      Move c s (.advance id)
        ((s.setMap key (some { id := id, ttl := ttl, inserted := s.now })).setCall id .sending)
  | sendInsert (id : Nat) (key : K) (ttl : Option Nat) (own : c.request id = .insert key ttl)
      (sending : s.calls id = .sending) :
      Move c s (.advance id) ((s.send id (.insert key ttl)).setCall id (.returned none))
  | sendRemove (id : Nat) (key : K) (own : c.request id = .remove key)
      (start : s.calls id = .start) :
      Move c s (.advance id) ((s.send id (.remove key)).setCall id .removing)
  | remove (id : Nat) (key : K) (own : c.request id = .remove key)
      (removing : s.calls id = .removing) (free : s.locked key = false) :
      Move c s (.advance id) ((s.setMap key none).setCall id (.returned (s.map key)))
  | refreshNothing (id : Nat) (key : K) (own : c.request id = .refresh key)
      (start : s.calls id = .start) (absent : s.map key = none) :
      Move c s (.advance id) (s.setCall id (.returned none))
  | guard (id : Nat) (key : K) (value : CachedValue) (own : c.request id = .refresh key)
      (start : s.calls id = .start) (stored : s.map key = some value) :
      Move c s (.advance id)
        ({ s with guards := (id, key) :: s.guards }.setCall id (.guarded value.ttl))
  | sendRefresh (id : Nat) (key : K) (ttl : Nat) (own : c.request id = .refresh key)
      (held : s.calls id = .guarded (some ttl)) :
      Move c s (.advance id) ((s.send id (.refresh key ttl)).setCall id .releasing)
  | keepTimer (id : Nat) (key : K) (own : c.request id = .refresh key)
      (held : s.calls id = .guarded none) : Move c s (.advance id) (s.setCall id .releasing)
  | release (id : Nat) (key : K) (own : c.request id = .refresh key)
      (releasing : s.calls id = .releasing) :
      Move c s (.advance id)
        ({ s with guards := s.guards.filter fun guard => guard.1 ≠ id }.setCall id (.returned none))
  | apply (id : Nat) (command : DelayCommand K) (rest : List (Nat × DelayCommand K))
      (timers : Timers K) (selecting : s.purge = .selecting)
      (channel : s.channel = (id, command) :: rest)
      (done : s.timers.apply c.alloc c.maxDelay s.now command = .ok timers) :
      Move c s .command (s.applyDone id command rest timers)
  | panic (id : Nat) (command : DelayCommand K) (rest : List (Nat × DelayCommand K))
      (panicked : DelayPanic) (selecting : s.purge = .selecting)
      (channel : s.channel = (id, command) :: rest)
      (failed : s.timers.apply c.alloc c.maxDelay s.now command = .error panicked) :
      Move c s .command { s with channel := [], purge := .panicked }
  | expire (token : Nat) (key : K) (timers : Timers K) (selecting : s.purge = .selecting)
      (yielded : s.timers.expire token s.now = some (key, timers)) :
      Move c s (.expire token) { s with timers := timers, purge := .expiring key }
  | takeNothing (key : K) (expiring : s.purge = .expiring key) (free : s.locked key = false)
      (absent : s.map key = none) : Move c s .advancePurge { s with purge := .selecting }
  | take (key : K) (value : CachedValue) (expiring : s.purge = .expiring key)
      (free : s.locked key = false) (stored : s.map key = some value) :
      Move c s .advancePurge
        { s.setMap key none with taken := s.taken ++ [(s.now, value)], purge := .handing value }
  | hand (value : CachedValue) (handing : s.purge = .handing value) :
      Move c s .advancePurge
        { s with handed := s.handed ++ [(s.now, value)], purge := .selecting }
  | stop (clearing : s.purge = .clearing) :
      Move c s .advancePurge { s with channel := [], purge := .stopped }
  | cancel : Move c s .cancel { s with cancelled := true }
  | leave (selecting : s.purge = .selecting) (cancelled : s.cancelled = true) :
      Move c s .leave { s with timers := Timers.new, purge := .clearing }
  | clear (key : K) (clearing : s.purge = .clearing) (free : s.locked key = false) :
      Move c s (.clear key) (s.setMap key none)

variable (c : Setting K) (s : DelayCache K)

theorem advance_move (id : Nat) : Move c s (.advance id) (s.advance c id) := by
  have noInsert : (∀ key ttl, c.request id ≠ .insert key ttl) → ∀ key ttl,
      c.request id = .insert key ttl → s.calls id = .start → s.locked key = true :=
    fun never key ttl own => absurd own (never key ttl)
  cases own : c.request id with
  | insert key ttl =>
      simp only [advance, own, advanceInsert]
      split
      · next start =>
          split_ifs with busy
          · apply Move.wait id
            intro other given theirs _
            rw [own] at theirs
            cases theirs
            exact busy
          · exact .write id key ttl own start (Bool.eq_false_iff.mpr busy)
      · next sending => exact .sendInsert id key ttl own sending
      · next notStart _ => exact .wait id fun _ _ _ start => absurd start notStart
  | remove key =>
      simp only [advance, own, advanceRemove]
      split
      · next start => exact .sendRemove id key own start
      · next removing =>
          split_ifs with busy
          · exact .wait id (noInsert (by rw [own]; exact nofun))
          · exact .remove id key own removing (Bool.eq_false_iff.mpr busy)
      · exact .wait id (noInsert (by rw [own]; exact nofun))
  | refresh key =>
      simp only [advance, own, advanceRefresh]
      split
      · next start =>
          split
          · next absent => exact .refreshNothing id key own start absent
          · next value stored => exact .guard id key value own start stored
      · next ttl held => exact .sendRefresh id key ttl own held
      · next held => exact .keepTimer id key own held
      · next releasing => exact .release id key own releasing
      · exact .wait id (noInsert (by rw [own]; exact nofun))

theorem command_move : Move c s .command (s.command c) := by
  simp only [DelayCache.command]
  split
  · next id command rest selecting channel =>
      simp only [DelayCache.apply]
      split
      · next panicked failed => exact .panic id command rest panicked selecting channel failed
      · next timers done =>
          have move := Move.apply (c := c) id command rest timers selecting channel done
          cases command with
          | insert key ttl => exact move
          | remove key => exact move
          | refresh key ttl => exact move
  · next none_ready =>
      apply Move.idle
      intro selecting
      cases channel : s.channel with
      | nil => rfl
      | cons item rest => exact absurd channel (none_ready item.1 item.2 rest selecting)

theorem advancePurge_move : Move c s .advancePurge s.advancePurge := by
  simp only [advancePurge]
  split
  · next key expiring =>
      split_ifs with busy
      · exact .stay _ nofun nofun
      · have free : s.locked key = false := Bool.eq_false_iff.mpr busy
        split
        · next absent => exact .takeNothing key expiring free absent
        · next value stored => exact .take key value expiring free stored
  · next value handing => exact .hand value handing
  · next clearing => exact .stop clearing
  · exact .stay _ nofun nofun

theorem step_move (act : CacheAct K) : Move c s act (s.step c act) := by
  cases act with
  | tick elapsed => exact .tick elapsed
  | call id =>
      simp only [step]
      split
      · next idle => exact .call id idle
      · exact .stay _ nofun nofun
  | advance id => exact s.advance_move c id
  | command => exact s.command_move c
  | expire token =>
      simp only [step, DelayCache.expire]
      split
      · next selecting =>
          split
          · exact .stay _ nofun nofun
          · next key timers yielded => exact .expire token key timers selecting yielded
      · exact .stay _ nofun nofun
  | advancePurge => exact s.advancePurge_move c
  | cancel => exact .cancel
  | leave =>
      simp only [step]
      split
      · next selecting =>
          split_ifs with cancelled
          · exact .leave selecting cancelled
          · exact .stay _ nofun nofun
      · exact .stay _ nofun nofun
  | clear key =>
      simp only [step]
      split
      · next clearing =>
          split_ifs with busy
          · exact .stay _ nofun nofun
          · exact .clear key clearing (Bool.eq_false_iff.mpr busy)
      · exact .stay _ nofun nofun

end DelayCache

end Pigs.Cache.Delay
