import Pigs.Cache.Delay.Moves

/-! How the map, the calls, the channel and the timers hang together on every run. -/

namespace Pigs.Cache.Delay

/-- The call has put no value into the map. -/
def CallPc.Unwritten : CallPc → Prop
  | .sending => False
  | .returned _ => False
  | _ => True

namespace DelayCache

variable {K : Type}

/-- An insert call has sent its command. -/
def Sent (s : DelayCache K) (id : Nat) : Prop := ∃ value, s.calls id = .returned value

def insertIds (channel : List (Nat × DelayCommand K)) : List Nat :=
  channel.filterMap fun item =>
    match item.2 with
    | .insert _ _ => some item.1
    | _ => none

/-- A refresh that the purge task takes after the insert command of the stored value has the time
to live of that value. -/
def Ordered (s : DelayCache K) : Prop :=
  ∀ key value, s.map key = some value → s.Sent value.id →
    ∀ front id ttl back, s.channel = front ++ (id, .refresh key ttl) :: back →
      value.id ∉ insertIds back → value.ttl = some ttl

structure Linked (c : Setting K) (s : DelayCache K) : Prop where
  paired : s.timers.Paired
  stored : ∀ key value, s.map key = some value → c.request value.id = .insert key value.ttl ∧
    value.inserted ≤ s.now ∧ (s.calls value.id = .sending ∨ s.Sent value.id)
  guarded : ∀ id key ttl, c.request id = .refresh key → s.calls id = .guarded ttl →
    (id, key) ∈ s.guards ∧ ∃ value, s.map key = some value ∧ value.ttl = ttl
  inserts : ∀ id key ttl, (id, .insert key ttl) ∈ s.channel →
    c.request id = .insert key ttl ∧ s.Sent id
  once : (insertIds s.channel).Nodup
  closed : s.purge = .stopped ∨ s.purge = .panicked → s.channel = []
  applied : ∀ key id, s.applied key = some id → s.Sent id ∧ id ∉ insertIds s.channel
  ordered : s.Ordered

variable {c : Setting K} {s t : DelayCache K}

theorem insertIds_append (front back : List (Nat × DelayCommand K)) :
    insertIds (front ++ back) = insertIds front ++ insertIds back :=
  List.filterMap_append

theorem mem_insertIds (channel : List (Nat × DelayCommand K)) (id : Nat) :
    id ∈ insertIds channel ↔ ∃ key ttl, (id, .insert key ttl) ∈ channel := by
  simp only [insertIds, List.mem_filterMap]
  constructor
  · intro found
    rcases found with ⟨⟨sender, command⟩, member, own⟩
    cases command with
    | insert key ttl =>
        cases own
        exact ⟨key, ttl, member⟩
    | remove key => cases own
    | refresh key ttl => cases own
  · intro found
    rcases found with ⟨key, ttl, member⟩
    exact ⟨_, member, rfl⟩

theorem insertIds_plain (id : Nat) (command : DelayCommand K)
    (plain : ∀ key ttl, command ≠ .insert key ttl) : insertIds [(id, command)] = [] := by
  cases command with
  | insert key ttl => exact absurd rfl (plain key ttl)
  | remove key => rfl
  | refresh key ttl => rfl

/-- A split of a longer channel is a split of the channel or ends in the new command. -/
theorem split_concat (channel front back : List (Nat × DelayCommand K))
    (last item : Nat × DelayCommand K) (split : channel ++ [last] = front ++ item :: back) :
    (∃ rest, back = rest ++ [last] ∧ channel = front ++ item :: rest) ∨
      (back = [] ∧ item = last) := by
  cases back using List.reverseRecOn with
  | nil =>
      rcases List.append_inj' split rfl with ⟨-, same⟩
      exact Or.inr ⟨rfl, (List.singleton_inj.mp same).symm⟩
  | append_singleton rest end_ =>
      rw [← List.cons_append, ← List.append_assoc] at split
      rcases List.append_inj' split rfl with ⟨same, ends⟩
      exact Or.inl ⟨rest, by rw [List.singleton_inj.mp ends], same⟩

theorem setCall_of_ne (s : DelayCache K) (id other : Nat) (pc : CallPc) (ne : other ≠ id) :
    (s.setCall id pc).calls other = s.calls other :=
  Function.update_of_ne ne ..

theorem setCall_self (s : DelayCache K) (id : Nat) (pc : CallPc) : (s.setCall id pc).calls id = pc :=
  Function.update_self ..

theorem not_sent_of_unwritten (id : Nat) (before : (s.calls id).Unwritten) : ¬ s.Sent id := by
  intro found
  rcases found with ⟨value, returned⟩
  rw [returned] at before
  exact before

theorem not_sent_of_sending {id : Nat} (sending : s.calls id = .sending) : ¬ s.Sent id := by
  intro found
  rcases found with ⟨value, returned⟩
  rw [sending] at returned
  cases returned

theorem send_eq (s : DelayCache K) (id : Nat) (command : DelayCommand K) :
    ∃ channel, s.send id command = { s with channel := channel } := by
  simp only [send]
  split
  · exact ⟨s.channel, rfl⟩
  · exact ⟨s.channel, rfl⟩
  · exact ⟨_, rfl⟩

theorem send_alive (s : DelayCache K) (id : Nat) (command : DelayCommand K)
    (notStopped : s.purge ≠ .stopped) (notPanicked : s.purge ≠ .panicked) :
    s.send id command = { s with channel := s.channel ++ [(id, command)] } := by
  cases pc : s.purge with
  | stopped => exact absurd pc notStopped
  | panicked => exact absurd pc notPanicked
  | selecting => simp only [send, pc]
  | expiring key => simp only [send, pc]
  | handing value => simp only [send, pc]
  | clearing => simp only [send, pc]

theorem send_calls (s : DelayCache K) (id : Nat) (command : DelayCommand K) :
    (s.send id command).calls = s.calls := by
  rcases s.send_eq id command with ⟨channel, same⟩
  rw [same]

theorem Sent.setCall {other : Nat} (sent : s.Sent other) (id : Nat) (pc : CallPc)
    (before : ¬ s.Sent id) : (s.setCall id pc).Sent other := by
  have ne : other ≠ id := by
    intro equal
    subst equal
    exact before sent
  rw [Sent, setCall_of_ne s id other pc ne]
  exact sent

theorem map_of_erased [DecidableEq K] (key other : K) (value : CachedValue)
    (stored : (s.setMap key none).map other = some value) : s.map other = some value := by
  by_cases same : other = key
  · subst same
    simp [setMap] at stored
  · simpa [setMap, same] using stored

theorem map_of_put [DecidableEq K] (key other : K) (value new : CachedValue)
    (stored : (s.setMap key (some new)).map other = some value) :
    (other = key ∧ value = new) ∨ s.map other = some value := by
  by_cases same : other = key
  · subst same
    simp only [setMap, Function.update_self, Option.some.injEq] at stored
    exact Or.inl ⟨rfl, stored.symm⟩
  · exact Or.inr (by simpa [setMap, same] using stored)

namespace Linked

theorem init : Linked c (DelayCache.init : DelayCache K) where
  paired := Timers.Paired.new
  stored := nofun
  guarded := nofun
  inserts := nofun
  once := List.nodup_nil
  closed _ := rfl
  applied := nofun
  ordered := nofun

theorem ne_of_unwritten (inv : Linked c s) (id : Nat) (before : (s.calls id).Unwritten) (key : K)
    (value : CachedValue) (stored : s.map key = some value) : value.id ≠ id := by
  intro equal
  subst equal
  rcases (inv.stored key value stored).2.2 with sending | sent
  · rw [sending] at before
    exact before
  · exact not_sent_of_unwritten value.id before sent

/-- A step of a call whose command is not that of a stored value. -/
theorem quiet (inv : Linked c s) (id : Nat) (pc : CallPc) (before : (s.calls id).Unwritten)
    (holds : ∀ key ttl, c.request id = .refresh key → pc = .guarded ttl →
      (id, key) ∈ s.guards ∧ ∃ value, s.map key = some value ∧ value.ttl = ttl) :
    Linked c (s.setCall id pc) := by
  have unsent := not_sent_of_unwritten id before
  have other := inv.ne_of_unwritten id before
  refine { inv with stored := ?_, guarded := ?_, inserts := ?_, applied := ?_, ordered := ?_ }
  · intro key value stored
    rcases inv.stored key value stored with ⟨own, past, phase⟩
    refine ⟨own, past, phase.imp (fun sending => ?_) fun sent => sent.setCall id pc unsent⟩
    rw [setCall_of_ne s id _ pc (other key value stored)]
    exact sending
  · intro call key ttl own held
    by_cases same : call = id
    · subst same
      rw [setCall_self] at held
      exact holds key ttl own held
    · rw [setCall_of_ne s id call pc same] at held
      exact inv.guarded call key ttl own held
  · intro call key ttl member
    obtain ⟨own, sent⟩ := inv.inserts call key ttl member
    exact ⟨own, sent.setCall id pc unsent⟩
  · intro key call applied
    rcases inv.applied key call applied with ⟨sent, gone⟩
    exact ⟨sent.setCall id pc unsent, gone⟩
  · intro key value stored sent
    rw [Sent, setCall_of_ne s id _ pc (other key value stored)] at sent
    exact inv.ordered key value stored sent

/-- A command that no value is waiting for goes into the channel. -/
theorem push (inv : Linked c s) (id : Nat) (command : DelayCommand K)
    (plain : ∀ key ttl, command ≠ .insert key ttl)
    (fits : ∀ key ttl value, command = .refresh key ttl → s.map key = some value →
      value.ttl = some ttl) (alive : s.purge ≠ .stopped ∧ s.purge ≠ .panicked) :
    Linked c { s with channel := s.channel ++ [(id, command)] } := by
  have none_new : insertIds [(id, command)] = [] := insertIds_plain id command plain
  have same : insertIds (s.channel ++ [(id, command)]) = insertIds s.channel := by
    rw [insertIds_append, none_new, List.append_nil]
  refine { inv with inserts := ?_, once := ?_, closed := ?_, applied := ?_, ordered := ?_ }
  · intro call key ttl member
    rcases List.mem_append.mp member with old | last
    · exact inv.inserts call key ttl old
    · cases List.mem_singleton.mp last
      exact absurd rfl (plain key ttl)
  · exact same ▸ inv.once
  · intro found
    rcases found with stopped | panicked
    · exact absurd stopped alive.1
    · exact absurd panicked alive.2
  · intro key call applied
    simp only [same]
    exact inv.applied key call applied
  · intro key value stored sent front call ttl back split behind
    rcases split_concat s.channel front back _ _ split with ⟨rest, rfl, old⟩ | ⟨-, last⟩
    · rw [insertIds_append, none_new, List.append_nil] at behind
      exact inv.ordered key value stored sent front call ttl rest old behind
    · cases last
      exact fits key ttl value rfl stored

theorem send (inv : Linked c s) (id : Nat) (command : DelayCommand K)
    (plain : ∀ key ttl, command ≠ .insert key ttl)
    (fits : ∀ key ttl value, command = .refresh key ttl → s.map key = some value →
      value.ttl = some ttl) : Linked c (s.send id command) := by
  simp only [DelayCache.send]
  split
  · exact inv
  · exact inv
  · next notStopped notPanicked => exact inv.push id command plain fits ⟨notStopped, notPanicked⟩

/-- An insert returns and leaves a channel behind. -/
theorem finish (inv : Linked c s) (id : Nat) (channel : List (Nat × DelayCommand K))
    (inserts : ∀ call key ttl, (call, .insert key ttl) ∈ channel →
      c.request call = .insert key ttl ∧ (call = id ∨ s.Sent call))
    (once : (insertIds channel).Nodup)
    (closed : s.purge = .stopped ∨ s.purge = .panicked → channel = [])
    (applied : ∀ call, s.Sent call → call ∉ insertIds s.channel → call ∉ insertIds channel)
    (ordered : ∀ key value, s.map key = some value → value.id = id ∨ s.Sent value.id →
      ∀ front call ttl back, channel = front ++ (call, .refresh key ttl) :: back →
        value.id ∉ insertIds back → value.ttl = some ttl) :
    Linked c ({ s with channel := channel }.setCall id (.returned none)) := by
  have sent : ∀ call, call = id ∨ s.Sent call ↔
      ({ s with channel := channel }.setCall id (.returned none)).Sent call := by
    intro call
    by_cases same : call = id
    · subst same
      exact iff_of_true (Or.inl rfl) ⟨none, setCall_self ..⟩
    · simp only [Sent, setCall_of_ne _ id call _ same, same, false_or]
  refine
    { inv with
      stored := ?_
      guarded := ?_
      inserts := ?_
      once := once
      closed := closed
      applied := ?_
      ordered := ?_ }
  · intro key value stored
    rcases inv.stored key value stored with ⟨own, past, phase⟩
    refine ⟨own, past, ?_⟩
    by_cases same : value.id = id
    · exact Or.inr ((sent value.id).mp (Or.inl same))
    · rw [setCall_of_ne _ id _ _ same]
      exact phase.imp_right fun before => (sent value.id).mp (Or.inr before)
  · intro call key ttl own held
    by_cases same : call = id
    · subst same
      rw [setCall_self] at held
      cases held
    · rw [setCall_of_ne _ id call _ same] at held
      exact inv.guarded call key ttl own held
  · intro call key ttl member
    obtain ⟨own, before⟩ := inserts call key ttl member
    exact ⟨own, (sent call).mp before⟩
  · intro key call wasApplied
    rcases inv.applied key call wasApplied with ⟨before, gone⟩
    exact ⟨(sent call).mp (Or.inr before), applied call before gone⟩
  · intro key value stored after
    exact ordered key value stored ((sent value.id).mpr after)

/-- The send of an insert. What is in front of its command does not bind the stored value. -/
theorem sendInsert (inv : Linked c s) (id : Nat) (key : K) (ttl : Option Nat)
    (own : c.request id = .insert key ttl) (sending : s.calls id = .sending) :
    Linked c ((s.send id (.insert key ttl)).setCall id (.returned none)) := by
  have unsent := not_sent_of_sending sending
  have dead : s.channel = [] → Linked c (s.setCall id (.returned none)) := by
    intro empty
    have same : { s with channel := [] } = s := by rw [← empty]
    rw [← same]
    exact inv.finish id [] nofun List.nodup_nil (fun _ => rfl) (fun _ _ _ => nofun)
      (by
        intro other value _ _ front call others back split
        simp at split)
  simp only [DelayCache.send]
  split
  · next stopped => exact dead (inv.closed (Or.inl stopped))
  · next panicked => exact dead (inv.closed (Or.inr panicked))
  · next notStopped notPanicked =>
      have ids : insertIds (s.channel ++ [(id, .insert key ttl)]) = insertIds s.channel ++ [id] := by
        rw [insertIds_append]
        rfl
      have fresh : id ∉ insertIds s.channel := by
        rw [mem_insertIds]
        intro found
        rcases found with ⟨other, others, member⟩
        exact unsent (inv.inserts id other others member).2
      apply inv.finish id _
      · intro call other others member
        rcases List.mem_append.mp member with old | last
        · obtain ⟨theirs, before⟩ := inv.inserts call other others old
          exact ⟨theirs, Or.inr before⟩
        · cases List.mem_singleton.mp last
          exact ⟨own, Or.inl rfl⟩
      · rw [ids, List.nodup_append]
        refine ⟨inv.once, List.nodup_singleton id, ?_⟩
        intro call inside other single equal
        subst equal
        exact fresh (List.mem_singleton.mp single ▸ inside)
      · intro found
        rcases found with stopped | panicked
        · exact absurd stopped notStopped
        · exact absurd panicked notPanicked
      · intro call before gone
        rw [ids, List.mem_append, List.mem_singleton]
        intro found
        rcases found with inside | rfl
        · exact gone inside
        · exact unsent before
      · intro other value stored after front call others back split behind
        rcases split_concat s.channel front back _ _ split with ⟨rest, rfl, old⟩ | ⟨-, last⟩
        · rw [insertIds_append, List.mem_append, not_or] at behind
          have ne : value.id ≠ id := by
            intro same
            exact behind.2 (by rw [same]; exact List.mem_singleton.mpr rfl)
          exact inv.ordered other value stored (after.resolve_left ne) front call others rest old
            behind.1
        · cases last

/-- A refresh takes or drops the guard of its own entry. -/
theorem guards (inv : Linked c s) (id : Nat) (guards : List (Nat × K))
    (free : ∀ ttl, s.calls id ≠ .guarded ttl)
    (others : ∀ call key, call ≠ id → (call, key) ∈ s.guards → (call, key) ∈ guards) :
    Linked c { s with guards := guards } := by
  refine { inv with guarded := ?_ }
  intro call key ttl own held
  have ne : call ≠ id := by
    intro equal
    subst equal
    exact free ttl held
  obtain ⟨inside, value⟩ := inv.guarded call key ttl own held
  exact ⟨others call key ne inside, value⟩

theorem pop (inv : Linked c s) (head : Nat × DelayCommand K) (rest : List (Nat × DelayCommand K))
    (channel : s.channel = head :: rest) : Linked c { s with channel := rest } := by
  have fewer : (insertIds rest).Sublist (insertIds s.channel) := by
    rw [channel]
    exact (List.sublist_cons_self head rest).filterMap _
  refine
    { inv with
      inserts := ?_
      once := inv.once.sublist fewer
      closed := ?_
      applied := ?_
      ordered := ?_ }
  · intro id key ttl member
    exact inv.inserts id key ttl (by rw [channel]; exact List.mem_cons_of_mem _ member)
  · intro gone
    have empty := inv.closed gone
    rw [channel] at empty
    cases empty
  · intro key id applied
    rcases inv.applied key id applied with ⟨sent, absent⟩
    exact ⟨sent, fun inside => absent (fewer.subset inside)⟩
  · intro key value stored sent front id ttl back split
    apply inv.ordered key value stored sent (head :: front) id ttl back
    rw [channel, List.cons_append]
    exact congrArg (head :: ·) split

/-- The purge task is gone, and the channel with it. -/
theorem stop (inv : Linked c s) (pc : PurgePc K) : Linked c { s with channel := [], purge := pc } where
  paired := inv.paired
  stored := inv.stored
  guarded := inv.guarded
  inserts := nofun
  once := List.nodup_nil
  closed _ := rfl
  applied key id applied := ⟨(inv.applied key id applied).1, nofun⟩
  ordered _ _ _ _ front id ttl back split := by simp at split

theorem park (inv : Linked c s) (pc : PurgePc K) (notStopped : pc ≠ .stopped)
    (notPanicked : pc ≠ .panicked) : Linked c { s with purge := pc } := by
  refine { inv with closed := ?_ }
  intro gone
  rcases gone with stopped | panicked
  · exact absurd stopped notStopped
  · exact absurd panicked notPanicked

variable [DecidableEq K]

theorem unguarded (inv : Linked c s) (key : K) (free : s.locked key = false) (id : Nat)
    (own : c.request id = .refresh key) (ttl : Option Nat) : s.calls id ≠ .guarded ttl := by
  intro held
  have inside := (inv.guarded id key ttl own held).1
  simp only [locked, List.any_eq_false, decide_eq_true_eq] at free
  exact free (id, key) inside rfl

theorem guarded_setMap (inv : Linked c s) (key : K) (free : s.locked key = false)
    (value : Option CachedValue) (id : Nat) (other : K) (ttl : Option Nat)
    (own : c.request id = .refresh other) (held : s.calls id = .guarded ttl) :
    (id, other) ∈ s.guards ∧
      ∃ stored, (s.setMap key value).map other = some stored ∧ stored.ttl = ttl := by
  obtain ⟨inside, stored, found, same⟩ := inv.guarded id other ttl own held
  have ne : other ≠ key := by
    intro equal
    subst equal
    exact inv.unguarded other free id own ttl held
  refine ⟨inside, stored, ?_, same⟩
  simpa [setMap, ne] using found

/-- A value leaves the map. -/
theorem erase (inv : Linked c s) (key : K) (free : s.locked key = false) :
    Linked c (s.setMap key none) := by
  exact
    { inv with
      stored := fun other value stored => inv.stored other value (map_of_erased key other value stored)
      guarded := inv.guarded_setMap key free none
      ordered := fun other value stored => inv.ordered other value (map_of_erased key other value stored) }

/-- A new value is bound by nothing the purge task has seen, since its command is not sent. -/
theorem put (inv : Linked c s) (id : Nat) (key : K) (ttl : Option Nat)
    (own : c.request id = .insert key ttl) (sending : s.calls id = .sending)
    (free : s.locked key = false) :
    Linked c (s.setMap key (some { id := id, ttl := ttl, inserted := s.now })) := by
  have unsent := not_sent_of_sending sending
  refine
    { inv with
      stored := ?_
      guarded := inv.guarded_setMap key free _
      ordered := ?_ }
  · intro other value stored
    rcases map_of_put key other value _ stored with ⟨rfl, rfl⟩ | old
    · exact ⟨own, le_refl s.now, Or.inl sending⟩
    · exact inv.stored other value old
  · intro other value stored sent
    rcases map_of_put key other value _ stored with ⟨rfl, rfl⟩ | old
    · exact absurd sent unsent
    · exact inv.ordered other value old sent

/-- The purge task has applied the first command of the channel. -/
theorem applyDone (inv : Linked c s) (id : Nat) (command : DelayCommand K)
    (rest : List (Nat × DelayCommand K)) (timers : Timers K)
    (channel : s.channel = (id, command) :: rest)
    (done : s.timers.apply c.alloc c.maxDelay s.now command = .ok timers) :
    Linked c (s.applyDone id command rest timers) := by
  have popped := inv.pop (id, command) rest channel
  have paired := (inv.paired.apply c.alloc c.maxDelay s.now command done).1
  cases command with
  | insert key ttl =>
      refine { popped with paired := paired, applied := ?_ }
      intro other call applied
      by_cases same : other = key
      · subst same
        simp only [DelayCache.applyDone, Function.update_self] at applied
        cases applied
        have once := inv.once
        rw [channel] at once
        have head : (id, .insert other ttl) ∈ s.channel := by
          rw [channel]
          exact List.mem_cons_self ..
        exact ⟨(inv.inserts id other ttl head).2, (List.nodup_cons.mp once).1⟩
      · simp only [DelayCache.applyDone, Function.update_of_ne same] at applied
        exact popped.applied other call applied
  | remove key => exact { popped with paired := paired }
  | refresh key ttl => exact { popped with paired := paired }

theorem move (inv : Linked c s) (act : CacheAct K) (move : Move c s act t) : Linked c t := by
  cases move with
  | stay => exact inv
  | wait => exact inv
  | idle => exact inv
  | tick elapsed =>
      refine { inv with stored := ?_ }
      intro key value stored
      rcases inv.stored key value stored with ⟨own, past, phase⟩
      exact ⟨own, past.trans (Nat.le_add_right ..), phase⟩
  | call id idle => exact inv.quiet id .start (by rw [idle]; trivial) nofun
  | write id key ttl own start free =>
      have begun : Linked c (s.setCall id .sending) :=
        inv.quiet id .sending (by rw [start]; trivial) nofun
      exact begun.put id key ttl own (setCall_self s id _) free
  | sendInsert id key ttl own sending => exact inv.sendInsert id key ttl own sending
  | sendRemove id key own start =>
      exact (inv.send id (.remove key) nofun nofun).quiet id .removing
        (by rw [send_calls, start]; trivial) nofun
  | remove id key own removing free =>
      exact (inv.erase key free).quiet id _ (by simp only [setMap, removing]; trivial) nofun
  | refreshNothing id key own start absent =>
      exact inv.quiet id _ (by rw [start]; trivial) nofun
  | guard id key value own start stored =>
      have held := inv.guards id ((id, key) :: s.guards) (by rw [start]; exact nofun)
        fun _ _ _ inside => List.mem_cons_of_mem _ inside
      apply held.quiet id _ (by simp only [start]; trivial)
      intro other ttl theirs same
      rw [own] at theirs
      cases theirs
      cases same
      exact ⟨List.mem_cons_self .., value, stored, rfl⟩
  | sendRefresh id key ttl own held =>
      have sent := inv.send id (.refresh key ttl) nofun (by
        intro other given value same stored
        cases same
        obtain ⟨-, found, there, own⟩ := inv.guarded id key (some ttl) own held
        rw [there] at stored
        cases stored
        exact own)
      exact sent.quiet id .releasing (by rw [send_calls, held]; trivial) nofun
  | keepTimer id key own held => exact inv.quiet id .releasing (by rw [held]; trivial) nofun
  | release id key own releasing =>
      have released := inv.guards id (s.guards.filter fun guard => guard.1 ≠ id)
        (by rw [releasing]; exact nofun) fun call other ne inside => by simpa [ne] using inside
      exact released.quiet id _ (by simp only [releasing]; trivial) nofun
  | apply id command rest timers selecting channel done =>
      exact inv.applyDone id command rest timers channel done
  | panic => exact inv.stop .panicked
  | expire token key timers selecting yielded =>
      have paired := (inv.paired.expire token s.now key yielded).1
      exact { inv.park (.expiring key) nofun nofun with paired := paired }
  | takeNothing => exact inv.park .selecting nofun nofun
  | take key value expiring free stored =>
      exact { (inv.erase key free).park (.handing value) nofun nofun with }
  | hand => exact { inv.park .selecting nofun nofun with }
  | stop => exact inv.stop .stopped
  | cancel => exact { inv with }
  | leave => exact { inv.park .clearing nofun nofun with paired := Timers.Paired.new }
  | clear key clearing free => exact inv.erase key free

end Linked

end DelayCache

end Pigs.Cache.Delay
