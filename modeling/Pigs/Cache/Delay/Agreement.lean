import Pigs.Cache.Delay.Early

/-! When the timers agree with the map. -/

namespace Pigs.Cache.Delay

def DelayCommand.key {K : Type} : DelayCommand K → K
  | .insert key _ => key
  | .remove key => key
  | .refresh key _ => key

/-- What an applied command arms or resets: the key and the delay. -/
def Timers.armedBy {K : Type} (t : Timers K) : DelayCommand K → List (K × Nat)
  | .insert key (some ttl) => [(key, ttl)]
  | .refresh key ttl => if (t.keyMap key).isSome then [(key, ttl)] else []
  | _ => []

namespace DelayCache

variable {K : Type}

/-- No call is in progress and the channel is empty. -/
def AtRest (s : DelayCache K) : Prop := (∀ id, s.calls id = .idle ∨ s.Sent id) ∧ s.channel = []

def Armed (s : DelayCache K) (key : K) : Prop := ∃ entry ∈ s.timers.delayQueue, entry.key = key

/-- A remove of the key has sent its command, or an expiry has taken its timer, and the map comes
next. -/
def Doomed (c : Setting K) (s : DelayCache K) (key : K) : Prop :=
  (∃ id, c.request id = .remove key ∧ s.calls id = .removing) ∨ s.purge = .expiring key

/-- The delay queue takes every time to live. -/
def Supported (c : Setting K) : Prop :=
  ∀ id key ttl, c.request id = .insert key (some ttl) → ttl ≤ c.maxDelay

/-- The cache is not shut down, and no insert sends its command behind that of another value which
has replaced its own in the map and has another time to live. -/
def Uncrossed (c : Setting K) (s : DelayCache K) (act : CacheAct K) : Prop :=
  act ≠ .cancel ∧ ∀ id key ttl value, act = .advance id → c.request id = .insert key ttl →
    s.calls id = .sending → s.map key = some value → s.Sent value.id → ¬ s.Doomed c key →
      value.ttl = ttl

/-- The command leaves the timer that a value of the key needs. -/
def Harmless (key : K) (ttl : Option Nat) : DelayCommand K → Prop
  | .insert other given => other = key → given = ttl
  | .remove other => other ≠ key
  | .refresh _ _ => True

/-- The value is in the map to stay and its command is sent. -/
structure Settled (c : Setting K) (s : DelayCache K) (key : K) (value : CachedValue) : Prop where
  stored : s.map key = some value
  sent : s.Sent value.id
  stays : ¬ s.Doomed c key

variable {c : Setting K} {s t : DelayCache K}

theorem armed_iff (paired : s.timers.Paired) (key : K) :
    s.Armed key ↔ (s.timers.deadlines key).isSome := by
  constructor
  · intro found
    rcases found with ⟨entry, member, rfl⟩
    have known := paired.known entry member
    rcases paired.find entry.key entry.token known with ⟨other, found, -, -, -⟩
    simp only [Timers.deadlines, known, found, Option.map_some, Option.isSome_some]
  · intro set
    cases mapped : s.timers.keyMap key with
    | none => simp [Timers.deadlines, mapped] at set
    | some token =>
        rcases paired.present key token mapped with ⟨entry, member, -, own⟩
        exact ⟨entry, member, own⟩

theorem armedBy_key (timers : Timers K) (command : DelayCommand K) :
    ∀ entry ∈ timers.armedBy command, entry.1 = command.key := by
  intro entry member
  cases command with
  | insert key ttl =>
      cases ttl with
      | none => cases member
      | some ttl =>
          cases List.mem_singleton.mp member
          rfl
  | remove key => cases member
  | refresh key ttl =>
      simp only [Timers.armedBy] at member
      split_ifs at member
      · cases List.mem_singleton.mp member
        rfl
      · cases member

/-- A step of another call that leaves the map alone, and takes no remove to its end, settles
nothing. -/
theorem Settled.before {key : K} {value : CachedValue} (settled : t.Settled c key value) (id : Nat)
    (pc : CallPc) (ne : value.id ≠ id) (steady : s.calls id ≠ .removing)
    (map : t.map key = some value → s.map key = some value)
    (calls : t.calls = Function.update s.calls id pc)
    (purge : s.purge = .expiring key → t.purge = .expiring key) : s.Settled c key value := by
  refine ⟨map settled.stored, ?_, ?_⟩
  · have sent := settled.sent
    rw [Sent, calls, Function.update_of_ne ne] at sent
    exact sent
  · intro doomed
    apply settled.stays
    rcases doomed with ⟨call, own, removing⟩ | expiring
    · refine Or.inl ⟨call, own, ?_⟩
      have apart : call ≠ id := by
        intro same
        subst same
        exact steady removing
      rw [calls, Function.update_of_ne apart]
      exact removing
    · exact Or.inr (purge expiring)

/-- The purge task is done with a key that it was expiring. -/
theorem Settled.of_parked {other : K} {value : CachedValue} (settled : t.Settled c other value)
    (key : K) (ne : other ≠ key) (expiring : s.purge = .expiring key)
    (stored : s.map other = some value) (calls : t.calls = s.calls) : s.Settled c other value := by
  refine ⟨stored, ?_, ?_⟩
  · have sent := settled.sent
    rw [Sent, calls] at sent
    exact sent
  · intro doomed
    rcases doomed with remove | other
    · exact settled.stays (Or.inl (calls ▸ remove))
    · rw [expiring] at other
      cases other
      exact ne rfl

variable [DecidableEq K]

/-- The timers that the purge task arms or resets in a step. -/
def arms (c : Setting K) (s : DelayCache K) : CacheAct K → List (K × Nat)
  | .command =>
      match s.purge, s.channel with
      | .selecting, (_, command) :: _ =>
          match s.timers.apply c.alloc c.maxDelay s.now command with
          | .error _ => []
          | .ok _ => s.timers.armedBy command
      | _, _ => []
  | _ => []

def lastArm (log : List (K × Nat)) (key : K) : Option Nat :=
  ((log.filter fun entry => entry.1 = key).map Prod.snd).getLast?

/-- At rest the timer of a stored value is armed exactly if the value has a time to live, and with
that one. The value of a key that the purge task is just expiring is left to that expiry. -/
def AgreesAtRest (s : DelayCache K) (log : List (K × Nat)) : Prop :=
  s.AtRest → ∀ key value, s.map key = some value → s.purge ≠ .expiring key →
    (s.Armed key ↔ value.ttl.isSome) ∧
      ∀ ttl, value.ttl = some ttl → lastArm log key = some ttl

/-- The timer of the key is the one for a time to live. -/
def TimedFor (s : DelayCache K) (log : List (K × Nat)) (key : K) (ttl : Option Nat) : Prop :=
  (s.timers.deadlines key).isSome = ttl.isSome ∧
    ∀ delay, ttl = some delay → lastArm log key = some delay

structure Agreeing (c : Setting K) (s : DelayCache K) (log : List (K × Nat)) : Prop
    extends Linked c s where
  kept : s.cancelled = false
  alive : s.purge ≠ .clearing ∧ s.purge ≠ .stopped ∧ s.purge ≠ .panicked
  fits : ∀ id key ttl, (id, .refresh key ttl) ∈ s.channel → ttl ≤ c.maxDelay
  harmless : ∀ key value, s.Settled c key value → ∀ front item back,
    s.channel = front ++ item :: back → value.id ∉ insertIds back → Harmless key value.ttl item.2
  timed : ∀ key value, s.Settled c key value → value.id ∉ insertIds s.channel →
    s.TimedFor log key value.ttl

variable {log : List (K × Nat)}

theorem lastArm_append_of_ne (log more : List (K × Nat)) (key : K)
    (apart : ∀ entry ∈ more, entry.1 ≠ key) : lastArm (log ++ more) key = lastArm log key := by
  have none : more.filter (fun entry => entry.1 = key) = [] := by
    rw [List.filter_eq_nil_iff]
    intro entry member
    simpa using apart entry member
  rw [lastArm, List.filter_append, none, List.append_nil, lastArm]

theorem lastArm_concat (log : List (K × Nat)) (key : K) (ttl : Nat) :
    lastArm (log ++ [(key, ttl)]) key = some ttl := by
  simp [lastArm, List.filter_append]

theorem setDeadline_of_ne (deadlines : K → Option Nat) (now : Nat) (command : DelayCommand K)
    (key : K) (ne : key ≠ command.key) : Timers.setDeadline deadlines now command key = deadlines key := by
  cases command with
  | insert other ttl => exact Function.update_of_ne ne ..
  | remove other => exact Function.update_of_ne ne ..
  | refresh other ttl => exact Function.update_of_ne ne ..

theorem arms_of_ne (act : CacheAct K) (other : act ≠ .command) : s.arms c act = [] := by
  cases act with
  | command => exact absurd rfl other
  | _ => rfl

theorem arms_of_idle (nothing : s.purge = .selecting → s.channel = []) : s.arms c .command = [] := by
  simp only [arms]
  split
  · next id command rest selecting channel =>
      rw [nothing selecting] at channel
      cases channel
  · rfl

theorem arms_of_apply (id : Nat) (command : DelayCommand K) (rest : List (Nat × DelayCommand K))
    (timers : Timers K) (selecting : s.purge = .selecting)
    (channel : s.channel = (id, command) :: rest)
    (done : s.timers.apply c.alloc c.maxDelay s.now command = .ok timers) :
    s.arms c .command = s.timers.armedBy command := by
  simp only [arms, selecting, channel, done]

namespace Agreeing

theorem init : Agreeing c (DelayCache.init : DelayCache K) [] where
  toLinked := Linked.init
  kept := rfl
  alive := ⟨nofun, nofun, nofun⟩
  fits := nofun
  harmless key value settled := by cases settled.stored
  timed key value settled := by cases settled.stored

/-- Whatever is settled was so before, with the same timers and commands. -/
theorem keep (inv : Agreeing c s log) (linked : Linked c t) (kept : t.cancelled = s.cancelled)
    (alive : t.purge ≠ .clearing ∧ t.purge ≠ .stopped ∧ t.purge ≠ .panicked)
    (channel : t.channel = s.channel) (timers : t.timers = s.timers)
    (settled : ∀ key value, t.Settled c key value → s.Settled c key value) : Agreeing c t log where
  toLinked := linked
  kept := kept.trans inv.kept
  alive := alive
  fits := by
    rw [channel]
    exact inv.fits
  harmless key value after := by
    rw [channel]
    exact inv.harmless key value (settled key value after)
  timed key value after := by
    rw [channel, TimedFor, timers]
    exact inv.timed key value (settled key value after)

/-- A step of a call that sends nothing and leaves the map alone. -/
theorem quiet (inv : Agreeing c s log) (id : Nat) (pc : CallPc) (before : (s.calls id).Unwritten)
    (steady : s.calls id ≠ .removing) (guards : List (Nat × K))
    (linked : Linked c ({ s with guards := guards }.setCall id pc)) :
    Agreeing c ({ s with guards := guards }.setCall id pc) log := by
  apply inv.keep linked rfl inv.alive rfl rfl
  intro key value settled
  have ne := inv.ne_of_unwritten id before key value settled.stored
  exact settled.before id pc ne steady (fun stored => stored) rfl fun expiring => expiring

/-- A command without a value of its own goes into the channel. -/
theorem push (inv : Agreeing c s log) (id : Nat) (pc : CallPc) (command : DelayCommand K)
    (plain : ∀ key ttl, command ≠ .insert key ttl) (before : (s.calls id).Unwritten)
    (steady : s.calls id ≠ .removing)
    (fits : ∀ key ttl, command = .refresh key ttl → ttl ≤ c.maxDelay)
    (harmless : ∀ key value, ((s.send id command).setCall id pc).Settled c key value →
      Harmless key value.ttl command)
    (linked : Linked c ((s.send id command).setCall id pc)) :
    Agreeing c ((s.send id command).setCall id pc) log := by
  have pushed : s.send id command = { s with channel := s.channel ++ [(id, command)] } :=
    s.send_alive id command inv.alive.2.1 inv.alive.2.2
  have none_new : insertIds [(id, command)] = [] := insertIds_plain id command plain
  have same : insertIds (s.channel ++ [(id, command)]) = insertIds s.channel := by
    rw [insertIds_append, none_new, List.append_nil]
  rw [pushed] at harmless linked ⊢
  have earlier : ∀ key value,
      ({ s with channel := s.channel ++ [(id, command)] }.setCall id pc).Settled c key value →
        s.Settled c key value := by
    intro key value settled
    have ne := inv.ne_of_unwritten id before key value settled.stored
    exact settled.before id pc ne steady (fun stored => stored) rfl fun expiring => expiring
  refine { linked with kept := inv.kept, alive := inv.alive, fits := ?_, harmless := ?_, timed := ?_ }
  · intro call key ttl member
    rcases List.mem_append.mp member with old | last
    · exact inv.fits call key ttl old
    · cases List.mem_singleton.mp last
      exact fits key ttl rfl
  · intro key value settled front item back split behind
    rcases split_concat s.channel front back _ _ split with ⟨rest, rfl, old⟩ | ⟨-, rfl⟩
    · rw [insertIds_append, none_new, List.append_nil] at behind
      exact inv.harmless key value (earlier key value settled) front item rest old behind
    · exact harmless key value settled
  · intro key value settled behind
    exact inv.timed key value (earlier key value settled) (same ▸ behind)

/-- The send of an insert. A settled value is the inserted one or has the same time to live. -/
theorem sendInsert (inv : Agreeing c s log) (id : Nat) (key : K) (ttl : Option Nat)
    (own : c.request id = .insert key ttl) (sending : s.calls id = .sending)
    (uncrossed : s.Uncrossed c (.advance id))
    (linked : Linked c ((s.send id (.insert key ttl)).setCall id (.returned none))) :
    Agreeing c ((s.send id (.insert key ttl)).setCall id (.returned none)) log := by
  have pushed := s.send_alive id (.insert key ttl) inv.alive.2.1 inv.alive.2.2
  have ids : insertIds (s.channel ++ [(id, .insert key ttl)]) = insertIds s.channel ++ [id] := by
    rw [insertIds_append]
    rfl
  rw [pushed] at linked ⊢
  have earlier : ∀ (other : K) (value : CachedValue), value.id ≠ id →
      ({ s with channel := s.channel ++ [(id, DelayCommand.insert key ttl)] }.setCall id
        (.returned none)).Settled c other value → s.Settled c other value := by
    intro other value ne settled
    have steady : s.calls id ≠ .removing := by
      rw [sending]
      exact nofun
    exact settled.before id _ ne steady (fun stored => stored) rfl fun expiring => expiring
  refine { linked with kept := inv.kept, alive := inv.alive, fits := ?_, harmless := ?_, timed := ?_ }
  · intro call other given member
    rcases List.mem_append.mp member with old | last
    · exact inv.fits call other given old
    · cases List.mem_singleton.mp last
  · intro other value settled front item back split behind
    rcases split_concat s.channel front back _ _ split with ⟨rest, rfl, old⟩ | ⟨-, rfl⟩
    · rw [insertIds_append, List.mem_append, not_or] at behind
      have ne : value.id ≠ id := by
        intro same
        exact behind.2 (List.mem_singleton.mpr same)
      exact inv.harmless other value (earlier other value ne settled) front item rest old behind.1
    · intro same
      subst same
      by_cases mine : value.id = id
      · have theirs := (inv.stored key value settled.stored).1
        rw [mine, own] at theirs
        cases theirs
        rfl
      · have before := earlier key value mine settled
        exact (uncrossed.2 id key ttl value rfl own sending before.stored before.sent
          before.stays).symm
  · intro other value settled behind
    simp only [setCall, ids, List.mem_append, List.mem_singleton, not_or] at behind
    exact inv.timed other value (earlier other value behind.2 settled) behind.1

/-- The first command of the channel is applied. For a settled value without a command behind it
it is the value's own insert or a harmless one. -/
theorem timed_apply (inv : Agreeing c s log) (id : Nat) (command : DelayCommand K)
    (rest : List (Nat × DelayCommand K)) (timers : Timers K)
    (channel : s.channel = (id, command) :: rest)
    (moved : timers.deadlines = Timers.setDeadline s.timers.deadlines s.now command)
    (key : K) (value : CachedValue) (settled : s.Settled c key value)
    (behind : value.id ∉ insertIds rest) :
    (s.applyDone id command rest timers).TimedFor (log ++ s.timers.armedBy command) key value.ttl := by
  have harmless := inv.harmless key value settled [] (id, command) rest channel behind
  by_cases same : key = command.key
  · cases command with
    | insert other given =>
        change key = other at same
        subst same
        cases harmless rfl
        refine ⟨?_, ?_⟩
        · simp [applyDone, moved, Timers.setDeadline]
        · intro delay set
          rw [set]
          exact lastArm_concat log key delay
    | remove other => exact absurd same.symm harmless
    | refresh other given =>
        change key = other at same
        subst same
        have absent : value.id ∉ insertIds s.channel := by
          rw [channel]
          exact behind
        have set := inv.ordered key value settled.stored settled.sent [] id given rest channel behind
        obtain ⟨armed, -⟩ := inv.timed key value settled absent
        rw [set, Option.isSome_some] at armed
        have mapped : (s.timers.keyMap key).isSome := by
          cases known : s.timers.keyMap key with
          | none => simp [Timers.deadlines, known] at armed
          | some token => rfl
        refine ⟨?_, ?_⟩
        · simp [applyDone, moved, Timers.setDeadline, set, armed]
        · intro delay own
          rw [set] at own
          cases own
          simp only [Timers.armedBy, mapped, if_true]
          exact lastArm_concat log key given
  · have absent : value.id ∉ insertIds s.channel := by
      rw [channel]
      cases command with
      | insert other given =>
          intro member
          rcases List.mem_cons.mp member with mine | inside
          · have head : (id, .insert other given) ∈ s.channel := by
              rw [channel]
              exact List.mem_cons_self ..
            have theirs := (inv.stored key value settled.stored).1
            rw [mine, (inv.inserts id other given head).1] at theirs
            cases theirs
            exact same rfl
          · exact behind inside
      | remove other => exact behind
      | refresh other given => exact behind
    obtain ⟨armed, last⟩ := inv.timed key value settled absent
    refine ⟨?_, ?_⟩
    · simp only [applyDone, moved]
      rw [setDeadline_of_ne _ _ command key same]
      exact armed
    · intro delay own
      rw [lastArm_append_of_ne log _ key]
      · exact last delay own
      · intro entry member equal
        exact same (equal.symm.trans (armedBy_key s.timers command entry member))

theorem applyDone (inv : Agreeing c s log) (id : Nat) (command : DelayCommand K)
    (rest : List (Nat × DelayCommand K)) (timers : Timers K)
    (channel : s.channel = (id, command) :: rest)
    (done : s.timers.apply c.alloc c.maxDelay s.now command = .ok timers) :
    Agreeing c (s.applyDone id command rest timers) (log ++ s.timers.armedBy command) := by
  have linked := inv.toLinked.applyDone id command rest timers channel done
  have moved := (inv.paired.apply c.alloc c.maxDelay s.now command done).2
  have earlier : ∀ key value, (s.applyDone id command rest timers).Settled c key value →
      s.Settled c key value := fun _ _ settled => ⟨settled.stored, settled.sent, settled.stays⟩
  refine { linked with kept := inv.kept, alive := inv.alive, fits := ?_, harmless := ?_, timed := ?_ }
  · intro call key ttl member
    apply inv.fits call key ttl
    rw [channel]
    exact List.mem_cons_of_mem _ member
  · intro key value settled front item back split behind
    apply inv.harmless key value (earlier key value settled) ((id, command) :: front) item back _ behind
    rw [channel, List.cons_append]
    exact congrArg ((id, command) :: ·) split
  · intro key value settled behind
    exact inv.timed_apply id command rest timers channel moved key value
      (earlier key value settled) behind

/-- The purge task never meets a delay that the queue does not support. -/
theorem never_panics (inv : Agreeing c s log) (supported : Supported c) (id : Nat)
    (command : DelayCommand K) (rest : List (Nat × DelayCommand K)) (panicked : DelayPanic)
    (channel : s.channel = (id, command) :: rest)
    (failed : s.timers.apply c.alloc c.maxDelay s.now command = .error panicked) : False := by
  have head : (id, command) ∈ s.channel := by
    rw [channel]
    exact List.mem_cons_self ..
  rcases (inv.paired.apply_tooFar c.alloc c.maxDelay s.now command panicked failed).2 with
    ⟨key, ttl, rfl | rfl, far⟩
  · have own := (inv.inserts id key (some ttl) head).1
    exact absurd (supported id key ttl own) (Nat.not_le.mpr far)
  · exact absurd (inv.fits id key ttl head) (Nat.not_le.mpr far)

/-- The timer of a key is taken to expire it; the key is doomed. -/
theorem expire (inv : Agreeing c s log) (token : Nat) (key : K) (timers : Timers K)
    (selecting : s.purge = .selecting)
    (yielded : s.timers.expire token s.now = some (key, timers))
    (linked : Linked c { s with timers := timers, purge := .expiring key }) :
    Agreeing c { s with timers := timers, purge := .expiring key } log := by
  have moved := (inv.paired.expire token s.now key yielded).2.1
  have earlier : ∀ other value,
      Settled c { s with timers := timers, purge := .expiring key } other value →
        s.Settled c other value ∧ other ≠ key := by
    intro other value settled
    refine ⟨⟨settled.stored, settled.sent, ?_⟩, ?_⟩
    · intro doomed
      rcases doomed with remove | expiring
      · exact settled.stays (Or.inl remove)
      · rw [selecting] at expiring
        cases expiring
    · intro same
      subst same
      exact settled.stays (Or.inr rfl)
  refine
    { linked with
      kept := inv.kept
      alive := ⟨nofun, nofun, nofun⟩
      fits := inv.fits
      harmless := ?_
      timed := ?_ }
  · intro other value settled
    exact inv.harmless other value (earlier other value settled).1
  · intro other value settled behind
    rcases earlier other value settled with ⟨before, ne⟩
    rw [TimedFor, moved, Function.update_of_ne ne]
    exact inv.timed other value before behind

/-- A value leaves the map, with what doomed its key. -/
theorem erase (inv : Agreeing c s log) (key : K) (linked : Linked c t)
    (kept : t.cancelled = s.cancelled)
    (alive : t.purge ≠ .clearing ∧ t.purge ≠ .stopped ∧ t.purge ≠ .panicked)
    (channel : t.channel = s.channel) (timers : t.timers = s.timers)
    (map : t.map = Function.update s.map key none)
    (others : ∀ other value, other ≠ key → s.map other = some value → t.Settled c other value →
      s.Settled c other value) : Agreeing c t log := by
  apply inv.keep linked kept alive channel timers
  intro other value settled
  have stored := settled.stored
  rw [map] at stored
  by_cases same : other = key
  · subst same
    rw [Function.update_self] at stored
    cases stored
  · rw [Function.update_of_ne same] at stored
    exact others other value same stored settled

theorem remove (inv : Agreeing c s log) (id : Nat) (key : K) (own : c.request id = .remove key)
    (linked : Linked c ((s.setMap key none).setCall id (.returned (s.map key)))) :
    Agreeing c ((s.setMap key none).setCall id (.returned (s.map key))) log := by
  apply inv.erase key linked rfl inv.alive rfl rfl rfl
  intro other value ne stored settled
  have apart : value.id ≠ id := by
    intro same
    have theirs := (inv.stored other value stored).1
    rw [same, own] at theirs
    cases theirs
  refine ⟨stored, ?_, ?_⟩
  · have sent := settled.sent
    rw [Sent, setCall_of_ne _ id _ _ apart] at sent
    exact sent
  · intro doomed
    apply settled.stays
    rcases doomed with ⟨call, remove, removing⟩ | expiring
    · refine Or.inl ⟨call, remove, ?_⟩
      have different : call ≠ id := by
        intro same
        subst same
        rw [own] at remove
        cases remove
        exact ne rfl
      rw [setCall_of_ne _ id call _ different]
      exact removing
    · exact Or.inr expiring

theorem write (inv : Agreeing c s log) (id : Nat) (key : K) (ttl : Option Nat)
    (start : s.calls id = .start)
    (linked : Linked c
      ((s.setMap key (some { id := id, ttl := ttl, inserted := s.now })).setCall id .sending)) :
    Agreeing c
      ((s.setMap key (some { id := id, ttl := ttl, inserted := s.now })).setCall id .sending) log := by
  have steady : s.calls id ≠ .removing := by
    rw [start]
    exact nofun
  apply inv.keep linked rfl inv.alive rfl rfl
  intro other value settled
  rcases map_of_put key other value _ settled.stored with ⟨rfl, rfl⟩ | old
  · exact absurd settled.sent (not_sent_of_sending (setCall_self _ id _))
  · have ne := inv.ne_of_unwritten id (by rw [start]; trivial) other value old
    exact settled.before id _ ne steady (fun _ => old) rfl fun expiring => expiring

theorem sendRefresh (inv : Agreeing c s log) (supported : Supported c) (id : Nat) (key : K)
    (ttl : Nat) (own : c.request id = .refresh key) (held : s.calls id = .guarded (some ttl))
    (linked : Linked c ((s.send id (.refresh key ttl)).setCall id .releasing)) :
    Agreeing c ((s.send id (.refresh key ttl)).setCall id .releasing) log := by
  apply inv.push id .releasing (.refresh key ttl) nofun (by rw [held]; trivial)
    (by rw [held]; exact nofun) _ (fun _ _ _ => trivial) linked
  intro other given same
  cases same
  obtain ⟨-, value, stored, given⟩ := inv.guarded id key (some ttl) own held
  have insert := (inv.stored key value stored).1
  rw [given] at insert
  exact supported value.id key ttl insert

theorem sendRemove (inv : Agreeing c s log) (id : Nat) (key : K) (own : c.request id = .remove key)
    (start : s.calls id = .start)
    (linked : Linked c ((s.send id (.remove key)).setCall id .removing)) :
    Agreeing c ((s.send id (.remove key)).setCall id .removing) log := by
  apply inv.push id .removing (.remove key) nofun (by rw [start]; trivial)
    (by rw [start]; exact nofun) nofun _ linked
  intro other value settled same
  subst same
  exact settled.stays (Or.inl ⟨id, own, setCall_self _ id _⟩)

theorem move (inv : Agreeing c s log) (supported : Supported c) (act : CacheAct K)
    (move : Move c s act t) (uncrossed : s.Uncrossed c act) :
    Agreeing c t (log ++ s.arms c act) := by
  have linked := inv.toLinked.move act move
  have silent : act ≠ .command → log ++ s.arms c act = log := by
    intro other
    rw [arms_of_ne act other, List.append_nil]
  cases move with
  | stay _ noCall noCommand =>
      rw [silent noCommand]
      exact inv
  | wait =>
      rw [silent nofun]
      exact inv
  | idle nothing =>
      rw [arms_of_idle nothing, List.append_nil]
      exact inv
  | tick elapsed =>
      rw [silent nofun]
      exact inv.keep linked rfl inv.alive rfl rfl fun _ _ settled =>
        ⟨settled.stored, settled.sent, settled.stays⟩
  | call id idle =>
      rw [silent nofun]
      exact inv.quiet id .start (by rw [idle]; trivial) (by rw [idle]; exact nofun) s.guards linked
  | write id key ttl own start free =>
      rw [silent nofun]
      exact inv.write id key ttl start linked
  | sendInsert id key ttl own sending =>
      rw [silent nofun]
      exact inv.sendInsert id key ttl own sending uncrossed linked
  | sendRemove id key own start =>
      rw [silent nofun]
      exact inv.sendRemove id key own start linked
  | remove id key own removing free =>
      rw [silent nofun]
      exact inv.remove id key own linked
  | refreshNothing id key own start absent =>
      rw [silent nofun]
      exact inv.quiet id _ (by rw [start]; trivial) (by rw [start]; exact nofun) s.guards linked
  | guard id key value own start stored =>
      rw [silent nofun]
      exact inv.quiet id _ (by rw [start]; trivial) (by rw [start]; exact nofun) _ linked
  | sendRefresh id key ttl own held =>
      rw [silent nofun]
      exact inv.sendRefresh supported id key ttl own held linked
  | keepTimer id key own held =>
      rw [silent nofun]
      exact inv.quiet id .releasing (by rw [held]; trivial) (by rw [held]; exact nofun) s.guards linked
  | release id key own releasing =>
      rw [silent nofun]
      exact inv.quiet id _ (by rw [releasing]; trivial) (by rw [releasing]; exact nofun) _ linked
  | apply id command rest timers selecting channel done =>
      rw [arms_of_apply id command rest timers selecting channel done]
      exact inv.applyDone id command rest timers channel done
  | panic id command rest panicked selecting channel failed =>
      exact absurd failed fun failed =>
        inv.never_panics supported id command rest panicked channel failed
  | expire token key timers selecting yielded =>
      rw [silent nofun]
      exact inv.expire token key timers selecting yielded linked
  | takeNothing key expiring free absent =>
      rw [silent nofun]
      apply inv.erase key linked rfl ⟨nofun, nofun, nofun⟩ rfl rfl
      · rw [← absent, Function.update_eq_self]
      · intro other value ne stored settled
        exact settled.of_parked key ne expiring stored rfl
  | take key value expiring free stored =>
      rw [silent nofun]
      apply inv.erase key linked rfl ⟨nofun, nofun, nofun⟩ rfl rfl rfl
      intro other value ne stored settled
      exact settled.of_parked key ne expiring stored rfl
  | hand value handing =>
      rw [silent nofun]
      apply inv.keep linked rfl ⟨nofun, nofun, nofun⟩ rfl rfl
      intro key value settled
      refine ⟨settled.stored, settled.sent, ?_⟩
      intro doomed
      rcases doomed with remove | expiring
      · exact settled.stays (Or.inl remove)
      · rw [handing] at expiring
        cases expiring
  | stop clearing => exact absurd clearing inv.alive.1
  | cancel => exact absurd rfl uncrossed.1
  | leave selecting cancelled =>
      rw [inv.kept] at cancelled
      cases cancelled
  | clear key clearing free => exact absurd clearing inv.alive.1

theorem run (inv : Agreeing c s log) (supported : Supported c) (acts : List (CacheAct K))
    (uncrossed : Lib.Along (DelayCache.step c) (Uncrossed c) s acts) :
    Agreeing c (s.run c acts) (log ++ Lib.traceFrom (DelayCache.step c) (arms c) s acts) :=
  Lib.invariant_trace (DelayCache.step c) (arms c) (Agreeing c)
    (fun s _ act allowed inner => inner.move supported act (s.step_move c act) allowed)
    s log acts uncrossed inv

theorem agreesAtRest (inv : Agreeing c s log) : s.AgreesAtRest log := by
  intro rest key value stored notExpiring
  have sent : s.Sent value.id := by
    rcases (inv.stored key value stored).2.2 with sending | sent
    · rcases rest.1 value.id with idle | sent
      · rw [sending] at idle
        cases idle
      · exact sent
    · exact sent
  have stays : ¬ s.Doomed c key := by
    intro doomed
    rcases doomed with ⟨id, -, removing⟩ | expiring
    · rcases rest.1 id with idle | ⟨result, returned⟩
      · rw [removing] at idle
        cases idle
      · rw [removing] at returned
        cases returned
    · exact notExpiring expiring
  have absent : value.id ∉ insertIds s.channel := by
    rw [rest.2]
    exact nofun
  obtain ⟨armed, last⟩ := inv.timed key value ⟨stored, sent, stays⟩ absent
  exact ⟨by rw [armed_iff inv.paired, armed], last⟩

end Agreeing

/-- If every time to live is one the delay queue supports, then in every run without crossed inserts
the timers agree with the map at rest. -/
theorem timers_agree_at_rest (c : Setting K) (acts : List (CacheAct K)) (supported : Supported c)
    (uncrossed : Lib.Along (step c) (Uncrossed c) init acts) :
    (init.run c acts).AgreesAtRest (Lib.traceFrom (step c) (arms c) init acts) := by
  have inv := (Agreeing.init (c := c)).run supported acts uncrossed
  exact inv.agreesAtRest

/-- A value is replaced and the timer follows. -/
theorem timers_agree_at_rest_replaced :
    let acts : List (CacheAct String) := [.call 0, .advance 0, .advance 0, .call 1, .advance 1,
      .advance 1, .command, .command]
    let s := init.run replacing acts
    let log := Lib.traceFrom (step replacing) (arms replacing) init acts
    s.map "k" = some { id := 1, ttl := some 100, inserted := 0 } ∧ log = [("k", 1), ("k", 100)] ∧
      s.AgreesAtRest log := by
  intro acts s log
  have supported : Supported replacing := by
    intro id key ttl own
    simp only [replacing, Request.insert.injEq] at own
    have small := own.2
    split_ifs at small
    · cases small
      decide
    · cases small
      decide
  refine ⟨rfl, rfl, timers_agree_at_rest replacing acts supported ?_⟩
  refine ⟨⟨nofun, nofun⟩, ⟨nofun, ?_⟩, ⟨nofun, ?_⟩, ⟨nofun, nofun⟩, ⟨nofun, ?_⟩, ⟨nofun, ?_⟩,
    ⟨nofun, nofun⟩, ⟨nofun, nofun⟩, trivial⟩
  · intro id key ttl value same own sending
    cases same
    cases sending
  · intro id key ttl value same own sending stored
    cases same
    cases own
    cases stored
    intros
    rfl
  · intro id key ttl value same own sending
    cases same
    cases sending
  · intro id key ttl value same own sending stored
    cases same
    cases own
    cases stored
    intros
    rfl

/-- Call 2 writes first and sends last: its command without a time to live drops the timer of the
value that call 0 has put into the map. -/
theorem timer_lost_when_inserts_cross :
    let acts : List (CacheAct String) := [.call 2, .advance 2, .call 0, .advance 0, .advance 0,
      .advance 2, .command, .command]
    let s := init.run replacing acts
    s.AtRest ∧ s.map "k" = some { id := 0, ttl := some 1, inserted := 0 } ∧ ¬ s.Armed "k" ∧
      ¬ s.AgreesAtRest (Lib.traceFrom (step replacing) (arms replacing) init acts) := by
  intro acts s
  have rest : s.AtRest := by
    refine ⟨?_, rfl⟩
    intro id
    by_cases first : id = 0
    · subst first
      exact Or.inr ⟨none, rfl⟩
    · by_cases second : id = 2
      · subst second
        exact Or.inr ⟨none, rfl⟩
      · left
        change Function.update (Function.update (Function.update (Function.update (Function.update
          (Function.update (fun _ => CallPc.idle) 2 .start) 2 .sending) 0 .start) 0 .sending)
          0 (.returned none)) 2 (.returned none) id = .idle
        simp only [Function.update_of_ne first, Function.update_of_ne second]
  have stored : s.map "k" = some { id := 0, ttl := some 1, inserted := 0 } := rfl
  have unarmed : ¬ s.Armed "k" := by
    intro found
    rcases found with ⟨entry, member, -⟩
    cases member
  refine ⟨rest, stored, unarmed, ?_⟩
  intro agrees
  exact unarmed ((agrees rest "k" _ stored nofun).1.mpr rfl)

end DelayCache

end Pigs.Cache.Delay
