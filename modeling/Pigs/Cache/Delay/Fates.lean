import Pigs.Cache.Delay.Early

/-! What becomes of the values that inserts put into the map. -/

namespace Pigs.Cache.Delay

/-- The map write of an insert, with the value it replaced. -/
structure Write (K : Type) where
  key : K
  value : CachedValue
  previous : Option CachedValue

/-- A value is in the map, was replaced by the write of an insert call, was returned by a remove
call, or was handed on as the element at an index. -/
inductive Fate where
  | stored
  | replaced (call : Nat)
  | returned (call : Nat)
  | handed (index : Nat)

namespace DelayCache

variable {K : Type}

/-- What the purge task has handed to `call_tx`, and the value that it has taken out of the map for
it. -/
def handedOver (s : DelayCache K) : List CachedValue :=
  s.handed.map Prod.snd ++
    match s.purge with
    | .handing value => [value]
    | _ => []

def Meets (c : Setting K) (s : DelayCache K) (log : List (Write K)) (key : K) (value : CachedValue) :
    Fate → Prop
  | .stored => s.map key = some value
  | .replaced call => ∃ front write back, log = front ++ write :: back ∧ write.key = key ∧
      write.value.id = call ∧ write.previous = some value ∧
      ∃ earlier ∈ front, earlier.key = key ∧ earlier.value = value
  | .returned call => c.request call = .remove key ∧ s.calls call = .returned (some value)
  | .handed index => s.handedOver[index]? = some value

/-- The map write of a step. -/
def writes [DecidableEq K] (c : Setting K) (s : DelayCache K) : CacheAct K → List (Write K)
  | .advance id =>
      match c.request id, s.calls id with
      | .insert key ttl, .start =>
          if s.locked key then
            []
          else
            [{ key := key
               value := { id := id, ttl := ttl, inserted := s.now }
               previous := s.map key }]
      | _, _ => []
  | _ => []

structure Fated (c : Setting K) (s : DelayCache K) (log : List (Write K)) : Prop
    extends Linked c s where
  kept : s.cancelled = false
  alive : s.purge ≠ .clearing ∧ s.purge ≠ .stopped
  written : ∀ write ∈ log, c.request write.value.id = .insert write.key write.value.ttl ∧
    (s.calls write.value.id = .sending ∨ s.Sent write.value.id)
  distinct : (log.map fun write => write.value.id).Nodup
  known : ∀ key value fate, s.Meets c log key value fate → ∃ write ∈ log, write.value = value
  fate : ∀ write ∈ log, ∃! fate, s.Meets c log write.key write.value fate

variable {c : Setting K} {s t : DelayCache K} {log : List (Write K)}

/-- A split of the longer log is a split of the log or ends in the new write. -/
theorem replaced_concat (log : List (Write K)) (last : Write K) (key : K) (value : CachedValue)
    (call : Nat) : s.Meets c (log ++ [last]) key value (.replaced call) ↔
      s.Meets c log key value (.replaced call) ∨ (last.key = key ∧ last.value.id = call ∧
        last.previous = some value ∧ ∃ earlier ∈ log, earlier.key = key ∧ earlier.value = value) := by
  constructor
  · intro meets
    rcases meets with ⟨front, write, back, split, own, by_call, previous, earlier⟩
    cases back using List.reverseRecOn with
    | nil =>
        rcases List.append_inj' split rfl with ⟨rfl, same⟩
        cases List.singleton_inj.mp same
        exact Or.inr ⟨own, by_call, previous, earlier⟩
    | append_singleton rest end_ =>
        rw [← List.cons_append, ← List.append_assoc] at split
        rcases List.append_inj' split rfl with ⟨same, -⟩
        exact Or.inl ⟨front, write, rest, same, own, by_call, previous, earlier⟩
  · intro meets
    rcases meets with ⟨front, write, back, rfl, own⟩ | ⟨own, by_call, previous, earlier⟩
    · exact ⟨front, write, back ++ [last], by simp, own⟩
    · exact ⟨log, last, [], rfl, own, by_call, previous, earlier⟩

/-- A step that puts a value into the map. -/
structure Puts [DecidableEq K] (s t : DelayCache K) (id : Nat) (key : K) (new : CachedValue) :
    Prop where
  start : s.calls id = .start
  map : t.map = Function.update s.map key (some new)
  calls : t.calls = Function.update s.calls id .sending
  handed : t.handed = s.handed
  purge : t.purge = s.purge

namespace Puts

variable [DecidableEq K] {id : Nat} {key other : K} {new value : CachedValue} {fate : Fate}

theorem returned (puts : Puts s t id key new) (call : Nat) :
    t.Meets c log other value (.returned call) ↔ s.Meets c log other value (.returned call) := by
  simp only [Meets, puts.calls]
  by_cases same : call = id
  · subst same
    rw [Function.update_self, puts.start]
    exact and_congr_right fun _ => iff_of_false nofun nofun
  · rw [Function.update_of_ne same]

theorem handedOver (puts : Puts s t id key new) : t.handedOver = s.handedOver := by
  simp only [DelayCache.handedOver, puts.handed, puts.purge]

theorem back (puts : Puts s t id key new) (mine : new.id = id)
    (meets : t.Meets c (log ++ [{ key := key, value := new, previous := s.map key }]) other value fate) :
    (fate = .stored ∧ value = new) ∨
      ((fate ≠ .stored ∨ other ≠ key) ∧ s.Meets c log other value fate) ∨
      (fate = .replaced id ∧ s.map key = some value) := by
  cases fate with
  | stored =>
      simp only [Meets, puts.map] at meets
      by_cases same : other = key
      · subst same
        rw [Function.update_self] at meets
        cases meets
        exact Or.inl ⟨rfl, rfl⟩
      · rw [Function.update_of_ne same] at meets
        exact Or.inr (Or.inl ⟨Or.inr same, meets⟩)
  | replaced call =>
      rcases (replaced_concat log _ other value call).mp meets with old | ⟨-, number, previous, -⟩
      · exact Or.inr (Or.inl ⟨Or.inl nofun, old⟩)
      · exact Or.inr (Or.inr ⟨by rw [← number, mine], previous⟩)
  | returned call => exact Or.inr (Or.inl ⟨Or.inl nofun, (puts.returned call).mp meets⟩)
  | handed index =>
      simp only [Meets, puts.handedOver] at meets
      exact Or.inr (Or.inl ⟨Or.inl nofun, meets⟩)

theorem keeps (puts : Puts s t id key new) (apart : fate ≠ .stored ∨ other ≠ key)
    (meets : s.Meets c log other value fate) :
    t.Meets c (log ++ [{ key := key, value := new, previous := s.map key }]) other value fate := by
  cases fate with
  | stored =>
      have ne : other ≠ key := apart.resolve_left fun never => never rfl
      simp only [Meets, puts.map, Function.update_of_ne ne]
      exact meets
  | replaced call => exact (replaced_concat log _ other value call).mpr (Or.inl meets)
  | returned call => exact (puts.returned call).mpr meets
  | handed index =>
      simp only [Meets, puts.handedOver]
      exact meets

end Puts

/-- Every value stays where it is. -/
def SameStore (s t : DelayCache K) : Prop :=
  (t.map, t.handedOver, t.purge, t.cancelled) = (s.map, s.handedOver, s.purge, s.cancelled)

namespace Fated

theorem init : Fated c (DelayCache.init : DelayCache K) [] where
  toLinked := Linked.init
  kept := rfl
  alive := ⟨nofun, nofun⟩
  written := nofun
  distinct := List.nodup_nil
  known key value fate meets := by
    cases fate with
    | stored => cases meets
    | replaced call =>
        rcases meets with ⟨front, write, back, split, -⟩
        simp at split
    | returned call => cases meets.2
    | handed index => cases meets
  fate := nofun

theorem key_of_stored (inv : Fated c s log) (write : Write K) (member : write ∈ log) (key : K)
    (stored : s.map key = some write.value) : write.key = key := by
  have own := (inv.written write member).1
  rw [(inv.stored key write.value stored).1] at own
  cases own
  rfl

theorem stored_only (inv : Fated c s log) (write : Write K) (member : write ∈ log)
    (stored : s.map write.key = some write.value) (fate : Fate)
    (meets : s.Meets c log write.key write.value fate) : fate = .stored :=
  (inv.fate write member).unique meets stored

/-- The call of a written value is past its write, whatever a call that is not does. -/
theorem written_setCall (inv : Fated c s log) (id : Nat) (pc : CallPc)
    (before : (s.calls id).Unwritten ∨ ∃ value, pc = .returned value)
    (calls : t.calls = Function.update s.calls id pc) (write : Write K) (member : write ∈ log) :
    t.calls write.value.id = .sending ∨ t.Sent write.value.id := by
  have phase := (inv.written write member).2
  rw [Sent, calls]
  by_cases same : write.value.id = id
  · rcases before with unwritten | ⟨value, rfl⟩
    · rw [same] at phase
      rcases phase with sending | sent
      · rw [sending] at unwritten
        exact unwritten.elim
      · exact absurd sent (not_sent_of_unwritten id unwritten)
    · right
      rw [same, Function.update_self]
      exact ⟨value, rfl⟩
  · rw [Function.update_of_ne same]
    exact phase

/-- The step leaves every value where it is. -/
theorem keep (inv : Fated c s log) (linked : Linked c t) (kept : t.cancelled = s.cancelled)
    (alive : t.purge ≠ .clearing ∧ t.purge ≠ .stopped)
    (phase : ∀ write ∈ log, t.calls write.value.id = .sending ∨ t.Sent write.value.id)
    (map : t.map = s.map) (handed : t.handedOver = s.handedOver)
    (returned : ∀ call key value, c.request call = .remove key →
      (t.calls call = .returned (some value) ↔ s.calls call = .returned (some value))) :
    Fated c t log := by
  have same : ∀ key value fate, t.Meets c log key value fate ↔ s.Meets c log key value fate := by
    intro key value fate
    cases fate with
    | stored => simp only [Meets, map]
    | replaced call => exact Iff.rfl
    | returned call => exact and_congr_right fun own => returned call key value own
    | handed index => simp only [Meets, handed]
  refine
    { linked with
      kept := kept.trans inv.kept
      alive := alive
      written := fun write member => ⟨(inv.written write member).1, phase write member⟩
      distinct := inv.distinct
      known := fun key value fate meets => inv.known key value fate ((same key value fate).mp meets)
      fate := ?_ }
  intro write member
  simp only [same]
  exact inv.fate write member

/-- A step of a call that touches no value. -/
theorem quiet (inv : Fated c s log) (linked : Linked c t) (id : Nat) (pc : CallPc)
    (before : (s.calls id).Unwritten ∨ (s.calls id = .sending ∧ pc = .returned none))
    (nothing : ∀ value, pc ≠ .returned (some value)) (calls : t.calls = Function.update s.calls id pc)
    (same : SameStore s t) : Fated c t log := by
  have phase : ∀ write ∈ log, t.calls write.value.id = .sending ∨ t.Sent write.value.id :=
    inv.written_setCall id pc (before.imp_right fun sending => ⟨none, sending.2⟩) calls
  obtain ⟨map, handed, purge, kept⟩ : t.map = s.map ∧ t.handedOver = s.handedOver ∧ t.purge = s.purge ∧
      t.cancelled = s.cancelled := by
    simpa only [SameStore, Prod.mk.injEq] using same
  apply inv.keep linked kept (purge ▸ inv.alive) phase map handed
  intro call key value _
  rw [calls]
  by_cases here : call = id
  · subst here
    rw [Function.update_self]
    apply iff_of_false (nothing value)
    intro returned
    rcases before with unwritten | ⟨sending, -⟩
    · rw [returned] at unwritten
      exact unwritten
    · rw [sending] at returned
      cases returned
  · rw [Function.update_of_ne here]

/-- A step that leaves the map and the calls alone. -/
theorem still (inv : Fated c s log) (linked : Linked c t) (kept : t.cancelled = s.cancelled)
    (alive : t.purge ≠ .clearing ∧ t.purge ≠ .stopped) (map : t.map = s.map)
    (calls : t.calls = s.calls) (handed : t.handedOver = s.handedOver) : Fated c t log := by
  apply inv.keep linked kept alive _ map handed
  · intro call key value _
    rw [calls]
  · intro write member
    rw [Sent, calls]
    exact (inv.written write member).2

variable [DecidableEq K]

/-- A value leaves the map and meets one other fate. -/
theorem departs (inv : Fated c s log) (linked : Linked c t) (kept : t.cancelled = s.cancelled)
    (alive : t.purge ≠ .clearing ∧ t.purge ≠ .stopped)
    (phase : ∀ write ∈ log, t.calls write.value.id = .sending ∨ t.Sent write.value.id)
    (key : K) (value : CachedValue) (stored : s.map key = some value)
    (map : t.map = Function.update s.map key none) (next : Fate)
    (after : t.Meets c log key value next)
    (keeps : ∀ other v fate, fate ≠ .stored → s.Meets c log other v fate → t.Meets c log other v fate)
    (only : ∀ other v fate, fate ≠ .stored → t.Meets c log other v fate →
      s.Meets c log other v fate ∨ (fate = next ∧ v = value)) : Fated c t log := by
  have back : ∀ other v fate, t.Meets c log other v fate →
      s.Meets c log other v fate ∨ (fate = next ∧ v = value) := by
    intro other v fate meets
    by_cases same : fate = .stored
    · subst same
      left
      simp only [Meets, map] at meets
      exact map_of_erased key other v meets
    · exact only other v fate same meets
  refine
    { linked with
      kept := kept.trans inv.kept
      alive := alive
      written := fun write member => ⟨(inv.written write member).1, phase write member⟩
      distinct := inv.distinct
      known := ?_
      fate := ?_ }
  · intro other v fate meets
    rcases back other v fate meets with before | ⟨-, rfl⟩
    · exact inv.known other v fate before
    · exact inv.known key v .stored stored
  · intro write member
    by_cases same : write.value = value
    · subst same
      obtain rfl := inv.key_of_stored write member key stored
      refine ⟨next, after, ?_⟩
      intro fate meets
      rcases back write.key write.value fate meets with before | ⟨only, -⟩
      · obtain rfl := inv.stored_only write member stored fate before
        simp [Meets, map] at meets
      · exact only
    · rcases inv.fate write member with ⟨fate, meets, unique⟩
      refine ⟨fate, ?_, ?_⟩
      · by_cases inside : fate = .stored
        · subst inside
          have ne : write.key ≠ key := by
            intro equal
            simp only [Meets, equal, stored, Option.some.injEq] at meets
            exact same meets.symm
          simp only [Meets, map, Function.update_of_ne ne]
          exact meets
        · exact keeps write.key write.value fate inside meets
      · intro other found
        rcases back write.key write.value other found with before | ⟨-, equal⟩
        · exact unique other before
        · exact absurd equal same

theorem remove (inv : Fated c s log) (id : Nat) (key : K) (own : c.request id = .remove key)
    (removing : s.calls id = .removing)
    (linked : Linked c ((s.setMap key none).setCall id (.returned (s.map key)))) :
    Fated c ((s.setMap key none).setCall id (.returned (s.map key))) log := by
  have phase := inv.written_setCall (t := (s.setMap key none).setCall id (.returned (s.map key)))
    id _ (Or.inr ⟨_, rfl⟩) rfl
  have other_call : ∀ call, call ≠ id →
      ((s.setMap key none).setCall id (.returned (s.map key))).calls call = s.calls call :=
    fun call ne => setCall_of_ne _ id call _ ne
  cases stored : s.map key with
  | none =>
      rw [stored] at linked phase other_call
      apply inv.keep linked rfl inv.alive phase _ rfl
      · intro call other value _
        by_cases same : call = id
        · subst same
          rw [setCall_self, removing]
          exact iff_of_false nofun nofun
        · rw [other_call call same]
      · simp only [setCall, setMap]
        rw [← stored, Function.update_eq_self]
  | some value =>
      rw [stored] at linked phase other_call
      apply inv.departs linked rfl inv.alive phase key value stored rfl (.returned id)
      · exact ⟨own, setCall_self _ id _⟩
      · intro other v fate apart meets
        cases fate with
        | stored => exact absurd rfl apart
        | replaced call => exact meets
        | returned call =>
            refine ⟨meets.1, ?_⟩
            rw [other_call call]
            · exact meets.2
            · intro same
              subst same
              have returned := meets.2
              rw [removing] at returned
              cases returned
        | handed index => exact meets
      · intro other v fate apart meets
        cases fate with
        | stored => exact absurd rfl apart
        | replaced call => exact Or.inl meets
        | returned call =>
            rcases meets with ⟨theirs, returned⟩
            by_cases same : call = id
            · subst same
              rw [setCall_self] at returned
              cases returned
              exact Or.inr ⟨rfl, rfl⟩
            · rw [other_call call same] at returned
              exact Or.inl ⟨theirs, returned⟩
        | handed index => exact Or.inl meets

theorem take (inv : Fated c s log) (key : K) (value : CachedValue)
    (expiring : s.purge = .expiring key) (stored : s.map key = some value)
    (linked : Linked c
      { s.setMap key none with taken := s.taken ++ [(s.now, value)], purge := .handing value }) :
    Fated c { s.setMap key none with taken := s.taken ++ [(s.now, value)], purge := .handing value }
      log := by
  have before : s.handedOver = s.handed.map Prod.snd := by
    simp only [handedOver, expiring, List.append_nil]
  apply inv.departs linked rfl ⟨nofun, nofun⟩ (fun write member => (inv.written write member).2)
    key value stored rfl (.handed (s.handed.map Prod.snd).length)
  · simp [Meets, handedOver, setMap]
  · intro other v fate apart meets
    cases fate with
    | stored => exact absurd rfl apart
    | replaced call => exact meets
    | returned call => exact meets
    | handed index =>
        simp only [Meets, before] at meets
        exact (List.getElem?_append_left (List.getElem?_eq_some_iff.mp meets).1).trans meets
  · intro other v fate apart meets
    cases fate with
    | stored => exact absurd rfl apart
    | replaced call => exact Or.inl meets
    | returned call => exact Or.inl meets
    | handed index =>
        simp only [Meets, handedOver, setMap] at meets
        rcases Nat.lt_or_ge index (s.handed.map Prod.snd).length with inside | past
        · rw [List.getElem?_append_left inside] at meets
          left
          simp only [Meets, before]
          exact meets
        · rw [List.getElem?_append_right past, List.getElem?_singleton] at meets
          split_ifs at meets with last
          cases meets
          exact Or.inr ⟨by rw [Fate.handed.injEq]; omega, rfl⟩

/-- A value that an insert puts into the map is new, and the one that was there is replaced. -/
theorem write (inv : Fated c s log) (linked : Linked c t) (id : Nat) (key : K) (new : CachedValue)
    (puts : Puts s t id key new) (own : c.request id = .insert key new.ttl) (mine : new.id = id)
    (kept : t.cancelled = s.cancelled) :
    Fated c t (log ++ [{ key := key, value := new, previous := s.map key }]) := by
  have unwritten : (s.calls id).Unwritten := by
    rw [puts.start]
    trivial
  have fresh : ∀ write ∈ log, write.value.id ≠ id := by
    intro write member same
    rcases (inv.written write member).2 with sending | sent
    · rw [same, puts.start] at sending
      cases sending
    · exact not_sent_of_unwritten id unwritten (same ▸ sent)
  have unseen : ∀ other fate, ¬ s.Meets c log other new fate := by
    intro other fate meets
    rcases inv.known other new fate meets with ⟨write, member, same⟩
    exact fresh write member (by rw [same, mine])
  refine
    { linked with
      kept := kept.trans inv.kept
      alive := puts.purge ▸ inv.alive
      written := ?_
      distinct := ?_
      known := ?_
      fate := ?_ }
  · intro write member
    rcases List.mem_append.mp member with old | last
    · exact ⟨(inv.written write old).1,
        inv.written_setCall id .sending (Or.inl unwritten) puts.calls write old⟩
    · cases List.mem_singleton.mp last
      refine ⟨mine ▸ own, Or.inl ?_⟩
      rw [puts.calls, mine, Function.update_self]
  · rw [List.map_append, List.nodup_append]
    refine ⟨inv.distinct, List.nodup_singleton _, ?_⟩
    intro number inside other single equal
    subst equal
    rcases List.mem_map.mp inside with ⟨write, member, rfl⟩
    exact fresh write member ((List.mem_singleton.mp single).trans mine)
  · intro other value fate meets
    rcases puts.back mine meets with ⟨-, rfl⟩ | ⟨-, old⟩ | ⟨-, stored⟩
    · exact ⟨_, List.mem_append_right log (List.mem_singleton.mpr rfl), rfl⟩
    · rcases inv.known other value fate old with ⟨write, member, same⟩
      exact ⟨write, List.mem_append_left _ member, same⟩
    · rcases inv.known key value .stored stored with ⟨write, member, same⟩
      exact ⟨write, List.mem_append_left _ member, same⟩
  · intro write member
    rcases List.mem_append.mp member with old | last
    · have different : write.value ≠ new := by
        intro same
        exact fresh write old (by rw [same, mine])
      by_cases here : s.map key = some write.value
      · obtain rfl := inv.key_of_stored write old key here
        refine ⟨.replaced id, ?_, ?_⟩
        · exact (replaced_concat log _ write.key write.value id).mpr
            (Or.inr ⟨rfl, mine, here, write, old, rfl, rfl⟩)
        · intro fate meets
          rcases puts.back mine meets with ⟨-, same⟩ | ⟨apart, before⟩ | ⟨replaced, -⟩
          · exact absurd same different
          · obtain rfl := inv.stored_only write old here fate before
            rcases apart with never | never
            · exact absurd rfl never
            · exact absurd rfl never
          · exact replaced
      · rcases inv.fate write old with ⟨fate, meets, unique⟩
        refine ⟨fate, ?_, ?_⟩
        · apply puts.keeps _ meets
          by_cases stored : fate = .stored
          · subst stored
            right
            intro same
            exact here (same ▸ meets)
          · exact Or.inl stored
        · intro other found
          rcases puts.back mine found with ⟨-, same⟩ | ⟨-, before⟩ | ⟨-, stored⟩
          · exact absurd same different
          · exact unique other before
          · exact absurd stored here
    · cases List.mem_singleton.mp last
      refine ⟨.stored, ?_, ?_⟩
      · simp only [Meets, puts.map, Function.update_self]
      · intro fate meets
        rcases puts.back mine meets with ⟨stored, -⟩ | ⟨-, before⟩ | ⟨-, stored⟩
        · exact stored
        · exact absurd before (unseen key fate)
        · exact absurd stored (unseen key .stored)

theorem writes_of_noCall (act : CacheAct K) (noCall : ∀ id, act ≠ .advance id) :
    s.writes c act = [] := by
  cases act with
  | advance id => exact absurd rfl (noCall id)
  | _ => rfl

theorem writes_of_wait (id : Nat) (blocked : ∀ key ttl, c.request id = .insert key ttl →
    s.calls id = .start → s.locked key = true) : s.writes c (.advance id) = [] := by
  simp only [writes]
  split
  · next key ttl own start => rw [if_pos (blocked key ttl own start)]
  · rfl

theorem writes_of_ne (id : Nat) (other : s.calls id ≠ .start) : s.writes c (.advance id) = [] := by
  simp only [writes]
  split
  · next start => exact absurd start other
  · rfl

theorem writes_of_request (id : Nat) (other : ∀ key ttl, c.request id ≠ .insert key ttl) :
    s.writes c (.advance id) = [] := by
  simp only [writes]
  split
  · next key ttl own start => exact absurd own (other key ttl)
  · rfl

theorem writes_of_write (id : Nat) (key : K) (ttl : Option Nat)
    (own : c.request id = .insert key ttl) (start : s.calls id = .start)
    (free : s.locked key = false) : s.writes c (.advance id) =
      [{ key := key, value := { id := id, ttl := ttl, inserted := s.now }, previous := s.map key }] := by
  simp [writes, own, start, free]

theorem move (inv : Fated c s log) (act : CacheAct K) (move : Move c s act t)
    (notCancel : act ≠ .cancel) : Fated c t (log ++ s.writes c act) := by
  have linked := inv.toLinked.move act move
  have silent : s.writes c act = [] → log ++ s.writes c act = log := by
    intro nothing
    rw [nothing, List.append_nil]
  cases move with
  | stay _ noCall noCommand =>
      rw [silent (writes_of_noCall act noCall)]
      exact inv
  | wait id blocked =>
      rw [silent (writes_of_wait id blocked)]
      exact inv
  | idle nothing =>
      rw [silent rfl]
      exact inv
  | tick elapsed =>
      rw [silent rfl]
      exact inv.still linked rfl inv.alive rfl rfl rfl
  | call id idle =>
      rw [silent rfl]
      exact inv.quiet linked id .start (Or.inl (by rw [idle]; trivial)) nofun rfl rfl
  | write id key ttl own start free =>
      rw [writes_of_write id key ttl own start free]
      exact inv.write linked id key _ ⟨start, rfl, rfl, rfl, rfl⟩ own rfl rfl
  | sendInsert id key ttl own sending =>
      rw [silent (writes_of_ne id (by rw [sending]; exact nofun))]
      rcases s.send_eq id (.insert key ttl) with ⟨channel, same⟩
      rw [same] at linked ⊢
      exact inv.quiet linked id (.returned none) (Or.inr ⟨sending, rfl⟩) nofun rfl rfl
  | sendRemove id key own start =>
      rw [silent (writes_of_request id (by rw [own]; exact nofun))]
      rcases s.send_eq id (.remove key) with ⟨channel, same⟩
      rw [same] at linked ⊢
      exact inv.quiet linked id .removing (Or.inl (by rw [start]; trivial)) nofun rfl rfl
  | remove id key own removing free =>
      rw [silent (writes_of_request id (by rw [own]; exact nofun))]
      exact inv.remove id key own removing linked
  | refreshNothing id key own start absent =>
      rw [silent (writes_of_request id (by rw [own]; exact nofun))]
      exact inv.quiet linked id (.returned none) (Or.inl (by rw [start]; trivial)) nofun rfl rfl
  | guard id key value own start stored =>
      rw [silent (writes_of_request id (by rw [own]; exact nofun))]
      exact inv.quiet linked id (.guarded value.ttl) (Or.inl (by rw [start]; trivial)) nofun rfl rfl
  | sendRefresh id key ttl own held =>
      rw [silent (writes_of_request id (by rw [own]; exact nofun))]
      rcases s.send_eq id (.refresh key ttl) with ⟨channel, same⟩
      rw [same] at linked ⊢
      exact inv.quiet linked id .releasing (Or.inl (by rw [held]; trivial)) nofun rfl rfl
  | keepTimer id key own held =>
      rw [silent (writes_of_request id (by rw [own]; exact nofun))]
      exact inv.quiet linked id .releasing (Or.inl (by rw [held]; trivial)) nofun rfl rfl
  | release id key own releasing =>
      rw [silent (writes_of_request id (by rw [own]; exact nofun))]
      exact inv.quiet linked id (.returned none) (Or.inl (by rw [releasing]; trivial)) nofun rfl rfl
  | apply id command rest timers selecting channel done =>
      rw [silent rfl]
      exact inv.still linked rfl inv.alive rfl rfl rfl
  | panic id command rest panicked selecting channel failed =>
      rw [silent rfl]
      exact inv.still linked rfl ⟨nofun, nofun⟩ rfl rfl (by simp only [handedOver, selecting])
  | expire token key timers selecting yielded =>
      rw [silent rfl]
      exact inv.still linked rfl ⟨nofun, nofun⟩ rfl rfl (by simp only [handedOver, selecting])
  | takeNothing key expiring free absent =>
      rw [silent rfl]
      exact inv.still linked rfl ⟨nofun, nofun⟩ rfl rfl (by simp only [handedOver, expiring])
  | take key value expiring free stored =>
      rw [silent rfl]
      exact inv.take key value expiring stored linked
  | hand value handing =>
      rw [silent rfl]
      exact inv.still linked rfl ⟨nofun, nofun⟩ rfl rfl (by simp [handedOver, handing])
  | stop clearing => exact absurd clearing inv.alive.1
  | cancel => exact absurd rfl notCancel
  | leave selecting cancelled =>
      rw [inv.kept] at cancelled
      cases cancelled
  | clear key clearing free => exact absurd clearing inv.alive.1

theorem run (inv : Fated c s log) (acts : List (CacheAct K)) (notCancelled : .cancel ∉ acts) :
    Fated c (s.run c acts) (log ++ Lib.traceFrom (DelayCache.step c) (writes c) s acts) := by
  have along : Lib.Along (DelayCache.step c) (fun _ act => act ≠ .cancel) s acts := by
    apply Lib.along_of_mem
    intro act member _ same
    exact notCancelled (same ▸ member)
  exact Lib.invariant_trace (DelayCache.step c) (writes c) (Fated c)
    (fun s _ act allowed inner => inner.move act (s.step_move c act) allowed) s log acts along inv

end Fated

/-- In every run without a shutdown each value that an insert has put into the map meets exactly
one fate: it is there, it was replaced, one remove returned it, or it was handed on once. -/
theorem written_values_meet_one_fate [DecidableEq K] (c : Setting K) (acts : List (CacheAct K))
    (notCancelled : .cancel ∉ acts) :
    let log := Lib.traceFrom (step c) (writes c) init acts
    (log.map fun write => write.value.id).Nodup ∧
      ∀ write ∈ log, ∃! fate, (init.run c acts).Meets c log write.key write.value fate := by
  have inv := (Fated.init (c := c)).run acts notCancelled
  exact ⟨inv.distinct, inv.fate⟩

/-- Calls 0 and 2 insert, call 1 removes, all at the same key. -/
def overlapping : Setting String where
  alloc := successorAlloc
  maxDelay := 1000
  request id := if id = 1 then .remove "k" else .insert "k" (some 1)

/-- A first value is returned by a remove, and a second one is handed on when it expires. -/
theorem written_values_meet_one_fate_overlapping :
    let acts : List (CacheAct String) := [.call 0, .advance 0, .advance 0, .call 1, .advance 1,
      .advance 1, .call 2, .advance 2, .advance 2, .command, .command, .command, .tick 1, .expire 0,
      .advancePurge, .advancePurge]
    let log := Lib.traceFrom (step overlapping) (writes overlapping) init acts
    log = [{ key := "k", value := { id := 0, ttl := some 1, inserted := 0 }, previous := none },
      { key := "k", value := { id := 2, ttl := some 1, inserted := 0 }, previous := none }] ∧
      (init.run overlapping acts).handedOver = [{ id := 2, ttl := some 1, inserted := 0 }] ∧
      ∀ write ∈ log,
        ∃! fate, (init.run overlapping acts).Meets overlapping log write.key write.value fate :=
  ⟨rfl, rfl, (written_values_meet_one_fate overlapping _ (by simp)).2⟩

end DelayCache

end Pigs.Cache.Delay
