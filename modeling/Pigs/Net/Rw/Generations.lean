import Pigs.Net.Rw.WriterCalls

/-! The registry under concurrent calls: the two maps stay views of one list of survivors, and a
registration that has been replaced or removed never comes back. -/

namespace Pigs.Net.Rw

variable {Addr Ip Token : Type}

/-- The writer id that a call has drawn and not yet used. -/
def Call.drawn : Call Addr Token → Option Nat
  | .insertTcpSink _ _ (.numbered writerId) => some writerId
  | _ => none

@[simp] theorem Request.drawn_call (request : Request Addr Token) : request.call.drawn = none := by
  cases request <;> rfl

/-- A call that has drawn nothing afterwards takes no id from the others. -/
theorem calls_of_undrawn (w : World Addr Ip Token) (s : Shared Addr Ip Token) (k : Nat)
    (next : Call Addr Token) (undrawn : next.drawn = none) (i : Nat) (call : Call Addr Token)
    (id : Nat) (present : (w.setCall s k next).calls i = some call) (drawn : call.drawn = some id) :
    w.calls i = some call ∧ i ≠ k := by
  by_cases same : i = k
  · subst same
    simp only [World.setCall, Function.update_self, Option.some.injEq] at present
    rw [← present, undrawn] at drawn
    cases drawn
  · simp only [World.setCall, Function.update_of_ne same] at present
    exact ⟨present, same⟩

/-- Neither map nor counter is touched. -/
def SameRegistry (s t : Shared Addr Ip Token) : Prop :=
  (t.registry, t.nextTcpWriterId, t.sections) = (s.registry, s.nextTcpWriterId, s.sections)

variable [DecidableEq Addr] [DecidableEq Ip]

structure Coherent (ip : Addr → Ip) (w : World Addr Ip Token) : Prop where
  represents : Represents ip (live w.shared.sections) w.shared.registry
  used : ∀ entry ∈ insertions w.shared.sections,
    entry.registration.writerId < w.shared.nextTcpWriterId
  unique : ((insertions w.shared.sections).map (·.registration.writerId)).Nodup
  drawn : ∀ i call id, w.calls i = some call → call.drawn = some id →
    id < w.shared.nextTcpWriterId ∧
      ∀ entry ∈ insertions w.shared.sections, entry.registration.writerId ≠ id
  apart : ∀ i j call other id, w.calls i = some call → w.calls j = some other →
    call.drawn = some id → other.drawn = some id → i = j

namespace Coherent

variable {ip : Addr → Ip} {w : World Addr Ip Token}

theorem new : Coherent ip (World.new : World Addr Ip Token) where
  represents := Represents.empty
  used _ member := by cases member
  unique := List.nodup_nil
  drawn _ _ _ absent := by cases absent
  apart _ _ _ _ _ absent := by cases absent

/-- A step that touches neither map nor counter, and draws nothing. -/
theorem quiet (coh : Coherent ip w) (t : World Addr Ip Token)
    (same : SameRegistry w.shared t.shared)
    (calls : ∀ i call id, t.calls i = some call → call.drawn = some id →
      ∃ before, w.calls i = some before ∧ before.drawn = some id) : Coherent ip t := by
  obtain ⟨registry, counter, sections⟩ : t.shared.registry = w.shared.registry ∧
      t.shared.nextTcpWriterId = w.shared.nextTcpWriterId ∧ t.shared.sections = w.shared.sections := by
    simpa only [SameRegistry, Prod.mk.injEq] using same
  constructor
  · rw [registry, sections]
    exact coh.represents
  · rw [counter, sections]
    exact coh.used
  · rw [sections]
    exact coh.unique
  · intro i call id present drawn
    obtain ⟨before, was, drew⟩ := calls i call id present drawn
    rw [counter, sections]
    exact coh.drawn i before id was drew
  · intro i j call other id present otherPresent drawn otherDrawn
    obtain ⟨before, was, drew⟩ := calls i call id present drawn
    obtain ⟨otherBefore, otherWas, otherDrew⟩ := calls j other id otherPresent otherDrawn
    exact coh.apart i j before otherBefore id was otherWas drew otherDrew

theorem quietCall (coh : Coherent ip w) (s : Shared Addr Ip Token) (k : Nat)
    (next : Call Addr Token) (undrawn : next.drawn = none) (same : SameRegistry w.shared s) :
    Coherent ip (w.setCall s k next) :=
  coh.quiet _ same fun i call id present drawn =>
    ⟨call, (calls_of_undrawn w s k next undrawn i call id present drawn).1, drawn⟩

theorem draw (coh : Coherent ip w) (k : Nat) (a : Addr) (sink : TcpPacketSink Token) :
    Coherent ip (w.setCall { w.shared with nextTcpWriterId := w.shared.nextTcpWriterId + 1 } k
      (.insertTcpSink a sink (.numbered w.shared.nextTcpWriterId))) where
  represents := coh.represents
  used entry member := Nat.lt_succ_of_lt (coh.used entry member)
  unique := coh.unique
  drawn i call id present drawn := by
    by_cases same : i = k
    · subst same
      simp only [World.setCall, Function.update_self, Option.some.injEq] at present
      subst present
      obtain rfl : w.shared.nextTcpWriterId = id := by simpa [Call.drawn] using drawn
      exact ⟨Nat.lt_succ_self _, fun entry member => Nat.ne_of_lt (coh.used entry member)⟩
    · simp only [World.setCall, Function.update_of_ne same] at present
      obtain ⟨bound, absent⟩ := coh.drawn i call id present drawn
      exact ⟨Nat.lt_succ_of_lt bound, absent⟩
  apart i j call other id present otherPresent drawn otherDrawn := by
    by_cases same : i = k <;> by_cases otherSame : j = k
    · exact same.trans otherSame.symm
    · subst same
      simp only [World.setCall, Function.update_self, Option.some.injEq] at present
      simp only [World.setCall, Function.update_of_ne otherSame] at otherPresent
      subst present
      obtain rfl : w.shared.nextTcpWriterId = id := by simpa [Call.drawn] using drawn
      exact absurd (coh.drawn j other _ otherPresent otherDrawn).1 (lt_irrefl _)
    · subst otherSame
      simp only [World.setCall, Function.update_self, Option.some.injEq] at otherPresent
      simp only [World.setCall, Function.update_of_ne same] at present
      subst otherPresent
      obtain rfl : w.shared.nextTcpWriterId = id := by simpa [Call.drawn] using otherDrawn
      exact absurd (coh.drawn i call _ present drawn).1 (lt_irrefl _)
    · simp only [World.setCall, Function.update_of_ne same] at present
      simp only [World.setCall, Function.update_of_ne otherSame] at otherPresent
      exact coh.apart i j call other id present otherPresent drawn otherDrawn

/-- A critical section that stores nothing new. -/
theorem emptySection (coh : Coherent ip w) (k : Nat) (next : Call Addr Token)
    (undrawn : next.drawn = none) (registry : Registry Addr Ip Token)
    (last : Section Addr Token) (stores : insertedEntry last = none)
    (represents : Represents ip (last.apply (live w.shared.sections)) registry) :
    Coherent ip (w.setCall
      { w.shared with registry := registry, sections := w.shared.sections ++ [last] } k next) := by
  have same : insertions (w.shared.sections ++ [last]) = insertions w.shared.sections := by
    simp [insertions, stores]
  constructor
  · change Represents ip (live (w.shared.sections ++ [last])) registry
    rwa [live_concat]
  · change ∀ entry ∈ insertions (w.shared.sections ++ [last]), _
    rw [same]
    exact coh.used
  · change ((insertions (w.shared.sections ++ [last])).map _).Nodup
    rw [same]
    exact coh.unique
  · intro i call id present drawn
    change _ ∧ ∀ entry ∈ insertions (w.shared.sections ++ [last]), _
    rw [same]
    exact coh.drawn i call id (calls_of_undrawn _ _ k next undrawn i call id present drawn).1 drawn
  · intro i j call other id present otherPresent drawn otherDrawn
    exact coh.apart i j call other id
      (calls_of_undrawn _ _ k next undrawn i call id present drawn).1
      (calls_of_undrawn _ _ k next undrawn j other id otherPresent otherDrawn).1 drawn otherDrawn

/-- The critical section of an insert uses up the id the call has drawn. -/
theorem insertSection (coh : Coherent ip w) (k id : Nat) (a : Addr) (sink : TcpPacketSink Token)
    (present : w.calls k = some (.insertTcpSink a sink (.numbered id)))
    (next : Call Addr Token) (undrawn : next.drawn = none) :
    Coherent ip (w.setCall
      { w.shared with
        registry := (w.shared.registry.insertTcpSink ip ⟨a, id⟩ sink).1
        sections := w.shared.sections ++ [.inserted ⟨⟨a, id⟩, sink⟩] } k next) := by
  obtain ⟨bound, fresh⟩ := coh.drawn k _ id present rfl
  have grown : insertions (w.shared.sections ++ [.inserted ⟨⟨a, id⟩, sink⟩]) =
      insertions w.shared.sections ++ [⟨⟨a, id⟩, sink⟩] := by
    rw [insertions_append]
    rfl
  constructor
  · change Represents ip (live (w.shared.sections ++ [.inserted ⟨⟨a, id⟩, sink⟩])) _
    rw [live_concat]
    exact coh.represents.insertTcpSink ⟨a, id⟩ sink
  · change ∀ entry ∈ insertions (w.shared.sections ++ [.inserted ⟨⟨a, id⟩, sink⟩]), _
    rw [grown]
    intro entry member
    rcases List.mem_append.mp member with old | new
    · exact coh.used entry old
    · rw [List.mem_singleton.mp new]
      exact bound
  · change ((insertions (w.shared.sections ++ [.inserted ⟨⟨a, id⟩, sink⟩])).map _).Nodup
    rw [grown, List.map_append, List.nodup_append]
    refine ⟨coh.unique, by simp, ?_⟩
    intro old member new single
    rcases List.mem_map.mp member with ⟨entry, inside, rfl⟩
    obtain rfl : new = id := by simpa using single
    exact fresh entry inside
  · intro i call other pending drawn
    obtain ⟨was, ne⟩ := calls_of_undrawn _ _ k next undrawn i call other pending drawn
    obtain ⟨otherBound, otherFresh⟩ := coh.drawn i call other was drawn
    refine ⟨otherBound, ?_⟩
    change ∀ entry ∈ insertions (w.shared.sections ++ [.inserted ⟨⟨a, id⟩, sink⟩]), _
    rw [grown]
    intro entry member
    rcases List.mem_append.mp member with old | new
    · exact otherFresh entry old
    · rw [List.mem_singleton.mp new]
      intro equal
      subst equal
      exact ne (coh.apart i k call _ id was present drawn rfl)
  · intro i j call other shared pending otherPending drawn otherDrawn
    exact coh.apart i j call other shared
      (calls_of_undrawn _ _ k next undrawn i call shared pending drawn).1
      (calls_of_undrawn _ _ k next undrawn j other shared otherPending otherDrawn).1
      drawn otherDrawn

variable [DecidableEq Token]

theorem advance (coh : Coherent ip w) (k pick : Nat) (call : Call Addr Token)
    (present : w.calls k = some call) :
    Coherent ip (w.setCall (call.advance ip w.shared pick).1 k
      (call.advance ip w.shared pick).2) := by
  cases call with
  | insertTcpSink a sink pc =>
      cases pc with
      | start =>
          refine coh.quietCall _ k _ ?_ rfl
          simp only [Call.advance]
          split_ifs <;> rfl
      | refused => exact coh.quietCall _ k _ rfl rfl
      | opened => exact coh.draw k a sink
      | numbered id =>
          simp only [Call.advance]
          split_ifs
          · exact coh.quietCall _ k _ rfl rfl
          · exact coh.insertSection k id a sink present _ rfl
      | displacing previous registration =>
          cases previous with
          | none => exact coh.quietCall _ k _ rfl rfl
          | some sink => exact coh.quietCall _ k _ rfl rfl
      | returned result => exact coh.quietCall _ k _ rfl rfl
  | removeTcpWriter a expected pc =>
      cases pc with
      | start =>
          simp only [Call.advance]
          rcases coh.represents.removeTcpWriterInner a expected with
            ⟨missed, _⟩ | ⟨entry, _, _, taken, after⟩
          · rw [missed]
            exact coh.quietCall _ k _ rfl rfl
          · rw [taken]
            exact coh.emptySection k _ rfl _ (.removed a) rfl after
      | closing sink =>
          cases sink with
          | none => exact coh.quietCall _ k _ rfl rfl
          | some sink => exact coh.quietCall _ k _ rfl rfl
      | returned => exact coh.quietCall _ k _ rfl rfl
  | close pc =>
      cases pc with
      | start => exact coh.quietCall _ k _ rfl rfl
      | flagged => exact coh.emptySection k _ rfl _ .cleared rfl Represents.empty
      | closing sinks =>
          simp only [Call.advance]
          cases sinks[pick]? with
          | none => exact coh.quietCall _ k _ rfl rfl
          | some sink =>
              cases sink with
              | queued token => exact coh.quietCall _ k _ rfl rfl
              | direct token => exact coh.quietCall _ k _ rfl rfl
      | shutdown sink sinks => exact coh.quietCall _ k _ rfl rfl
      | returned => exact coh.quietCall _ k _ rfl rfl

theorem step (coh : Coherent ip w) (act : Act Addr Token) : Coherent ip (w.step ip act) := by
  refine World.step_elim ip w act coh ?_ coh.advance ?_
  · intro k request _
    exact coh.quietCall _ k _ request.drawn_call rfl
  · intro token
    exact coh.quiet _ rfl fun i call id present drawn => ⟨call, present, drawn⟩

theorem run (coh : Coherent ip w) (acts : List (Act Addr Token)) : Coherent ip (w.run ip acts) :=
  Lib.invariant_run (World.step ip) (Coherent ip) (fun _ act inner => inner.step act) w acts coh

theorem reachable (ip : Addr → Ip) (acts : List (Act Addr Token)) :
    Coherent ip ((World.new : World Addr Ip Token).run ip acts) :=
  new.run acts

end Coherent

section Stale

/-- The registration is the one stored for its address. -/
def Registry.Holds (r : Registry Addr Ip Token) (registration : TcpWriterRegistration Addr) : Prop :=
  ∃ sink, r.tcpWriters.lookup registration.remoteAddr = some ⟨registration, sink⟩

theorem Represents.holds_iff {ip : Addr → Ip} {live : List (RegisteredTcpSink Addr Token)}
    {r : Registry Addr Ip Token} (rep : Represents ip live r)
    (registration : TcpWriterRegistration Addr) :
    r.Holds registration ↔ registration ∈ live.map (·.registration) := by
  constructor
  · intro found
    rcases found with ⟨sink, found⟩
    exact List.mem_map.mpr ⟨_, ((rep.lookup_eq_some_iff _ _).mp found).1, rfl⟩
  · intro member
    rcases List.mem_map.mp member with ⟨entry, inside, rfl⟩
    exact ⟨entry.sink, (rep.lookup_eq_some_iff _ _).mpr ⟨inside, rfl⟩⟩

theorem mem_apply (last : Section Addr Token) (before : List (RegisteredTcpSink Addr Token))
    (entry : RegisteredTcpSink Addr Token) (member : entry ∈ last.apply before) :
    entry ∈ before ∨ last = .inserted entry := by
  cases last with
  | inserted new =>
      rcases (Lib.mem_putLast new before entry).mp member with ⟨old, _⟩ | rfl
      · exact Or.inl old
      · exact Or.inr rfl
  | removed a => exact Or.inl ((Lib.mem_dropKeyed a before entry).mp member).1
  | cleared => cases member

/-- Removal of a registration that is not held changes nothing. -/
theorem Coherent.remove_unheld {ip : Addr → Ip} {w : World Addr Ip Token} (coh : Coherent ip w)
    (registration : TcpWriterRegistration Addr) (gone : ¬ w.shared.registry.Holds registration) :
    w.shared.registry.removeTcpWriterInner ip registration.remoteAddr
      (some registration.writerId) = (w.shared.registry, none) := by
  rcases coh.represents.removeTcpWriterInner registration.remoteAddr (some registration.writerId)
    with ⟨missed, _⟩ | ⟨entry, found, same, _, _⟩
  · exact missed
  · rcases (coh.represents.lookup_eq_some_iff _ _).mp found with ⟨_, addr⟩
    have own : registration = entry.registration := by
      cases registration
      cases entry with
      | mk own sink =>
          cases own
          simp only [RegisteredTcpSink.remoteAddr] at addr
          simp only [Option.some.injEq, forall_eq'] at same
          simp [addr, same]
    exact absurd ⟨entry.sink, by rw [found, own]⟩ gone

theorem Coherent.registrations_nodup {ip : Addr → Ip} {w : World Addr Ip Token}
    (coh : Coherent ip w) :
    ((insertions w.shared.sections).map (·.registration)).Nodup := by
  apply List.Nodup.of_map (·.writerId)
  rw [List.map_map]
  exact coh.unique

theorem Coherent.byIp {ip : Addr → Ip} {w : World Addr Ip Token} (coh : Coherent ip w) (p : Ip) :
    let registrations := (w.shared.registry.tcpWriterAddrsByIp p).getD []
    w.shared.registry.tcpWriterAddrsByIp p ≠ some [] ∧
      registrations.Sublist ((insertions w.shared.sections).map (·.registration)) ∧
      ∀ registration, registration ∈ registrations ↔
        ip registration.remoteAddr = p ∧ w.shared.registry.Holds registration := by
  simp only [coh.represents.grouped, listed_getD, coh.represents.holds_iff]
  refine ⟨?_, ?_, ?_⟩
  · intro absent
    simp only [listed] at absent
    split_ifs at absent with isEmpty
    rw [Option.some.inj absent] at isEmpty
    exact isEmpty rfl
  · exact (List.filter_sublist.trans (live_sublist _)).map _
  · intro registration
    constructor
    · intro member
      rcases List.mem_map.mp member with ⟨entry, inside, rfl⟩
      rcases List.mem_filter.mp inside with ⟨stored, group⟩
      exact ⟨by simpa using group, List.mem_map.mpr ⟨entry, stored, rfl⟩⟩
    · intro found
      rcases found with ⟨group, member⟩
      rcases List.mem_map.mp member with ⟨entry, stored, rfl⟩
      exact List.mem_map.mpr ⟨entry, List.mem_filter.mpr ⟨stored, by simpa using group⟩, rfl⟩

theorem Represents.isSome_newest_iff {ip : Addr → Ip}
    {live : List (RegisteredTcpSink Addr Token)} {r : Registry Addr Ip Token} (rep : Represents ip live r) (p : Ip) :
    (((live.filter fun entry => ip entry.remoteAddr = p).getLast?).map (·.sink)).isSome ↔
      ∃ a, ip a = p ∧ (r.tcpWriters.lookup a).isSome := by
  rw [Option.isSome_map, List.getLast?_isSome]
  constructor
  · intro nonempty
    rcases List.exists_mem_of_ne_nil _ nonempty with ⟨entry, inside⟩
    rcases List.mem_filter.mp inside with ⟨member, group⟩
    have found := (rep.lookup_eq_some_iff entry.remoteAddr entry).mpr ⟨member, rfl⟩
    exact ⟨entry.remoteAddr, by simpa using group, by rw [found]; rfl⟩
  · intro found
    rcases found with ⟨a, rfl, present⟩
    rcases Option.isSome_iff_exists.mp present with ⟨entry, found⟩
    rcases (rep.lookup_eq_some_iff a entry).mp found with ⟨member, rfl⟩
    exact List.ne_nil_of_mem (List.mem_filter.mpr ⟨member, by simp⟩)

variable [DecidableEq Token]

theorem Touch.sections {ip : Addr → Ip} {s t : Shared Addr Ip Token} {call : Call Addr Token}
    (touch : Touch ip s call t) :
    t.sections = s.sections ∨ ∃ last, t.sections = s.sections ++ [last] := by
  cases touch with
  | quiet => exact Or.inl rfl
  | close sink => exact Or.inl rfl
  | number a sink => exact Or.inl rfl
  | insert a sink id isOpen => exact Or.inr ⟨_, rfl⟩
  | remove a expected =>
      simp only
      split_ifs
      · exact Or.inr ⟨_, rfl⟩
      · exact Or.inl rfl
  | flag => exact Or.inl rfl
  | clear => exact Or.inr ⟨_, rfl⟩

/-- The record of critical sections grows by at most one section a step. -/
theorem World.step_sections (ip : Addr → Ip) (w : World Addr Ip Token) (act : Act Addr Token) :
    (w.step ip act).shared.sections = w.shared.sections ∨
      ∃ last, (w.step ip act).shared.sections = w.shared.sections ++ [last] := by
  refine World.step_elim (motive := fun t => t.shared.sections = w.shared.sections ∨
    ∃ last, t.shared.sections = w.shared.sections ++ [last]) ip w act (Or.inl rfl) ?_ ?_ ?_
  · intro k request _
    exact Or.inl rfl
  · intro k pick call _
    exact (call.advance_touch ip w.shared pick).sections
  · intro token
    exact Or.inl rfl

/-- Stored once and no longer held. -/
def World.Stale (w : World Addr Ip Token) (registration : TcpWriterRegistration Addr) : Prop :=
  registration ∈ (insertions w.shared.sections).map (·.registration) ∧
    ¬ w.shared.registry.Holds registration

variable {ip : Addr → Ip} {w : World Addr Ip Token}

/-- A registration that has gone does not come back, because writer ids are drawn once. -/
theorem World.Stale.step (coh : Coherent ip w) {registration : TcpWriterRegistration Addr}
    (stale : w.Stale registration) (act : Act Addr Token) : (w.step ip act).Stale registration := by
  have after := coh.step act
  rcases stale with ⟨once, gone⟩
  rw [coh.represents.holds_iff] at gone
  rw [World.Stale, after.represents.holds_iff]
  rcases w.step_sections ip act with same | ⟨last, grown⟩
  · rw [same]
    exact ⟨once, gone⟩
  · have unique := after.unique
    rw [grown, insertions_append, List.map_append, List.nodup_append] at unique
    rw [grown, insertions_append, List.map_append, live_concat]
    refine ⟨List.mem_append_left _ once, ?_⟩
    intro back
    rcases List.mem_map.mp back with ⟨entry, inside, rfl⟩
    rcases mem_apply last _ entry inside with old | rfl
    · exact gone (List.mem_map.mpr ⟨entry, old, rfl⟩)
    · rcases List.mem_map.mp once with ⟨former, stored, same⟩
      exact unique.2.2 former.registration.writerId (List.mem_map.mpr ⟨former, stored, rfl⟩)
        entry.registration.writerId (by simp [insertions, insertedEntry]) (by rw [same])

theorem World.Stale.run (coh : Coherent ip w) {registration : TcpWriterRegistration Addr}
    (stale : w.Stale registration) (acts : List (Act Addr Token)) :
    (w.run ip acts).Stale registration :=
  (Lib.invariant_run (World.step ip) (fun t => Coherent ip t ∧ t.Stale registration)
    (fun _ act inner => ⟨inner.1.step act, inner.2.step inner.1 act⟩) w acts ⟨coh, stale⟩).2

/-- The survivors of an IP are the insertions for it that are still stored. -/
theorem Coherent.survivors (coh : Coherent ip w) (p : Ip) :
    ((live w.shared.sections).filter fun entry => ip entry.remoteAddr = p) =
      (insertions w.shared.sections).filter fun entry =>
        ip entry.remoteAddr = p ∧
          w.shared.registry.tcpWriters.lookup entry.remoteAddr = some entry := by
  have distinct : (insertions w.shared.sections).Nodup :=
    List.Nodup.of_map _ coh.registrations_nodup
  conv_lhs => rw [← Lib.filter_mem_of_sublist (live_sublist w.shared.sections) distinct]
  rw [List.filter_filter]
  apply List.filter_congr
  intro entry _
  simp [coh.represents.lookup_eq_some_iff]

/-- A teardown of a registration that is no longer held takes its turn without any effect. -/
theorem Coherent.stale_teardown (coh : Coherent ip w) (registration : TcpWriterRegistration Addr)
    (gone : ¬ w.shared.registry.Holds registration) (i pick : Nat)
    (present : w.calls i = some (.removeTcpWriter registration.remoteAddr
      (some registration.writerId) .start)) :
    w.step ip (.advance i pick) = w.setCall w.shared i (.removeTcpWriter registration.remoteAddr
      (some registration.writerId) (.closing none)) := by
  simp only [World.step, present, Call.advance, coh.remove_unheld registration gone]
  rfl

/-- In every reachable state both maps show the surviving registrations in order of insertion,
lookup by IP answers the newest survivor, and a registration that has been replaced or removed
never comes back, so that its teardown changes neither map and cancels nothing. -/
theorem registry_shows_survivors (ip : Addr → Ip) (acts : List (Act Addr Token)) :
    let w := (World.new : World Addr Ip Token).run ip acts
    let r := w.shared.registry
    let inserted := insertions w.shared.sections
    (inserted.map (·.registration)).Nodup ∧
    (∀ a entry, r.tcpWriters.lookup a = some entry → entry.remoteAddr = a) ∧
    (∀ p, r.tcpWriterAddrsByIp p ≠ some [] ∧
      ((r.tcpWriterAddrsByIp p).getD []).Sublist (inserted.map (·.registration)) ∧
      ∀ registration, registration ∈ (r.tcpWriterAddrsByIp p).getD [] ↔
        ip registration.remoteAddr = p ∧ r.Holds registration) ∧
    (∀ p, ((r.tcpSinkByIp p).isSome ↔ ∃ a, ip a = p ∧ (r.tcpWriters.lookup a).isSome) ∧
      r.tcpSinkByIp p = ((inserted.filter fun entry =>
        ip entry.remoteAddr = p ∧
          r.tcpWriters.lookup entry.remoteAddr = some entry).getLast?).map (·.sink)) ∧
    ∀ registration, registration ∈ inserted.map (·.registration) → ¬ r.Holds registration →
      ∀ more, let t := w.run ip more
        ¬ t.shared.registry.Holds registration ∧
        ∀ i pick, t.calls i = some (.removeTcpWriter registration.remoteAddr
            (some registration.writerId) .start) →
          (t.step ip (.advance i pick)).shared = t.shared ∧
          ∀ after, let u := (t.step ip (.advance i pick)).run ip after
            u.calls i = some (.removeTcpWriter registration.remoteAddr
              (some registration.writerId) (.closing none)) →
            (u.step ip (.advance i pick)).shared = u.shared := by
  intro w r inserted
  have coh : Coherent ip w := Coherent.reachable ip acts
  refine ⟨coh.registrations_nodup, ?_, coh.byIp, ?_, ?_⟩
  · intro a entry found
    exact ((coh.represents.lookup_eq_some_iff a entry).mp found).2
  · intro p
    have newest := coh.represents.tcpSinkByIp p
    refine ⟨?_, by rw [newest, coh.survivors p]⟩
    rw [newest]
    exact coh.represents.isSome_newest_iff p
  · intro registration once gone more t
    have cohT : Coherent ip t := coh.run more
    have goneT := (World.Stale.run coh ⟨once, gone⟩ more).2
    refine ⟨goneT, ?_⟩
    intro i pick present
    refine ⟨by rw [cohT.stale_teardown registration goneT i pick present]; rfl, ?_⟩
    intro after u closing
    simp only [World.step, closing]
    rfl

end Stale

end Pigs.Net.Rw
