import Pigs.Net.Rw.Generations

/-! No sink leaves the registry alive: every sink that was stored is registered, cancelled, or in
the hands of a call that has taken it out and is about to close it. -/

namespace Pigs.Net.Rw

section Effects

variable {Addr Ip Token : Type}

/-- The sinks that a call has taken out of the registry and still has to close. -/
def Call.pending : Call Addr Token → List (TcpPacketSink Token)
  | .insertTcpSink _ _ (.displacing previous _) => previous.toList
  | .removeTcpWriter _ _ (.closing sink) => sink.toList
  | .close (.closing sinks) => sinks
  | .close (.shutdown _ sinks) => sinks
  | _ => []

def Call.Returned : Call Addr Token → Prop
  | .insertTcpSink _ _ (.returned _) => True
  | .removeTcpWriter _ _ .returned => True
  | .close .returned => True
  | _ => False

theorem Call.not_returned_of_pending (call : Call Addr Token) (sink : TcpPacketSink Token)
    (held : sink ∈ call.pending) : ¬ call.Returned := by
  intro returned
  cases call with
  | insertTcpSink a own pc => cases pc <;> simp_all [Call.pending, Call.Returned]
  | removeTcpWriter a expected pc => cases pc <;> simp_all [Call.pending, Call.Returned]
  | close pc => cases pc <;> simp_all [Call.pending, Call.Returned]

/-- What an insert that has left its critical section returns. -/
def InsertPc.result : InsertPc Addr Token → Option (Option (TcpWriterRegistration Addr))
  | .displacing _ registration => some (some registration)
  | .returned registration => some registration
  | _ => none

/-- The close has left its critical section. -/
def ClosePc.Cleared : ClosePc Token → Prop
  | .closing _ => True
  | .shutdown _ _ => True
  | .returned => True
  | _ => False

variable [DecidableEq Token]

theorem Shared.close_mono (s : Shared Addr Ip Token) (sink : TcpPacketSink Token) (token : Token)
    (before : s.cancelled token = true) : (s.close sink).cancelled token = true := by
  by_cases same : token = sink.token
  · simp [Shared.close, same]
  · simpa [Shared.close, Function.update_of_ne same] using before

@[simp] theorem Shared.close_self (s : Shared Addr Ip Token) (sink : TcpPacketSink Token) :
    (s.close sink).cancelled sink.token = true := by
  simp [Shared.close]

theorem Shared.closeOption_mem (s : Shared Addr Ip Token) (held : Option (TcpPacketSink Token))
    (sink : TcpPacketSink Token) (member : sink ∈ held.toList) :
    (s.closeOption held).cancelled sink.token = true := by
  rw [Option.mem_toList] at member
  subst member
  exact s.close_self sink

variable [DecidableEq Addr] [DecidableEq Ip] (ip : Addr → Ip)

/-- Nothing un-cancels a token. -/
theorem Touch.cancelled {ip : Addr → Ip} {s t : Shared Addr Ip Token} {call : Call Addr Token}
    (touch : Touch ip s call t) (token : Token) (before : s.cancelled token = true) :
    t.cancelled token = true := by
  cases touch with
  | close sink => exact s.close_mono _ token before
  | quiet => exact before
  | number a sink => exact before
  | insert a sink id isOpen => exact before
  | remove a expected => exact before
  | flag => exact before
  | clear => exact before

theorem Touch.closed {ip : Addr → Ip} {s t : Shared Addr Ip Token} {call : Call Addr Token}
    (touch : Touch ip s call t) (before : s.closed = true) : t.closed = true := by
  cases touch with
  | flag => rfl
  | quiet => exact before
  | close sink => exact before
  | number a sink => exact before
  | insert a sink id isOpen => exact before
  | remove a expected => exact before
  | clear => exact before

/-- Only the critical section of a close clears, and after it nothing is stored again. -/
theorem Touch.cleared {ip : Addr → Ip} {s t : Shared Addr Ip Token} {call : Call Addr Token}
    (touch : Touch ip s call t)
    (before : .cleared ∈ s.sections → s.closed = true ∧ s.registry = Registry.empty)
    (member : .cleared ∈ t.sections) :
    (call = .close .flagged ∨ .cleared ∈ s.sections) ∧ t.registry = Registry.empty := by
  cases touch with
  | quiet => exact ⟨Or.inr member, (before member).2⟩
  | close sink => exact ⟨Or.inr member, (before member).2⟩
  | number a sink => exact ⟨Or.inr member, (before member).2⟩
  | insert a sink id isOpen =>
      have earlier : .cleared ∈ s.sections := by simpa using member
      rw [(before earlier).1] at isOpen
      cases isOpen
  | remove a expected =>
      have earlier : .cleared ∈ s.sections := by
        simp only at member
        split_ifs at member
        · simpa using member
        · exact member
      refine ⟨Or.inr earlier, ?_⟩
      simp only [(before earlier).2]
      rfl
  | flag => exact ⟨Or.inr member, (before member).2⟩
  | clear => exact ⟨Or.inl rfl, rfl⟩

/-- A call lets go of a sink only by closing it. -/
theorem Call.advance_pending (s : Shared Addr Ip Token) (pick : Nat) (call : Call Addr Token)
    (sink : TcpPacketSink Token) (held : sink ∈ call.pending) :
    (call.advance ip s pick).1.cancelled sink.token = true ∨
      sink ∈ (call.advance ip s pick).2.pending := by
  cases call with
  | insertTcpSink a own pc =>
      cases pc with
      | displacing previous registration => exact Or.inl (s.closeOption_mem previous sink held)
      | start => cases held
      | refused => cases held
      | opened => cases held
      | numbered id => cases held
      | returned result => cases held
  | removeTcpWriter a expected pc =>
      cases pc with
      | closing removed => exact Or.inl (s.closeOption_mem removed sink held)
      | start => cases held
      | returned => cases held
  | close pc =>
      cases pc with
      | closing sinks =>
          change sink ∈ sinks at held
          simp only [Call.advance]
          cases chosen : sinks[pick]? with
          | none =>
              right
              cases sinks with
              | nil => cases held
              | cons head tail => exact held
          | some first =>
              rcases List.getElem?_eq_some_iff.mp chosen with ⟨bound, here⟩
              rw [List.mem_iff_getElem] at held
              rcases held with ⟨pos, posBound, there⟩
              by_cases same : pos = pick
              · subst same
                obtain rfl : first = sink := here.symm.trans there
                left
                cases first <;> exact s.close_self _
              · right
                have kept : sink ∈ sinks.eraseIdx pick := by
                  rw [List.mem_eraseIdx_iff_getElem]
                  exact ⟨pos, posBound, same, there⟩
                cases first <;> exact kept
      | shutdown first sinks => exact Or.inr held
      | start => cases held
      | flagged => cases held
      | returned => cases held

/-- A sink that loses its place in the registry is in the hands of the call that took it. -/
theorem Call.advance_registered {w : World Addr Ip Token} (coh : Coherent ip w) (pick : Nat)
    (call : Call Addr Token) (a : Addr) (entry : RegisteredTcpSink Addr Token)
    (found : w.shared.registry.tcpWriters.lookup a = some entry) :
    (call.advance ip w.shared pick).1.registry.tcpWriters.lookup a = some entry ∨
      entry.sink ∈ (call.advance ip w.shared pick).2.pending := by
  cases call with
  | insertTcpSink b sink pc =>
      cases pc with
      | numbered id =>
          simp only [Call.advance]
          split_ifs
          · exact Or.inl found
          · by_cases same : a = b
            · right
              subst same
              simp [Call.pending, Registry.insertTcpSink, found]
            · left
              exact (AList.lookup_insert_ne same).trans found
      | displacing previous registration => cases previous <;> exact Or.inl found
      | start => exact Or.inl found
      | refused => exact Or.inl found
      | opened => exact Or.inl found
      | returned result => exact Or.inl found
  | removeTcpWriter b expected pc =>
      cases pc with
      | start =>
          simp only [Call.advance]
          rcases coh.represents.removeTcpWriterInner b expected with
            ⟨missed, _⟩ | ⟨other, otherFound, _, taken, after⟩
          · rw [missed]
            exact Or.inl found
          · by_cases same : a = b
            · right
              subst same
              rw [Option.some.inj (found.symm.trans otherFound)]
              simp [Call.pending, taken]
            · left
              rw [after.stored, Lib.findKeyed_dropKeyed_of_ne _ _ _ same, ← coh.represents.stored]
              exact found
      | closing sink => cases sink <;> exact Or.inl found
      | returned => exact Or.inl found
  | close pc =>
      cases pc with
      | flagged =>
          right
          have member := ((coh.represents.lookup_eq_some_iff a entry).mp found).1
          exact coh.represents.mem_close entry member
      | closing sinks =>
          left
          simp only [Call.advance]
          cases sinks[pick]? with
          | none => exact found
          | some sink => cases sink <;> exact found
      | start => exact Or.inl found
      | shutdown sink sinks => exact Or.inl found
      | returned => exact Or.inl found

end Effects

section Settled

variable {Addr Ip Token : Type} [DecidableEq Addr]

/-- What has become of a sink that was passed to an insert. -/
def World.Settled (w : World Addr Ip Token) (a : Addr) (sink : TcpPacketSink Token) : Prop :=
  w.shared.cancelled sink.token = true ∨
    (∃ registration, w.shared.registry.tcpWriters.lookup a = some ⟨registration, sink⟩) ∨
    ∃ j call, w.calls j = some call ∧ sink ∈ call.pending

theorem World.Settled.invoke {w : World Addr Ip Token} {a : Addr} {sink : TcpPacketSink Token}
    (settled : w.Settled a sink) (k : Nat) (request : Request Addr Token) (idle : w.calls k = none) :
    (w.setCall w.shared k request.call).Settled a sink := by
  rcases settled with gone | found | ⟨j, other, otherPresent, held⟩
  · exact Or.inl gone
  · exact Or.inr (Or.inl found)
  · have ne : j ≠ k := by
      intro equal
      subst equal
      rw [idle] at otherPresent
      cases otherPresent
    exact Or.inr (Or.inr ⟨j, other, (w.setCall_of_ne _ _ _ j ne).trans otherPresent, held⟩)

theorem World.Settled.cancel [DecidableEq Token] {w : World Addr Ip Token} {a : Addr}
    {sink : TcpPacketSink Token} (settled : w.Settled a sink) (token : Token) :
    World.Settled { w with shared :=
      { w.shared with cancelled := Function.update w.shared.cancelled token true } } a sink := by
  rcases settled with gone | found | pending
  · left
    by_cases same : sink.token = token
    · simp [same]
    · simpa [Function.update_of_ne same] using gone
  · exact Or.inr (Or.inl found)
  · exact Or.inr (Or.inr pending)

variable [DecidableEq Ip] [DecidableEq Token] {ip : Addr → Ip} {w : World Addr Ip Token}

theorem World.Settled.advance {a : Addr} {sink : TcpPacketSink Token} (settled : w.Settled a sink)
    (coh : Coherent ip w) (k pick : Nat) (call : Call Addr Token)
    (present : w.calls k = some call) :
    (w.setCall (call.advance ip w.shared pick).1 k (call.advance ip w.shared pick).2).Settled
      a sink := by
  have own := w.setCall_self (call.advance ip w.shared pick).1 k (call.advance ip w.shared pick).2
  rcases settled with gone | ⟨registration, found⟩ | ⟨j, other, otherPresent, held⟩
  · exact Or.inl ((call.advance_touch ip w.shared pick).cancelled sink.token gone)
  · rcases call.advance_registered ip coh pick a _ found with still | taken
    · exact Or.inr (Or.inl ⟨registration, still⟩)
    · exact Or.inr (Or.inr ⟨k, _, own, taken⟩)
  · by_cases same : j = k
    · subst same
      obtain rfl := Option.some.inj (present.symm.trans otherPresent)
      rcases call.advance_pending ip w.shared pick sink held with closed | kept
      · exact Or.inl closed
      · exact Or.inr (Or.inr ⟨j, _, own, kept⟩)
    · exact Or.inr (Or.inr ⟨j, other, (w.setCall_of_ne _ _ _ j same).trans otherPresent, held⟩)

/-- An insert gets past its critical section with its sink stored or cancelled. -/
theorem Call.advance_result (s : Shared Addr Ip Token) (pick : Nat) (call : Call Addr Token)
    (a : Addr) (sink : TcpPacketSink Token) (pc : InsertPc Addr Token)
    (result : Option (TcpWriterRegistration Addr))
    (next : (call.advance ip s pick).2 = .insertTcpSink a sink pc)
    (known : pc.result = some result) :
    (∃ before, call = .insertTcpSink a sink before ∧ before.result = some result) ∨
      (s.closed = false ∧ ∃ registration, result = some registration ∧
        registration.remoteAddr = a ∧
        (call.advance ip s pick).1.registry.tcpWriters.lookup a = some ⟨registration, sink⟩ ∧
        (call.advance ip s pick).1.sections = s.sections ++ [.inserted ⟨registration, sink⟩]) ∨
      (result = none ∧ (call.advance ip s pick).1.cancelled sink.token = true) := by
  cases call with
  | insertTcpSink b own before =>
      cases before with
      | start =>
          simp only [Call.advance, Call.insertTcpSink.injEq] at next
          rcases next with ⟨_, _, rfl⟩
          split_ifs at known
          · cases known
          · cases known
      | refused =>
          cases next
          cases known
          exact Or.inr (Or.inr ⟨rfl, s.close_self sink⟩)
      | opened =>
          cases next
          cases known
      | numbered id =>
          simp only [Call.advance] at next ⊢
          split_ifs at next ⊢ with closed
          · cases next
            cases known
            exact Or.inr (Or.inr ⟨rfl, s.close_self sink⟩)
          · cases next
            cases known
            exact Or.inr (Or.inl ⟨by simpa using closed, ⟨a, id⟩, rfl, rfl, AList.lookup_insert _, rfl⟩)
      | displacing previous registration =>
          cases next
          cases known
          exact Or.inl ⟨_, rfl, rfl⟩
      | returned result =>
          cases next
          exact Or.inl ⟨_, rfl, known⟩
  | removeTcpWriter b expected before => cases before <;> cases next
  | close before =>
      cases before with
      | closing sinks =>
          simp only [Call.advance] at next
          cases chosen : sinks[pick]? with
          | none => simp [chosen] at next
          | some first => cases first <;> simp [chosen] at next
      | start => cases next
      | flagged => cases next
      | shutdown first sinks => cases next
      | returned => cases next

/-- How a close comes to have set the flag, and to have left its critical section. -/
theorem Call.advance_close (s : Shared Addr Ip Token) (pick : Nat) (call : Call Addr Token)
    (pc : ClosePc Token) (next : (call.advance ip s pick).2 = .close pc) :
    (pc = .flagged → (call.advance ip s pick).1.closed = true) ∧
      (pc.Cleared → (∃ before, call = .close before ∧ before.Cleared) ∨
        (call.advance ip s pick).1.sections = s.sections ++ [.cleared]) := by
  cases call with
  | insertTcpSink b own before =>
      cases before with
      | numbered id =>
          simp only [Call.advance] at next
          split_ifs at next
      | start => cases next
      | refused => cases next
      | opened => cases next
      | displacing previous registration => cases next
      | returned result => cases next
  | removeTcpWriter b expected before => cases before <;> cases next
  | close before =>
      cases before with
      | start =>
          cases next
          exact ⟨fun _ => rfl, fun impossible => impossible.elim⟩
      | flagged =>
          cases next
          refine ⟨?_, fun _ => Or.inr rfl⟩
          intro impossible
          cases impossible
      | closing sinks =>
          refine ⟨?_, fun _ => Or.inl ⟨_, rfl, trivial⟩⟩
          intro equal
          subst equal
          simp only [Call.advance] at next
          cases chosen : sinks[pick]? with
          | none =>
              simp only [chosen, Call.close.injEq] at next
              split_ifs at next
          | some first => cases first <;> simp [chosen] at next
      | shutdown first sinks =>
          cases next
          refine ⟨?_, fun _ => Or.inl ⟨_, rfl, trivial⟩⟩
          intro impossible
          cases impossible
      | returned =>
          cases next
          refine ⟨?_, fun _ => Or.inl ⟨_, rfl, trivial⟩⟩
          intro impossible
          cases impossible

end Settled

section Accounted

variable {Addr Ip Token : Type} [DecidableEq Addr]

structure Accounted (w : World Addr Ip Token) : Prop where
  flagged : ∀ i, w.calls i = some (.close .flagged) → w.shared.closed = true
  closers : ∀ i pc, w.calls i = some (.close pc) → pc.Cleared → .cleared ∈ w.shared.sections
  cleared : .cleared ∈ w.shared.sections →
    w.shared.closed = true ∧ w.shared.registry = Registry.empty
  settled : ∀ i a sink pc result, w.calls i = some (.insertTcpSink a sink pc) →
    pc.result = some result → w.Settled a sink
  refused : ∀ i a sink pc, w.calls i = some (.insertTcpSink a sink pc) →
    pc.result = some none → w.shared.cancelled sink.token = true

namespace Accounted

variable {w : World Addr Ip Token}

theorem new : Accounted (World.new : World Addr Ip Token) where
  flagged _ absent := by cases absent
  closers _ _ absent := by cases absent
  cleared member := by cases member
  settled _ _ _ _ _ absent := by cases absent
  refused _ _ _ _ absent := by cases absent

theorem invoke (acc : Accounted w) (k : Nat) (request : Request Addr Token)
    (idle : w.calls k = none) : Accounted (w.setCall w.shared k request.call) where
  flagged i present := by
    rcases w.calls_of_invoke k request i _ present with old | fresh
    · exact acc.flagged i old
    · cases request <;> cases fresh
  closers i pc present past := by
    rcases w.calls_of_invoke k request i _ present with old | fresh
    · exact acc.closers i pc old past
    · cases request <;> cases fresh
      cases past
  cleared := acc.cleared
  settled i a sink pc result present known := by
    rcases w.calls_of_invoke k request i _ present with old | fresh
    · exact (acc.settled i a sink pc result old known).invoke k request idle
    · cases request <;> cases fresh
      cases known
  refused i a sink pc present known := by
    rcases w.calls_of_invoke k request i _ present with old | fresh
    · exact acc.refused i a sink pc old known
    · cases request <;> cases fresh
      cases known

variable [DecidableEq Token]

theorem cancel (acc : Accounted w) (token : Token) :
    Accounted { w with shared :=
      { w.shared with cancelled := Function.update w.shared.cancelled token true } } where
  flagged := acc.flagged
  closers := acc.closers
  cleared := acc.cleared
  settled i a sink pc result present known :=
    (acc.settled i a sink pc result present known).cancel token
  refused i a sink pc present known := by
    by_cases same : sink.token = token
    · simp [same]
    · simpa [Function.update_of_ne same] using acc.refused i a sink pc present known

variable [DecidableEq Ip] {ip : Addr → Ip}

theorem advance (acc : Accounted w) (coh : Coherent ip w) (k pick : Nat) (call : Call Addr Token)
    (present : w.calls k = some call) :
    Accounted (w.setCall (call.advance ip w.shared pick).1 k
      (call.advance ip w.shared pick).2) := by
  have touch := call.advance_touch ip w.shared pick
  constructor
  · intro i flagged
    by_cases same : i = k
    · subst same
      rw [World.setCall_self] at flagged
      exact (call.advance_close w.shared pick _ (Option.some.inj flagged)).1 rfl
    · rw [World.setCall_of_ne _ _ _ _ i same] at flagged
      exact touch.closed (acc.flagged i flagged)
  · intro i pc closing past
    have grow : .cleared ∈ w.shared.sections →
        .cleared ∈ (call.advance ip w.shared pick).1.sections := by
      intro member
      rcases touch.sections with kept | ⟨last, grown⟩
      · rwa [kept]
      · rw [grown]
        exact List.mem_append_left _ member
    by_cases same : i = k
    · subst same
      rw [World.setCall_self] at closing
      rcases (call.advance_close w.shared pick pc (Option.some.inj closing)).2 past with
        ⟨before, rfl, earlier⟩ | cleared
      · exact grow (acc.closers i before present earlier)
      · rw [World.setCall_shared, cleared]
        simp
    · rw [World.setCall_of_ne _ _ _ _ i same] at closing
      exact grow (acc.closers i pc closing past)
  · intro member
    rcases touch.cleared acc.cleared member with ⟨origin, isEmpty⟩
    refine ⟨touch.closed ?_, isEmpty⟩
    rcases origin with rfl | earlier
    · exact acc.flagged k present
    · exact (acc.cleared earlier).1
  · intro i a sink pc result inserting known
    by_cases same : i = k
    · subst same
      rw [World.setCall_self] at inserting
      rcases call.advance_result w.shared pick a sink pc result (Option.some.inj inserting) known with
        ⟨before, rfl, earlier⟩ | ⟨_, registration, _, _, stored, _⟩ | ⟨_, closed⟩
      · exact (acc.settled i a sink before result present earlier).advance coh i pick _ present
      · exact Or.inr (Or.inl ⟨registration, stored⟩)
      · exact Or.inl closed
    · rw [World.setCall_of_ne _ _ _ _ i same] at inserting
      exact (acc.settled i a sink pc result inserting known).advance coh k pick call present
  · intro i a sink pc inserting known
    by_cases same : i = k
    · subst same
      rw [World.setCall_self] at inserting
      rcases call.advance_result w.shared pick a sink pc none (Option.some.inj inserting) known with
        ⟨before, rfl, earlier⟩ | ⟨_, registration, impossible, _⟩ | ⟨_, closed⟩
      · exact touch.cancelled _ (acc.refused i a sink before present earlier)
      · cases impossible
      · exact closed
    · rw [World.setCall_of_ne _ _ _ _ i same] at inserting
      exact touch.cancelled _ (acc.refused i a sink pc inserting known)

theorem step (acc : Accounted w) (coh : Coherent ip w) (act : Act Addr Token) :
    Accounted (w.step ip act) :=
  World.step_elim ip w act acc acc.invoke (acc.advance coh) acc.cancel

theorem run (acc : Accounted w) (coh : Coherent ip w) (acts : List (Act Addr Token)) :
    Accounted (w.run ip acts) :=
  (Lib.invariant_run (World.step ip) (fun t => Coherent ip t ∧ Accounted t)
    (fun _ act inner => ⟨inner.1.step act, inner.2.step inner.1 act⟩) w acts ⟨coh, acc⟩).2

theorem reachable (ip : Addr → Ip) (acts : List (Act Addr Token)) :
    Accounted ((World.new : World Addr Ip Token).run ip acts) :=
  new.run Coherent.new acts

end Accounted

variable [DecidableEq Ip] [DecidableEq Token]

/-- The insert, if the call is one, has not stored its sink. -/
def World.Unstored (w : World Addr Ip Token) (i : Nat) : Prop :=
  ∀ a sink pc registration, w.calls i = some (.insertTcpSink a sink pc) →
    pc.result ≠ some (some registration)

theorem World.Unstored.step {ip : Addr → Ip} {w : World Addr Ip Token} {i : Nat}
    (unstored : w.Unstored i) (closed : w.shared.closed = true) (act : Act Addr Token) :
    (w.step ip act).Unstored i := by
  refine World.step_elim (motive := fun t => t.Unstored i) ip w act unstored ?_ ?_ ?_
  · intro k request _ a sink pc registration present
    rcases w.calls_of_invoke k request i _ present with old | fresh
    · exact unstored a sink pc registration old
    · cases request <;> cases fresh
      exact nofun
  · intro k pick call present a sink pc registration inserting known
    by_cases same : i = k
    · subst same
      rw [World.setCall_self] at inserting
      rcases call.advance_result w.shared pick a sink pc _ (Option.some.inj inserting) known with
        ⟨before, rfl, earlier⟩ | ⟨isOpen, _⟩ | ⟨impossible, _⟩
      · exact unstored a sink before registration present earlier
      · rw [closed] at isOpen
        cases isOpen
      · cases impossible
    · rw [World.setCall_of_ne _ _ _ _ i same] at inserting
      exact unstored a sink pc registration inserting known
  · intro token a sink pc registration present
    exact unstored a sink pc registration present

theorem World.step_cleared {ip : Addr → Ip} {w : World Addr Ip Token}
    (cleared : .cleared ∈ w.shared.sections) (act : Act Addr Token) :
    .cleared ∈ (w.step ip act).shared.sections := by
  rcases w.step_sections ip act with kept | ⟨last, grown⟩
  · rwa [kept]
  · rw [grown]
    exact List.mem_append_left _ cleared

/-- After the critical section of a close the registry stays empty, and no insert gets as far as
storing its sink. -/
theorem Accounted.run_cleared {ip : Addr → Ip} {w : World Addr Ip Token} (acc : Accounted w)
    (coh : Coherent ip w) (cleared : .cleared ∈ w.shared.sections) (acts : List (Act Addr Token)) :
    (w.run ip acts).shared.registry = Registry.empty ∧
      ∀ i, w.Unstored i → (w.run ip acts).Unstored i := by
  have along : ∀ i, (w.Unstored i → (w.run ip acts).Unstored i) ∧
      .cleared ∈ (w.run ip acts).shared.sections := by
    intro i
    have kept := Lib.invariant_run (World.step ip)
      (fun t => Coherent ip t ∧ Accounted t ∧ .cleared ∈ t.shared.sections ∧
        (w.Unstored i → t.Unstored i))
      (fun t act inner => ⟨inner.1.step act, inner.2.1.step inner.1 act,
        World.step_cleared inner.2.2.1 act, fun start =>
          (inner.2.2.2 start).step (inner.2.1.cleared inner.2.2.1).1 act⟩)
      w acts ⟨coh, acc, cleared, id⟩
    exact ⟨kept.2.2.2, kept.2.2.1⟩
  exact ⟨((acc.run coh acts).cleared (along 0).2).2, fun i => (along i).1⟩

theorem World.step_pending (ip : Addr → Ip) (w : World Addr Ip Token) (act : Act Addr Token)
    (j : Nat) (call : Call Addr Token) (sink : TcpPacketSink Token)
    (present : w.calls j = some call) (held : sink ∈ call.pending) :
    (w.step ip act).shared.cancelled sink.token = true ∨
      ∃ next, (w.step ip act).calls j = some next ∧ sink ∈ next.pending := by
  refine World.step_elim (motive := fun t => t.shared.cancelled sink.token = true ∨
    ∃ next, t.calls j = some next ∧ sink ∈ next.pending) ip w act ?_ ?_ ?_ ?_
  · exact Or.inr ⟨call, present, held⟩
  · intro k request idle
    have ne : j ≠ k := by
      intro equal
      subst equal
      rw [idle] at present
      cases present
    exact Or.inr ⟨call, (w.setCall_of_ne _ _ _ j ne).trans present, held⟩
  · intro k pick other otherPresent
    by_cases same : j = k
    · subst same
      obtain rfl := Option.some.inj (present.symm.trans otherPresent)
      rcases call.advance_pending ip w.shared pick sink held with closed | kept
      · exact Or.inl closed
      · exact Or.inr ⟨_, w.setCall_self _ j _, kept⟩
    · exact Or.inr ⟨call, (w.setCall_of_ne _ _ _ j same).trans present, held⟩
  · intro token
    exact Or.inr ⟨call, present, held⟩

/-- With no call in progress a sink that was passed to an insert is registered or cancelled. From
the critical section of a close on the registry is empty and inserts are refused with their sink
closed. Once a close has returned, a sink that was stored is cancelled or in the hands of a call
still in progress, and a call lets go of a sink only by closing it. -/
theorem no_sink_leaks (ip : Addr → Ip) (acts : List (Act Addr Token)) :
    let w := (World.new : World Addr Ip Token).run ip acts
    ((∀ i call, w.calls i = some call → call.Returned) →
      ∀ i a sink pc, w.calls i = some (.insertTcpSink a sink pc) →
        w.shared.cancelled sink.token = true ∨
          ∃ registration, w.shared.registry.tcpWriters.lookup a = some ⟨registration, sink⟩) ∧
    (∀ k pc, w.calls k = some (.close pc) → pc.Cleared →
      ∀ more, (w.run ip more).shared.registry = Registry.empty ∧
        ∀ i, (∀ a sink pc, w.calls i = some (.insertTcpSink a sink pc) → pc.result = none) →
          ∀ a sink result, (w.run ip more).calls i = some (.insertTcpSink a sink (.returned result)) →
            result = none ∧ (w.run ip more).shared.cancelled sink.token = true) ∧
    (∀ k, w.calls k = some (.close .returned) →
      ∀ i a sink pc result, w.calls i = some (.insertTcpSink a sink pc) → pc.result = some result →
        w.shared.cancelled sink.token = true ∨
          ∃ j call, w.calls j = some call ∧ ¬ call.Returned ∧ sink ∈ call.pending) ∧
    ∀ j call sink, w.calls j = some call → sink ∈ call.pending →
      ∀ act, (w.step ip act).shared.cancelled sink.token = true ∨
        ∃ next, (w.step ip act).calls j = some next ∧ sink ∈ next.pending := by
  intro w
  have coh : Coherent ip w := Coherent.reachable ip acts
  have acc : Accounted w := Accounted.reachable ip acts
  refine ⟨?_, ?_, ?_, ?_⟩
  · intro quiet i a sink pc present
    obtain ⟨result, known⟩ : ∃ result, pc.result = some result := by
      have returned := quiet i _ present
      cases pc <;> first | exact ⟨_, rfl⟩ | cases returned
    rcases acc.settled i a sink pc result present known with
      closed | stored | ⟨j, call, busy, held⟩
    · exact Or.inl closed
    · exact Or.inr stored
    · exact absurd (quiet j call busy) (call.not_returned_of_pending sink held)
  · intro k pc present past more
    obtain ⟨isEmpty, kept⟩ := acc.run_cleared coh (acc.closers k pc present past) more
    refine ⟨isEmpty, ?_⟩
    intro i late a sink result returned
    have unstored : w.Unstored i := by
      intro b other before registration inserting known
      rw [late b other before inserting] at known
      cases known
    cases result with
    | some registration => exact absurd rfl (kept i unstored a sink _ registration returned)
    | none => exact ⟨rfl, (acc.run coh more).refused i a sink _ returned rfl⟩
  · intro k returned i a sink pc result present known
    rcases acc.settled i a sink pc result present known with
      closed | ⟨registration, stored⟩ | ⟨j, call, busy, held⟩
    · exact Or.inl closed
    · rw [(acc.cleared (acc.closers k _ returned trivial)).2] at stored
      cases stored
    · exact Or.inr ⟨j, call, busy, call.not_returned_of_pending sink held, held⟩
  · intro j call sink present held act
    exact w.step_pending ip act j call sink present held

/-- The second insert for an address has displaced the first one and released the lock, but has
not closed the displaced sink yet, while a close starts and returns. -/
theorem displaced_sink_outlives_close :
    let w := (World.new : World Nat Nat Nat).run id
      [.invoke 0 (.insertTcpSink 5 (.queued 0)), .advance 0 0, .advance 0 0, .advance 0 0,
        .advance 0 0, .invoke 1 (.insertTcpSink 5 (.queued 1)), .advance 1 0, .advance 1 0,
        .advance 1 0, .invoke 2 .close, .advance 2 0, .advance 2 0, .advance 2 0, .advance 2 0]
    w.calls 2 = some (.close .returned) ∧
      w.calls 0 = some (.insertTcpSink 5 (.queued 0) (.returned (some ⟨5, 1⟩))) ∧
      w.shared.cancelled 0 = false := by
  refine ⟨rfl, rfl, rfl⟩

end Accounted

end Pigs.Net.Rw
