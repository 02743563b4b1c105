import Pigs.Net.Rw.Managed.Accounting
import Pigs.Net.Rw.Managed.WriterClose

/-! What becomes of the registered sinks when an endpoint is closed. -/

namespace Pigs.Net.Rw

section Sinks

variable {Addr Ip Token : Type}

/-- The writer is closed and its registry cleared. -/
def Shared.Emptied (s : Shared Addr Ip Token) : Prop :=
  s.closed = true ∧ s.registry = Registry.empty

theorem Shared.Emptied.no_sinks {s : Shared Addr Ip Token} (emptied : s.Emptied)
    (sink : TcpPacketSink Token) : sink ∉ s.registry.close.2 := by
  rw [emptied.2]
  exact List.not_mem_nil

variable [DecidableEq Addr]

theorem Registry.mem_close_iff (r : Registry Addr Ip Token) (sink : TcpPacketSink Token) :
    sink ∈ r.close.2 ↔ ∃ a entry, r.tcpWriters.lookup a = some entry ∧ entry.sink = sink := by
  constructor
  · intro member
    rcases List.mem_map.mp member with ⟨⟨a, entry⟩, stored, same⟩
    exact ⟨a, entry, AList.mem_lookup_iff.mpr stored, same⟩
  · intro found
    rcases found with ⟨a, entry, stored, same⟩
    exact List.mem_map.mpr ⟨⟨a, entry⟩, AList.mem_lookup_iff.mp stored, same⟩

variable [DecidableEq Ip] {ip : Addr → Ip}

/-- An insert hands out the sink that it takes from the registry. -/
theorem Registry.insertTcpSink_sinks (r : Registry Addr Ip Token)
    (registration : TcpWriterRegistration Addr) (new sink : TcpPacketSink Token)
    (member : sink ∈ r.close.2) :
    sink ∈ (r.insertTcpSink ip registration new).1.close.2 ∨
      (r.insertTcpSink ip registration new).2.map (·.sink) = some sink := by
  rcases (r.mem_close_iff sink).mp member with ⟨a, entry, stored, rfl⟩
  by_cases same : a = registration.remoteAddr
  · right
    subst same
    simp only [insertTcpSink, stored, Option.map_some]
  · left
    rw [mem_close_iff]
    exact ⟨a, entry, (AList.lookup_insert_ne same).trans stored, rfl⟩

theorem Registry.insertTcpSink_taken (r : Registry Addr Ip Token)
    (registration : TcpWriterRegistration Addr) (new sink : TcpPacketSink Token)
    (taken : (r.insertTcpSink ip registration new).2.map (·.sink) = some sink) : sink ∈ r.close.2 := by
  rcases Option.map_eq_some_iff.mp taken with ⟨entry, stored, same⟩
  exact (r.mem_close_iff sink).mpr ⟨_, entry, stored, same⟩

/-- So does a removal. -/
theorem Registry.removeTcpWriterInner_sinks (r : Registry Addr Ip Token) (remoteAddr : Addr)
    (expected : Option Nat) (sink : TcpPacketSink Token) (member : sink ∈ r.close.2) :
    sink ∈ (r.removeTcpWriterInner ip remoteAddr expected).1.close.2 ∨
      (r.removeTcpWriterInner ip remoteAddr expected).2 = some sink := by
  rcases (r.mem_close_iff sink).mp member with ⟨a, entry, stored, rfl⟩
  simp only [removeTcpWriterInner]
  split
  · exact Or.inl member
  · next registered found =>
      split
      · exact Or.inl member
      · by_cases same : a = remoteAddr
        · right
          subst same
          rw [Option.some.inj (stored.symm.trans found)]
        · left
          rw [mem_close_iff]
          exact ⟨a, entry, (AList.lookup_erase_ne same).trans stored, rfl⟩

theorem Registry.removeTcpWriterInner_taken (r : Registry Addr Ip Token) (remoteAddr : Addr)
    (expected : Option Nat) (sink : TcpPacketSink Token)
    (taken : (r.removeTcpWriterInner ip remoteAddr expected).2 = some sink) : sink ∈ r.close.2 := by
  simp only [removeTcpWriterInner] at taken
  split at taken
  · cases taken
  · next registered found =>
      split at taken
      · cases taken
      · cases taken
        exact (r.mem_close_iff _).mpr ⟨remoteAddr, registered, found, rfl⟩

variable [DecidableEq Token]

/-- A sink leaves the registry into the hands of the call that takes it. -/
theorem Call.advance_sinks (s : Shared Addr Ip Token) (pick : Nat) (call : Call Addr Token)
    (sink : TcpPacketSink Token) (member : sink ∈ s.registry.close.2) :
    sink ∈ (call.advance ip s pick).1.registry.close.2 ∨
      sink ∈ (call.advance ip s pick).2.pending := by
  cases call with
  | insertTcpSink a new pc =>
      cases pc with
      | numbered id =>
          simp only [Call.advance]
          split
          · exact Or.inl member
          · refine (s.registry.insertTcpSink_sinks ⟨a, id⟩ new sink member).imp_right ?_
            intro taken
            exact Option.mem_toList.mpr taken
      | displacing previous registration => cases previous <;> exact Or.inl member
      | _ => exact Or.inl member
  | removeTcpWriter a expected pc =>
      cases pc with
      | start =>
          refine (s.registry.removeTcpWriterInner_sinks a expected sink member).imp_right ?_
          intro taken
          exact Option.mem_toList.mpr taken
      | closing removed => cases removed <;> exact Or.inl member
      | returned => exact Or.inl member
  | close pc =>
      cases pc with
      | flagged => exact Or.inr member
      | closing sinks =>
          simp only [Call.advance]
          cases sinks[pick]? with
          | none => exact Or.inl member
          | some first => cases first <;> exact Or.inl member
      | _ => exact Or.inl member

/-- A call gets hold of a sink only by taking it from the registry. -/
theorem Call.advance_taken (s : Shared Addr Ip Token) (pick : Nat) (call : Call Addr Token)
    (sink : TcpPacketSink Token) (held : sink ∈ (call.advance ip s pick).2.pending) :
    sink ∈ call.pending ∨ sink ∈ s.registry.close.2 := by
  cases call with
  | insertTcpSink a new pc =>
      cases pc with
      | numbered id =>
          simp only [Call.advance] at held
          split at held
          · cases held
          · exact Or.inr (s.registry.insertTcpSink_taken ⟨a, id⟩ new sink (Option.mem_toList.mp held))
      | start =>
          simp only [Call.advance] at held
          split at held <;> cases held
      | _ => cases held
  | removeTcpWriter a expected pc =>
      cases pc with
      | start =>
          exact Or.inr (s.registry.removeTcpWriterInner_taken a expected sink
            (Option.mem_toList.mp held))
      | _ => cases held
  | close pc =>
      cases pc with
      | flagged => exact Or.inr held
      | shutdown first sinks => exact Or.inl held
      | closing sinks =>
          left
          simp only [Call.advance] at held
          cases chosen : sinks[pick]? with
          | none =>
              rw [chosen] at held
              simp only at held
              split at held
              · cases held
              · exact held
          | some first =>
              rw [chosen] at held
              cases first <;> exact List.mem_of_mem_eraseIdx held
      | _ => cases held

namespace World

variable {w : World Addr Ip Token}

theorem step_sinks (ip : Addr → Ip) (w : World Addr Ip Token) (act : Act Addr Token) (sink : TcpPacketSink Token)
    (member : sink ∈ w.shared.registry.close.2) :
    sink ∈ (w.step ip act).shared.registry.close.2 ∨
      ∃ id call, (w.step ip act).calls id = some call ∧ sink ∈ call.pending := by
  refine step_elim (motive := fun t => sink ∈ t.shared.registry.close.2 ∨
    ∃ id call, t.calls id = some call ∧ sink ∈ call.pending) ip w act (Or.inl member) ?_ ?_ ?_
  · intro id request idle
    exact Or.inl member
  · intro id pick call present
    refine (call.advance_sinks w.shared pick sink member).imp_right ?_
    intro taken
    exact ⟨id, _, setCall_self .., taken⟩
  · intro token
    exact Or.inl member

theorem step_taken (act : Act Addr Token) (id : Nat) (call : Call Addr Token)
    (sink : TcpPacketSink Token) (present : (w.step ip act).calls id = some call)
    (held : sink ∈ call.pending) :
    (∃ before, w.calls id = some before ∧ sink ∈ before.pending) ∨
      sink ∈ w.shared.registry.close.2 := by
  rcases w.step_calls ip act id with same | ⟨request, -, -, fresh⟩ | ⟨pick, before, was, -, now⟩
  · rw [same] at present
    exact Or.inl ⟨call, present, held⟩
  · rw [fresh] at present
    cases present
    cases request <;> cases held
  · rw [now] at present
    cases present
    exact (before.advance_taken w.shared pick sink held).imp_left fun earlier => ⟨before, was, earlier⟩

/-- What a step does to what the calls share. -/
theorem step_shared {motive : Shared Addr Ip Token → Prop} (act : Act Addr Token)
    (idle : motive w.shared) (touch : ∀ call t, Touch ip w.shared call t → motive t)
    (cancel : ∀ token, motive
      { w.shared with cancelled := Function.update w.shared.cancelled token true }) :
    motive (w.step ip act).shared := by
  refine step_elim (motive := fun t => motive t.shared) ip w act idle ?_ ?_ ?_
  · intro id request _
    exact idle
  · intro id pick call _
    exact touch call _ (call.advance_touch ip w.shared pick)
  · exact cancel

end World

theorem Touch.emptied {s t : Shared Addr Ip Token} {call : Call Addr Token} (touch : Touch ip s call t)
    (before : s.Emptied) : t.Emptied := by
  refine ⟨touch.closed before.1, ?_⟩
  cases touch with
  | insert a sink id isOpen =>
      rw [before.1] at isOpen
      cases isOpen
  | remove a expected =>
      simp only [before.2]
      rfl
  | clear => rfl
  | _ => exact before.2

end Sinks

namespace Managed

namespace WriterClosePc

variable {Token : Type}

def Flagged : WriterClosePc Token → Prop
  | .start => False
  | _ => True

def Drained : WriterClosePc Token → Prop
  | .start => False
  | .flagged => False
  | _ => True

end WriterClosePc

theorem Stage.eq_closingWriter {stage : Stage} (within : stage.place = .within) :
    stage = .closingWriter := by
  cases stage <;> first | rfl | cases within

namespace WriterEndpoint

variable {Addr Ip Token : Type}

/-- A call inside `writer.close()` has the sink before it. -/
def Left (s : WriterEndpoint Addr Ip Token) (sink : TcpPacketSink Token) : Prop :=
  ∃ call, s.place call = .within ∧ sink ∈ (s.writers call).left

/-- A registry call has taken the sink out and has not closed it yet. -/
def Taken (s : WriterEndpoint Addr Ip Token) (sink : TcpPacketSink Token) : Prop :=
  ∃ id call, s.world.calls id = some call ∧ sink ∈ call.pending

/-- A shutdown error is in the report, or in the hands of a call that will put it there. -/
def Noted (s : WriterEndpoint Addr Ip Token) : Prop :=
  s.counted = true ∨ ∃ call, s.place call = .within ∧ (s.writers call).failed = true

/-- `close()` was called on the sink and, if it is a direct one, its shutdown ran to completion. -/
def Done (s : WriterEndpoint Addr Ip Token) (sink : TcpPacketSink Token) : Prop :=
  s.world.shared.cancelled sink.token = true ∧ ∀ token, sink = .direct token →
    (sink, true) ∈ s.shutdowns ∨ ((sink, false) ∈ s.shutdowns ∧ s.Noted)

/-- Where a sink is that was registered when the endpoint was cancelled. -/
inductive Fate (s : WriterEndpoint Addr Ip Token) (sink : TcpPacketSink Token) : Prop where
  | registered (member : sink ∈ s.sinks)
  | taken (token : Token) (queued : sink = .queued token) (held : s.Taken sink)
  | left (left : s.Left sink)
  | done (done : s.Done sink)

structure Resumable (s : WriterEndpoint Addr Ip Token) : Prop where
  sound : ∃ phase, Endpoint.Sound s.endpoint phase
  past : ∀ call, s.place call = .past → s.endpoint.writerClosed = true
  completed : s.endpoint.completed = true → s.endpoint.writerClosed = true
  flagged : ∀ call, s.place call = .within → (s.writers call).Flagged → s.world.shared.closed = true
  drained : ∀ call, s.place call = .within → (s.writers call).Drained → s.world.shared.Emptied
  closed : s.endpoint.writerClosed = true → s.world.shared.Emptied
  counted : s.counted = true → 0 < s.endpoint.report.failed
  fates : ∀ sink ∈ s.atCancel, s.Fate sink
  settled : s.endpoint.completed = true → ∀ sink ∈ s.atCancel, ¬ s.Taken sink

theorem Resumable.init : (init : WriterEndpoint Addr Ip Token).Resumable where
  sound := ⟨_, Endpoint.Sound.init⟩
  past _ := nofun
  completed := nofun
  flagged _ := nofun
  drained _ := nofun
  closed := nofun
  counted := nofun
  fates _ := nofun
  settled := nofun

variable {s t : WriterEndpoint Addr Ip Token}

/-- What a step does to the fate of a sink, when it is a step of one call and the others stay as they
are. -/
theorem Fate.writes {sink : TcpPacketSink Token} (fate : s.Fate sink) (call : Nat)
    (within : ∀ other, other ≠ call → s.place other = .within → t.place other = .within)
    (writers : ∀ other, other ≠ call → t.writers other = s.writers other)
    (cancelled : s.world.shared.cancelled sink.token = true →
      t.world.shared.cancelled sink.token = true)
    (shutdowns : ∀ entry ∈ s.shutdowns, entry ∈ t.shutdowns)
    (counted : s.counted = true → t.counted = true) (calls : t.world.calls = s.world.calls)
    (registered : sink ∈ s.sinks → t.Fate sink)
    (left : s.place call = .within → sink ∈ (s.writers call).left → t.Fate sink)
    (failed : s.place call = .within → (s.writers call).failed = true →
      (sink, false) ∈ s.shutdowns → t.Noted) : t.Fate sink := by
  cases fate with
  | registered member => exact registered member
  | taken token queued held =>
      refine .taken token queued ?_
      rw [Taken, calls]
      exact held
  | left found =>
      rcases found with ⟨other, inside, member⟩
      by_cases same : other = call
      · subst same
        exact left inside member
      · refine .left ⟨other, within other same inside, ?_⟩
        rw [writers other same]
        exact member
  | done found =>
      refine .done ⟨cancelled found.1, fun token direct => ?_⟩
      rcases found.2 token direct with fine | ⟨member, noted⟩
      · exact Or.inl (shutdowns _ fine)
      · refine Or.inr ⟨shutdowns _ member, ?_⟩
        rcases noted with old | ⟨other, inside, bad⟩
        · exact Or.inl (counted old)
        · by_cases same : other = call
          · subst same
            exact failed inside bad member
          · refine Or.inr ⟨other, within other same inside, ?_⟩
            rw [writers other same]
            exact bad

/-- Fates stand while the calls inside `writer.close()` stay there. -/
theorem Fate.endpoint {sink : TcpPacketSink Token} (fate : s.Fate sink) (e : Endpoint)
    (stay : ∀ call, s.place call = .within → (e.calls call).stage.place = .within) :
    { s with endpoint := e }.Fate sink := by
  refine fate.writes 0 (fun other _ => stay other) (fun _ _ => rfl) (fun closed => closed)
    (fun _ member => member) (fun counted => counted) rfl (fun here => .registered here) ?_ ?_
  · exact fun within member => .left ⟨0, stay 0 within, member⟩
  · exact fun within failed _ => Or.inr ⟨0, stay 0 within, failed⟩

/-- The endpoint changes and its writer does not. -/
theorem Resumable.moves (inv : s.Resumable) (e : Endpoint) (sound : ∃ phase, e.Sound phase)
    (within : ∀ call, (e.calls call).stage.place = .within → s.place call = .within)
    (past : ∀ call, (e.calls call).stage.place = .past → s.place call = .past)
    (writerClosed : e.writerClosed = s.endpoint.writerClosed)
    (completed : e.completed = true → s.endpoint.writerClosed = true)
    (failed : s.endpoint.report.failed ≤ e.report.failed)
    (fates : ∀ sink ∈ s.atCancel, { s with endpoint := e }.Fate sink)
    (settled : e.completed = true → ∀ sink ∈ s.atCancel, ¬ s.Taken sink) :
    { s with endpoint := e }.Resumable where
  sound := sound
  past call after := writerClosed.trans (inv.past call (past call after))
  completed done := writerClosed.trans (completed done)
  flagged call after := inv.flagged call (within call after)
  drained call after := inv.drained call (within call after)
  closed done := inv.closed (writerClosed.symm.trans done)
  counted done := (inv.counted done).trans_le failed
  fates := fates
  settled := settled

/-- A call gets to `writer.close()`, or past it. -/
theorem Resumable.enters (inv : s.Resumable) (call : Nat) (outside : s.place call = .outside)
    (e : Endpoint) (atCancel : List (TcpPacketSink Token)) (sound : ∃ phase, e.Sound phase)
    (others : ∀ other, other ≠ call → e.calls other = s.endpoint.calls other)
    (past : (e.calls call).stage.place = .past → s.endpoint.writerClosed = true)
    (writerClosed : e.writerClosed = s.endpoint.writerClosed) (completed : e.completed = false)
    (report : e.report = s.endpoint.report) (fates : ∀ sink ∈ atCancel, s.Fate sink) :
    { s with
      endpoint := e
      writers := Function.update s.writers call .start
      atCancel := atCancel }.Resumable := by
  have apart : ∀ {goal : Prop}, s.place call = .within → goal := by
    intro goal within
    rw [outside] at within
    cases within
  have running : ∀ {goal : Prop}, e.completed = true → goal := by
    intro goal done
    rw [completed] at done
    cases done
  refine ⟨sound, ?_, running, ?_, ?_, ?_, ?_, ?_, running⟩
  · intro other after
    refine writerClosed.trans ?_
    by_cases same : other = call
    · subst same
      exact past after
    · rw [place, others other same] at after
      exact inv.past other after
  · intro other within flagged
    by_cases same : other = call
    · subst same
      simp only [Function.update_self, WriterClosePc.Flagged] at flagged
    · rw [place, others other same] at within
      simp only [Function.update_of_ne same] at flagged
      exact inv.flagged other within flagged
  · intro other within drained
    by_cases same : other = call
    · subst same
      simp only [Function.update_self, WriterClosePc.Drained] at drained
    · rw [place, others other same] at within
      simp only [Function.update_of_ne same] at drained
      exact inv.drained other within drained
  · intro closed
    exact inv.closed (writerClosed.symm.trans closed)
  · intro counted
    rw [report]
    exact inv.counted counted
  · intro sink member
    refine (fates sink member).writes call ?_ (fun other ne => Function.update_of_ne ne ..)
      (fun closed => closed) (fun _ inside => inside) (fun counted => counted) rfl
      (fun here => .registered here) (fun within _ => apart within) (fun within _ _ => apart within)
    intro other ne within
    rw [place, others other ne]
    exact within

/-- A step of `writer.close()` up to its return. -/
theorem Resumable.writes (inv : s.Resumable) (call : Nat) (within : s.place call = .within)
    (shared : Shared Addr Ip Token) (pc : WriterClosePc Token)
    (shutdowns : List (TcpPacketSink Token × Bool))
    (closed : s.world.shared.closed = true → shared.closed = true)
    (emptied : s.world.shared.Emptied → shared.Emptied)
    (flagged : pc.Flagged → shared.closed = true) (drained : pc.Drained → shared.Emptied)
    (fates : ∀ sink ∈ s.atCancel,
      { s.setWriter call shared pc with shutdowns := shutdowns }.Fate sink) :
    { s.setWriter call shared pc with shutdowns := shutdowns }.Resumable := by
  refine ⟨inv.sound, inv.past, inv.completed, ?_, ?_, fun done => emptied (inv.closed done),
    inv.counted, fates, inv.settled⟩
  · intro other inside moved
    by_cases same : other = call
    · subst same
      simp only [setWriter, Function.update_self] at moved
      exact flagged moved
    · simp only [setWriter, Function.update_of_ne same] at moved
      exact closed (inv.flagged other inside moved)
  · intro other inside moved
    by_cases same : other = call
    · subst same
      simp only [setWriter, Function.update_self] at moved
      exact drained moved
    · simp only [setWriter, Function.update_of_ne same] at moved
      exact emptied (inv.drained other inside moved)

/-- A close cancels the endpoint, for the first time or again. -/
theorem Resumable.cancel (inv : s.Resumable) (call : Nat)
    (here : s.endpoint.calls call = ⟨.cancelling, .idle⟩) :
    { s with
      endpoint := s.endpoint.step (.advance call)
      writers := Function.update s.writers call .start
      atCancel := if s.endpoint.begun then s.atCancel else s.sinks }.Resumable := by
  rcases inv.sound with ⟨phase, sound⟩
  have running : s.endpoint.completed = false := by
    have outer := (sound.calls call).outer
    rw [here] at outer
    exact outer.2
  have after := sound.step (.advance call)
  obtain ⟨calls, writerClosed, completed, report⟩ := s.endpoint.step_cancelling call here
  refine inv.enters call (by rw [place, here]; rfl) _ _ after ?_ ?_ writerClosed
    (completed.trans running) report ?_
  · intro other ne
    rw [calls, Function.update_of_ne ne]
  · intro past
    rw [calls, Function.update_self] at past
    split_ifs at past with closed
    · exact closed
    · cases past
  · intro sink member
    split_ifs at member
    · exact inv.fates sink member
    · exact .registered member

/-- `writer.close()` has returned. -/
theorem Resumable.returns (inv : s.Resumable) (call : Nat) (within : s.place call = .within)
    (failed : Bool) (here : s.writers call = .returned failed) :
    { s with
      endpoint := s.endpoint.step (.writerClosed call (!failed))
      counted := s.counted || failed }.Resumable := by
  rcases inv.sound with ⟨phase, sound⟩
  have running : s.endpoint.completed = false := by
    have outer := (sound.calls call).outer
    rw [Stage.eq_closingWriter within] at outer
    exact outer.2.1
  have after := sound.step (.writerClosed call (!failed))
  have emptied : s.world.shared.Emptied := inv.drained call within (by rw [here]; trivial)
  obtain ⟨calls, writerClosed, completed, counts⟩ :=
    s.endpoint.step_writerClosed call (!failed) (Stage.eq_closingWriter within)
  generalize s.endpoint.step (.writerClosed call (!failed)) = e at *
  have inside : ∀ other, (e.calls other).stage.place = .within → s.place other = .within := by
    intro other after
    rw [calls] at after
    by_cases same : other = call
    · subst same
      exact within
    · rw [Function.update_of_ne same] at after
      exact after
  refine ⟨after, fun _ _ => writerClosed, fun _ => writerClosed, ?_, ?_, fun _ => emptied, ?_, ?_, ?_⟩
  · exact fun other after => inv.flagged other (inside other after)
  · exact fun other after => inv.drained other (inside other after)
  · intro counted
    rw [counts]
    cases failed with
    | true => exact Nat.succ_pos _
    | false => exact inv.counted (by simpa using counted)
  · intro sink member
    refine (inv.fates sink member).writes call ?_ (fun _ _ => rfl) (fun closed => closed)
      (fun _ member => member) (fun counted => by simp [counted]) rfl (fun found => .registered found) ?_ ?_
    · intro other ne before
      rw [place, calls, Function.update_of_ne ne]
      exact before
    · intro _ left
      rw [here] at left
      cases left
    · intro _ bad _
      rw [here] at bad
      refine Or.inl ?_
      change (s.counted || failed) = true
      rw [show failed = true from bad, Bool.or_true]
  · intro done
    rw [completed, running] at done
    cases done

/-- What a step inside `writer.close()` does to the fate of a sink. -/
theorem Resumable.fate (inv : s.Resumable) (call : Nat) (within : s.place call = .within)
    (sink : TcpPacketSink Token) (member : sink ∈ s.atCancel) (shared : Shared Addr Ip Token)
    (pc : WriterClosePc Token) (shutdowns : List (TcpPacketSink Token × Bool))
    (cancelled : s.world.shared.cancelled sink.token = true → shared.cancelled sink.token = true)
    (grown : ∀ entry ∈ s.shutdowns, entry ∈ shutdowns)
    (failed : (s.writers call).failed = true → pc.failed = true)
    (registered : sink ∈ s.sinks → sink ∈ shared.registry.close.2 ∨ sink ∈ pc.left)
    (left : sink ∈ (s.writers call).left → sink ∈ pc.left ∨
      { s.setWriter call shared pc with shutdowns := shutdowns }.Done sink) :
    { s.setWriter call shared pc with shutdowns := shutdowns }.Fate sink := by
  have own : (s.setWriter call shared pc).writers call = pc := Function.update_self ..
  refine (inv.fates sink member).writes call (fun _ _ before => before)
    (fun other ne => Function.update_of_ne ne ..) cancelled grown (fun counted => counted) rfl ?_ ?_ ?_
  · intro before
    rcases registered before with still | now
    · exact .registered still
    · exact .left ⟨call, within, own.symm ▸ now⟩
  · intro _ before
    rcases left before with still | done
    · exact .left ⟨call, within, own.symm ▸ still⟩
    · exact .done done
  · intro _ bad _
    exact Or.inr ⟨call, within, own.symm ▸ failed bad⟩

variable [DecidableEq Token]

theorem emptied_close (emptied : s.world.shared.Emptied) (sink : TcpPacketSink Token) :
    (s.world.shared.close sink).Emptied := emptied

/-- One more sink of those that `close` took out is closed, or the last one was. -/
theorem Resumable.advanceClosing (inv : s.Resumable) (call pick : Nat) (ok : Bool)
    (within : s.place call = .within) (sinks : List (TcpPacketSink Token)) (failed : Bool)
    (here : s.writers call = .closing sinks failed) : (s.advanceWriter call pick ok).Resumable := by
  have emptied := inv.drained call within (by rw [here]; trivial)
  simp only [WriterEndpoint.advanceWriter, here]
  have moves : ∀ shared pc, shared.Emptied → pc.failed = failed →
      (∀ token, s.world.shared.cancelled token = true → shared.cancelled token = true) →
      (∀ sink ∈ s.atCancel, sink ∈ sinks → sink ∈ pc.left ∨
        (shared.cancelled sink.token = true ∧ ∃ token, sink = .queued token)) →
      (s.setWriter call shared pc).Resumable := by
    intro shared pc after same cancelled left
    refine inv.writes call within shared pc s.shutdowns (fun _ => after.1) (fun _ => after)
      (fun _ => after.1) (fun _ => after) ?_
    intro sink member
    refine inv.fate call within sink member shared pc _ (cancelled _) (fun _ inside => inside) ?_
      (fun absent => absurd absent (emptied.no_sinks sink)) ?_
    · rw [here, same]
      exact fun bad => bad
    · rw [here]
      intro inside
      refine (left sink member inside).imp_right ?_
      rintro ⟨closed, token, rfl⟩
      exact ⟨closed, nofun⟩
  cases chosen : sinks[pick]? with
  | none =>
      simp only
      split_ifs with none_left
      · refine moves s.world.shared (.udp failed) emptied rfl (fun _ closed => closed) ?_
        intro sink _ inside
        rw [List.isEmpty_iff.mp none_left] at inside
        cases inside
      · exact inv
  | some first =>
      obtain ⟨bound, found⟩ := List.getElem?_eq_some_iff.mp chosen
      have split : ∀ sink ∈ sinks, sink = first ∨ sink ∈ sinks.eraseIdx pick := by
        intro sink inside
        rw [← found]
        exact List.mem_cons.mp ((List.getElem_cons_eraseIdx_perm bound).mem_iff.mpr inside)
      cases first with
      | queued token =>
          refine moves _ (.closing (sinks.eraseIdx pick) failed) (emptied_close emptied _) rfl
            (s.world.shared.close_mono _) ?_
          intro sink _ inside
          rcases split sink inside with rfl | rest
          · exact Or.inr ⟨s.world.shared.close_self _, token, rfl⟩
          · exact Or.inl rest
      | direct token =>
          refine moves _ (.shutdown (.direct token) (sinks.eraseIdx pick) failed) (emptied_close emptied _) rfl
            (s.world.shared.close_mono _) ?_
          intro sink _ inside
          exact Or.inl (List.mem_cons.mpr (split sink inside))

/-- The result of the shutdown of a direct sink is recorded. -/
theorem Resumable.advanceShutdown (inv : s.Resumable) (call pick : Nat) (ok : Bool)
    (within : s.place call = .within) (current : TcpPacketSink Token) (sinks : List (TcpPacketSink Token))
    (failed : Bool) (here : s.writers call = .shutdown current sinks failed) :
    (s.advanceWriter call pick ok).Resumable := by
  have emptied := inv.drained call within (by rw [here]; trivial)
  simp only [WriterEndpoint.advanceWriter, here]
  refine inv.writes call within _ _ _ (fun before => before) (fun before => emptied_close before current)
    (fun _ => emptied.1) (fun _ => emptied_close emptied current) ?_
  intro sink member
  refine inv.fate call within sink member _ _ _ (s.world.shared.close_mono _ _)
    (fun _ inside => List.mem_append_left _ inside) ?_
    (fun absent => absurd absent (emptied.no_sinks sink)) ?_
  · rw [here]
    intro bad
    change (failed || !ok) = true
    rw [show failed = true from bad, Bool.true_or]
  · rw [here]
    intro inside
    rcases List.mem_cons.mp inside with rfl | rest
    · refine Or.inr ⟨s.world.shared.close_self _, fun token direct => ?_⟩
      have recorded : (sink, ok) ∈ s.shutdowns ++ [(sink, ok)] := by simp
      cases ok with
      | true => exact Or.inl recorded
      | false =>
          refine Or.inr ⟨recorded, Or.inr ⟨call, within, ?_⟩⟩
          simp [setWriter, WriterClosePc.failed]
    · exact Or.inl rest

theorem Resumable.advanceWriter (inv : s.Resumable) (call pick : Nat) (ok : Bool)
    (within : s.place call = .within) : (s.advanceWriter call pick ok).Resumable := by
  cases here : s.writers call with
  | start =>
      simp only [WriterEndpoint.advanceWriter, here]
      refine inv.writes call within { s.world.shared with closed := true } .flagged s.shutdowns
        (fun _ => rfl) (fun before => ⟨rfl, before.2⟩) (fun _ => rfl) (fun absent => absent.elim) ?_
      intro sink member
      refine inv.fate call within sink member _ _ _ (fun closed => closed) (fun _ inside => inside) ?_
        Or.inl ?_
      · rw [here]
        exact fun absent => absent
      · rw [here]
        exact Or.inl
  | flagged =>
      simp only [WriterEndpoint.advanceWriter, here]
      have closed := inv.flagged call within (by rw [here]; trivial)
      refine inv.writes call within _ _ s.shutdowns (fun before => before) (fun before => ⟨before.1, rfl⟩)
        (fun _ => closed) (fun _ => ⟨closed, rfl⟩) ?_
      intro sink member
      refine inv.fate call within sink member _ _ _ (fun closed => closed) (fun _ inside => inside) ?_
        Or.inr ?_
      · rw [here]
        exact fun absent => absent
      · rw [here]
        exact nofun
  | closing sinks failed => exact inv.advanceClosing call pick ok within sinks failed here
  | shutdown current sinks failed => exact inv.advanceShutdown call pick ok within current sinks failed here
  | udp failed =>
      simp only [WriterEndpoint.advanceWriter, here]
      have emptied := inv.drained call within (by rw [here]; trivial)
      refine inv.writes call within _ _ s.shutdowns (fun before => before) (fun before => before)
        (fun _ => emptied.1) (fun _ => emptied) ?_
      intro sink member
      refine inv.fate call within sink member _ _ _ (fun closed => closed) (fun _ inside => inside) ?_
        Or.inl ?_
      · rw [here]
        exact fun bad => bad
      · rw [here]
        exact nofun
  | returned failed =>
      simp only [WriterEndpoint.advanceWriter, here]
      exact inv.returns call within failed here

variable [DecidableEq Addr] [DecidableEq Ip]

/-- What a run must not do: drop a call inside `writer.close()` that still has such a sink or the error
of one, take such a direct sink out of the registry by another call, or complete while a call that took
such a sink out has not closed it. -/
def Kept (ip : Addr → Ip) (s : WriterEndpoint Addr Ip Token) : WriterEndpointAct Addr Token → Prop
  | .endpoint (.drop call) => s.place call = .within →
      (∀ sink ∈ (s.writers call).left, sink ∉ s.atCancel) ∧
        ((s.writers call).failed = true → ∀ sink ∈ s.atCancel, (sink, false) ∉ s.shutdowns)
  | .endpoint (.advance call) => (s.endpoint.calls call).stage = .awaitingRoot →
      s.endpoint.root ≠ some none → ∀ sink ∈ s.atCancel, ¬ s.Taken sink
  | .registry act => ∀ token, .direct token ∈ s.atCancel → .direct token ∈ s.sinks →
      .direct token ∈ (s.world.step ip act).shared.registry.close.2
  | _ => True

variable {ip : Addr → Ip}

/-- Other calls on the writer. -/
theorem Resumable.registry (inv : s.Resumable) (act : Act Addr Token)
    (kept : s.Kept ip (.registry act)) : { s with world := s.world.step ip act }.Resumable := by
  have emptied : s.world.shared.Emptied → (s.world.step ip act).shared.Emptied := by
    intro before
    exact World.step_shared act before (fun call t touch => touch.emptied before) fun token => before
  have cancelled : ∀ token, s.world.shared.cancelled token = true →
      (s.world.step ip act).shared.cancelled token = true := by
    intro token before
    refine World.step_shared (motive := fun t => t.cancelled token = true) act before
      (fun call t touch => touch.cancelled token before) ?_
    intro other
    by_cases same : token = other
    · simp [same]
    · simpa [Function.update_of_ne same] using before
  refine ⟨inv.sound, inv.past, inv.completed, ?_, ?_, ?_, inv.counted, ?_, ?_⟩
  · intro call within flagged
    have before := inv.flagged call within flagged
    exact World.step_shared (motive := fun t => t.closed = true) act before
      (fun call t touch => touch.closed before) fun token => before
  · exact fun call within drained => emptied (inv.drained call within drained)
  · exact fun closed => emptied (inv.closed closed)
  · intro sink member
    have done : s.Done sink → ({ s with world := s.world.step ip act } :
        WriterEndpoint Addr Ip Token).Done sink := fun found => ⟨cancelled _ found.1, found.2⟩
    cases inv.fates sink member with
    | registered here =>
        cases sink with
        | direct token => exact .registered (kept token member here)
        | queued token =>
            rcases s.world.step_sinks ip act _ here with still | taken
            · exact .registered still
            · exact .taken token rfl taken
    | taken token queued held =>
        subst queued
        rcases held with ⟨id, call, present, pending⟩
        rcases s.world.step_pending ip act id call _ present pending with closed | ⟨next, now, still⟩
        · exact .done ⟨closed, nofun⟩
        · exact .taken token rfl ⟨id, next, now, still⟩
    | left found => exact .left found
    | done found => exact .done (done found)
  · intro completed sink member taken
    rcases taken with ⟨id, call, present, pending⟩
    rcases World.step_taken act id call sink present pending with ⟨before, was, held⟩ | here
    · exact inv.settled completed sink member ⟨id, before, was, held⟩
    · exact (inv.closed (inv.completed completed)).no_sinks sink here

/-- The endpoint takes a step that is no business of its writer's, completes, or drops a call. -/
theorem Resumable.endpoint (inv : s.Resumable) (act : EndpointAct) (kept : s.Kept ip (.endpoint act))
    (cancels : ∀ call, act = .advance call → s.endpoint.calls call ≠ ⟨.cancelling, .idle⟩)
    (writer : ∀ call ok, act ≠ .writerClosed call ok) :
    { s with endpoint := s.endpoint.step act }.Resumable := by
  have sound : ∃ phase, Endpoint.Sound (s.endpoint.step act) phase := by
    rcases inv.sound with ⟨phase, sound⟩
    exact sound.step act
  have view := s.endpoint.step_view act
  generalize s.endpoint.step act = e at sound view
  cases view with
  | cancels call _ here => exact absurd here (cancels call rfl)
  | writer call ok => exact absurd rfl (writer call ok)
  | quiet _ _ places writerClosed completed failed =>
      refine inv.moves e sound (fun call => (places call).symm.trans) (fun call => (places call).symm.trans)
        writerClosed (fun done => inv.completed (completed.symm.trans done)) failed ?_
        fun done => inv.settled (completed.symm.trans done)
      intro sink member
      exact (inv.fates sink member).endpoint e fun call => (places call).trans
  | completes call _ result here ended calls writerClosed completed failed =>
      have place : s.place call = .past := by
        rw [place, here]
        rfl
      have others : ∀ other, other ≠ call → (e.calls other).stage.place = s.place other := by
        intro other ne
        rw [calls, Function.update_of_ne ne]
        rfl
      have mine : (e.calls call).stage.place = .outside := by
        rw [calls, Function.update_self]
        rfl
      refine inv.moves e sound ?_ ?_ writerClosed (fun _ => inv.past call place) failed ?_
        fun _ => kept here ended
      · intro other after
        by_cases same : other = call
        · subst same
          rw [mine] at after
          cases after
        · exact (others other same).symm.trans after
      · intro other after
        by_cases same : other = call
        · subst same
          exact place
        · exact (others other same).symm.trans after
      · intro sink member
        refine (inv.fates sink member).endpoint e ?_
        intro other within
        refine (others other ?_).trans within
        intro same
        subst same
        rw [place] at within
        cases within
  | drops call _ calls writerClosed completed failed =>
      have others : ∀ other, other ≠ call → (e.calls other).stage.place = s.place other := by
        intro other ne
        rw [calls, Function.update_of_ne ne]
        rfl
      have back : ∀ target, target ≠ .outside → ∀ other, (e.calls other).stage.place = target →
          s.place other = target := by
        intro target inside other after
        by_cases same : other = call
        · subst same
          rw [calls, Function.update_self] at after
          exact absurd after.symm inside
        · exact (others other same).symm.trans after
      refine inv.moves e sound (back .within nofun) (back .past nofun) writerClosed
        (fun done => inv.completed (completed.symm.trans done)) (by rw [failed]) ?_
        fun done => inv.settled (completed.symm.trans done)
      intro sink member
      refine (inv.fates sink member).writes call (fun other ne => (others other ne).trans)
        (fun _ _ => rfl) (fun closed => closed) (fun _ inside => inside) (fun counted => counted) rfl
        (fun here => .registered here) ?_ ?_
      · intro within inside
        exact absurd member ((kept within).1 sink inside)
      · intro within bad inside
        exact absurd inside ((kept within).2 bad sink member)

theorem Resumable.step (inv : s.Resumable) (act : WriterEndpointAct Addr Token)
    (kept : s.Kept ip act) : (s.step ip act).Resumable := by
  cases act with
  | registry act =>
      simp only [WriterEndpoint.step]
      split
      · exact inv.registry act kept
      · exact inv
  | writer call pick ok =>
      simp only [WriterEndpoint.step]
      split
      · next within => exact inv.advanceWriter call pick ok within
      · exact inv
  | endpoint act =>
      cases act with
      | writerClosed call ok => exact inv
      | drop call =>
          simp only [WriterEndpoint.step, endpointStep]
          split
          · exact inv
          · exact inv.endpoint (.drop call) kept nofun nofun
      | advance call =>
          simp only [WriterEndpoint.step, endpointStep]
          split
          · next cancels =>
              refine inv.cancel call ?_
              simp only [WriterEndpoint.cancels] at cancels
              split at cancels
              · next here => exact here
              · cases cancels
          · next cancels =>
              refine inv.endpoint (.advance call) kept ?_ nofun
              intro other same here
              cases same
              simp only [WriterEndpoint.cancels, here, not_true_eq_false] at cancels
      | _ => exact inv.endpoint _ kept nofun nofun

/-- In a run that keeps to `Kept`, a completed close has dealt with every sink that was registered when
the endpoint was first cancelled, however often its calls were dropped and called again. -/
theorem sinks_closed_after_resuming (ip : Addr → Ip) (acts : List (WriterEndpointAct Addr Token))
    (kept : Lib.Along (WriterEndpoint.step ip) (Kept ip) init acts) :
    let s := (init : WriterEndpoint Addr Ip Token).run ip acts
    s.endpoint.completed = true → ∀ sink ∈ s.atCancel,
      s.world.shared.cancelled sink.token = true ∧ ∀ token, sink = .direct token →
        (sink, true) ∈ s.shutdowns ∨
          ((sink, false) ∈ s.shutdowns ∧ s.counted = true ∧ 0 < s.endpoint.report.failed) := by
  intro s completed sink member
  have inv : s.Resumable := Lib.invariant_along (WriterEndpoint.step ip) Resumable
    (fun t act allowed inv => inv.step act allowed) init acts kept .init
  have nobody : ∀ call, s.place call ≠ .within := by
    intro call within
    rcases inv.sound with ⟨phase, sound⟩
    have outer := (sound.calls call).outer
    rw [Stage.eq_closingWriter within] at outer
    rw [outer.2.1] at completed
    cases completed
  have emptied := inv.closed (inv.completed completed)
  cases inv.fates sink member with
  | registered here => exact absurd here (emptied.no_sinks sink)
  | taken token queued held => exact absurd held (inv.settled completed sink member)
  | left found =>
      rcases found with ⟨call, within, _⟩
      exact absurd within (nobody call)
  | done found =>
      refine ⟨found.1, fun token direct => (found.2 token direct).imp_right ?_⟩
      rintro ⟨recorded, counted | ⟨call, within, _⟩⟩
      · exact ⟨recorded, counted, inv.counted counted⟩
      · exact absurd within (nobody call)

/-- An endpoint with direct sinks for two peers. -/
def twoSinks : List (WriterEndpointAct Nat Nat) :=
  [.registry (.invoke 0 (.insertTcpSink 5 (.direct 0))), .registry (.advance 0 0),
    .registry (.advance 0 0), .registry (.advance 0 0), .registry (.advance 0 0),
    .registry (.invoke 1 (.insertTcpSink 6 (.direct 1))), .registry (.advance 1 0),
    .registry (.advance 1 0), .registry (.advance 1 0), .registry (.advance 1 0)]

/-- A call of the endpoint's `close_and_wait` up to the critical section of `writer.close()`. -/
def beginsClose (call : Nat) : List (WriterEndpointAct Nat Nat) :=
  [.endpoint (.closeEndpoint call), .endpoint (.advance call), .endpoint (.advance call),
    .endpoint (.advance call), .writer call 0 true, .writer call 0 true]

/-- The rest of a call that has no sinks before it. -/
def endsClose (call : Nat) : List (WriterEndpointAct Nat Nat) :=
  [.writer call 0 true, .writer call 0 true, .writer call 0 true, .endpoint (.advance call),
    .endpoint (.advance call), .endpoint (.rootEnds (.ok 0)), .endpoint (.advance call)]

set_option maxRecDepth 4000 in
/-- The first call is dropped at the lock of the UDP socket, with both sinks shut down. -/
theorem sinks_closed_after_resuming_at_udp :
    let acts := twoSinks ++ beginsClose 0 ++ [.writer 0 0 true, .writer 0 0 true, .writer 0 0 true,
      .writer 0 0 true, .writer 0 0 true, .endpoint (.drop 0)] ++ beginsClose 1 ++ endsClose 1
    let s := (init : WriterEndpoint Nat Nat Nat).run id acts
    s.endpoint.completed = true ∧ s.atCancel.length = 2 ∧ ∀ sink ∈ s.atCancel,
      s.world.shared.cancelled sink.token = true ∧ ∀ token, sink = .direct token →
        (sink, true) ∈ s.shutdowns ∨
          ((sink, false) ∈ s.shutdowns ∧ s.counted = true ∧ 0 < s.endpoint.report.failed) := by
  intro acts s
  refine ⟨rfl, rfl, sinks_closed_after_resuming id acts ?_ rfl⟩
  refine ⟨nofun, nofun, nofun, nofun, nofun, nofun, nofun, nofun, nofun, nofun, trivial, nofun, nofun, nofun,
    trivial, trivial, trivial, trivial, trivial, trivial, trivial, ?_, trivial, nofun, nofun, nofun, trivial,
    trivial, trivial, trivial, trivial, nofun, nofun, trivial, ?_, trivial⟩
  · exact fun _ => ⟨nofun, nofun⟩
  · rintro - - sink - ⟨id, call, present, held⟩
    rcases id with _ | _ | id
    · cases present
      cases held
    · cases present
      cases held
    · cases present

set_option maxRecDepth 2000 in
/-- The first call is dropped in the shutdown of one of the two sinks: the second call finds the
registry empty, so one sink is never closed and neither is shut down. -/
theorem sinks_lost_when_dropped_in_shutdown :
    let s := (init : WriterEndpoint Nat Nat Nat).run id (twoSinks ++ beginsClose 0 ++
      [.writer 0 0 true, .endpoint (.drop 0)] ++ beginsClose 1 ++ endsClose 1)
    s.endpoint.completed = true ∧ s.atCancel = [.direct 1, .direct 0] ∧
      s.world.shared.cancelled 0 = false ∧ s.shutdowns = [] ∧ s.endpoint.report = 0 := by
  refine ⟨rfl, rfl, rfl, rfl, rfl⟩

end WriterEndpoint

end Managed

end Pigs.Net.Rw
