import Pigs.Rpc.Supervisor

/-! The life of a supervisor: its connections in order, its retry budget and its end. -/

namespace Pigs.Rpc

/-- The generation of the connection with an index. -/
def generationAt (index : Nat) : Nat := min (index + 1) u64Max

def attemptAt (index : Nat) : Nat := min (index + 1) u32Max

/-- What the supervisor sends in a round that it ends. -/
def round (index : Nat) (reason : String) : List ConnectionState :=
  [.connecting (generationAt index) (attemptAt index), .disconnected (generationAt index) reason]

def rounds (reasons : List String) : List ConnectionState := (reasons.mapIdx round).flatten

theorem rounds_concat (reasons : List String) (reason : String) :
    rounds (reasons ++ [reason]) = rounds reasons ++ round reasons.length reason := by
  simp [rounds, List.mapIdx_concat]

theorem saturatingAdd_min (limit count : Nat) :
    saturatingAdd limit (min count limit) = min (count + 1) limit := by
  rw [saturatingAdd]
  omega

/-- The supervisor has sent `connecting` and nothing since. -/
def SupervisorPc.inRound : SupervisorPc → Bool
  | .calling => true
  | .running _ => true
  | .ended _ _ => true
  | .checking _ => true
  | .disconnecting _ => true
  | _ => false

/-- The call of `connect_and_run` that has not returned. -/
def SupervisorPc.inCall : SupervisorPc → Option Nat
  | .running connection => some connection
  | _ => none

/-- The connection whose token the supervisor has not cancelled yet. -/
def SupervisorPc.openToken : SupervisorPc → Option Nat
  | .running connection => some connection
  | .ended connection _ => some connection
  | _ => none

namespace Supervisor

/-- How many rounds have been permitted. -/
def started (s : Supervisor) (reasons : List String) (begun : Bool) : Nat :=
  if begun || s.pc = .publishing then reasons.length + 1 else reasons.length

/-- How many calls of `connect_and_run` there were. -/
def called (s : Supervisor) (reasons : List String) (begun : Bool) : Nat :=
  if begun && s.pc ≠ .calling then reasons.length + 1 else reasons.length

/-- `reasons` are those of the rounds that the supervisor has ended, and it has `begun` one more. -/
structure Lifecycle (c : Setting) (s : Supervisor) (reasons : List String) (begun : Bool) : Prop where
  phase : s.pc ≠ .stopping → s.pc ≠ .stopped → begun = s.pc.inRound
  sends : s.sends = rounds reasons ++
    (if begun then [.connecting (generationAt reasons.length) (attemptAt reasons.length)] else []) ++
    if s.pc = .stopped then [.stopped] else []
  connections : s.connections = (List.range (s.called reasons begun)).map generationAt
  generation : s.generation = min (s.started reasons begun) u64Max
  attempt : s.pc ≠ .stopping → s.pc ≠ .stopped → s.attempt = min (s.started reasons begun) u32Max
  budget : ∀ most, c.maxAttempts = some most → most < u32Max → s.started reasons begun ≤ most
  delays : s.delays = (List.range reasons.length).map attemptAt
  current : ∀ index, s.pc.openToken = some index → index = reasons.length
  finished : ∀ index < s.connections.length, s.pc.inCall ≠ some index → s.finished index = true
  tokens : ∀ index < s.connections.length, s.pc.openToken ≠ some index → s.tokens index = true

variable {c : Setting} {s t : Supervisor} {reasons : List String} {begun : Bool}

/-- A send changes what is on the channel and nothing else. -/
theorem publish_channel (s : Supervisor) (sent : ConnectionState) :
    ∃ state published, s.publish sent = { s with state := state, published := published } := by
  rw [publish]
  split_ifs
  · exact ⟨_, _, rfl⟩
  · exact ⟨s.state, s.published, rfl⟩

namespace Lifecycle

theorem init : Lifecycle c init [] false where
  phase _ _ := rfl
  sends := rfl
  connections := rfl
  generation := rfl
  attempt _ _ := rfl
  budget _ _ _ := Nat.zero_le _
  delays := rfl
  current := nofun
  finished := nofun
  tokens := nofun

/-- The supervisor moves on between two connections, without a send. -/
theorem moves (inv : Lifecycle c s reasons begun) (pc : SupervisorPc)
    (phase : pc ≠ .stopping → begun = pc.inRound)
    (before : s.pc ≠ .stopping ∧ s.pc ≠ .stopped ∧ s.pc ≠ .publishing ∧ s.pc ≠ .calling)
    (after : pc ≠ .stopped ∧ pc ≠ .publishing ∧ pc ≠ .calling)
    (closed : s.pc.openToken = none ∧ pc.openToken = none) :
    Lifecycle c { s with pc := pc } reasons begun := by
  have started : started { s with pc := pc } reasons begun = s.started reasons begun := by
    simp only [Supervisor.started, before.2.2.1, after.2.1]
  have called : called { s with pc := pc } reasons begun = s.called reasons begun := by
    simp [Supervisor.called, before.2.2.2, after.2.2]
  have returned : s.pc.inCall = none := by
    cases found : s.pc with
    | running index => simp [found, SupervisorPc.openToken] at closed
    | _ => rfl
  constructor
  · intro notStopping _
    exact phase notStopping
  · have sends := inv.sends
    rw [if_neg before.2.1] at sends
    rw [if_neg after.1]
    exact sends
  · rw [called]
    exact inv.connections
  · rw [started]
    exact inv.generation
  · intro _ _
    rw [started]
    exact inv.attempt before.1 before.2.1
  · rw [started]
    exact inv.budget
  · exact inv.delays
  · intro index found
    rw [closed.2] at found
    cases found
  · intro index inside _
    exact inv.finished index inside (by rw [returned]; exact nofun)
  · intro index inside _
    exact inv.tokens index inside (by rw [closed.1]; exact nofun)

theorem permitting (inv : Lifecycle c s reasons begun) (pc : s.pc = .permitting) :
    Lifecycle c (s.advance c) reasons begun := by
  obtain rfl : begun = false := by simpa [pc, SupervisorPc.inRound] using inv.phase
  have attempt : s.attempt = min reasons.length u32Max := by simpa [pc, started] using inv.attempt
  have generation : s.generation = min reasons.length u64Max := by
    simpa [pc, started] using inv.generation
  have sends : s.sends = rounds reasons := by simpa [pc] using inv.sends
  have connections : s.connections = (List.range reasons.length).map generationAt := by
    simpa [called] using inv.connections
  have finished : ∀ index < s.connections.length, s.finished index = true := fun index inside =>
    inv.finished index inside (by rw [pc]; exact nofun)
  have tokens : ∀ index < s.connections.length, s.tokens index = true := fun index inside =>
    inv.tokens index inside (by rw [pc]; exact nofun)
  simp only [Supervisor.advance, pc, attempt, generation, saturatingAdd_min]
  split_ifs with permitted
  · refine ⟨fun _ _ => rfl, ?_, ?_, rfl, fun _ _ => rfl, ?_, inv.delays, nofun,
      fun index inside _ => finished index inside, fun index inside _ => tokens index inside⟩
    · simp [sends]
    · simpa [called] using connections
    · intro most given small
      simp only [Setting.permits, given, decide_eq_true_eq] at permitted
      simp only [started, Bool.false_or, decide_true, if_true]
      omega
  · refine ⟨fun never => absurd rfl never, ?_, ?_, ?_, fun never => absurd rfl never, ?_, inv.delays,
      nofun, fun index inside _ => finished index inside, fun index inside _ => tokens index inside⟩
    · simp [sends]
    · simpa [called] using connections
    · simp [started]
    · simpa [started, pc] using inv.budget

theorem publishing (inv : Lifecycle c s reasons begun) (pc : s.pc = .publishing) :
    Lifecycle c (s.advance c) reasons true := by
  obtain rfl : begun = false := by simpa [pc, SupervisorPc.inRound] using inv.phase
  have attempt : s.attempt = attemptAt reasons.length := by
    simpa [pc, started, attemptAt] using inv.attempt
  have generation : s.generation = generationAt reasons.length := by
    simpa [pc, started, generationAt] using inv.generation
  have sends : s.sends = rounds reasons := by simpa [pc] using inv.sends
  rcases s.publish_channel (.connecting s.generation s.attempt) with ⟨state, published, same⟩
  simp only [Supervisor.advance, pc, same]
  refine ⟨fun _ _ => rfl, ?_, ?_, ?_, fun _ _ => ?_, ?_, inv.delays, nofun,
    fun index inside _ => inv.finished index inside (by rw [pc]; exact nofun),
    fun index inside _ => inv.tokens index inside (by rw [pc]; exact nofun)⟩
  · simp [sends, attempt, generation]
  · simpa [called] using inv.connections
  · simpa [started, generationAt] using generation
  · simpa [started, attemptAt] using attempt
  · simpa [started, pc] using inv.budget

theorem calling (inv : Lifecycle c s reasons begun) (pc : s.pc = .calling) :
    Lifecycle c (s.advance c) reasons begun := by
  obtain rfl : begun = true := by simpa [pc, SupervisorPc.inRound] using inv.phase
  have generation : s.generation = generationAt reasons.length := by
    simpa [started, generationAt] using inv.generation
  have connections : s.connections = (List.range reasons.length).map generationAt := by
    simpa [called, pc] using inv.connections
  have count : s.connections.length = reasons.length := by simp [connections]
  have earlier : ∀ index < (s.connections ++ [s.generation]).length,
      some reasons.length ≠ some index → index < s.connections.length := by
    intro index inside apart
    rw [List.length_append, List.length_singleton] at inside
    rw [ne_eq, Option.some.injEq] at apart
    omega
  simp only [Supervisor.advance, pc, count]
  refine ⟨fun _ _ => rfl, ?_, ?_, ?_, fun _ _ => ?_, ?_, inv.delays, ?_, ?_, ?_⟩
  · simpa [pc] using inv.sends
  · simp [called, connections, generation, List.range_succ]
  · simpa [started] using inv.generation
  · simpa [started, pc] using inv.attempt
  · simpa [started] using inv.budget
  · intro index found
    exact (Option.some.inj found).symm
  · intro index inside apart
    exact inv.finished index (earlier index inside apart) (by rw [pc]; exact nofun)
  · intro index inside apart
    exact inv.tokens index (earlier index inside apart) (by rw [pc]; exact nofun)

/-- `connect_and_run` returns. -/
theorem finish (inv : Lifecycle c s reasons begun) (connection : Nat) (result : Option String)
    (pc : s.pc = .running connection) :
    Lifecycle c { s with
      finished := Function.update s.finished connection true
      pc := .ended connection result } reasons begun := by
  obtain rfl : begun = true := by simpa [pc, SupervisorPc.inRound] using inv.phase
  refine ⟨fun _ _ => rfl, ?_, ?_, ?_, fun _ _ => ?_, ?_, inv.delays, ?_, ?_, ?_⟩
  · simpa [pc] using inv.sends
  · simpa [called, pc] using inv.connections
  · simpa [started] using inv.generation
  · simpa [started, pc] using inv.attempt
  · simpa [started] using inv.budget
  · intro index found
    cases found
    exact inv.current connection (by rw [pc]; rfl)
  · intro index inside _
    by_cases same : index = connection
    · subst same
      exact Function.update_self ..
    · simp only [Function.update_of_ne same]
      exact inv.finished index inside (by rw [pc]; exact fun found => same (Option.some.inj found).symm)
  · intro index inside apart
    exact inv.tokens index inside (by rw [pc]; exact apart)

/-- `connection_cancel.cancel()` -/
theorem ended (inv : Lifecycle c s reasons begun) (connection : Nat) (result : Option String)
    (pc : s.pc = .ended connection result) : Lifecycle c (s.advance c) reasons begun := by
  obtain rfl : begun = true := by simpa [pc, SupervisorPc.inRound] using inv.phase
  simp only [Supervisor.advance, pc]
  refine ⟨fun _ _ => rfl, ?_, ?_, ?_, fun _ _ => ?_, ?_, inv.delays, nofun, ?_, ?_⟩
  · simpa [pc] using inv.sends
  · simpa [called, pc] using inv.connections
  · simpa [started] using inv.generation
  · simpa [started, pc] using inv.attempt
  · simpa [started] using inv.budget
  · intro index inside _
    exact inv.finished index inside (by rw [pc]; exact nofun)
  · intro index inside _
    by_cases same : index = connection
    · subst same
      exact Function.update_self ..
    · simp only [Function.update_of_ne same]
      exact inv.tokens index inside (by rw [pc]; exact fun found => same (Option.some.inj found).symm)

/-- A round is over, and the task goes on to wait or is dead. -/
theorem disconnecting (inv : Lifecycle c s reasons begun) (reason : String)
    (pc : s.pc = .disconnecting reason) :
    Lifecycle c (s.advance c) (reasons ++ [reason]) false := by
  obtain rfl : begun = true := by simpa [pc, SupervisorPc.inRound] using inv.phase
  have attempt : s.attempt = attemptAt reasons.length := by
    simpa [pc, started, attemptAt] using inv.attempt
  have generation : s.generation = generationAt reasons.length := by
    simpa [started, generationAt] using inv.generation
  have sends := inv.sends
  have connections := inv.connections
  simp only [pc, if_true, reduceCtorEq, if_false, List.append_nil] at sends
  rcases s.publish_channel (.disconnected s.generation reason) with ⟨state, published, same⟩
  have left : (if c.delayReturns s.delays.length then SupervisorPc.waiting else .panicked) = .waiting ∨
      (if c.delayReturns s.delays.length then SupervisorPc.waiting else .panicked) = .panicked := by
    split_ifs
    · exact Or.inl rfl
    · exact Or.inr rfl
  simp only [Supervisor.advance, pc, same]
  generalize (if c.delayReturns s.delays.length then SupervisorPc.waiting else .panicked) = next at left
  have quiet : next.inRound = false ∧ next.openToken = none ∧ next ≠ .stopped ∧ next ≠ .publishing := by
    rcases left with rfl | rfl
    · exact ⟨rfl, rfl, by simp, by simp⟩
    · exact ⟨rfl, rfl, by simp, by simp⟩
  refine ⟨fun _ _ => quiet.1.symm, ?_, ?_, ?_, fun _ _ => ?_, ?_, ?_, ?_,
    fun index inside _ => inv.finished index inside (by rw [pc]; exact nofun),
    fun index inside _ => inv.tokens index inside (by rw [pc]; exact nofun)⟩
  · simp [sends, rounds_concat, round, generation, quiet.2.2.1]
  · simpa [called, pc] using connections
  · simpa [started, generationAt, quiet.2.2.2] using generation
  · simpa [started, attemptAt, quiet.2.2.2] using attempt
  · simpa [started, quiet.2.2.2] using inv.budget
  · simp [inv.delays, attempt, List.range_succ]
  · intro index found
    rw [quiet.2.1] at found
    cases found

theorem stopping (inv : Lifecycle c s reasons begun) (pc : s.pc = .stopping) :
    Lifecycle c (s.advance c) reasons begun := by
  have sends := inv.sends
  simp only [pc, reduceCtorEq, if_false, List.append_nil] at sends
  rcases s.publish_channel .stopped with ⟨state, published, same⟩
  simp only [Supervisor.advance, pc, same]
  refine ⟨fun _ never => absurd rfl never, ?_, ?_, ?_, fun _ never => absurd rfl never, ?_, inv.delays,
    nofun, fun index inside _ => inv.finished index inside (by rw [pc]; exact nofun),
    fun index inside _ => inv.tokens index inside (by rw [pc]; exact nofun)⟩
  · simp [sends]
  · simpa [called, pc] using inv.connections
  · simpa [started, pc] using inv.generation
  · simpa [started, pc] using inv.budget

theorem advance (inv : Lifecycle c s reasons begun) :
    ∃ reasons begun, Lifecycle c (s.advance c) reasons begun := by
  cases pc : s.pc with
  | entering =>
      have fresh : begun = false := by simpa [pc, SupervisorPc.inRound] using inv.phase
      simp only [Supervisor.advance, pc]
      split_ifs
      · exact ⟨reasons, begun, inv.moves .stopping (fun never => absurd rfl never) (by simp [pc])
          (by simp) ⟨by rw [pc]; rfl, rfl⟩⟩
      · exact ⟨reasons, begun, inv.moves .permitting (fun _ => fresh) (by simp [pc]) (by simp)
          ⟨by rw [pc]; rfl, rfl⟩⟩
  | permitting => exact ⟨reasons, begun, inv.permitting pc⟩
  | publishing => exact ⟨reasons, true, inv.publishing pc⟩
  | calling => exact ⟨reasons, begun, inv.calling pc⟩
  | running connection =>
      simp only [Supervisor.advance, pc]
      exact ⟨reasons, begun, inv⟩
  | ended connection result => exact ⟨reasons, begun, inv.ended connection result pc⟩
  | checking result =>
      have open_round : begun = true := by simpa [pc, SupervisorPc.inRound] using inv.phase
      simp only [Supervisor.advance, pc]
      split_ifs
      · exact ⟨reasons, begun, inv.moves .stopping (fun never => absurd rfl never) (by simp [pc])
          (by simp) ⟨by rw [pc]; rfl, rfl⟩⟩
      · exact ⟨reasons, begun, inv.moves (.disconnecting (reason result)) (fun _ => open_round)
          (by simp [pc]) (by simp) ⟨by rw [pc]; rfl, rfl⟩⟩
  | disconnecting reason => exact ⟨reasons ++ [reason], false, inv.disconnecting reason pc⟩
  | waiting =>
      simp only [Supervisor.advance, pc]
      split_ifs
      · exact ⟨reasons, begun, inv.moves .stopping (fun never => absurd rfl never) (by simp [pc])
          (by simp) ⟨by rw [pc]; rfl, rfl⟩⟩
      · exact ⟨reasons, begun, inv⟩
  | stopping => exact ⟨reasons, begun, inv.stopping pc⟩
  | stopped =>
      simp only [Supervisor.advance, pc]
      exact ⟨reasons, begun, inv⟩
  | panicked =>
      simp only [Supervisor.advance, pc]
      exact ⟨reasons, begun, inv⟩

theorem step (inv : Lifecycle c s reasons begun) (act : SupervisorAct) :
    ∃ reasons begun, Lifecycle c (s.step c act) reasons begun := by
  cases act with
  | advance => exact inv.advance
  | finish result =>
      simp only [Supervisor.step]
      split
      · next connection pc => exact ⟨reasons, begun, inv.finish connection result pc⟩
      · exact ⟨reasons, begun, inv⟩
  | elapse =>
      simp only [Supervisor.step]
      split
      · next pc =>
          have fresh : begun = false := by simpa [pc, SupervisorPc.inRound] using inv.phase
          exact ⟨reasons, begun, inv.moves .entering (fun _ => fresh) (by simp [pc]) (by simp)
            ⟨by rw [pc]; rfl, rfl⟩⟩
      · exact ⟨reasons, begun, inv⟩
  | cancel => exact ⟨reasons, begun, { inv with }⟩
  | read call =>
      simp only [Supervisor.step]
      split
      · split_ifs
        · exact ⟨reasons, begun, { inv with }⟩
        · exact ⟨reasons, begun, inv⟩
      · exact ⟨reasons, begun, inv⟩
  | send call =>
      simp only [Supervisor.step]
      split
      · split_ifs
        · rcases publish_channel { s with reports := Function.update s.reports call .returned }
            (.connected (c.generation call)) with ⟨state, published, same⟩
          rw [same]
          exact ⟨reasons, begun, { inv with }⟩
        · exact ⟨reasons, begun, { inv with }⟩
      · exact ⟨reasons, begun, inv⟩
  | unwatch => exact ⟨reasons, begun, { inv with }⟩

theorem run (acts : List SupervisorAct) :
    ∃ reasons begun, Lifecycle c (Supervisor.init.run c acts) reasons begun := by
  apply Lib.invariant_run (Supervisor.step c) fun s => ∃ reasons begun, Lifecycle c s reasons begun
  · intro s act found
    rcases found with ⟨reasons, begun, inv⟩
    exact inv.step act
  · exact ⟨[], false, init⟩

theorem called_le_started (s : Supervisor) (reasons : List String) (begun : Bool) :
    s.called reasons begun ≤ s.started reasons begun := by
  simp only [called, started]
  cases begun with
  | false =>
      simp only [Bool.false_and, Bool.false_or, Bool.false_eq_true, if_false]
      split_ifs <;> omega
  | true =>
      simp only [Bool.true_and, Bool.true_or, if_true]
      split_ifs <;> omega

theorem connections_length (inv : Lifecycle c s reasons begun) :
    s.connections.length = s.called reasons begun := by
  rw [inv.connections, List.length_map, List.length_range]

end Lifecycle

/-- What is left for a supervisor to do once it is cancelled, with the end of the connection that it
may be in. -/
def lastSteps (result : Option String) : List SupervisorAct :=
  [.advance, .advance, .advance, .finish result, .advance, .advance, .advance]

theorem stops_when_cancelled (s : Supervisor) (cancelled : s.cancelled = true) (result : Option String) :
    (s.run c (lastSteps result)).pc = .stopped ∨ (s.run c (lastSteps result)).pc = .panicked := by
  cases pc : s.pc with
  | permitting =>
      cases permitted : c.permits (saturatingAdd u32Max s.attempt) <;>
      cases watched : s.watched <;>
      simp [run, lastSteps, Supervisor.step, Supervisor.advance, publish, pc, cancelled, permitted, watched]
  | disconnecting reason =>
      cases returns : c.delayReturns s.delays.length <;>
      cases watched : s.watched <;>
      simp [run, lastSteps, Supervisor.step, Supervisor.advance, publish, pc, cancelled, returns, watched]
  | _ =>
      cases watched : s.watched <;>
      simp [run, lastSteps, Supervisor.step, Supervisor.advance, publish, pc, cancelled, watched]

/-- The task dies only of a call of `retry.delay` that does not return. -/
def Dead (c : Setting) (s : Supervisor) : Prop :=
  s.pc = .panicked → ∃ wait, s.delays.length = wait + 1 ∧ c.delayReturns wait = false

namespace Dead

theorem advance (dead : Dead c s) : Dead c (s.advance c) := by
  cases pc : s.pc with
  | disconnecting reason =>
      rcases s.publish_channel (.disconnected s.generation reason) with ⟨state, published, same⟩
      simp only [Dead, Supervisor.advance, pc, same, List.length_append, List.length_singleton]
      intro panicked
      cases returns : c.delayReturns s.delays.length with
      | false => exact ⟨s.delays.length, rfl, returns⟩
      | true => simp [returns] at panicked
  | panicked =>
      simp only [Supervisor.advance, pc]
      exact dead
  | _ =>
      simp only [Dead, Supervisor.advance, pc]
      try split_ifs
      all_goals simp [pc]

theorem step (dead : Dead c s) (act : SupervisorAct) : Dead c (s.step c act) := by
  cases act with
  | advance => exact dead.advance
  | finish result =>
      simp only [Supervisor.step]
      split
      · simp [Dead]
      · exact dead
  | elapse =>
      simp only [Supervisor.step]
      split
      · simp [Dead]
      · exact dead
  | cancel => exact dead
  | read call =>
      simp only [Supervisor.step]
      split
      · split_ifs <;> exact dead
      · exact dead
  | send call =>
      simp only [Supervisor.step]
      split
      · split_ifs
        · rcases publish_channel { s with reports := Function.update s.reports call .returned }
            (.connected (c.generation call)) with ⟨state, published, same⟩
          rw [same]
          exact dead
        · exact dead
      · exact dead
  | unwatch => exact dead

theorem run (acts : List SupervisorAct) : Dead c (Supervisor.init.run c acts) :=
  Lib.invariant_run (Supervisor.step c) (Dead c) (fun _ act dead => dead.step act) _ acts
    fun panicked => by cases panicked

end Dead

/-- Only a reporter publishes `connected`. -/
def isOwn : ConnectionState → Bool
  | .connected _ => false
  | _ => true

/-- What the channel has of the supervisor's states: all of them as long as someone watches. -/
def OwnSends (s : Supervisor) : Prop :=
  s.published.filter isOwn <+: s.sends ∧ (s.watched = true → s.published.filter isOwn = s.sends)

namespace OwnSends

theorem init : OwnSends init := ⟨List.prefix_refl _, fun _ => rfl⟩

theorem sends (own : OwnSends s) (state : ConnectionState) (mine : isOwn state = true)
    (after : t.sends = s.sends ++ [state]) (watched : t.watched = s.watched)
    (published : t.published = (s.publish state).published) : OwnSends t := by
  rw [OwnSends, after, watched, published, publish]
  split_ifs with someone
  · have all : (s.published ++ [state]).filter isOwn = s.sends ++ [state] := by
      rw [List.filter_append, own.2 someone, List.filter_cons_of_pos mine, List.filter_nil]
    exact ⟨all ▸ List.prefix_refl _, fun _ => all⟩
  · exact ⟨own.1.trans (List.prefix_append ..), fun someone' => absurd someone' someone⟩

theorem advance (own : OwnSends s) : OwnSends (s.advance c) := by
  cases pc : s.pc with
  | publishing =>
      apply own.sends (.connecting s.generation s.attempt) rfl
      · simp only [Supervisor.advance, pc]
      · simp only [Supervisor.advance, pc, publish]
        split <;> rfl
      · simp only [Supervisor.advance, pc]
  | disconnecting reason =>
      apply own.sends (.disconnected s.generation reason) rfl
      · simp only [Supervisor.advance, pc]
      · simp only [Supervisor.advance, pc, publish]
        split <;> rfl
      · simp only [Supervisor.advance, pc]
  | stopping =>
      apply own.sends .stopped rfl
      · simp only [Supervisor.advance, pc]
      · simp only [Supervisor.advance, pc, publish]
        split <;> rfl
      · simp only [Supervisor.advance, pc]
  | _ =>
      simp only [Supervisor.advance, pc]
      try split_ifs
      all_goals exact own

theorem step (own : OwnSends s) (act : SupervisorAct) : OwnSends (s.step c act) := by
  cases act with
  | advance => exact own.advance
  | finish result =>
      simp only [Supervisor.step]
      split <;> exact own
  | elapse =>
      simp only [Supervisor.step]
      split <;> exact own
  | cancel => exact own
  | read call =>
      simp only [Supervisor.step]
      split
      · split_ifs <;> exact own
      · exact own
  | send call =>
      simp only [Supervisor.step]
      split
      · split_ifs
        · rw [publish]
          split_ifs with someone
          · refine ⟨?_, ?_⟩
            · simpa [List.filter_append, isOwn] using own.1
            · simpa [List.filter_append, isOwn] using own.2
          · exact own
        · exact own
      · exact own
  | unwatch => exact ⟨own.1, nofun⟩

theorem run (acts : List SupervisorAct) : OwnSends (Supervisor.init.run c acts) :=
  Lib.invariant_run (Supervisor.step c) OwnSends (fun _ act own => own.step act) _ acts init

end OwnSends

/-- The states that the supervisor itself sends are rounds of `connecting` and `disconnected` with
the generations in order, perhaps one more `connecting`, and `stopped` when it is done; a call of
`retry.delay` that panics ends the task behind a `disconnected`, without `stopped`. The calls of
`connect_and_run` take the generations in order, one after the other and within the retry budget, no
token is left open when a generation starts or the task ends, and the task of a cancelled supervisor
does end. -/
theorem supervisor_lifecycle (c : Setting) (acts : List SupervisorAct) :
    let s := init.run c acts
    (∃ (reasons : List String) (unfinished : Bool), s.sends = rounds reasons ++
      (if unfinished then [.connecting (generationAt reasons.length) (attemptAt reasons.length)]
        else []) ++ (if s.pc = .stopped then [.stopped] else []) ∧
      (s.pc = .panicked → unfinished = false ∧
        ∃ wait, reasons.length = wait + 1 ∧ c.delayReturns wait = false)) ∧
    s.OwnSends ∧
    s.connections = (List.range s.connections.length).map generationAt ∧
    (∀ most, c.maxAttempts = some most → most < u32Max → s.connections.length ≤ most) ∧
    (s.pc = .calling → ∀ index < s.connections.length, s.finished index = true) ∧
    (s.pc = .publishing ∨ s.pc = .calling ∨ s.pc = .stopping ∨ s.pc = .stopped ∨ s.pc = .panicked →
      ∀ index < s.connections.length, s.tokenCancelled index = true) ∧
    (s.cancelled = true → ∀ result,
      (s.run c (lastSteps result)).pc = .stopped ∨ (s.run c (lastSteps result)).pc = .panicked) := by
  intro s
  obtain ⟨reasons, begun, inv⟩ := Lifecycle.run (c := c) acts
  refine ⟨⟨reasons, begun, inv.sends, ?_⟩, OwnSends.run acts, ?_, ?_, ?_, ?_, ?_⟩
  · intro panicked
    have phase : s.pc ≠ .stopping → s.pc ≠ .stopped → begun = s.pc.inRound := inv.phase
    rw [panicked] at phase
    have closed : begun = false := phase (by simp) (by simp)
    have waits : s.delays.length = reasons.length := by
      rw [inv.delays, List.length_map, List.length_range]
    rw [← waits]
    exact ⟨closed, Dead.run acts panicked⟩
  · rw [inv.connections_length]
    exact inv.connections
  · intro most given small
    rw [inv.connections_length]
    exact (Lifecycle.called_le_started _ reasons begun).trans (inv.budget most given small)
  · intro calling index inside
    exact inv.finished index inside (by rw [calling]; exact nofun)
  · intro between index inside
    have closed : s.pc.openToken = none := by
      rcases between with pc | pc | pc | pc | pc
      · rw [pc]; rfl
      · rw [pc]; rfl
      · rw [pc]; rfl
      · rw [pc]; rfl
      · rw [pc]; rfl
    rw [tokenCancelled, inv.tokens index inside (by rw [closed]; exact nofun), Bool.or_true]
  · exact fun cancelled result => stops_when_cancelled s cancelled result

/-- A connection that ends without an error, and the wait behind it. -/
def cycle : List SupervisorAct :=
  [.advance, .advance, .advance, .advance, .finish none, .advance, .advance, .advance, .elapse]

def cycles (count : Nat) : List SupervisorAct := (List.replicate count cycle).flatten

theorem run_cycle (s : Supervisor) (entering : s.pc = .entering) (open_ : s.cancelled = false) :
    (s.run unlimited cycle).pc = .entering ∧ (s.run unlimited cycle).cancelled = false ∧
      (s.run unlimited cycle).connections.length = s.connections.length + 1 := by
  cases watched : s.watched <;>
  simp [run, cycle, step, advance, publish, Setting.permits, unlimited, entering, open_, watched]

theorem run_cycles (count : Nat) :
    (init.run unlimited (cycles count)).pc = .entering ∧
      (init.run unlimited (cycles count)).cancelled = false ∧
      (init.run unlimited (cycles count)).connections.length = count := by
  induction count with
  | zero => exact ⟨rfl, rfl, rfl⟩
  | succ count ih =>
      have next : init.run unlimited (cycles (count + 1)) =
          (init.run unlimited (cycles count)).run unlimited cycle := by
        rw [cycles, List.replicate_succ', List.flatten_concat, run, Lib.runFrom_append]
        rfl
      obtain ⟨entering, open_, length⟩ := ih
      obtain ⟨again, still, longer⟩ := run_cycle _ entering open_
      rw [next]
      exact ⟨again, still, by rw [longer, length]⟩

/-- The generations stop at the largest number of 64 bits, and a policy whose delay panics leaves the task
dead behind its first `disconnected`, a cancellation or not. -/
theorem generations_end :
    (init.run unlimited (cycles (2 ^ 64))).connections.length = 2 ^ 64 ∧
      ¬ (init.run unlimited (cycles (2 ^ 64))).connections.Pairwise (· < ·) ∧
      (init.run { unlimited with delayReturns := fun _ => false } (cycle ++ [.cancel, .advance])).sends =
        [.connecting 1 1, .disconnected 1 "connection ended"] := by
  generalize large : 2 ^ 64 = count
  have length := (run_cycles count).2.2
  obtain ⟨reasons, begun, inv⟩ := Lifecycle.run (c := unlimited) (cycles count)
  have connections := inv.connections
  rw [← inv.connections_length, length] at connections
  refine ⟨length, ?_, rfl⟩
  intro rising
  rw [connections, List.pairwise_map, List.pairwise_iff_getElem] at rising
  have last := rising (count - 2) (count - 1) (by rw [List.length_range]; omega)
    (by rw [List.length_range]; omega) (by omega)
  rw [List.getElem_range, List.getElem_range, generationAt, generationAt, u64Max] at last
  omega

/-- The attempt numbers of the connections that were announced. -/
def attempts (states : List ConnectionState) : List Nat :=
  states.filterMap fun state =>
    match state with
    | .connecting _ attempt => some attempt
    | _ => none

/-- Each attempt number counts the connections since the last one that was reported connected. -/
def BudgetResets (states : List ConnectionState) : Prop :=
  ∀ front g attempt back, states = front ++ .connecting g attempt :: back →
    attempt = 1 + (attempts (front.reverse.takeWhile isOwn)).length

theorem attempts_append (front back : List ConnectionState) :
    attempts (front ++ back) = attempts front ++ attempts back :=
  List.filterMap_append

theorem attempts_own (states : List ConnectionState) : attempts (states.filter isOwn) = attempts states := by
  induction states with
  | nil => rfl
  | cons state states ih =>
      cases state with
      | connected generation => exact ih
      | connecting generation attempt => exact congrArg (attempt :: ·) ih
      | _ => exact ih

theorem attempts_rounds (reasons : List String) :
    attempts (rounds reasons) = (List.range reasons.length).map attemptAt := by
  induction reasons using List.reverseRecOn with
  | nil => rfl
  | append_singleton reasons reason ih =>
      rw [rounds_concat, attempts_append, ih, List.length_append, List.length_singleton,
        List.range_succ, List.map_append]
      rfl

theorem Lifecycle.attempts_sends (inv : Lifecycle c s reasons begun) :
    ∃ count, attempts s.sends = (List.range count).map attemptAt := by
  have last : attempts (if s.pc = .stopped then [.stopped] else []) = [] := by
    split_ifs <;> rfl
  rw [inv.sends, attempts_append, attempts_append, attempts_rounds, last, List.append_nil]
  cases begun with
  | false => exact ⟨reasons.length, by simp [attempts]⟩
  | true => exact ⟨reasons.length + 1, by simp [attempts, List.range_succ]⟩

/-- The attempt number counts all connections, reported connected or not: in what is published, for
the delay and against the retry budget. -/
theorem attempts_count_connections (c : Setting) (acts : List SupervisorAct) :
    let s := init.run c acts
    (∀ front g attempt back, s.published = front ++ .connecting g attempt :: back →
      attempt = attemptAt (attempts front).length) ∧
    s.delays = (List.range s.delays.length).map attemptAt ∧
    (∀ most, c.maxAttempts = some most → most < u32Max → s.connections.length ≤ most) := by
  intro s
  obtain ⟨reasons, begun, inv⟩ := Lifecycle.run (c := c) acts
  refine ⟨?_, ?_, ?_⟩
  · intro front g attempt back split
    obtain ⟨count, all⟩ := inv.attempts_sends
    have some_of : attempts s.published <+: (List.range count).map attemptAt := by
      rw [← all, ← attempts_own]
      exact (OwnSends.run acts).1.filterMap _
    rw [split, attempts_append] at some_of
    have here : ((List.range count).map attemptAt)[(attempts front).length]? = some attempt := by
      rcases some_of with ⟨rest, whole⟩
      rw [← whole, List.append_assoc, List.getElem?_append_right le_rfl, Nat.sub_self]
      rfl
    rw [List.getElem?_map, Option.map_eq_some_iff] at here
    rcases here with ⟨index, found, rfl⟩
    rw [List.getElem?_eq_some_iff] at found
    rcases found with ⟨inside, rfl⟩
    rw [List.getElem_range]
  · rw [inv.delays, List.length_map, List.length_range]
  · intro most given small
    rw [inv.connections_length]
    exact (Lifecycle.called_le_started _ reasons begun).trans (inv.budget most given small)

/-- The first connection is reported connected, and the second one still is attempt 2. -/
theorem attempt_after_connected :
    let s := init.run unlimited ([.advance, .advance, .advance, .advance, .read 0, .send 0,
      .finish none, .advance, .advance, .advance, .elapse, .advance, .advance, .advance])
    s.published = [.connecting 1 1, .connected 1, .disconnected 1 "connection ended",
      .connecting 2 2] ∧ ¬ BudgetResets s.published := by
  intro s
  have published : s.published = [.connecting 1 1, .connected 1,
      .disconnected 1 "connection ended", .connecting 2 2] := rfl
  refine ⟨published, ?_⟩
  intro resets
  have wrong := resets [.connecting 1 1, .connected 1, .disconnected 1 "connection ended"] 2 2 []
    published
  exact absurd wrong (by decide)

end Supervisor

end Pigs.Rpc
