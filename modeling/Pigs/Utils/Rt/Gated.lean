import Pigs.Utils.Rt.Registry

/-! Who holds the gate of the registry, in every reachable state, and what the flag says. -/

namespace Pigs.Utils.Rt

open Pigs.Lib

namespace RegisterPc

def holds : RegisterPc → Bool
  | .checking _ => true
  | .entering _ => true
  | .unlocking _ => true
  | _ => false

/-- The runtime that the call has put into the registry. -/
def accepted : RegisterPc → Option RuntimeType
  | .unlocking (.ok type) => some type
  | .returned (.ok type) => some type
  | _ => none

end RegisterPc

namespace ShutdownPc

def holds : ShutdownPc → Bool
  | .storing => true
  | .unlocking => true
  | _ => false

/-- The flag has been stored. -/
def flagged : ShutdownPc → Bool
  | .idle => false
  | .locking => false
  | .storing => false
  | _ => true

end ShutdownPc

namespace RuntimeRegistry

/-- What holds in every reachable state: who holds the gate, what the flag says, and that nothing has
been taken out of the registry before the flag. -/
structure Gated (s : RuntimeRegistry) : Prop where
  register : ∀ call, (s.registers call).holds = true → s.gate = some (.register call)
  shutdown : s.shutdown.holds = true → s.gate = some .shutdown
  flag : s.shuttingDown = s.shutdown.flagged
  entering : ∀ call type, s.registers call = .entering type → s.shuttingDown = false
  nodup : s.runtimes.Nodup
  main : s.shutdown.flagged = false → .main ∈ s.runtimes
  stopped : s.shutdown.flagged = false → s.stopped = []
  kept : ∀ call type, (s.registers call).accepted = some type → s.shutdown.flagged = false →
    type ∈ s.runtimes

theorem new_gated : Gated new where
  register _ held := by cases held
  shutdown held := by cases held
  flag := rfl
  entering _ _ inside := by cases inside
  nodup := List.nodup_singleton _
  main _ := List.mem_singleton_self _
  stopped _ := rfl
  kept _ _ accepted := by cases accepted

/-- A `register` moves on to a step without the runtime in its hands. -/
theorem Gated.setRegister {s : RuntimeRegistry} (gated : Gated s) (call : Nat) (pc : RegisterPc)
    (holds : pc.holds = true → s.gate = some (.register call))
    (entering : ∀ type, pc = .entering type → s.shuttingDown = false)
    (accepted : ∀ type, pc.accepted = some type → (s.registers call).accepted = some type ∨ type ∈ s.runtimes) :
    Gated (s.setRegister call pc) := by
  refine ⟨?_, gated.shutdown, gated.flag, ?_, gated.nodup, gated.main, gated.stopped, ?_⟩
  · intro other held
    by_cases same : other = call
    · subst same
      exact holds (by simpa [RuntimeRegistry.setRegister] using held)
    · exact gated.register other (by simpa [RuntimeRegistry.setRegister, same] using held)
  · intro other type inside
    by_cases same : other = call
    · subst same
      exact entering type (by simpa [RuntimeRegistry.setRegister] using inside)
    · exact gated.entering other type (by simpa [RuntimeRegistry.setRegister, same] using inside)
  · intro other type ok early
    by_cases same : other = call
    · subst same
      rcases accepted type (by simpa [RuntimeRegistry.setRegister] using ok) with before | there
      · exact gated.kept other type before early
      · exact there
    · exact gated.kept other type (by simpa [RuntimeRegistry.setRegister, same] using ok) early

/-- With nobody behind the gate it may be taken or left open. -/
theorem Gated.setGate {s : RuntimeRegistry} (gated : Gated s) (gate : Option RegistryHolder)
    (registers : ∀ call, (s.registers call).holds = false) (shutdown : s.shutdown.holds = false) :
    Gated { s with gate := gate } := by
  refine ⟨?_, ?_, gated.flag, gated.entering, gated.nodup, gated.main, gated.stopped, gated.kept⟩
  · intro call held
    exact absurd held (Bool.eq_false_iff.mp (registers call))
  · intro held
    exact absurd held (Bool.eq_false_iff.mp shutdown)

theorem Gated.register_free {s : RuntimeRegistry} (gated : Gated s) (call : Nat)
    (other : s.gate ≠ some (.register call)) : (s.registers call).holds = false := by
  by_contra held
  exact other (gated.register call (by simpa using held))

theorem Gated.free {s : RuntimeRegistry} (gated : Gated s) (gate : s.gate = none) (call : Nat) :
    (s.registers call).holds = false :=
  gated.register_free call (by rw [gate]; simp)

theorem Gated.shutdown_free {s : RuntimeRegistry} (gated : Gated s) (other : s.gate ≠ some .shutdown) :
    s.shutdown.holds = false := by
  by_contra held
  exact other (gated.shutdown (by simpa using held))

theorem Gated.registers_free {s : RuntimeRegistry} (gated : Gated s) (gate : s.gate = some .shutdown)
    (call : Nat) : (s.registers call).holds = false :=
  gated.register_free call (by rw [gate]; simp)

theorem Gated.advanceRegister {s : RuntimeRegistry} (gated : Gated s) (call : Nat) :
    Gated (s.advanceRegister call) := by
  unfold RuntimeRegistry.advanceRegister
  split
  case h_1 type atPc =>
    split
    case h_1 => exact gated
    case h_2 unlocked =>
      have taken := gated.setGate (some (.register call)) (gated.free unlocked)
        (gated.shutdown_free (by rw [unlocked]; simp))
      exact taken.setRegister call _ (fun _ => rfl) (fun _ inside => by cases inside)
        (fun _ ok => by cases ok)
  case h_2 type atPc =>
    have holder : s.gate = some (.register call) := gated.register call (by rw [atPc]; rfl)
    split
    case isTrue =>
      exact gated.setRegister call _ (fun _ => holder) (fun _ inside => by cases inside)
        (fun _ ok => by cases ok)
    case isFalse clear =>
      exact gated.setRegister call _ (fun _ => holder) (fun _ _ => by simpa using clear)
        (fun _ ok => by cases ok)
  case h_3 type atPc =>
    have holder : s.gate = some (.register call) := gated.register call (by rw [atPc]; rfl)
    split
    case isTrue =>
      exact gated.setRegister call _ (fun _ => holder) (fun _ inside => by cases inside)
        (fun _ ok => by cases ok)
    case isFalse absent =>
      have grown : Gated { s with runtimes := s.runtimes ++ [type] } := by
        refine ⟨gated.register, gated.shutdown, gated.flag, gated.entering, ?_, ?_, gated.stopped, ?_⟩
        · rw [List.nodup_append_comm, List.singleton_append]
          exact List.nodup_cons.mpr ⟨absent, gated.nodup⟩
        · exact fun early => List.mem_append_left _ (gated.main early)
        · exact fun other kind ok early => List.mem_append_left _ (gated.kept other kind ok early)
      refine grown.setRegister call _ (fun _ => holder) (fun _ inside => by cases inside) ?_
      intro kind ok
      cases ok
      exact Or.inr (List.mem_append_right _ (List.mem_singleton_self _))
  case h_4 result atPc =>
    have holder : s.gate = some (.register call) := gated.register call (by rw [atPc]; rfl)
    have moved : Gated (s.setRegister call (.returned result)) := by
      refine gated.setRegister call _ (fun held => by cases held) (fun _ inside => by cases inside) ?_
      intro kind ok
      rw [atPc]
      cases result with
      | ok type => exact Or.inl ok
      | error message => cases ok
    refine moved.setGate none ?_ (moved.shutdown_free (by
      rw [show (s.setRegister call (.returned result)).gate = s.gate from rfl, holder]; simp))
    intro other
    by_contra held
    have same := moved.register other (by simpa using held)
    rw [show (s.setRegister call (.returned result)).gate = s.gate from rfl, holder] at same
    cases same
    simp [RuntimeRegistry.setRegister, RegisterPc.holds] at held
  case h_5 => exact gated

/-- The shutdown moves on behind the flag. -/
theorem Gated.setShutdown {s : RuntimeRegistry} (gated : Gated s) (late : s.shutdown.flagged = true)
    (runtimes stopped : List RuntimeType) (pc : ShutdownPc) (nodup : runtimes.Nodup)
    (flagged : pc.flagged = true) (holds : pc.holds = false) :
    Gated { s with runtimes := runtimes, stopped := stopped, shutdown := pc } := by
  refine ⟨gated.register, ?_, ?_, gated.entering, nodup, ?_, ?_, ?_⟩
  · intro held
    rw [show pc.holds = true from held] at holds
    cases holds
  · rw [gated.flag, late, flagged]
  · intro early
    rw [show pc.flagged = false from early] at flagged
    cases flagged
  · intro early
    rw [show pc.flagged = false from early] at flagged
    cases flagged
  · intro _ _ _ early
    rw [show pc.flagged = false from early] at flagged
    cases flagged

theorem Gated.setLatePc {s : RuntimeRegistry} (gated : Gated s) (late : s.shutdown.flagged = true)
    (pc : ShutdownPc) (flagged : pc.flagged = true) (holds : pc.holds = false) :
    Gated { s with shutdown := pc } :=
  gated.setShutdown late s.runtimes s.stopped pc gated.nodup flagged holds

/-- The shutdown moves on without a change of the registry. -/
theorem Gated.setPc {s : RuntimeRegistry} (gated : Gated s) (pc : ShutdownPc)
    (flagged : pc.flagged = s.shutdown.flagged)
    (holds : pc.holds = true → s.gate = some .shutdown) : Gated { s with shutdown := pc } where
  register := gated.register
  shutdown := holds
  flag := gated.flag.trans flagged.symm
  entering := gated.entering
  nodup := gated.nodup
  main early := gated.main (flagged.symm.trans early)
  stopped early := gated.stopped (flagged.symm.trans early)
  kept call type ok early := gated.kept call type ok (flagged.symm.trans early)

variable {shards : Nat} (orders : List RuntimeType) (total : Duration)
  (shardOf : RuntimeType → Fin shards)

theorem Gated.visit {s : RuntimeRegistry} (gated : Gated s) (stages : Stages)
    (atPc : s.shutdown = .visiting stages) : Gated (s.visit stages) := by
  have idle := gated.setLatePc (by rw [atPc]; rfl)
  unfold RuntimeRegistry.visit
  split
  · split
    · exact idle _ rfl rfl
    · exact idle _ rfl rfl
  · split
    · exact idle _ rfl rfl
    · exact idle _ rfl rfl

theorem Gated.advanceShutdown {s : RuntimeRegistry} (gated : Gated s) :
    Gated (@advanceShutdown shards orders total s) := by
  unfold RuntimeRegistry.advanceShutdown
  split
  case h_1 atPc =>
    split
    case h_1 => exact gated
    case h_2 unlocked =>
      have taken := gated.setGate (some .shutdown) (gated.free unlocked) (by rw [atPc]; rfl)
      exact taken.setPc .storing (by rw [show _ = s.shutdown from rfl, atPc]; rfl) fun _ => rfl
  case h_2 atPc =>
    have holder : s.gate = some .shutdown := gated.shutdown (by rw [atPc]; rfl)
    refine ⟨gated.register, fun _ => holder, rfl, ?_, gated.nodup, ?_, ?_, ?_⟩
    · intro call type inside
      have held : (s.registers call).holds = true := by
        rw [show s.registers call = .entering type from inside]
        rfl
      rw [gated.registers_free holder call] at held
      cases held
    · intro early
      cases early
    · intro early
      cases early
    · intro _ _ _ early
      cases early
  case h_3 atPc =>
    have holder : s.gate = some .shutdown := gated.shutdown (by rw [atPc]; rfl)
    have moved := gated.setLatePc (by rw [atPc]; rfl) .starting rfl rfl
    exact moved.setGate none (gated.registers_free holder) rfl
  case h_4 atPc => exact gated.setLatePc (by rw [atPc]; rfl) _ rfl rfl
  case h_5 atPc =>
    split
    · exact gated
    · exact gated.setLatePc (by rw [atPc]; rfl) _ rfl rfl
  case h_6 stages atPc => exact gated.visit stages atPc
  case h_7 atPc =>
    split
    · exact gated.setShutdown (by rw [atPc]; rfl) _ s.stopped _ (gated.nodup.erase _) rfl rfl
    · exact gated.setLatePc (by rw [atPc]; rfl) _ rfl rfl
  case h_8 atPc =>
    split
    · exact gated.setShutdown (by rw [atPc]; rfl) _ s.stopped _ (gated.nodup.erase _) rfl rfl
    · exact gated.setLatePc (by rw [atPc]; rfl) _ rfl rfl
  case h_9 atPc => exact gated.setShutdown (by rw [atPc]; rfl) s.runtimes _ _ gated.nodup rfl rfl
  case h_10 => exact gated

theorem Gated.step {s : RuntimeRegistry} (gated : Gated s) (act : RegistryAct) :
    Gated (s.step orders total shardOf act) := by
  cases act with
  | register call type =>
      simp only [RuntimeRegistry.step]
      split
      · exact gated.setRegister call _ (fun held => by cases held) (fun _ inside => by cases inside)
          (fun _ ok => by cases ok)
      · exact gated
  | advanceRegister call => exact gated.advanceRegister call
  | shutdown =>
      simp only [RuntimeRegistry.step]
      split
      case h_1 atPc => exact gated.setPc .locking (by rw [atPc]; rfl) fun held => by cases held
      case h_2 => exact gated
  | advanceShutdown => exact gated.advanceShutdown orders total
  | listed keys =>
      simp only [RuntimeRegistry.step, RuntimeRegistry.listShard]
      split
      case h_1 atPc =>
        split
        · exact gated.setPc _ (by rw [atPc]; rfl) fun held => by cases held
        · exact gated
      case h_2 => exact gated
  | waited =>
      simp only [RuntimeRegistry.step]
      split
      case h_1 atPc => exact gated.setPc _ (by rw [atPc]; rfl) fun held => by cases held
      case h_2 => exact gated
  | runtimeDown report =>
      simp only [RuntimeRegistry.step]
      split
      case h_1 atPc => exact gated.setShutdown (by rw [atPc]; rfl) s.runtimes _ _ gated.nodup rfl rfl
      case h_2 => exact gated
  | mainWaited report =>
      simp only [RuntimeRegistry.step]
      split
      case h_1 atPc => exact gated.setPc _ (by rw [atPc]; rfl) fun held => by cases held
      case h_2 => exact gated
  | elapse nanos =>
      exact ⟨gated.register, gated.shutdown, gated.flag, gated.entering, gated.nodup, gated.main,
        gated.stopped, gated.kept⟩

theorem run_gated (acts : List RegistryAct) : Gated (new.run orders total shardOf acts) :=
  invariant_run (RuntimeRegistry.step orders total shardOf) Gated
    (fun _ act gated => gated.step orders total shardOf act) new acts new_gated

end RuntimeRegistry

end Pigs.Utils.Rt
