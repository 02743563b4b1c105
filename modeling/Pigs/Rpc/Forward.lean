import Pigs.Rpc.Supervisor

/-! The order of the states on the watch channel. -/

namespace Pigs.Rpc

def ConnectionState.generation? : ConnectionState → Option Nat
  | .connecting generation _ => some generation
  | .connected generation => some generation
  | .disconnected generation _ => some generation
  | _ => none

/-- Generations do not fall, `connected` does not come back after `disconnected`, and nothing
follows `stopped`. -/
structure Follows (earlier later : ConnectionState) : Prop where
  running : earlier ≠ .stopped
  rising : ∀ g h, earlier.generation? = some g → later.generation? = some h → g ≤ h
  dropped : ∀ g reason, later = .connected g → earlier ≠ .disconnected g reason

theorem isCurrent_connecting (g h attempt : Nat) :
    isCurrent g (.connecting h attempt) = true ↔ h = g := decide_eq_true_iff

theorem isCurrent_connected (g h : Nat) : isCurrent g (.connected h) = true ↔ h = g :=
  decide_eq_true_iff

theorem generation_of_isCurrent (g : Nat) (state : ConnectionState)
    (current : isCurrent g state = true) : state.generation? = some g := by
  cases state with
  | connecting h attempt =>
      rw [isCurrent_connecting] at current
      rw [current]
      rfl
  | connected h =>
      rw [isCurrent_connected] at current
      rw [current]
      rfl
  | _ => cases current

namespace Supervisor

def NeverBackwards (s : Supervisor) : Prop := s.published.Pairwise Follows

/-- A reporter that sends would still pass its check, and the generation counter is not at its
end. -/
def Unraced (c : Setting) (s : Supervisor) (act : SupervisorAct) : Prop :=
  (∀ call current, act = .send call → s.reports call = .checked current →
    isCurrent (c.generation call) current = true → s.watched = true →
      isCurrent (c.generation call) s.state = true) ∧
    (act = .advance → s.pc = .permitting → s.generation < u64Max)

structure Forward (s : Supervisor) : Prop where
  ordered : s.NeverBackwards
  bounded : ∀ state ∈ s.published, ∀ g, state.generation? = some g → g ≤ s.generation
  fresh : s.pc = .publishing → ∀ state ∈ s.published, ∀ g, state.generation? = some g →
    g < s.generation
  stopped : .stopped ∈ s.published → s.pc = .stopped
  live : ∀ g, isCurrent g s.state = true → s.state ∈ s.published ∧
    ∀ state ∈ s.published, Follows state (.connected g)

variable {c : Setting} {s t : Supervisor}

theorem pairwise_concat (states : List ConnectionState) (last : ConnectionState)
    (ordered : states.Pairwise Follows) (follows : ∀ earlier ∈ states, Follows earlier last) :
    (states ++ [last]).Pairwise Follows := by
  rw [List.pairwise_append]
  refine ⟨ordered, List.pairwise_singleton _ last, ?_⟩
  intro earlier member later single
  rw [List.mem_singleton.mp single]
  exact follows earlier member

theorem publish_eq (s : Supervisor) (state : ConnectionState) (watched : s.watched = true) :
    s.publish state = { s with state := state, published := s.published ++ [state] } := by
  rw [publish, if_pos watched]

theorem publish_unwatched (s : Supervisor) (state : ConnectionState) (unwatched : ¬ s.watched = true) :
    s.publish state = s := by
  rw [publish, if_neg unwatched]

theorem publish_generation (s : Supervisor) (state : ConnectionState) :
    (s.publish state).generation = s.generation := by
  rw [publish]
  split <;> rfl

namespace Forward

theorem init : Forward init where
  ordered := List.Pairwise.nil
  bounded := nofun
  fresh := nofun
  stopped := nofun
  live := nofun

/-- Nothing is published. -/
theorem silent (inv : Forward s) (published : t.published = s.published) (state : t.state = s.state)
    (grows : s.generation ≤ t.generation) (fresh : t.pc = .publishing → s.generation < t.generation)
    (stays : s.pc = .stopped → t.pc = .stopped) : Forward t where
  ordered := by
    rw [NeverBackwards, published]
    exact inv.ordered
  bounded := by
    rw [published]
    intro state member g own
    exact (inv.bounded state member g own).trans grows
  fresh publishing := by
    rw [published]
    intro state member g own
    exact (inv.bounded state member g own).trans_lt (fresh publishing)
  stopped := by
    rw [published]
    intro member
    exact stays (inv.stopped member)
  live := by
    rw [published, state]
    exact inv.live

/-- A state is published that follows all others. -/
theorem push (inv : Forward s) (state : ConnectionState)
    (published : t.published = s.published ++ [state]) (value : t.state = state)
    (same : t.generation = s.generation)
    (fresh : t.pc = .publishing →
      s.pc = .publishing ∧ ∀ g, state.generation? = some g → g < s.generation)
    (follows : ∀ earlier ∈ s.published, Follows earlier state)
    (bound : ∀ g, state.generation? = some g → g ≤ s.generation)
    (ends : state = .stopped → t.pc = .stopped)
    (live : ∀ g, isCurrent g state = true → ∀ earlier ∈ s.published, Follows earlier (.connected g)) :
    Forward t := by
  have closed : .stopped ∉ s.published := fun member => (follows _ member).running rfl
  constructor
  · rw [NeverBackwards, published]
    exact pairwise_concat s.published state inv.ordered follows
  · rw [published, same]
    intro other member g given
    rcases List.mem_append.mp member with old | last
    · exact inv.bounded other old g given
    · rw [List.mem_singleton.mp last] at given
      exact bound g given
  · rw [published, same]
    intro publishing other member g given
    obtain ⟨before, below⟩ := fresh publishing
    rcases List.mem_append.mp member with old | last
    · exact inv.fresh before other old g given
    · rw [List.mem_singleton.mp last] at given
      exact below g given
  · rw [published]
    intro member
    rcases List.mem_append.mp member with old | last
    · exact absurd old closed
    · exact ends (List.mem_singleton.mp last).symm
  · rw [published, value]
    intro g current
    refine ⟨List.mem_append_right _ (List.mem_singleton.mpr rfl), ?_⟩
    intro other member
    rcases List.mem_append.mp member with old | last
    · exact live g current other old
    · rw [List.mem_singleton.mp last]
      constructor
      · intro stopped
        rw [stopped] at current
        cases current
      · intro h k given connected
        rw [generation_of_isCurrent g state current] at given
        cases given
        cases connected
        exact le_rfl
      · intro h reason _ dropped
        rw [dropped] at current
        cases current

/-- The supervisor publishes a state of its own generation. -/
theorem sends (inv : Forward s) (state : ConnectionState) (running : s.pc ≠ .stopped)
    (value : ∀ g, state.generation? = some g → g = s.generation)
    (notConnected : ∀ g, state ≠ .connected g)
    (current : ∀ g, isCurrent g state = true → s.pc = .publishing ∧ g = s.generation)
    (channel : (t.published, t.state, t.generation) =
      ((s.publish state).published, (s.publish state).state, (s.publish state).generation))
    (pc : t.pc ≠ .publishing) (ends : state = .stopped → t.pc = .stopped) : Forward t := by
  simp only [Prod.mk.injEq] at channel
  obtain ⟨published, now, same⟩ := channel
  rw [publish_generation] at same
  by_cases watched : s.watched = true
  · rw [publish_eq s state watched] at published now
    have closed : .stopped ∉ s.published := fun member => running (inv.stopped member)
    apply inv.push state published now same (fun publishing => absurd publishing pc) _ _ ends
    · intro g live earlier member
      obtain ⟨publishing, rfl⟩ := current g live
      constructor
      · intro stopped
        exact closed (stopped ▸ member)
      · intro h k given connected
        cases connected
        exact (inv.fresh publishing earlier member h given).le
      · intro h reason connected dropped
        cases connected
        subst dropped
        exact absurd (inv.fresh publishing _ member _ rfl) (lt_irrefl _)
    · intro earlier member
      constructor
      · intro stopped
        exact closed (stopped ▸ member)
      · intro h k given own
        rw [value k own]
        exact inv.bounded earlier member h given
      · intro g reason connected
        exact absurd connected (notConnected g)
    · intro g given
      exact (value g given).le
  · rw [publish_unwatched s state watched] at published now
    exact inv.silent published now same.ge (fun publishing => absurd publishing pc)
      fun stopped => absurd stopped running

theorem advance (inv : Forward s) (unraced : s.Unraced c .advance) : Forward (s.advance c) := by
  cases pc : s.pc with
  | entering =>
      simp only [Supervisor.advance, pc]
      split_ifs
      · exact inv.silent rfl rfl le_rfl nofun (by rw [pc]; exact nofun)
      · exact inv.silent rfl rfl le_rfl nofun (by rw [pc]; exact nofun)
  | permitting =>
      have room := unraced.2 rfl pc
      have next : saturatingAdd u64Max s.generation = s.generation + 1 :=
        min_eq_left (Nat.succ_le_of_lt room)
      simp only [Supervisor.advance, pc]
      split_ifs
      · refine inv.silent rfl rfl ?_ ?_ (by rw [pc]; exact nofun)
        · rw [next]
          exact Nat.le_succ _
        · intro _
          rw [next]
          exact Nat.lt_succ_self _
      · exact inv.silent rfl rfl le_rfl nofun (by rw [pc]; exact nofun)
  | publishing =>
      apply inv.sends (.connecting s.generation s.attempt) (by rw [pc]; exact nofun) _ nofun _
      · simp only [Supervisor.advance, pc]
      · simp only [Supervisor.advance, pc]
        exact nofun
      · exact nofun
      · intro g own
        exact (Option.some.inj own).symm
      · intro g current
        rw [isCurrent_connecting] at current
        exact ⟨pc, current.symm⟩
  | calling =>
      simp only [Supervisor.advance, pc]
      exact inv.silent rfl rfl le_rfl nofun (by rw [pc]; exact nofun)
  | running connection =>
      simp only [Supervisor.advance, pc]
      exact inv
  | ended connection result =>
      simp only [Supervisor.advance, pc]
      exact inv.silent rfl rfl le_rfl nofun (by rw [pc]; exact nofun)
  | checking result =>
      simp only [Supervisor.advance, pc]
      split_ifs
      · exact inv.silent rfl rfl le_rfl nofun (by rw [pc]; exact nofun)
      · exact inv.silent rfl rfl le_rfl nofun (by rw [pc]; exact nofun)
  | disconnecting reason =>
      apply inv.sends (.disconnected s.generation reason) (by rw [pc]; exact nofun) _ nofun nofun
      · simp only [Supervisor.advance, pc]
      · simp only [Supervisor.advance, pc]
        split_ifs <;> exact nofun
      · exact nofun
      · intro g own
        exact (Option.some.inj own).symm
  | waiting =>
      simp only [Supervisor.advance, pc]
      split_ifs
      · exact inv.silent rfl rfl le_rfl nofun (by rw [pc]; exact nofun)
      · exact inv
  | stopping =>
      apply inv.sends .stopped (by rw [pc]; exact nofun) nofun nofun nofun
      · simp only [Supervisor.advance, pc]
      · simp only [Supervisor.advance, pc]
        exact nofun
      · intro _
        simp only [Supervisor.advance, pc]
  | stopped =>
      simp only [Supervisor.advance, pc]
      exact inv
  | panicked =>
      simp only [Supervisor.advance, pc]
      exact inv

theorem send (inv : Forward s) (call : Nat) (unraced : s.Unraced c (.send call)) :
    Forward (s.step c (.send call)) := by
  simp only [Supervisor.step]
  split
  · next current checked =>
      have returned : Forward { s with reports := Function.update s.reports call .returned } :=
        { inv with }
      split_ifs with passed
      · by_cases watched : s.watched = true
        · have still := unraced.1 call current rfl checked passed watched
          obtain ⟨inside, follows⟩ := inv.live (c.generation call) still
          have own := generation_of_isCurrent _ _ still
          rw [publish, if_pos watched]
          refine returned.push (.connected (c.generation call)) rfl rfl rfl ?_ follows ?_ nofun ?_
          · intro publishing
            refine ⟨publishing, ?_⟩
            intro g given
            cases given
            exact inv.fresh publishing s.state inside _ own
          · intro g given
            cases given
            exact inv.bounded s.state inside _ own
          · intro g connected
            rw [isCurrent_connected] at connected
            exact connected ▸ follows
        · rw [publish, if_neg watched]
          exact returned
      · exact returned
  · exact inv

theorem step (inv : Forward s) (act : SupervisorAct) (unraced : s.Unraced c act) :
    Forward (s.step c act) := by
  cases act with
  | advance => exact inv.advance unraced
  | finish result =>
      simp only [Supervisor.step]
      split
      · next connection pc => exact inv.silent rfl rfl le_rfl nofun (by rw [pc]; exact nofun)
      · exact inv
  | elapse =>
      simp only [Supervisor.step]
      split
      · next pc => exact inv.silent rfl rfl le_rfl nofun (by rw [pc]; exact nofun)
      · exact inv
  | cancel => exact { inv with }
  | read call =>
      simp only [Supervisor.step]
      split
      · split_ifs
        · exact { inv with }
        · exact inv
      · exact inv
  | send call => exact inv.send call unraced
  | unwatch => exact { inv with }

theorem run (inv : Forward s) (acts : List SupervisorAct)
    (unraced : Lib.Along (Supervisor.step c) (Unraced c) s acts) : Forward (s.run c acts) :=
  Lib.invariant_along (Supervisor.step c) Forward
    (fun _ act allowed inner => inner.step act allowed) s acts unraced inv

end Forward

/-- In every run whose reporters send only what they would still send now, before the generations
run out, the published states never go backwards. -/
theorem published_never_backwards (c : Setting) (acts : List SupervisorAct)
    (unraced : Lib.Along (step c) (Unraced c) init acts) : (init.run c acts).NeverBackwards :=
  (Forward.init.run acts unraced).ordered

/-- A connection is reported, lost and taken up again. -/
theorem published_never_backwards_reconnecting :
    let acts : List SupervisorAct := [.advance, .advance, .advance, .advance, .read 0, .send 0,
      .finish none, .advance, .advance, .advance, .elapse, .advance, .advance, .advance]
    let s := init.run unlimited acts
    s.published = [.connecting 1 1, .connected 1, .disconnected 1 "connection ended",
      .connecting 2 2] ∧ s.NeverBackwards := by
  intro acts s
  refine ⟨rfl, published_never_backwards unlimited acts ?_⟩
  refine ⟨⟨nofun, nofun⟩, ⟨nofun, fun _ _ => by decide⟩, ⟨nofun, nofun⟩, ⟨nofun, nofun⟩,
    ⟨nofun, nofun⟩, ⟨?_, nofun⟩, ⟨nofun, nofun⟩, ⟨nofun, nofun⟩, ⟨nofun, nofun⟩, ⟨nofun, nofun⟩,
    ⟨nofun, nofun⟩, ⟨nofun, nofun⟩, ⟨nofun, fun _ _ => by decide⟩, ⟨nofun, nofun⟩, trivial⟩
  intro call current same _ _ _
  cases same
  rfl

/-- A reporter reads the state, the connection ends, and the reporter sends. -/
theorem connected_after_disconnected :
    let s := init.run unlimited [.advance, .advance, .advance, .advance, .read 0, .finish none,
      .advance, .advance, .advance, .send 0]
    s.published = [.connecting 1 1, .disconnected 1 "connection ended", .connected 1] ∧
      ¬ s.NeverBackwards := by
  intro s
  have published : s.published =
      [.connecting 1 1, .disconnected 1 "connection ended", .connected 1] := rfl
  refine ⟨published, ?_⟩
  intro ordered
  rw [NeverBackwards, published] at ordered
  have follows : Follows (.disconnected 1 "connection ended") (.connected 1) :=
    List.rel_of_pairwise_cons (List.Pairwise.of_cons ordered) (List.mem_singleton.mpr rfl)
  exact follows.dropped 1 "connection ended" rfl rfl

end Supervisor

end Pigs.Rpc
