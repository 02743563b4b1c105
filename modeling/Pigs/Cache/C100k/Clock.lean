import Pigs.Cache.C100k.Expiry

/-! Expiry against the clock. A shard counts its own ticks, and `MAX_CATCHUP` lets that count
fall behind the clock after a stall; a time to live counted from a tick that is behind ends
early on the clock. -/

namespace Pigs.Cache.C100k

variable {K : Type} {cap : Nat}

/-- The expected ticks computed by the wake-ups of a run, in order. -/
def readings (ops : List (Op K)) : List Nat :=
  ops.filterMap fun op =>
    match op with
    | .onTick elapsed => some (elapsed / TICK_MS)
    | .handle _ => none

/-- The expected tick of the last wake-up; zero before the first one. -/
def expectedTick (ops : List (Op K)) : Nat := (readings ops).getLast?.getD 0

def Nondecreasing (ops : List (Op K)) : Prop := (readings ops).Pairwise (· ≤ ·)

theorem expectedTick_onTick (ops : List (Op K)) (elapsed : Nat) :
    expectedTick (ops ++ [.onTick elapsed]) = elapsed / TICK_MS := by
  simp [expectedTick, readings]

theorem expectedTick_handle (ops : List (Op K)) (cmd : Command K) :
    expectedTick (ops ++ [.handle cmd]) = expectedTick ops := by
  simp [expectedTick, readings]

theorem Nondecreasing.expectedTick_le {ops : List (Op K)} {elapsed : Nat}
    (mono : Nondecreasing (ops ++ [.onTick elapsed])) : expectedTick ops ≤ elapsed / TICK_MS := by
  simp only [Nondecreasing, readings, List.filterMap_append] at mono
  cases last : (readings ops).getLast? with
  | none => simp [expectedTick, last]
  | some r =>
      have member : r ∈ readings ops := List.mem_of_getLast? last
      have bound := (List.pairwise_append.mp mono).2.2 r member (elapsed / TICK_MS) (by simp)
      simpa [expectedTick, last] using bound

theorem nondecreasing_replicate (pre : List (Op K)) (cmd : Command K) (n elapsed : Nat)
    (mono : Nondecreasing pre) (ahead : expectedTick pre ≤ elapsed / TICK_MS)
    (largest : ∀ r ∈ readings pre, r ≤ expectedTick pre) :
    Nondecreasing (pre ++ .handle cmd :: List.replicate n (.onTick elapsed)) := by
  have split : readings (pre ++ Op.handle cmd :: List.replicate n (Op.onTick elapsed)) =
      readings pre ++ List.replicate n (elapsed / TICK_MS) := by
    simp [readings]
  rw [Nondecreasing, split]
  refine List.pairwise_append.mpr ⟨mono, ?_, ?_⟩
  · simp [List.pairwise_replicate]
  · intro r member x last
    rw [List.eq_of_mem_replicate last]
    exact (largest r member).trans ahead

theorem Nondecreasing.le_expectedTick {ops : List (Op K)} (mono : Nondecreasing ops) :
    ∀ r ∈ readings ops, r ≤ expectedTick ops := by
  intro r member
  rw [Nondecreasing] at mono
  rw [expectedTick]
  generalize readings ops = values at mono member ⊢
  induction values using List.reverseRecOn with
  | nil => cases member
  | append_singleton front last _ =>
      rcases List.mem_append.mp member with inner | own
      · simpa using (List.pairwise_append.mp mono).2.2 r inner last (by simp)
      · simpa using Nat.le_of_eq (List.mem_singleton.mp own)

/-- A command that sets the expiry tick of `key`. -/
def Op.Rearms (key : K) : Op K → Prop
  | .handle (.insert k _) => k = key
  | .handle (.refresh k) => k = key
  | _ => False

namespace Shard

variable [DecidableEq K] (hash : K → UInt64)

/-- `cmd` gives `key` a time to live of `ttl` ticks from now on. -/
def Arms (s : Shard K cap) (cmd : Command K) (key : K) (ttl : Nat) : Prop :=
  cmd = .insert key ttl ∨
    (cmd = .refresh key ∧ ∃ p, s.period hash key = some p ∧ p.ttl = ttl)

/-- The events pushed by one wake-up. -/
def reported (s : Shard K cap) (elapsed : Nat) : List (CacheEvent K) :=
  (s.onTick elapsed).pushed.drop s.pushed.length

end Shard

/-! What is observed of a wake-up. -/

theorem mem_observeTurns_tick (s : Shard K cap) (turns : Nat) (event : CacheEvent K) (tick : Nat)
    (member : .expired event tick ∈ s.observeTurns turns) : tick ≤ s.tick + turns := by
  induction turns generalizing s with
  | zero => cases member
  | succ turns ih =>
      rcases List.mem_append.mp member with now | later
      · simp only [Shard.observeTurn, List.mem_map, Obs.expired.injEq, Shard.tickOnce_tick] at now
        rcases now with ⟨_, _, _, rfl⟩
        omega
      · have bound := ih s.tickOnce later
        rw [Shard.tickOnce_tick] at bound
        omega

theorem observeTurns_expired (s : Shard K cap) (turns : Nat) (o : Obs K)
    (member : o ∈ s.observeTurns turns) : ∃ event tick, o = .expired event tick := by
  induction turns generalizing s with
  | zero => cases member
  | succ turns ih =>
      rcases List.mem_append.mp member with now | later
      · simp only [Shard.observeTurn, List.mem_map] at now
        rcases now with ⟨event, _, rfl⟩
        exact ⟨event, _, rfl⟩
      · exact ih s.tickOnce later

variable [DecidableEq K]

/-- No wake-up of the run reports a key before the clock has passed the time to live that the
key's last insert or refresh asked for. -/
def NeverEarly (hash : K → UInt64) (cap : Nat) (ops : List (Op K)) : Prop :=
  ∀ pre cmd mid elapsed post,
    ops = pre ++ .handle cmd :: (mid ++ .onTick elapsed :: post) →
    ∀ key ttl, ((Shard.new K cap).run hash pre).Arms hash cmd key ttl →
      (∀ op ∈ mid, ¬ op.Rearms key) →
      elapsed / TICK_MS < expectedTick pre + ttl →
      ∀ event ∈ ((Shard.new K cap).run hash (pre ++ .handle cmd :: mid)).reported elapsed,
        event.key ≠ key

/-- Every insert of the run that stores its key and every refresh of a live key is handled while the
shard's tick is the clock's. -/
def CaughtUp (hash : K → UInt64) (cap : Nat) (ops : List (Op K)) : Prop :=
  ∀ pre cmd post, ops = pre ++ .handle cmd :: post →
    ∀ key ttl, ((Shard.new K cap).run hash pre).Arms hash cmd key ttl →
      ((Shard.new K cap).run hash (pre ++ [.handle cmd])).period hash key ≠ none →
      ((Shard.new K cap).run hash pre).tick = expectedTick pre

/-- A wake-up never runs past the clock. -/
theorem mem_observe_tick (hash : K → UInt64) (s : Shard K cap) (elapsed : Nat)
    (event : CacheEvent K) (tick : Nat)
    (member : .expired event tick ∈ s.observe hash (.onTick elapsed)) :
    tick ≤ elapsed / TICK_MS := by
  simp only [Shard.observe] at member
  have bound := mem_observeTurns_tick s _ event tick member
  by_cases still : min (elapsed / TICK_MS) (s.tick + MAX_CATCHUP) ≤ s.tick
  · rw [Nat.sub_eq_zero_of_le still] at member
    cases member
  · omega

theorem Good.mem_reported_iff {hash : K → UInt64} {s : Shard K cap} (good : Good hash s)
    (elapsed : Nat) (event : CacheEvent K) :
    event ∈ s.reported elapsed ↔ ∃ tick, .expired event tick ∈ s.observe hash (.onTick elapsed) := by
  rw [Shard.reported, (good.onTick_refines elapsed).pushed, List.drop_left, List.mem_filterMap]
  constructor
  · intro found
    rcases found with ⟨o, observed, own⟩
    cases o with
    | expired ev tick =>
        simp only [Obs.event, Option.some.injEq] at own
        subst own
        exact ⟨tick, observed⟩
    | inserted key ttl tick => simp [Obs.event] at own
    | refreshed key tick => simp [Obs.event] at own
    | deleted key => simp [Obs.event] at own
  · intro found
    rcases found with ⟨tick, observed⟩
    exact ⟨.expired event tick, observed, rfl⟩

/-- Observations that neither insert nor refresh a key leave its period or end it. -/
theorem livePeriods_keep_or_end (live : K → Option Period) (key : K) (obs : List (Obs K))
    (quiet : ∀ o ∈ obs, o.refreshTick key = none ∧ ∀ ttl tick, o ≠ .inserted key ttl tick) :
    livePeriods live obs key = live key ∨ livePeriods live obs key = none := by
  induction obs using List.reverseRecOn with
  | nil => exact Or.inl rfl
  | append_singleton obs o ih =>
      have earlier := ih fun x member => quiet x (List.mem_append_left _ member)
      rcases quiet o (by simp) with ⟨notRefresh, notInsert⟩
      rw [livePeriods_concat]
      by_cases ended : o.Ends key
      · rcases Obs.apply_of_ends (livePeriods live obs) key o ended with ⟨ttl, tick, rfl⟩ | gone
        · exact absurd rfl (notInsert ttl tick)
        · exact Or.inr gone
      · rw [Obs.apply_of_not_ends _ key o ended, notRefresh]
        exact earlier

/-- An operation that does not rearm a key is not observed to insert or refresh it. -/
theorem observe_quiet (hash : K → UInt64) (s : Shard K cap) (op : Op K) (key : K)
    (other : ¬ op.Rearms key) :
    ∀ o ∈ s.observe hash op, o.refreshTick key = none ∧ ∀ ttl tick, o ≠ .inserted key ttl tick := by
  intro o member
  cases op with
  | handle cmd =>
      cases cmd with
      | insert k ttl =>
          simp only [Shard.observe] at member
          split_ifs at member
          · rw [List.mem_singleton] at member
            subst member
            refine ⟨rfl, ?_⟩
            intro ttl' tick eq
            cases eq
            exact other rfl
          · cases member
      | refresh k =>
          simp only [Shard.observe] at member
          split_ifs at member
          · rw [List.mem_singleton] at member
            subst member
            have ne : k ≠ key := other
            exact ⟨by simp [Obs.refreshTick, ne], by simp⟩
          · cases member
      | delete k =>
          simp only [Shard.observe] at member
          split_ifs at member
          · rw [List.mem_singleton] at member
            subst member
            exact ⟨rfl, by simp⟩
          · cases member
  | onTick elapsed =>
      obtain ⟨event, tick, rfl⟩ := observeTurns_expired s _ o member
      exact ⟨rfl, by simp⟩

/-- The expiry tick of `key`, if it is live at all. -/
def ExpiresAt (hash : K → UInt64) (s : Shard K cap) (key : K) (expire : Nat) : Prop :=
  ∀ p, s.period hash key = some p → p.expire = expire

theorem ExpiresAt.step {hash : K → UInt64} {s : Shard K cap} {key : K} {expire : Nat}
    (at_ : ExpiresAt hash s key expire) (good : Good hash s) (op : Op K)
    (other : ¬ op.Rearms key) : ExpiresAt hash (s.step hash op) key expire := by
  intro p live
  rw [← (good.step_refines op).periods] at live
  rcases livePeriods_keep_or_end (s.period hash) key _ (observe_quiet hash s op key other) with
    kept | gone
  · exact at_ p (kept ▸ live)
  · rw [gone] at live
    cases live

theorem ExpiresAt.run {hash : K → UInt64} {s : Shard K cap} {key : K} {expire : Nat}
    (at_ : ExpiresAt hash s key expire) (good : Good hash s) (ops : List (Op K))
    (positive : PositiveTtl ops) (other : ∀ op ∈ ops, ¬ op.Rearms key) :
    ExpiresAt hash (s.run hash ops) key expire := by
  induction ops generalizing s with
  | nil => exact at_
  | cons op ops ih =>
      have first : PositiveTtl [op] := by
        intro k ttl member
        exact positive k ttl (List.mem_singleton.mp member ▸ List.mem_cons_self)
      exact ih (at_.step good op (other op List.mem_cons_self)) (good.step op first)
        (fun k ttl member => positive k ttl (List.mem_cons_of_mem op member))
        (fun o member => other o (List.mem_cons_of_mem op member))

/-- The arming command sets the expiry tick from the shard's own tick. -/
theorem ExpiresAt.of_arms {hash : K → UInt64} {s : Shard K cap} (good : Good hash s)
    (cmd : Command K) (key : K) (ttl : Nat) (arms : s.Arms hash cmd key ttl) :
    ExpiresAt hash (s.step hash (.handle cmd)) key (s.tick + ttl) := by
  intro p live
  rw [← (good.step_refines (.handle cmd)).periods] at live
  rcases arms with rfl | ⟨rfl, old, before, rfl⟩
  · simp only [Shard.observe] at live
    split_ifs at live with stored
    · simp only [livePeriods, List.foldl_cons, List.foldl_nil, Obs.apply, Function.update_self,
        Option.some.injEq] at live
      rw [← live]
    · have after := (good.insert_refines key ttl).periods
      simp only [Shard.observe, if_neg stored] at after
      have missing : (s.insert hash key ttl).period hash key = none := by
        simpa [Shard.period] using stored
      rw [after, missing] at live
      cases live
  · simp only [Shard.observe] at live
    split_ifs at live with found
    · simp only [livePeriods, List.foldl_cons, List.foldl_nil, Obs.apply, Function.update_self,
        before, Option.map_some, Option.some.injEq] at live
      rw [← live]
    · simp only [Shard.period] at before
      simp only [Bool.not_eq_true, Option.isSome_eq_false_iff, Option.isNone_iff_eq_none] at found
      rw [found] at before
      cases before

/-- A wake-up that the clock does not carry to the expiry tick of a key does not report it. -/
theorem Good.not_reported {hash : K → UInt64} {s : Shard K cap} (good : Good hash s) (key : K)
    (expire elapsed : Nat) (at_ : ExpiresAt hash s key expire)
    (early : elapsed / TICK_MS < expire) (event : CacheEvent K)
    (member : event ∈ s.reported elapsed) : event.key ≠ key := by
  intro equal
  subst equal
  rcases (good.mem_reported_iff elapsed event).mp member with ⟨tick, observed⟩
  have bound := mem_observe_tick hash s elapsed event tick observed
  rcases List.append_of_mem observed with ⟨front, back, split⟩
  have legal := (good.onTick_refines elapsed).legal
  have quiet := observe_quiet hash s (.onTick elapsed) event.key id
  rw [split] at legal quiet
  rcases legal.legal_at with ⟨p, live, _, timing⟩
  rcases livePeriods_keep_or_end (s.period hash) event.key front
      (fun o inFront => quiet o (List.mem_append_left _ inFront)) with kept | gone
  · have same := at_ p (kept ▸ live)
    omega
  · rw [gone] at live
    cases live

/-- A key armed while the shard's tick is the clock's, if it is stored at all, is never reported early. -/
theorem not_early_of_caught_up (hash : K → UInt64) (bound : cap < 2 ^ 32) (pre mid : List (Op K))
    (cmd : Command K) (positive : PositiveTtl (pre ++ .handle cmd :: mid)) (key : K) (ttl : Nat)
    (arms : ((Shard.new K cap).run hash pre).Arms hash cmd key ttl)
    (other : ∀ op ∈ mid, ¬ op.Rearms key)
    (caught : ((Shard.new K cap).run hash (pre ++ [.handle cmd])).period hash key ≠ none →
      ((Shard.new K cap).run hash pre).tick = expectedTick pre) (elapsed : Nat)
    (early : elapsed / TICK_MS < expectedTick pre + ttl) (event : CacheEvent K)
    (member : event ∈ ((Shard.new K cap).run hash (pre ++ .handle cmd :: mid)).reported elapsed) :
    event.key ≠ key := by
  have positivePre : PositiveTtl pre := fun k t inPre =>
    positive k t (List.mem_append_left _ inPre)
  have positiveCmd : PositiveTtl [Op.handle cmd] := by
    intro k t inCmd
    rw [List.mem_singleton] at inCmd
    exact positive k t (List.mem_append_right _ (inCmd ▸ List.mem_cons_self))
  have positiveMid : PositiveTtl mid := fun k t inMid =>
    positive k t (List.mem_append_right _ (List.mem_cons_of_mem _ inMid))
  have goodPre := (Good.reachable hash bound pre positivePre).1
  have goodCmd := goodPre.step (.handle cmd) positiveCmd
  have armed : ExpiresAt hash (((Shard.new K cap).run hash pre).step hash (.handle cmd)) key
      (expectedTick pre + ttl) := by
    intro p live
    have stored : ((Shard.new K cap).run hash (pre ++ [.handle cmd])).period hash key = some p := by
      rw [Shard.run_append]
      exact live
    have own := ExpiresAt.of_arms goodPre cmd key ttl arms p live
    rw [own, caught (by rw [stored]; exact Option.some_ne_none p)]
  have kept := armed.run goodCmd mid positiveMid other
  have good := (goodCmd.run_refines mid positiveMid).1
  rw [Shard.run_append] at member
  exact good.not_reported key _ elapsed kept early event member

/-! The other direction: armed behind the clock, reported early. -/

theorem livePeriods_keep (live : K → Option Period) (key : K) (obs : List (Obs K))
    (quiet : ∀ o ∈ obs, o.refreshTick key = none ∧ ¬ o.Ends key) :
    livePeriods live obs key = live key := by
  induction obs using List.reverseRecOn with
  | nil => rfl
  | append_singleton obs o ih =>
      rcases quiet o (by simp) with ⟨notRefresh, running⟩
      rw [livePeriods_concat, Obs.apply_of_not_ends _ key o running, notRefresh]
      exact ih fun x member => quiet x (List.mem_append_left _ member)

/-- A key that a wake-up does not report stays live as it was. -/
theorem Good.period_of_not_reported {hash : K → UInt64} {s : Shard K cap} (good : Good hash s)
    (key : K) (elapsed : Nat) (silent : ∀ event ∈ s.reported elapsed, event.key ≠ key) :
    (s.onTick elapsed).period hash key = s.period hash key := by
  rw [← (good.onTick_refines elapsed).periods]
  apply livePeriods_keep
  intro o member
  obtain ⟨event, tick, rfl⟩ := observeTurns_expired s _ o member
  exact ⟨rfl, silent event ((good.mem_reported_iff elapsed event).mpr ⟨tick, member⟩)⟩

/-- A wake-up that takes the shard to the expiry tick of a live key reports the key, unless
that tick is a multiple of 512. -/
theorem Good.reported_of_due {hash : K → UInt64} {s : Shard K cap} (good : Good hash s) (key : K)
    (p : Period) (live : s.period hash key = some p) (elapsed : Nat)
    (due : p.expire ≤ (s.onTick elapsed).tick) (unaligned : ¬ WHEEL_L1 ∣ p.expire) :
    ∃ event ∈ s.reported elapsed, event.key = key := by
  by_contra none
  have silent : ∀ event ∈ s.reported elapsed, event.key ≠ key :=
    fun event member same => none ⟨event, member, same⟩
  rw [← good.period_of_not_reported key elapsed silent] at live
  rcases (good.onTick elapsed).period_timely key p live with later | ⟨_, aligned⟩
  · omega
  · exact unaligned aligned

theorem run_replicate_tick (hash : K → UInt64) (s : Shard K cap) (elapsed n : Nat) :
    min (elapsed / TICK_MS) (s.tick + n) ≤ (s.run hash (List.replicate n (.onTick elapsed))).tick := by
  induction n generalizing s with
  | zero => exact (Nat.min_le_right _ _).trans (Nat.le_of_eq (Nat.add_zero _))
  | succ n ih =>
      have rest := ih (s.onTick elapsed)
      have first := Shard.onTick_tick s elapsed
      change _ ≤ ((s.onTick elapsed).run hash (List.replicate n (.onTick elapsed))).tick
      simp only [MAX_CATCHUP] at first
      omega

/-- Wake-ups that all read the same clock value report a live key as soon as the shard has
worked its way up to the key's expiry tick. -/
theorem Good.exists_reported {hash : K → UInt64} {s : Shard K cap} (good : Good hash s) (key : K)
    (p : Period) (live : s.period hash key = some p) (elapsed : Nat)
    (reached : p.expire ≤ elapsed / TICK_MS) (unaligned : ¬ WHEEL_L1 ∣ p.expire) :
    ∃ n, ∃ event ∈ (s.run hash (List.replicate n (.onTick elapsed))).reported elapsed,
      event.key = key := by
  by_contra none
  have kept : ∀ n, Good hash (s.run hash (List.replicate n (.onTick elapsed))) ∧
      (s.run hash (List.replicate n (.onTick elapsed))).period hash key = some p := by
    intro n
    induction n with
    | zero => exact ⟨good, live⟩
    | succ n ih =>
        have last : s.run hash (List.replicate (n + 1) (.onTick elapsed)) =
            (s.run hash (List.replicate n (.onTick elapsed))).onTick elapsed := by
          rw [List.replicate_succ', Shard.run_append]
          rfl
        rw [last]
        refine ⟨ih.1.onTick elapsed, ?_⟩
        rw [ih.1.period_of_not_reported key elapsed, ih.2]
        intro event member same
        exact none ⟨n, event, member, same⟩
  rcases kept (elapsed / TICK_MS) with ⟨goodLate, liveLate⟩
  have tick := run_replicate_tick hash s elapsed (elapsed / TICK_MS)
  rcases goodLate.period_timely key p liveLate with later | ⟨_, aligned⟩
  · omega
  · exact unaligned aligned

theorem Good.handle_tick {hash : K → UInt64} {s : Shard K cap} (good : Good hash s)
    (cmd : Command K) : (s.handle hash cmd).tick = s.tick := by
  have deleted : ∀ key, (s.delete hash key).tick = s.tick := by
    intro key
    cases found : s.findEntry key (hash key) with
    | none => rw [Shard.delete_of_none hash s key found]
    | some idx => rw [good.slab.delete_found key idx found, Shard.release_tick]
  cases cmd with
  | insert key ttl =>
      change (s.insert hash key ttl).tick = s.tick
      rw [Shard.insert_eq]
      split_ifs
      · simpa using deleted key
      · exact deleted key
  | refresh key =>
      change (s.refresh hash key).tick = s.tick
      rw [Shard.refresh_eq]
      split <;> simp
  | delete key => exact deleted key

/-- The shard never runs ahead of the clock. -/
theorem tick_le_expectedTick (hash : K → UInt64) (bound : cap < 2 ^ 32) (ops : List (Op K))
    (positive : PositiveTtl ops) (mono : Nondecreasing ops) :
    ((Shard.new K cap).run hash ops).tick ≤ expectedTick ops := by
  induction ops using List.reverseRecOn with
  | nil => exact Nat.le_refl 0
  | append_singleton ops op ih =>
      have positiveOps : PositiveTtl ops := fun k t member =>
        positive k t (List.mem_append_left _ member)
      have monoOps : Nondecreasing ops := by
        simp only [Nondecreasing, readings, List.filterMap_append] at mono
        exact (List.pairwise_append.mp mono).1
      have before := ih positiveOps monoOps
      have good := (Good.reachable hash bound ops positiveOps).1
      rw [Shard.run_append]
      cases op with
      | handle cmd =>
          rw [expectedTick_handle]
          exact (good.handle_tick cmd).trans_le before
      | onTick elapsed =>
          rw [expectedTick_onTick]
          change (((Shard.new K cap).run hash ops).onTick elapsed).tick ≤ _
          have ahead := mono.expectedTick_le
          rw [Shard.onTick_tick]
          omega

/-- A run whose inserts and refreshes, where they take effect, are all handled with the shard at the
clock's tick never reports a key early. Where one is handled behind the clock, waking up on a clock one tick
short of the time to live reports the key; the only exception is an expiry tick that is a
multiple of 512, which the wheel may serve a tick late. -/
theorem never_early_when_caught_up (hash : K → UInt64) (cap : Nat) (bound : cap < 2 ^ 32) :
    (∀ ops, PositiveTtl ops → CaughtUp hash cap ops → NeverEarly hash cap ops) ∧
    (∀ pre cmd key ttl, PositiveTtl (pre ++ [.handle cmd]) → Nondecreasing pre →
      ((Shard.new K cap).run hash pre).Arms hash cmd key ttl →
      ((Shard.new K cap).run hash (pre ++ [.handle cmd])).period hash key ≠ none →
      ¬ WHEEL_L1 ∣ ((Shard.new K cap).run hash pre).tick + ttl →
      ((Shard.new K cap).run hash pre).tick ≠ expectedTick pre →
      ∃ later, Nondecreasing (pre ++ .handle cmd :: later) ∧
        PositiveTtl (pre ++ .handle cmd :: later) ∧
        ¬ NeverEarly hash cap (pre ++ .handle cmd :: later)) := by
  constructor
  · intro ops positive caught pre cmd mid elapsed post split key ttl arms other early
    have regroup : ops = (pre ++ Op.handle cmd :: mid) ++ Op.onTick elapsed :: post := by simp [split]
    have positiveFront : PositiveTtl (pre ++ Op.handle cmd :: mid) := by
      intro k t member
      exact positive k t (regroup ▸ List.mem_append_left _ member)
    exact not_early_of_caught_up hash bound pre mid cmd positiveFront key ttl arms other
      (caught pre cmd _ split key ttl arms) elapsed early
  · intro pre cmd key ttl positive mono arms stored unaligned behind
    have positivePre : PositiveTtl pre := fun k t member =>
      positive k t (List.mem_append_left _ member)
    have goodPre := (Good.reachable hash bound pre positivePre).1
    have good := (Good.reachable hash bound _ positive).1
    have notAhead := tick_le_expectedTick hash bound pre positivePre mono
    have ttlPositive : 1 ≤ ttl := by
      rcases arms with rfl | ⟨rfl, p, live, rfl⟩
      · exact positive key ttl (by simp)
      · rcases (goodPre.slab.period_eq_some_iff key p).mp live with ⟨idx, used, _, rfl⟩
        exact goodPre.ttl idx used
    rcases Option.ne_none_iff_exists'.mp stored with ⟨p, live⟩
    have armed := ExpiresAt.of_arms goodPre cmd key ttl arms
    have expire : p.expire = ((Shard.new K cap).run hash pre).tick + ttl :=
      armed p (by rw [← live, Shard.run_append]; rfl)
    set elapsed := (expectedTick pre + ttl - 1) * TICK_MS with elapsedEq
    have clock : elapsed / TICK_MS = expectedTick pre + ttl - 1 :=
      Nat.mul_div_cancel _ (by decide)
    obtain ⟨n, event, member, same⟩ := good.exists_reported key p live elapsed
      (by rw [clock, expire]; omega) (by rwa [expire])
    refine ⟨List.replicate (n + 1) (.onTick elapsed),
      nondecreasing_replicate pre cmd (n + 1) elapsed mono (by omega) mono.le_expectedTick,
      ?_, ?_⟩
    · intro k t inside
      rcases List.mem_append.mp inside with front | back
      · exact positivePre k t front
      · rcases List.mem_cons.mp back with head | tail
        · exact positive k t (head ▸ by simp)
        · cases List.eq_of_mem_replicate tail
    · intro never
      refine never pre cmd (List.replicate n (.onTick elapsed)) elapsed []
        (by rw [List.replicate_succ']) key ttl arms ?_ (by omega) event ?_ same
      · intro op inside
        rw [List.eq_of_mem_replicate inside]
        exact id
      · have regroup : pre ++ Op.handle cmd :: List.replicate n (Op.onTick elapsed) =
            (pre ++ [Op.handle cmd]) ++ List.replicate n (Op.onTick elapsed) := by simp
        rw [regroup, Shard.run_append]
        exact member

/-- A key stored for two ticks at tick 1 is not reported at tick 2, where the shard wakes up before its
time, and is at tick 3. -/
theorem never_early_when_caught_up_woken :
    let s := (Shard.new Nat 1).run (fun _ => 0) [.onTick 200, .handle (.insert 7 2)]
    NeverEarly (fun _ => 0) 1 [.onTick 200, .handle (.insert 7 2), .onTick 400, .onTick 600] ∧
      (∀ event ∈ s.reported 400, event.key ≠ 7) ∧
        (s.onTick 400).reported 600 = [⟨7, 0, 1⟩] := by
  intro s
  have never : NeverEarly (fun _ => 0) 1
      [.onTick 200, .handle (.insert 7 2), .onTick 400, .onTick 600] := by
    refine (never_early_when_caught_up (fun _ => 0) 1 (by decide)).1 _ (by simp [PositiveTtl]) ?_
    intro pre cmd post split key ttl _ _
    cases pre with
    | nil => simp at split
    | cons first rest =>
        obtain ⟨woken, behind⟩ := List.cons.inj split
        cases rest with
        | nil =>
            rw [← woken]
            rfl
        | cons second rest =>
            have later : .handle cmd ∈ [Op.onTick 400, Op.onTick 600] := by
              rw [(List.cons.inj behind).2]
              simp
            simp at later
  refine ⟨never, ?_, by decide⟩
  exact never [.onTick 200] (.insert 7 2) [] 400 [.onTick 600] rfl 7 2 (Or.inl rfl) (by simp) (by decide)

/-- The clock reads 1025 ticks after a stall, but the first wake-up stops at tick 1024. A key
stored then for one tick expires at tick 1025, which the next wake-up reaches without any
time having passed. -/
theorem never_early_fails_after_stall :
    let ops : List (Op Nat) := [.onTick 205000, .handle (.insert 7 1), .onTick 205000]
    Nondecreasing ops ∧ PositiveTtl ops ∧ ¬ NeverEarly (fun _ => 0) 1 ops := by
  intro ops
  refine ⟨by simp [ops, Nondecreasing, readings], by simp [ops, PositiveTtl], ?_⟩
  intro never
  obtain ⟨stalled, stalledEq⟩ : ∃ stalled, stalled = (Shard.new Nat 1).onTick 205000 := ⟨_, rfl⟩
  have good : Good (fun _ => 0) stalled := by
    rw [stalledEq]
    exact (Good.new (by decide)).onTick 205000
  have tick : stalled.tick = 1024 := by
    rw [stalledEq, Shard.onTick_tick]
    simp [Shard.new, TICK_MS, MAX_CATCHUP]
  have accepted : ¬ stalled.insertRejected (fun _ => 0) 7 := by
    rw [Shard.insertRejected_iff, (good.slab.delete 7).freeHead_ge_iff]
    intro full
    have used := full 0
    rw [good.delete_entry 7 0 used, stalledEq] at used
    have empty := (Slab.new (by decide) : Slab (fun _ => 0) _).onTick_entry 205000 0 used
    rw [empty] at used
    cases used
  have live : (stalled.insert (fun _ => 0) 7 1).period (fun _ => 0) 7 =
      some { expire := 1025, ttl := 1, version := 1 } := by
    rw [good.period_insert 7 1 accepted, Function.update_self, tick]
  have due : 1025 ≤ ((stalled.insert (fun _ => 0) 7 1).onTick 205000).tick := by
    have same : (stalled.insert (fun _ => 0) 7 1).tick = stalled.tick :=
      good.handle_tick (.insert 7 1)
    rw [Shard.onTick_tick, same, tick]
    decide
  obtain ⟨event, member, same⟩ := (good.insert 7 1 (by decide)).reported_of_due 7 _ live 205000
    due (by decide)
  have twoSteps : ∀ (s : Shard Nat 1) (elapsed : Nat),
      s.run (fun _ => 0) ([Op.onTick elapsed] ++ [Op.handle (.insert 7 1)]) =
        (s.onTick elapsed).insert (fun _ => 0) 7 1 := fun _ _ => rfl
  have whole : (Shard.new Nat 1).run (fun _ => 0) ([Op.onTick 205000] ++ [Op.handle (.insert 7 1)]) =
      stalled.insert (fun _ => 0) 7 1 := by
    rw [twoSteps, stalledEq]
  exact never [.onTick 205000] (.insert 7 1) [] 205000 [] rfl 7 1 (Or.inl rfl) (by simp)
    (by simp [expectedTick, readings, TICK_MS]) event (whole ▸ member) same

end Pigs.Cache.C100k
