import Pigs.Lib.Run
import Pigs.Cache.Delay.Timers

/-! The purge loop over its timer table: `key_map` and the `DelayQueue` stay in bijection, whatever
commands come between the expiries. -/

namespace Pigs.Cache.Delay

variable {K : Type} [DecidableEq K]

/-- A turn of the purge loop. Each `insert` of the queue may pick its token in its own way. -/
inductive PurgeAct (K : Type) where
  | command (alloc : TokenAlloc) (now : Nat) (command : DelayCommand K)
  | expired (now token : Nat)

/-- A panic kills the purge task. -/
def purgeStep (maxDelay : Nat) : Except DelayPanic (Timers K) → PurgeAct K → Except DelayPanic (Timers K)
  | .error panicked, _ => .error panicked
  | .ok t, .command alloc now command => t.apply alloc maxDelay now command
  | .ok t, .expired now token =>
      match t.expire token now with
      | none => .ok t
      | some (_, next) => .ok next

namespace Timers

def purge (maxDelay : Nat) (acts : List (PurgeAct K)) : Except DelayPanic (Timers K) :=
  Lib.runFrom (purgeStep maxDelay) (.ok new) acts

/-- Each key of the table has the one entry of the queue that holds it, and each entry of the queue is
the target of one key. -/
structure Bijective (t : Timers K) : Prop where
  mapped : ∀ key token, t.keyMap key = some token →
    ∃! entry, entry ∈ t.delayQueue ∧ entry.token = token ∧ entry.key = key
  target : ∀ entry ∈ t.delayQueue, ∃! key, t.keyMap key = some entry.token
  single : (t.delayQueue.map Entry.key).Nodup
  distinct : (t.delayQueue.map Entry.token).Nodup

omit [DecidableEq K] in
theorem Paired.keys_nodup {t : Timers K} (paired : Paired t) : (t.delayQueue.map Entry.key).Nodup := by
  have tokens : (t.delayQueue.map Entry.key).map t.keyMap = (t.delayQueue.map Entry.token).map some := by
    rw [List.map_map, List.map_map]
    exact List.map_congr_left paired.known
  have distinct := paired.distinct.map (Option.some_injective Nat)
  rw [← tokens] at distinct
  exact List.Nodup.of_map t.keyMap distinct

omit [DecidableEq K] in
theorem Paired.bijective {t : Timers K} (paired : Paired t) : Bijective t where
  mapped key token found := by
    obtain ⟨entry, member, ofToken, own⟩ := paired.present key token found
    refine ⟨entry, ⟨member, ofToken, own⟩, ?_⟩
    rintro other ⟨inside, same, -⟩
    exact List.inj_on_of_nodup_map paired.distinct inside member (same.trans ofToken.symm)
  target entry member := by
    refine ⟨entry.key, paired.known entry member, ?_⟩
    intro key found
    obtain ⟨other, inside, same, own⟩ := paired.present key entry.token found
    have equal : other = entry := List.inj_on_of_nodup_map paired.distinct inside member same
    rw [← own, equal]
  single := paired.keys_nodup
  distinct := paired.distinct

/-- The table of a purge task that has not panicked, or why it has. -/
def Kept : Except DelayPanic (Timers K) → Prop
  | .ok t => Paired t
  | .error panicked => panicked = .tooFar

theorem Kept.step {maxDelay : Nat} {run : Except DelayPanic (Timers K)} (kept : Kept run)
    (act : PurgeAct K) : Kept (purgeStep maxDelay run act) := by
  cases run with
  | error panicked => exact kept
  | ok t =>
      cases act with
      | command alloc now command =>
          simp only [purgeStep]
          cases done : t.apply alloc maxDelay now command with
          | ok u => exact (Paired.apply alloc maxDelay kept now command done).1
          | error panicked => exact (Paired.apply_tooFar alloc maxDelay kept now command panicked done).1
      | expired now token =>
          simp only [purgeStep]
          cases yielded : t.expire token now with
          | none => exact kept
          | some found => exact (Paired.expire kept token now found.1 yielded).1

/-- Over every run of the purge loop the queue is never asked for a token that it does not have, and
table and queue are in bijection. -/
theorem timer_table_stays_bijective (maxDelay : Nat) (acts : List (PurgeAct K)) :
    purge maxDelay acts ≠ .error .missing ∧ ∀ t, purge maxDelay acts = .ok t → Bijective t := by
  have kept : Kept (purge maxDelay acts) :=
    Lib.invariant_run (purgeStep maxDelay) Kept (fun _ act kept => kept.step act) (.ok new) acts Paired.new
  constructor
  · intro missing
    rw [missing] at kept
    cases kept
  · intro t done
    rw [done] at kept
    exact Paired.bijective kept

end Timers

end Pigs.Cache.Delay
