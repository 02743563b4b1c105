import Pigs.Cache.C100k.Shard

/-! What an expiry cache is for, without slots and wheels: keys live from the insert that
stored them until they are overwritten, deleted or reported, and a report is due at the
tick set by the insert or the last refresh. -/

namespace Pigs.Cache.C100k

variable {K : Type}

/-- A live period of a key, as far as it has run. -/
structure Period where
  expire : Nat
  ttl : Nat
  version : Nat
  deriving DecidableEq, Repr

/-- What happens to keys, each with the shard's tick at that moment. -/
inductive Obs (K : Type) where
  | inserted (key : K) (ttl tick : Nat)
  | refreshed (key : K) (tick : Nat)
  | deleted (key : K)
  | expired (event : CacheEvent K) (tick : Nat)
  deriving DecidableEq, Repr

namespace Obs

/-- The live period of `key` that was open before this observation is over after it. -/
def Ends (key : K) : Obs K → Prop
  | .inserted k _ _ => k = key
  | .refreshed _ _ => False
  | .deleted k => k = key
  | .expired event _ => event.key = key

/-- The event pushed to the batch, if this is a report. -/
def event : Obs K → Option (CacheEvent K)
  | .expired event _ => some event
  | _ => none

theorem filterMap_event_expired (events : List (CacheEvent K)) (tick : Nat) :
    (events.map (.expired · tick)).filterMap event = events := by
  simp [List.filterMap_map, Function.comp_def, event]

/-- The observations after an insert, cut at the first that ends its period. -/
theorem exists_span (key : K) (after : List (Obs K)) :
    ∃ span rest, after = span ++ rest ∧ (∀ o ∈ span, ¬ o.Ends key) ∧
      (rest = [] ∨ ∃ o tail, rest = o :: tail ∧ o.Ends key) := by
  induction after with
  | nil => exact ⟨[], [], rfl, by simp, Or.inl rfl⟩
  | cons o after ih =>
      by_cases ended : o.Ends key
      · exact ⟨[], o :: after, rfl, by simp, Or.inr ⟨o, after, rfl, ended⟩⟩
      · rcases ih with ⟨span, rest, split, running, last⟩
        refine ⟨o :: span, rest, by simp [split], ?_, last⟩
        intro x member
        rcases List.mem_cons.mp member with head | tail
        · rw [head]
          exact ended
        · exact running x tail

variable [DecidableEq K]

def apply (live : K → Option Period) : Obs K → K → Option Period
  | .inserted key ttl tick =>
      Function.update live key (some { expire := tick + ttl, ttl := ttl, version := 1 })
  | .refreshed key tick =>
      Function.update live key ((live key).map fun p =>
        { p with expire := tick + p.ttl, version := Entry.nextVersion p.version })
  | .deleted key => Function.update live key none
  | .expired event _ => Function.update live event.key none

/-- The tick of a refresh of `key`. -/
def refreshTick (key : K) : Obs K → Option Nat
  | .refreshed k tick => if k = key then some tick else none
  | _ => none

/-- An observation that does not end a period refreshes it or leaves it alone. -/
theorem apply_of_not_ends (live : K → Option Period) (key : K) (o : Obs K)
    (running : ¬ o.Ends key) :
    o.apply live key =
      match o.refreshTick key with
      | some tick => (live key).map fun p =>
          { p with expire := tick + p.ttl, version := Entry.nextVersion p.version }
      | none => live key := by
  cases o with
  | inserted k ttl tick => exact Function.update_of_ne (Ne.symm running) _ _
  | refreshed k tick =>
      by_cases same : k = key
      · subst same
        simp [apply, refreshTick]
      · simp [apply, refreshTick, same, Function.update_of_ne (Ne.symm same)]
  | deleted k => exact Function.update_of_ne (Ne.symm running) _ _
  | expired event tick => exact Function.update_of_ne (Ne.symm running) _ _

/-- Only an insert of the same key opens a period where another one ends. -/
theorem apply_of_ends (live : K → Option Period) (key : K) (o : Obs K) (ended : o.Ends key) :
    (∃ ttl tick, o = .inserted key ttl tick) ∨ o.apply live key = none := by
  cases o with
  | inserted k ttl tick =>
      cases ended
      exact Or.inl ⟨ttl, tick, rfl⟩
  | refreshed k tick => exact absurd ended id
  | deleted k =>
      cases ended
      exact Or.inr (Function.update_self _ _ _)
  | expired event tick =>
      cases ended
      exact Or.inr (Function.update_self _ _ _)

/-- A report names a live key, carries its version, and comes at its tick, or one tick later where that tick
is a multiple of the first wheel's length. -/
def Legal (live : K → Option Period) : Obs K → Prop
  | .expired event tick => ∃ p, live event.key = some p ∧ event.version = p.version ∧
      (tick = p.expire ∨ (tick = p.expire + 1 ∧ WHEEL_L1 ∣ p.expire))
  | _ => True

end Obs

variable [DecidableEq K]

def livePeriods (live : K → Option Period) (history : List (Obs K)) : K → Option Period :=
  history.foldl Obs.apply live

/-- Every observation is legal at its place. -/
def LegalTrace (live : K → Option Period) : List (Obs K) → Prop
  | [] => True
  | o :: history => o.Legal live ∧ LegalTrace (o.apply live) history

theorem livePeriods_append (live : K → Option Period) (front back : List (Obs K)) :
    livePeriods live (front ++ back) = livePeriods (livePeriods live front) back :=
  List.foldl_append

theorem livePeriods_concat (live : K → Option Period) (front : List (Obs K)) (o : Obs K) :
    livePeriods live (front ++ [o]) = o.apply (livePeriods live front) :=
  livePeriods_append live front [o]

theorem legalTrace_append (live : K → Option Period) (front back : List (Obs K)) :
    LegalTrace live (front ++ back) ↔
      LegalTrace live front ∧ LegalTrace (livePeriods live front) back := by
  induction front generalizing live with
  | nil => simp [LegalTrace, livePeriods]
  | cons o front ih =>
      simp only [List.cons_append, LegalTrace, ih, livePeriods, List.foldl_cons, and_assoc]

theorem LegalTrace.legal_at {live : K → Option Period} {before after : List (Obs K)} {o : Obs K}
    (legal : LegalTrace live (before ++ o :: after)) : o.Legal (livePeriods live before) :=
  ((legalTrace_append live before (o :: after)).mp legal).2.1

/-! A period read off the history. -/

/-- The expiry tick after the observations `span` of a period that started at `start`. -/
def deadline (key : K) (ttl start : Nat) (span : List (Obs K)) : Nat :=
  span.foldl (fun expire o => (o.refreshTick key).elim expire (· + ttl)) (start + ttl)

def refreshCount (key : K) (span : List (Obs K)) : Nat :=
  span.countP fun o => (o.refreshTick key).isSome

/-- The version of a period that was refreshed so often. -/
def versionAfter (refreshes : Nat) : Nat := (1 + refreshes) % 2 ^ 32

theorem nextVersion_versionAfter (refreshes : Nat) :
    Entry.nextVersion (versionAfter refreshes) = versionAfter (refreshes + 1) := by
  simp only [Entry.nextVersion, versionAfter]
  omega

/-- While nothing ends it, a period is what its insert and its refreshes made it. -/
theorem livePeriods_span (live : K → Option Period) (key : K) (ttl start : Nat)
    (span : List (Obs K)) (running : ∀ o ∈ span, ¬ o.Ends key) :
    livePeriods live (.inserted key ttl start :: span) key =
      some { expire := deadline key ttl start span, ttl := ttl,
             version := versionAfter (refreshCount key span) } := by
  induction span using List.reverseRecOn with
  | nil => simp [livePeriods, Obs.apply, deadline, refreshCount, versionAfter]
  | append_singleton span o ih =>
      have earlier := ih fun x member => running x (List.mem_append_left _ member)
      rw [← List.cons_append, livePeriods_concat,
        Obs.apply_of_not_ends _ key o (running o (by simp)), earlier]
      cases at_ : o.refreshTick key with
      | none => simp [deadline, refreshCount, at_]
      | some tick => simp [deadline, refreshCount, at_, nextVersion_versionAfter]

/-- A live key was stored by some insert, and nothing ended that period since. -/
theorem exists_inserted_of_live (history : List (Obs K)) (key : K)
    (live : livePeriods (fun _ => none) history key ≠ none) :
    ∃ before ttl start span, history = before ++ .inserted key ttl start :: span ∧
      ∀ o ∈ span, ¬ o.Ends key := by
  induction history using List.reverseRecOn with
  | nil => exact absurd rfl live
  | append_singleton history o ih =>
      rw [livePeriods_concat] at live
      by_cases ended : o.Ends key
      · rcases Obs.apply_of_ends (livePeriods (fun _ => none) history) key o ended with
          ⟨ttl, start, rfl⟩ | gone
        · exact ⟨history, ttl, start, [], rfl, by simp⟩
        · exact absurd gone live
      · have before : livePeriods (fun _ => none) history key ≠ none := by
          intro gone
          rw [Obs.apply_of_not_ends _ key o ended, gone] at live
          cases at_ : o.refreshTick key <;> simp [at_] at live
        rcases ih before with ⟨front, ttl, start, span, split, running⟩
        refine ⟨front, ttl, start, span ++ [o], by simp [split], ?_⟩
        intro x member
        rcases List.mem_append.mp member with inner | last
        · exact running x inner
        · rw [List.mem_singleton.mp last]
          exact ended

end Pigs.Cache.C100k
