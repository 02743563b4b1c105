import Mathlib.Tactic

/-! Runs of a deterministic system whose interleaving is a list of actions. -/

namespace Pigs.Lib

variable {S A E : Type*}

def runFrom (step : S → A → S) (s : S) (acts : List A) : S := acts.foldl step s

variable {step : S → A → S}

@[simp] theorem runFrom_nil (s : S) : runFrom step s [] = s := rfl

@[simp] theorem runFrom_cons (s : S) (act : A) (acts : List A) :
    runFrom step s (act :: acts) = runFrom step (step s act) acts := rfl

theorem runFrom_append (s : S) (front back : List A) :
    runFrom step s (front ++ back) = runFrom step (runFrom step s front) back :=
  List.foldl_append

/-- What every action keeps holds along every run. -/
theorem invariant_run (step : S → A → S) (inv : S → Prop)
    (keep : ∀ s act, inv s → inv (step s act)) (s : S) (acts : List A) (start : inv s) : inv (runFrom step s acts) := by
  induction acts generalizing s with
  | nil => exact start
  | cons act acts ih => exact ih (step s act) (keep s act start)

/-- Every action of the run is allowed in the state where it is played. -/
def Along (step : S → A → S) (allowed : S → A → Prop) : S → List A → Prop
  | _, [] => True
  | s, act :: acts => allowed s act ∧ Along step allowed (step s act) acts

theorem along_append (step : S → A → S) {allowed : S → A → Prop} (s : S) (front back : List A) :
    Along step allowed s (front ++ back) ↔
      Along step allowed s front ∧ Along step allowed (runFrom step s front) back := by
  induction front generalizing s with
  | nil => simp [Along]
  | cons act front ih => rw [List.cons_append, Along, Along, ih, runFrom_cons, and_assoc]

/-- What every allowed action keeps holds along every run of allowed actions. -/
theorem invariant_along (step : S → A → S) {allowed : S → A → Prop} (inv : S → Prop)
    (keep : ∀ s act, allowed s act → inv s → inv (step s act)) (s : S) (acts : List A)
    (along : Along step allowed s acts) (start : inv s) : inv (runFrom step s acts) := by
  induction acts generalizing s with
  | nil => exact start
  | cons act acts ih => exact ih (step s act) along.2 (keep s act along.1 start)

/-- What an invariant of the allowed actions promises holds at every action of the run. -/
theorem along_invariant (step : S → A → S) {allowed promised : S → A → Prop} (inv : S → Prop)
    (keep : ∀ s act, allowed s act → inv s → inv (step s act))
    (gives : ∀ s act, allowed s act → inv s → promised s act) (s : S) (acts : List A)
    (along : Along step allowed s acts) (start : inv s) : Along step promised s acts := by
  induction acts generalizing s with
  | nil => trivial
  | cons act acts ih =>
      exact ⟨gives s act along.1 start, ih (step s act) along.2 (keep s act along.1 start)⟩

/-- Two conditions that an invariant makes the same pick the same runs. -/
theorem along_iff (step : S → A → S) {allowed promised : S → A → Prop} (inv : S → Prop) (s : S)
    (acts : List A) (keep : ∀ s, ∀ act ∈ acts, allowed s act → inv s → inv (step s act))
    (same : ∀ s, ∀ act ∈ acts, inv s → (promised s act ↔ allowed s act)) (start : inv s) :
    Along step promised s acts ↔ Along step allowed s acts := by
  induction acts generalizing s with
  | nil => exact Iff.rfl
  | cons act acts ih =>
      have first := same s act (List.mem_cons_self ..) start
      have later : allowed s act →
          (Along step promised (step s act) acts ↔ Along step allowed (step s act) acts) := fun here =>
        ih (step s act) (fun s other member => keep s other (List.mem_cons_of_mem _ member))
          (fun s other member => same s other (List.mem_cons_of_mem _ member))
          (keep s act (List.mem_cons_self ..) here start)
      constructor
      · rintro ⟨here, rest⟩
        exact ⟨first.mp here, (later (first.mp here)).mp rest⟩
      · rintro ⟨here, rest⟩
        exact ⟨first.mpr here, (later here).mpr rest⟩

/-- What a step leaves true only where it was true and the action is allowed holds after the runs of
allowed actions only. -/
theorem runFrom_iff_along (step : S → A → S) {allowed : S → A → Prop} (inv kept : S → Prop)
    (keep : ∀ s act, inv s → inv (step s act))
    (one : ∀ s act, inv s → (kept (step s act) ↔ kept s ∧ allowed s act)) (s : S) (acts : List A)
    (start : inv s) : kept (runFrom step s acts) ↔ kept s ∧ Along step allowed s acts := by
  induction acts generalizing s with
  | nil => exact (and_iff_left trivial).symm
  | cons act acts ih =>
      calc
        _ ↔ kept (step s act) ∧ Along step allowed (step s act) acts := ih (step s act) (keep s act start)
        _ ↔ (kept s ∧ allowed s act) ∧ Along step allowed (step s act) acts :=
          and_congr_left' (one s act start)
        _ ↔ _ := and_assoc

theorem along_of_mem (step : S → A → S) {allowed : S → A → Prop} (s : S) (acts : List A)
    (always : ∀ act ∈ acts, ∀ state, allowed state act) : Along step allowed s acts := by
  induction acts generalizing s with
  | nil => trivial
  | cons act acts ih =>
      exact ⟨always act (List.mem_cons_self ..) s,
        ih (step s act) fun later member => always later (List.mem_cons_of_mem act member)⟩

/-- What the actions of a run put out, in order. -/
def traceFrom (step : S → A → S) (emit : S → A → List E) : S → List A → List E
  | _, [] => []
  | s, act :: acts => emit s act ++ traceFrom step emit (step s act) acts

theorem traceFrom_append (step : S → A → S) (emit : S → A → List E) (s : S) (front back : List A) :
    traceFrom step emit s (front ++ back) =
      traceFrom step emit s front ++ traceFrom step emit (runFrom step s front) back := by
  induction front generalizing s with
  | nil => rfl
  | cons act front ih => simp only [List.cons_append, traceFrom, runFrom_cons, ih, List.append_assoc]

/-- Some actions lead from `s` to a state that meets the goal. -/
def CanReach (step : S → A → S) (goal : S → Prop) (s : S) : Prop := ∃ acts, goal (runFrom step s acts)

theorem CanReach.here {goal : S → Prop} {s : S} (met : goal s) : CanReach step goal s := ⟨[], met⟩

theorem CanReach.bind {goal mid : S → Prop} {s : S} (first : CanReach step mid s)
    (rest : ∀ t, mid t → CanReach step goal t) : CanReach step goal s := by
  obtain ⟨front, met⟩ := first
  obtain ⟨back, done⟩ := rest _ met
  exact ⟨front ++ back, by rwa [runFrom_append]⟩

/-- Where the goal is not met yet, a rank can go down. -/
theorem CanReach.rank {goal : S → Prop} (inv : S → Prop) (rank : S → Nat)
    (down : ∀ s, inv s → CanReach step (fun t => goal t ∨ (inv t ∧ rank t < rank s)) s) (s : S)
    (start : inv s) : CanReach step goal s := by
  induction bound : rank s using Nat.strongRecOn generalizing s with
  | ind bound' ih =>
      subst bound
      refine (down s start).bind ?_
      intro t reached
      rcases reached with met | ⟨still, less⟩
      · exact .here met
      · exact ih (rank t) less t still rfl

/-- A run that puts out nothing plays only actions that put out nothing. -/
theorem traceFrom_eq_nil_iff (step : S → A → S) (emit : S → A → List E) (s : S) (acts : List A) :
    traceFrom step emit s acts = [] ↔ Along step (fun s act => emit s act = []) s acts := by
  induction acts generalizing s with
  | nil => exact iff_of_true rfl trivial
  | cons act acts ih => rw [traceFrom, List.append_eq_nil_iff, ih, Along]

/-- What every allowed action keeps of a state and the output up to it holds along every run of
allowed actions. -/
theorem invariant_trace (step : S → A → S) (emit : S → A → List E) {allowed : S → A → Prop}
    (inv : S → List E → Prop)
    (keep : ∀ s past act, allowed s act → inv s past → inv (step s act) (past ++ emit s act))
    (s : S) (past : List E) (acts : List A) (along : Along step allowed s acts)
    (start : inv s past) : inv (runFrom step s acts) (past ++ traceFrom step emit s acts) := by
  induction acts generalizing s past with
  | nil => simpa [traceFrom] using start
  | cons act acts ih =>
      rw [traceFrom, ← List.append_assoc]
      exact ih (step s act) (past ++ emit s act) along.2 (keep s past act along.1 start)

end Pigs.Lib
