import Pigs.Utils.Rt.Gated

/-! A shutdown visits the registered runtimes once each in its order, and the gate closes the registry
before it is listed. -/

namespace Pigs.Utils.Rt

open Pigs.Lib

theorem custom_ne (name fixed : String) (other : fixed.toList.take 7 ≠ "custom-".toList) :
    "custom-" ++ name ≠ fixed := by
  rintro rfl
  apply other
  simp

theorem asThreadName_injective : Function.Injective RuntimeType.asThreadName := by
  intro first second same
  cases first with
  | custom name =>
      cases second with
      | custom other =>
          have tail : name = other := by simpa [RuntimeType.asThreadName] using same
          rw [tail]
      | _ => exact absurd same (custom_ne _ _ (by decide))
  | _ =>
      cases second with
      | custom other => exact absurd same.symm (custom_ne _ _ (by decide))
      | _ => first | rfl | exact absurd same (by decide)

namespace RuntimeRegistry

theorem declared_added (orders : List RuntimeType) :
    Added (fun type => decide (type ≠ .main)) [] orders (declared orders) := by
  obtain ⟨added, whole, facts⟩ := pushNew_added (fun type => decide (type ≠ RuntimeType.main)) [] orders
  rw [declared, whole, List.nil_append]
  exact facts

theorem mem_declared (orders : List RuntimeType) (type : RuntimeType) :
    type ∈ declared orders ↔ type ∈ orders ∧ type ≠ .main := by
  rw [(declared_added orders).mem type]
  simp

/-- The registered runtimes that the orders leave out, by thread name. -/
structure Omitted (orders registered omitted : List RuntimeType) : Prop where
  mem : ∀ type, type ∈ omitted ↔ type ∉ orders ∧ type ∈ registered ∧ type ≠ .main
  sorted : omitted.Pairwise fun earlier later => earlier.asThreadName < later.asThreadName

/-- The stages that `shutdown` sets out with. -/
def FullOrder (orders registered ordered : List RuntimeType) : Prop :=
  ∃ omitted, ordered = declared orders ++ omitted ∧ Omitted orders registered omitted

theorem byThreadName_trans (first second third : RuntimeType) (below : byThreadName first second = true)
    (above : byThreadName second third = true) : byThreadName first third = true := by
  simp only [byThreadName, decide_eq_true_eq] at below above ⊢
  exact le_trans below above

theorem byThreadName_total (first second : RuntimeType) :
    (byThreadName first second || byThreadName second first) = true := by
  simp only [byThreadName, Bool.or_eq_true, decide_eq_true_eq]
  exact le_total _ _

theorem sorted_by_name (remaining : List RuntimeType) (nodup : remaining.Nodup) :
    (remaining.mergeSort byThreadName).Pairwise
      fun earlier later => earlier.asThreadName < later.asThreadName := by
  have ordered := List.pairwise_mergeSort byThreadName_trans byThreadName_total remaining
  have distinct := (List.mergeSort_perm remaining byThreadName).nodup_iff.mpr nodup
  refine ordered.imp₂ ?_ distinct
  intro first second below different
  exact lt_of_le_of_ne (of_decide_eq_true below) (asThreadName_injective.ne different)

theorem appendOmitted_full (orders registered remaining : List RuntimeType) (nodup : remaining.Nodup)
    (mem : ∀ type, type ∈ remaining ↔ type ∈ registered ∧ type ≠ .main) :
    FullOrder orders registered (appendOmitted (declared orders) remaining) := by
  obtain ⟨omitted, whole, facts⟩ :=
    pushNew_added (fun _ => true) (declared orders) (remaining.mergeSort byThreadName)
  refine ⟨omitted, whole, ?_, (sorted_by_name remaining nodup).sublist facts.sublist⟩
  intro type
  rw [facts.mem type, List.mem_mergeSort, mem type, mem_declared]
  tauto

theorem FullOrder.mem {orders registered ordered : List RuntimeType}
    (full : FullOrder orders registered ordered) (type : RuntimeType) :
    type ∈ ordered ↔ (type ∈ orders ∨ type ∈ registered) ∧ type ≠ .main := by
  obtain ⟨omitted, rfl, facts⟩ := full
  rw [List.mem_append, mem_declared, facts.mem]
  tauto

theorem FullOrder.nodup {orders registered ordered : List RuntimeType}
    (full : FullOrder orders registered ordered) : ordered.Nodup := by
  obtain ⟨omitted, rfl, facts⟩ := full
  refine List.nodup_append.mpr ⟨(declared_added orders).nodup, ?_, ?_⟩
  · refine facts.sorted.imp ?_
    rintro first _ below rfl
    exact lt_irrefl _ below
  · rintro first inDeclared second inOmitted rfl
    exact ((facts.mem first).mp inOmitted).1 ((mem_declared orders first).mp inDeclared).1

/-- The shards before `shard` have been listed. -/
structure Listed {shards : Nat} (shardOf : RuntimeType → Fin shards)
    (registered remaining : List RuntimeType) (shard : Nat) : Prop where
  nodup : remaining.Nodup
  mem : ∀ type, type ∈ remaining ↔ type ∈ registered ∧ type ≠ .main ∧ (shardOf type).val < shard

theorem Listed.next {shards : Nat} {shardOf : RuntimeType → Fin shards}
    {registered remaining keys : List RuntimeType} {shard : Nat}
    (listed : Listed shardOf registered remaining shard) (nodup : registered.Nodup)
    (perm : keys.Perm (registered.filter fun type => decide ((shardOf type).val = shard))) :
    Listed shardOf registered (remaining ++ keys.filter fun type => decide (type ≠ .main))
      (shard + 1) := by
  have keysMem : ∀ type, type ∈ keys ↔ type ∈ registered ∧ (shardOf type).val = shard := by
    intro type
    rw [perm.mem_iff, List.mem_filter, decide_eq_true_eq]
  have keysNodup : keys.Nodup := perm.nodup_iff.mpr (nodup.filter _)
  constructor
  · refine List.nodup_append.mpr ⟨listed.nodup, keysNodup.filter _, ?_⟩
    rintro first before second now rfl
    have below := ((listed.mem first).mp before).2.2
    have here := ((keysMem first).mp (List.mem_filter.mp now).1).2
    omega
  · intro type
    rw [List.mem_append, listed.mem, List.mem_filter, keysMem, decide_eq_true_eq, Nat.lt_succ_iff_lt_or_eq]
    tauto

/-- The stages of `gone` are over. -/
structure Passed (registered runtimes stopped : List RuntimeType) (reports : List TypedReport)
    (gone : List RuntimeType) : Prop where
  reports : reports.map TypedReport.runtimeType = gone.filter (· ∈ registered)
  stopped : stopped = gone.filter (· ∈ registered)
  runtimes : runtimes = registered.filter (· ∉ gone)

theorem Passed.none (registered : List RuntimeType) : Passed registered registered [] [] [] where
  reports := rfl
  stopped := rfl
  runtimes := by simp

theorem Passed.mem_runtimes {registered runtimes stopped gone : List RuntimeType}
    {reports : List TypedReport} (passed : Passed registered runtimes stopped reports gone)
    (type : RuntimeType) : type ∈ runtimes ↔ type ∈ registered ∧ type ∉ gone := by
  rw [passed.runtimes, List.mem_filter, decide_eq_true_eq]

/-- A type that is not registered makes no stage. -/
theorem Passed.skip {registered runtimes stopped gone : List RuntimeType} {reports : List TypedReport}
    (passed : Passed registered runtimes stopped reports gone) (type : RuntimeType)
    (absent : type ∉ registered) : Passed registered runtimes stopped reports (gone ++ [type]) := by
  have same : (gone ++ [type]).filter (· ∈ registered) = gone.filter (· ∈ registered) := by
    simp [List.filter_append, absent]
  refine ⟨passed.reports.trans same.symm, passed.stopped.trans same.symm, ?_⟩
  rw [passed.runtimes]
  refine List.filter_congr ?_
  intro other member
  have different : other ≠ type := by
    rintro rfl
    exact absent member
  simp [different]

/-- A registered type is taken out, stopped and reported. -/
theorem Passed.stop {registered runtimes stopped gone : List RuntimeType} {reports : List TypedReport}
    (passed : Passed registered runtimes stopped reports gone) (nodup : registered.Nodup)
    (type : RuntimeType) (report : RuntimeShutdownReport) (present : type ∈ registered) :
    Passed registered (runtimes.erase type) (stopped ++ [type]) (reports ++ [⟨type, report⟩])
      (gone ++ [type]) := by
  have grown : (gone ++ [type]).filter (· ∈ registered) = gone.filter (· ∈ registered) ++ [type] := by
    simp [List.filter_append, present]
  refine ⟨?_, by rw [grown, passed.stopped], ?_⟩
  · rw [grown, List.map_append, passed.reports]
    rfl
  · rw [passed.runtimes, (nodup.filter _).erase_eq_filter, List.filter_filter]
    refine List.filter_congr ?_
    intro other _
    by_cases same : other = type
    · simp [same]
    · simp [same]

variable {shards : Nat} (orders : List RuntimeType) (total : Duration)
  (shardOf : RuntimeType → Fin shards)

/-- What the shutdown has done behind the flag, when `registered` was in the registry at the flag. -/
def Progress (registered runtimes stopped : List RuntimeType) : ShutdownPc → Prop
  | .unlocking => runtimes = registered ∧ stopped = []
  | .starting => runtimes = registered ∧ stopped = []
  | .listing _ ordered remaining shard =>
      runtimes = registered ∧ stopped = [] ∧ ordered = declared orders ∧
        Listed shardOf registered remaining shard
  | .visiting stages =>
      FullOrder orders registered stages.ordered ∧
        Passed registered runtimes stopped stages.reports (stages.ordered.take stages.index)
  | .waiting stages type _ =>
      FullOrder orders registered stages.ordered ∧
        Passed registered runtimes stopped stages.reports (stages.ordered.take stages.index) ∧
        stages.ordered[stages.index]? = some type ∧ type ∈ runtimes
  | .removing stages type =>
      FullOrder orders registered stages.ordered ∧
        Passed registered runtimes stopped stages.reports (stages.ordered.take stages.index) ∧
        stages.ordered[stages.index]? = some type ∧ type ∈ runtimes
  | .stopping stages type =>
      FullOrder orders registered stages.ordered ∧ ∃ before,
        Passed registered before stopped stages.reports (stages.ordered.take stages.index) ∧
        stages.ordered[stages.index]? = some type ∧ type ∈ before ∧ runtimes = before.erase type
  | .waitingMain reports _ =>
      ∃ ordered, FullOrder orders registered ordered ∧
        Passed registered runtimes stopped reports ordered
  | .takingMain reports =>
      ∃ ordered earlier report, FullOrder orders registered ordered ∧
        reports = earlier ++ [⟨.main, report⟩] ∧ Passed registered runtimes stopped earlier ordered
  | .stoppingMain reports =>
      ∃ ordered earlier report before, FullOrder orders registered ordered ∧
        reports = earlier ++ [⟨.main, report⟩] ∧ Passed registered before stopped earlier ordered ∧
        runtimes = before.erase .main
  | .finished reports =>
      ∃ ordered, FullOrder orders registered ordered ∧
        Passed registered runtimes stopped reports (ordered ++ [.main])
  | _ => False

/-- Behind the flag: the calls that had come through, and what the shutdown has done since. -/
structure Frozen (mid s : RuntimeRegistry) : Prop where
  late : s.shutdown.flagged = true
  calls : ∀ call type, (s.registers call).accepted = some type →
    mid.registers call = .returned (.ok type)
  progress : Progress orders shardOf mid.runtimes s.runtimes s.stopped s.shutdown

theorem take_next {ordered : List RuntimeType} {index : Nat} {type : RuntimeType}
    (there : ordered[index]? = some type) : ordered.take (index + 1) = ordered.take index ++ [type] := by
  rw [List.take_add_one, there]
  rfl

/-- A stage that the lookup skips was never registered. -/
theorem absent_of_skipped {registered runtimes stopped ordered : List RuntimeType}
    {reports : List TypedReport} {index : Nat} {type : RuntimeType} (nodup : ordered.Nodup)
    (passed : Passed registered runtimes stopped reports (ordered.take index))
    (there : ordered[index]? = some type) (skipped : type ∉ runtimes) : type ∉ registered := by
  intro present
  apply skipped
  refine (passed.mem_runtimes type).mpr ⟨present, ?_⟩
  have distinct : (ordered.take (index + 1)).Nodup := nodup.sublist (List.take_sublist _ _)
  rw [take_next there] at distinct
  intro gone
  exact (List.nodup_append.mp distinct).2.2 type gone type (List.mem_singleton_self _) rfl

theorem Frozen.visit {mid s : RuntimeRegistry} (main : .main ∈ mid.runtimes) (stages : Stages)
    (frozen : Frozen orders shardOf mid s) (atPc : s.shutdown = .visiting stages) :
    Frozen orders shardOf mid (s.visit stages) := by
  have progress := frozen.progress
  rw [atPc] at progress
  obtain ⟨full, passed⟩ := progress
  unfold RuntimeRegistry.visit
  split
  case h_1 type there =>
    split
    case isTrue present => exact ⟨rfl, frozen.calls, full, passed, there, present⟩
    case isFalse skipped =>
      refine ⟨rfl, frozen.calls, full, ?_⟩
      have absent := absent_of_skipped full.nodup passed there skipped
      simpa only [take_next there] using passed.skip type absent
  case h_2 past =>
    have all : stages.ordered.take stages.index = stages.ordered :=
      List.take_of_length_le (List.getElem?_eq_none_iff.mp past)
    rw [all] at passed
    have left : .main ∈ s.runtimes :=
      (passed.mem_runtimes .main).mpr ⟨main, fun inside => ((full.mem .main).mp inside).2 rfl⟩
    rw [if_pos left]
    exact ⟨rfl, frozen.calls, stages.ordered, full, passed⟩

theorem Passed.next {registered runtimes stopped : List RuntimeType} {stages : Stages}
    {type : RuntimeType} (report : RuntimeShutdownReport) (nodup : registered.Nodup)
    (passed : Passed registered runtimes stopped stages.reports (stages.ordered.take stages.index))
    (there : stages.ordered[stages.index]? = some type) (present : type ∈ runtimes) :
    Passed registered (runtimes.erase type) (stopped ++ [type]) (pushReport stages type report).reports
      (stages.ordered.take (stages.index + 1)) := by
  rw [take_next there]
  exact passed.stop nodup type report ((passed.mem_runtimes type).mp present).1

theorem Frozen.advanceShutdown {mid s : RuntimeRegistry} (main : .main ∈ mid.runtimes)
    (nodup : mid.runtimes.Nodup) (frozen : Frozen orders shardOf mid s) :
    Frozen orders shardOf mid (@advanceShutdown shards orders total s) := by
  have progress := frozen.progress
  have late := frozen.late
  unfold RuntimeRegistry.advanceShutdown
  split
  case h_1 atPc =>
    rw [atPc] at late
    cases late
  case h_2 atPc =>
    rw [atPc] at late
    cases late
  case h_3 atPc =>
    rw [atPc] at progress
    exact ⟨rfl, frozen.calls, progress⟩
  case h_4 atPc =>
    rw [atPc] at progress
    exact ⟨rfl, frozen.calls, progress.1, progress.2, rfl, List.nodup_nil, by simp⟩
  case h_5 ordered remaining shard atPc =>
    rw [atPc] at progress
    obtain ⟨whole, empty, rfl, listed⟩ := progress
    split
    case isTrue => exact frozen
    case isFalse done =>
      refine ⟨rfl, frozen.calls, appendOmitted_full orders mid.runtimes remaining listed.nodup ?_, ?_⟩
      · intro type
        have inside : (shardOf type).val < shard := by
          have bound := (shardOf type).isLt
          omega
        rw [listed.mem type]
        simp [inside]
      · simpa [whole, empty] using Passed.none mid.runtimes
  case h_6 stages atPc => exact frozen.visit orders shardOf main stages atPc
  case h_7 stages type atPc =>
    rw [atPc] at progress
    obtain ⟨full, passed, there, present⟩ := progress
    rw [if_pos present]
    exact ⟨rfl, frozen.calls, full, s.runtimes, passed, there, present, rfl⟩
  case h_8 reports atPc =>
    rw [atPc] at progress
    obtain ⟨ordered, earlier, report, full, whole, passed⟩ := progress
    have left : .main ∈ s.runtimes :=
      (passed.mem_runtimes .main).mpr ⟨main, fun inside => ((full.mem .main).mp inside).2 rfl⟩
    rw [if_pos left]
    exact ⟨rfl, frozen.calls, ordered, earlier, report, s.runtimes, full, whole, passed, rfl⟩
  case h_9 reports atPc =>
    rw [atPc] at progress
    obtain ⟨ordered, earlier, report, before, full, rfl, passed, erased⟩ := progress
    refine ⟨rfl, frozen.calls, ordered, full, ?_⟩
    rw [erased]
    exact passed.stop nodup .main report main
  case h_10 => exact frozen

theorem Frozen.setRegister {mid s : RuntimeRegistry} (frozen : Frozen orders shardOf mid s) (call : Nat)
    (pc : RegisterPc)
    (accepted : ∀ type, pc.accepted = some type → (s.registers call).accepted = some type) :
    Frozen orders shardOf mid (s.setRegister call pc) := by
  refine ⟨frozen.late, ?_, frozen.progress⟩
  intro other type ok
  by_cases same : other = call
  · subst same
    exact frozen.calls other type (accepted type (by simpa [RuntimeRegistry.setRegister] using ok))
  · exact frozen.calls other type (by simpa [RuntimeRegistry.setRegister, same] using ok)

/-- Behind the flag no `register` comes through. -/
theorem Frozen.advanceRegister {mid s : RuntimeRegistry} (gated : Gated s)
    (frozen : Frozen orders shardOf mid s) (call : Nat) :
    Frozen orders shardOf mid (s.advanceRegister call) := by
  have set : s.shuttingDown = true := gated.flag.trans frozen.late
  unfold RuntimeRegistry.advanceRegister
  split
  case h_1 type atPc =>
    split
    · exact frozen
    · have taken : Frozen orders shardOf mid { s with gate := some (.register call) } :=
        ⟨frozen.late, frozen.calls, frozen.progress⟩
      exact taken.setRegister orders shardOf call _ fun _ ok => by cases ok
  case h_2 type atPc =>
    rw [if_pos set]
    exact frozen.setRegister orders shardOf call _ fun _ ok => by cases ok
  case h_3 type atPc =>
    rw [gated.entering call type atPc] at set
    cases set
  case h_4 result atPc =>
    have released : Frozen orders shardOf mid { s with gate := none } :=
      ⟨frozen.late, frozen.calls, frozen.progress⟩
    refine released.setRegister orders shardOf call _ ?_
    intro type ok
    rw [show _ = s.registers call from rfl, atPc]
    cases result with
    | ok other => exact ok
    | error message => cases ok
  case h_5 => exact frozen

theorem Frozen.step {mid s : RuntimeRegistry} (main : .main ∈ mid.runtimes) (nodup : mid.runtimes.Nodup)
    (gated : Gated s) (frozen : Frozen orders shardOf mid s) (act : RegistryAct) :
    Frozen orders shardOf mid (s.step orders total shardOf act) := by
  have progress := frozen.progress
  cases act with
  | register call type =>
      simp only [RuntimeRegistry.step]
      split
      · exact frozen.setRegister orders shardOf call _ fun _ ok => by cases ok
      · exact frozen
  | advanceRegister call => exact frozen.advanceRegister orders shardOf gated call
  | shutdown =>
      simp only [RuntimeRegistry.step]
      split
      case h_1 atPc =>
        have late := frozen.late
        rw [atPc] at late
        cases late
      case h_2 => exact frozen
  | advanceShutdown => exact frozen.advanceShutdown orders total shardOf main nodup
  | listed keys =>
      simp only [RuntimeRegistry.step, RuntimeRegistry.listShard]
      split
      case h_1 deadline ordered remaining shard atPc =>
        split
        case isTrue next =>
          rw [atPc] at progress
          obtain ⟨whole, empty, same, listed⟩ := progress
          refine ⟨rfl, frozen.calls, whole, empty, same, listed.next nodup ?_⟩
          rw [← whole]
          exact next.2
        case isFalse => exact frozen
      case h_2 => exact frozen
  | waited =>
      simp only [RuntimeRegistry.step]
      split
      case h_1 atPc =>
        rw [atPc] at progress
        exact ⟨rfl, frozen.calls, progress⟩
      case h_2 => exact frozen
  | runtimeDown report =>
      simp only [RuntimeRegistry.step]
      split
      case h_1 stages type atPc =>
        rw [atPc] at progress
        obtain ⟨full, before, passed, there, present, erased⟩ := progress
        refine ⟨rfl, frozen.calls, full, ?_⟩
        rw [erased]
        exact Passed.next report nodup passed there present
      case h_2 => exact frozen
  | mainWaited report =>
      simp only [RuntimeRegistry.step]
      split
      case h_1 reports _ atPc =>
        rw [atPc] at progress
        obtain ⟨ordered, full, passed⟩ := progress
        exact ⟨rfl, frozen.calls, ordered, reports, report, full, rfl, passed⟩
      case h_2 => exact frozen
  | elapse nanos => exact ⟨frozen.late, frozen.calls, frozen.progress⟩

theorem advanceRegister_flag (s : RuntimeRegistry) (call : Nat) :
    (s.advanceRegister call).shuttingDown = s.shuttingDown := by
  unfold RuntimeRegistry.advanceRegister
  split
  case h_1 => split <;> rfl
  case h_2 => split <;> rfl
  case h_3 => split <;> rfl
  all_goals rfl

theorem visit_flag (s : RuntimeRegistry) (stages : Stages) :
    (s.visit stages).shuttingDown = s.shuttingDown := by
  unfold RuntimeRegistry.visit
  split
  all_goals split <;> rfl

/-- The flag is stored by the step of the shutdown that stores it. -/
theorem flag_stored (s : RuntimeRegistry) (act : RegistryAct) (clear : s.shuttingDown = false)
    (set : (s.step orders total shardOf act).shuttingDown = true) :
    s.shutdown = .storing ∧
      s.step orders total shardOf act = { s with shuttingDown := true, shutdown := .unlocking } := by
  have same : (s.step orders total shardOf act).shuttingDown = s.shuttingDown → False := fun same => by
    rw [same, clear] at set
    cases set
  cases act with
  | register call type =>
      simp only [RuntimeRegistry.step] at same
      split at same
      all_goals exact (same rfl).elim
  | advanceRegister call => exact (same (advanceRegister_flag s call)).elim
  | advanceShutdown =>
      simp only [RuntimeRegistry.step] at same ⊢
      unfold RuntimeRegistry.advanceShutdown at same ⊢
      split at same
      case h_2 atPc => exact ⟨atPc, rfl⟩
      case h_6 stages atPc => exact (same (visit_flag s stages)).elim
      case h_1 => split at same <;> exact (same rfl).elim
      case h_5 => split at same <;> exact (same rfl).elim
      case h_7 => split at same <;> exact (same rfl).elim
      case h_8 => split at same <;> exact (same rfl).elim
      all_goals exact (same rfl).elim
  | elapse nanos => exact (same rfl).elim
  | listed keys =>
      simp only [RuntimeRegistry.step, RuntimeRegistry.listShard] at same
      split at same
      · split at same <;> exact (same rfl).elim
      · exact (same rfl).elim
  | _ =>
      simp only [RuntimeRegistry.step] at same
      split at same
      all_goals exact (same rfl).elim

theorem frozen_start {s : RuntimeRegistry} (gated : Gated s) (storing : s.shutdown = .storing) :
    Frozen orders shardOf s { s with shuttingDown := true, shutdown := .unlocking } := by
  have holder : s.gate = some .shutdown := gated.shutdown (by rw [storing]; rfl)
  refine ⟨rfl, ?_, rfl, gated.stopped (by rw [storing]; rfl)⟩
  intro call type ok
  have free := gated.registers_free holder call
  change (s.registers call).accepted = some type at ok
  cases atPc : s.registers call with
  | returned result =>
      rw [atPc] at ok
      cases result with
      | ok other =>
          cases ok
          rfl
      | error message => cases ok
  | unlocking result =>
      rw [atPc] at free
      cases free
  | _ =>
      rw [atPc] at ok
      cases ok

/-- The run goes on behind the flag. -/
theorem frozen_run {mid s : RuntimeRegistry} (main : .main ∈ mid.runtimes) (nodup : mid.runtimes.Nodup)
    (gated : Gated s) (frozen : Frozen orders shardOf mid s) (acts : List RegistryAct) :
    Frozen orders shardOf mid (s.run orders total shardOf acts) :=
  (invariant_run (RuntimeRegistry.step orders total shardOf)
    (fun s => Gated s ∧ Frozen orders shardOf mid s)
    (fun _ act ⟨gated, frozen⟩ =>
      ⟨gated.step orders total shardOf act, frozen.step orders total shardOf main nodup gated act⟩)
    s acts ⟨gated, frozen⟩).2

/-- `types` are the registered runtimes of `orders` by first occurrence, then the other registered ones
by thread name, and then the main runtime. -/
def InShutdownOrder (orders registered types : List RuntimeType) : Prop :=
  ∃ ordered omitted, types = ordered ++ omitted ++ [.main] ∧
    (∀ type, type ∈ ordered ↔ type ∈ orders ∧ type ∈ registered ∧ type ≠ .main) ∧
    ordered.Pairwise (fun earlier later => orders.idxOf earlier < orders.idxOf later) ∧
    (∀ type, type ∈ omitted ↔ type ∉ orders ∧ type ∈ registered ∧ type ≠ .main) ∧
    omitted.Pairwise (fun earlier later => earlier.asThreadName < later.asThreadName)

theorem FullOrder.inShutdownOrder {registered ordered : List RuntimeType}
    (full : FullOrder orders registered ordered) :
    InShutdownOrder orders registered (ordered.filter (· ∈ registered) ++ [.main]) := by
  obtain ⟨omitted, rfl, facts⟩ := full
  refine ⟨(declared orders).filter (· ∈ registered), omitted, ?_, ?_, ?_, facts.mem, facts.sorted⟩
  · have all : omitted.filter (· ∈ registered) = omitted := by
      refine List.filter_eq_self.mpr ?_
      intro type member
      exact decide_eq_true ((facts.mem type).mp member).2.1
    rw [List.filter_append, all]
  · intro type
    rw [List.mem_filter, mem_declared, decide_eq_true_eq]
    tauto
  · exact (declared_added orders).order.filter _

theorem Passed.out {registered runtimes stopped gone : List RuntimeType} {reports : List TypedReport}
    (passed : Passed registered runtimes stopped reports gone) (type : RuntimeType)
    (present : type ∈ registered) (behind : type ∈ gone) : type ∈ stopped ∧ type ∉ runtimes := by
  constructor
  · rw [passed.stopped, List.mem_filter, decide_eq_true_eq]
    exact ⟨behind, present⟩
  · intro left
    exact ((passed.mem_runtimes type).mp left).2 behind

/-- What a shutdown that has returned `reports` has done to the runtimes `registered`. -/
structure VisitedOnce (registered : List RuntimeType) (s : RuntimeRegistry) (reports : List TypedReport) :
    Prop where
  order : InShutdownOrder orders registered (reports.map TypedReport.runtimeType)
  nodup : (reports.map TypedReport.runtimeType).Nodup
  stopped : ∀ type ∈ registered, type ≠ .main → type ∈ s.stopped ∧ type ∉ s.runtimes
  finished : s.shutdown = .finished reports → ∀ type ∈ registered, type ∈ s.stopped ∧ type ∉ s.runtimes

theorem visited_types {registered ordered : List RuntimeType} {reports : List TypedReport}
    (full : FullOrder orders registered ordered)
    (types : reports.map TypedReport.runtimeType = ordered.filter (· ∈ registered) ++ [.main]) :
    InShutdownOrder orders registered (reports.map TypedReport.runtimeType) ∧
      (reports.map TypedReport.runtimeType).Nodup := by
  rw [types]
  refine ⟨full.inShutdownOrder, List.nodup_append.mpr ⟨full.nodup.filter _, List.nodup_singleton _, ?_⟩⟩
  rintro type member other single rfl
  rw [List.mem_singleton] at single
  subst single
  exact ((full.mem .main).mp (List.mem_filter.mp member).1).2 rfl

/-- The stages are over and the main runtime is reported. -/
theorem Passed.visitedOnce {registered before ordered : List RuntimeType} {s : RuntimeRegistry}
    {earlier : List TypedReport} (full : FullOrder orders registered ordered)
    (passed : Passed registered before s.stopped earlier ordered) (report : RuntimeShutdownReport)
    (left : s.runtimes ⊆ before)
    (unfinished : s.shutdown ≠ .finished (earlier ++ [⟨.main, report⟩])) :
    VisitedOnce orders registered s (earlier ++ [⟨.main, report⟩]) := by
  have types : (earlier ++ [TypedReport.mk .main report]).map TypedReport.runtimeType =
      ordered.filter (· ∈ registered) ++ [.main] := by
    rw [List.map_append, passed.reports]
    rfl
  obtain ⟨order, nodup⟩ := visited_types orders full types
  refine ⟨order, nodup, ?_, fun finished => absurd finished unfinished⟩
  intro type present other
  obtain ⟨stopped, out⟩ := passed.out type present ((full.mem type).mpr ⟨Or.inr present, other⟩)
  exact ⟨stopped, fun there => out (left there)⟩

theorem Frozen.visitedOnce {mid s : RuntimeRegistry} (main : .main ∈ mid.runtimes)
    (frozen : Frozen orders shardOf mid s) (reports : List TypedReport)
    (returned : s.shutdown.reports = some reports) : VisitedOnce orders mid.runtimes s reports := by
  have progress := frozen.progress
  cases atPc : s.shutdown with
  | takingMain given =>
      rw [atPc] at progress returned
      cases returned
      obtain ⟨ordered, earlier, report, full, rfl, passed⟩ := progress
      exact passed.visitedOnce orders full report (List.Subset.refl _) (by rw [atPc]; simp)
  | stoppingMain given =>
      rw [atPc] at progress returned
      cases returned
      obtain ⟨ordered, earlier, report, before, full, rfl, passed, erased⟩ := progress
      refine passed.visitedOnce orders full report ?_ (by rw [atPc]; simp)
      rw [erased]
      exact List.erase_subset
  | finished given =>
      rw [atPc] at progress returned
      cases returned
      obtain ⟨ordered, full, passed⟩ := progress
      have types : reports.map TypedReport.runtimeType =
          ordered.filter (· ∈ mid.runtimes) ++ [.main] := by
        rw [passed.reports, List.filter_append]
        simp [main]
      obtain ⟨order, nodup⟩ := visited_types orders full types
      have gone : ∀ type ∈ mid.runtimes, type ∈ ordered ++ [.main] := by
        intro type present
        by_cases same : type = .main
        · exact List.mem_append_right _ (List.mem_singleton.mpr same)
        · exact List.mem_append_left _ ((full.mem type).mpr ⟨Or.inr present, same⟩)
      exact ⟨order, nodup, fun type present _ => passed.out type present (gone type present),
        fun _ type present => passed.out type present (gone type present)⟩
  | _ =>
      rw [atPc] at returned
      cases returned

/-! A shutdown that has set the flag can always go on until it returns. -/

/-- The shutdown returns once what it waits for happens. -/
def CanReturn (s : RuntimeRegistry) : Prop :=
  CanReach (step orders total shardOf) (fun t => ∃ reports, t.shutdown.reports = some reports) s

theorem waiting_goes_on (s : RuntimeRegistry) (stages : Stages) (type : RuntimeType) (timeout : Duration)
    (atPc : s.shutdown = .waiting stages type timeout) :
    CanReach (step orders total shardOf) (fun t => ∃ reports,
      t.shutdown = .visiting { stages with index := stages.index + 1, reports := reports }) s := by
  by_cases present : type ∈ s.runtimes
  · refine ⟨[.waited, .advanceShutdown, .runtimeDown ⟨.graceful, 0, 0, 0, []⟩], ?_⟩
    simp [step, RuntimeRegistry.advanceShutdown, atPc, present, next, pushReport]
  · refine ⟨[.waited, .advanceShutdown], ?_⟩
    simp [step, RuntimeRegistry.advanceShutdown, atPc, present, next]

theorem visiting_goes_on (s : RuntimeRegistry) (stages : Stages) (type : RuntimeType)
    (atPc : s.shutdown = .visiting stages) (there : stages.ordered[stages.index]? = some type) :
    CanReach (step orders total shardOf) (fun t => ∃ reports,
      t.shutdown = .visiting { stages with index := stages.index + 1, reports := reports }) s := by
  by_cases present : type ∈ s.runtimes
  · have first : CanReach (step orders total shardOf)
        (fun t => ∃ timeout, t.shutdown = .waiting stages type timeout) s := by
      refine ⟨[.advanceShutdown], ?_⟩
      simp [step, RuntimeRegistry.advanceShutdown, atPc, RuntimeRegistry.visit, there, present]
    refine first.bind ?_
    intro t waiting
    obtain ⟨timeout, atWait⟩ := waiting
    exact waiting_goes_on orders total shardOf t stages type timeout atWait
  · refine ⟨[.advanceShutdown], ?_⟩
    simp [step, RuntimeRegistry.advanceShutdown, atPc, RuntimeRegistry.visit, there, present, next]

theorem waitingMain_returns (s : RuntimeRegistry) (reports : List TypedReport) (timeout : Duration)
    (atPc : s.shutdown = .waitingMain reports timeout) : CanReturn orders total shardOf s := by
  refine ⟨[.mainWaited ⟨.graceful, 0, 0, 0, []⟩], ?_⟩
  simp [step, atPc, ShutdownPc.reports]

/-- The stages that are left. -/
def left : ShutdownPc → Nat
  | .visiting stages => stages.ordered.length - stages.index
  | _ => 0

theorem visiting_returns (s : RuntimeRegistry) (stages : Stages) (atPc : s.shutdown = .visiting stages) :
    CanReturn orders total shardOf s := by
  refine CanReach.rank (fun t => ∃ stages, t.shutdown = .visiting stages) (fun t => left t.shutdown) ?_ s
    ⟨stages, atPc⟩
  intro t visiting
  obtain ⟨stages, atStage⟩ := visiting
  cases there : stages.ordered[stages.index]? with
  | some type =>
      refine (visiting_goes_on orders total shardOf t stages type atStage there).bind ?_
      intro u moved
      obtain ⟨reports, atNext⟩ := moved
      have inside := (List.getElem?_eq_some_iff.mp there).1
      refine .here (Or.inr ⟨⟨_, atNext⟩, ?_⟩)
      simp only [atStage, atNext, left]
      omega
  | none =>
      by_cases main : .main ∈ t.runtimes
      · have waits : CanReach (step orders total shardOf)
            (fun t => ∃ timeout, t.shutdown = .waitingMain stages.reports timeout) t := by
          refine ⟨[.advanceShutdown], ?_⟩
          simp [step, RuntimeRegistry.advanceShutdown, atStage, RuntimeRegistry.visit, there, main]
        refine waits.bind ?_
        intro u waiting
        obtain ⟨timeout, atMain⟩ := waiting
        obtain ⟨acts, returned⟩ := waitingMain_returns orders total shardOf u _ timeout atMain
        exact ⟨acts, Or.inl returned⟩
      · refine ⟨[.advanceShutdown], Or.inl ?_⟩
        simp [step, RuntimeRegistry.advanceShutdown, atStage, RuntimeRegistry.visit, there, main,
          ShutdownPc.reports]

theorem returns_of_visiting (s : RuntimeRegistry)
    (reached : CanReach (step orders total shardOf) (fun t => ∃ stages, t.shutdown = .visiting stages) s) :
    CanReturn orders total shardOf s := by
  refine reached.bind ?_
  intro t visiting
  obtain ⟨stages, atStage⟩ := visiting
  exact visiting_returns orders total shardOf t stages atStage

theorem listing_returns (s : RuntimeRegistry) (deadline shard : Nat) (ordered remaining : List RuntimeType)
    (atPc : s.shutdown = .listing deadline ordered remaining shard) : CanReturn orders total shardOf s := by
  induction missing : shards - shard generalizing s shard remaining with
  | zero =>
      have past : ¬ shard < shards := by omega
      refine returns_of_visiting orders total shardOf s ⟨[.advanceShutdown], ?_⟩
      simp [step, RuntimeRegistry.advanceShutdown, atPc, past]
  | succ missing ih =>
      have inside : shard < shards := by omega
      have lists : CanReach (step orders total shardOf)
          (fun t => ∃ remaining, t.shutdown = .listing deadline ordered remaining (shard + 1)) s := by
        refine ⟨[.listed (s.shardTypes shardOf shard)], ?_⟩
        simp [step, listShard, atPc, inside]
      refine lists.bind ?_
      intro t listing
      obtain ⟨more, atNext⟩ := listing
      exact ih t (shard + 1) more atNext (by omega)

/-- Behind the flag the shutdown waits for runtimes only, and each wait can end. -/
theorem flagged_returns (s : RuntimeRegistry) (flagged : s.shutdown.flagged = true) :
    CanReturn orders total shardOf s := by
  have starting : ∀ t : RuntimeRegistry, t.shutdown = .starting → CanReturn orders total shardOf t := by
    intro t atPc
    have lists : CanReach (step orders total shardOf)
        (fun t => ∃ deadline ordered, t.shutdown = .listing deadline ordered [] 0) t := by
      refine ⟨[.advanceShutdown], ?_⟩
      simp [step, RuntimeRegistry.advanceShutdown, atPc]
    refine lists.bind ?_
    intro u listing
    obtain ⟨deadline, ordered, atList⟩ := listing
    exact listing_returns orders total shardOf u deadline 0 ordered [] atList
  cases atPc : s.shutdown with
  | idle =>
      rw [atPc] at flagged
      cases flagged
  | locking =>
      rw [atPc] at flagged
      cases flagged
  | storing =>
      rw [atPc] at flagged
      cases flagged
  | unlocking =>
      have starts : CanReach (step orders total shardOf) (fun t => t.shutdown = .starting) s := by
        refine ⟨[.advanceShutdown], ?_⟩
        simp [step, RuntimeRegistry.advanceShutdown, atPc]
      exact starts.bind starting
  | starting => exact starting s atPc
  | listing deadline ordered remaining shard =>
      exact listing_returns orders total shardOf s deadline shard ordered remaining atPc
  | visiting stages => exact visiting_returns orders total shardOf s stages atPc
  | waiting stages type timeout =>
      refine (waiting_goes_on orders total shardOf s stages type timeout atPc).bind ?_
      intro t moved
      obtain ⟨reports, atNext⟩ := moved
      exact visiting_returns orders total shardOf t _ atNext
  | removing stages type =>
      apply returns_of_visiting
      by_cases present : type ∈ s.runtimes
      · refine ⟨[.advanceShutdown, .runtimeDown ⟨.graceful, 0, 0, 0, []⟩], ?_⟩
        simp [step, RuntimeRegistry.advanceShutdown, atPc, present, next]
      · refine ⟨[.advanceShutdown], ?_⟩
        simp [step, RuntimeRegistry.advanceShutdown, atPc, present, next]
  | stopping stages type =>
      refine returns_of_visiting orders total shardOf s ⟨[.runtimeDown ⟨.graceful, 0, 0, 0, []⟩], ?_⟩
      simp [step, atPc, next]
  | waitingMain reports timeout => exact waitingMain_returns orders total shardOf s reports timeout atPc
  | takingMain reports => exact .here ⟨reports, by rw [atPc]; rfl⟩
  | stoppingMain reports => exact .here ⟨reports, by rw [atPc]; rfl⟩
  | finished reports => exact .here ⟨reports, by rw [atPc]; rfl⟩

/-- The flag divides a run: a call that returns `Ok` had done so before the flag, and every runtime of the
registry at the flag is visited once, in the order of the shutdown. Whatever has happened since, the
shutdown can go on until it returns. -/
theorem shutdown_visits_each_runtime_once (front back : List RegistryAct) (act : RegistryAct)
    (clear : (new.run orders total shardOf front).shuttingDown = false)
    (set : ((new.run orders total shardOf front).step orders total shardOf act).shuttingDown = true) :
    (∀ call type,
        (new.run orders total shardOf (front ++ act :: back)).registers call = .returned (.ok type) →
          (new.run orders total shardOf front).registers call = .returned (.ok type) ∧
            type ∈ (new.run orders total shardOf front).runtimes) ∧
      CanReturn orders total shardOf (new.run orders total shardOf (front ++ act :: back)) ∧
      ∀ reports, (new.run orders total shardOf (front ++ act :: back)).shutdown.reports = some reports →
        VisitedOnce orders (new.run orders total shardOf front).runtimes
          (new.run orders total shardOf (front ++ act :: back)) reports := by
  have gated := run_gated orders total shardOf front
  obtain ⟨storing, stored⟩ := flag_stored orders total shardOf _ act clear set
  have early : (new.run orders total shardOf front).shutdown.flagged = false := by rw [storing]; rfl
  have main := gated.main early
  have start := frozen_start orders shardOf gated storing
  have next := gated.step orders total shardOf act
  rw [stored] at next
  have frozen := frozen_run orders total shardOf main gated.nodup next start back
  have whole : new.run orders total shardOf (front ++ act :: back) =
      RuntimeRegistry.run orders total shardOf { new.run orders total shardOf front with
        shuttingDown := true, shutdown := .unlocking } back := by
    rw [← stored]
    exact runFrom_append new front (act :: back)
  rw [whole]
  refine ⟨?_, flagged_returns orders total shardOf _ frozen.late, frozen.visitedOnce orders shardOf main⟩
  intro call type ok
  have before := frozen.calls call type (by rw [ok]; rfl)
  exact ⟨before, gated.kept call type (by rw [before]; rfl) early⟩

def registerTwo : List RegistryAct :=
  [.register 0 .httpApi, .advanceRegister 0, .advanceRegister 0, .advanceRegister 0, .advanceRegister 0,
    .register 1 .commonIo, .advanceRegister 1, .advanceRegister 1, .advanceRegister 1, .advanceRegister 1,
    .register 2 .machineLearning, .shutdown, .advanceShutdown]

/-- The third call is refused, and the registry is listed. -/
def listTwo : List RegistryAct :=
  [.advanceShutdown, .advanceRegister 2, .advanceRegister 2, .advanceRegister 2, .advanceShutdown,
    .listed [.commonIo, .main, .httpApi]]

def visitThree (report : RuntimeShutdownReport) : List RegistryAct :=
  [.advanceShutdown, .advanceShutdown, .advanceShutdown, .waited, .advanceShutdown, .runtimeDown report,
    .advanceShutdown, .waited, .advanceShutdown, .runtimeDown report, .advanceShutdown,
    .mainWaited report, .advanceShutdown, .advanceShutdown]

theorem appendOmitted_two :
    appendOmitted [.database, .httpApi] [.commonIo, .httpApi] = [.database, .httpApi, .commonIo] := by
  have sorted : [RuntimeType.commonIo, .httpApi].mergeSort byThreadName = [.commonIo, .httpApi] := by
    apply List.mergeSort_of_pairwise
    simp [byThreadName, RuntimeType.asThreadName]
  rw [appendOmitted, sorted]
  decide

theorem reports_of_three (s : RuntimeRegistry) (deadline : Nat) (report : RuntimeShutdownReport)
    (runtimes : s.runtimes = [.main, .httpApi, .commonIo])
    (atPc : s.shutdown = .listing deadline [.database, .httpApi] [.commonIo, .httpApi] 1) :
    (s.run orders total (fun _ => (0 : Fin 1)) (visitThree report)).shutdown.reports =
      some [⟨.httpApi, report⟩, ⟨.commonIo, report⟩, ⟨.main, report⟩] := by
  simp [visitThree, run, step, RuntimeRegistry.advanceShutdown, atPc, appendOmitted_two,
    RuntimeRegistry.visit, runtimes, next, pushReport, ShutdownPc.reports]

def orderThree : List RuntimeType := [.main, .database, .httpApi, .httpApi]

theorem listed_two :
    let listed := new.run orderThree (.ofNanos 8000000000) (fun _ => (0 : Fin 1))
      (registerTwo ++ .advanceShutdown :: listTwo)
    listed.runtimes = [.main, .httpApi, .commonIo] ∧
      listed.shutdown = .listing 8000000000 [.database, .httpApi] [.commonIo, .httpApi] 1 := ⟨rfl, rfl⟩

theorem reports_of_two (report : RuntimeShutdownReport) :
    (new.run orderThree (.ofNanos 8000000000) (fun _ => (0 : Fin 1))
      (registerTwo ++ .advanceShutdown :: (listTwo ++ visitThree report))).shutdown.reports =
      some [⟨.httpApi, report⟩, ⟨.commonIo, report⟩, ⟨.main, report⟩] := by
  have split : registerTwo ++ .advanceShutdown :: (listTwo ++ visitThree report) =
      (registerTwo ++ .advanceShutdown :: listTwo) ++ visitThree report := rfl
  rw [split, run, runFrom_append]
  exact reports_of_three orderThree (.ofNanos 8000000000) _ 8000000000 report listed_two.1 listed_two.2

/-- Two runtimes are registered before the flag and a third call comes too late. The shutdown returns the
reports of the two in its order and of the main runtime. -/
theorem shutdown_of_two_runtimes :
    let report : RuntimeShutdownReport := ⟨.graceful, 0, 0, 0, []⟩
    let mid := new.run orderThree (.ofNanos 8000000000) (fun _ => (0 : Fin 1)) registerTwo
    let last := new.run orderThree (.ofNanos 8000000000) (fun _ => (0 : Fin 1))
      (registerTwo ++ .advanceShutdown :: (listTwo ++ visitThree report))
    let reports : List TypedReport := [⟨.httpApi, report⟩, ⟨.commonIo, report⟩, ⟨.main, report⟩]
    last.shutdown.reports = some reports ∧ VisitedOnce orderThree mid.runtimes last reports := by
  intro report mid last reports
  have spec := shutdown_visits_each_runtime_once orderThree (.ofNanos 8000000000) (fun _ => (0 : Fin 1))
    registerTwo (listTwo ++ visitThree report) .advanceShutdown (by decide) (by decide)
  exact ⟨reports_of_two report, spec.2.2 reports (reports_of_two report)⟩

end RuntimeRegistry

end Pigs.Utils.Rt
