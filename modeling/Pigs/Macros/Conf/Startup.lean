import Pigs.Lib.Run
import Pigs.Macros.Conf.Attr

/-! Reading the configuration of the service: the function `conf()` of the structs that carry the attribute,
and `init_cfg`, which checks the registered ones. -/

open Pigs.Lib

namespace Pigs.Macros.Conf

/-- `serde_yaml::Value` -/
inductive Yaml where
  | null
  | bool (value : Bool)
  | number (text : String)
  | string (text : String)
  | sequence (items : List Yaml)
  | mapping (map : List (Yaml × Yaml))
  | tagged (tag : String) (value : Yaml)

def Yaml.isKey (key : String) : Yaml → Bool
  | .string text => text = key
  | _ => false

/-- The loop over the keys of the prefix. -/
def walk : List String → Yaml → Except String Yaml
  | [], targetValue => .ok targetValue
  | key :: keys, .mapping map =>
      match map.find? fun entry => entry.1.isKey key with
      | some entry => walk keys entry.2
      | none => .error "Specified prefix not found in YAML"
  | _ :: _, _ => .error "Invalid YAML structure for the specified prefix"

def prefixKeys (prefixPath : Option String) : List String :=
  match prefixPath with
  | none => []
  | some path => (path.toList.splitOn '.').map String.ofList

/-- A struct that carries the attribute. `fromValue` is its deserialization, by the proxy struct or not, and
a struct that registers itself reads the configuration of the service. -/
structure Struct (V : Type) where
  typeName : String
  expansion : Expansion
  fromValue : Bool → Yaml → Option V
  fieldCheck : V → Except String Unit
  fromService : expansion.registration.isSome → expansion.loader.path = none

/-- What the macro writes keeps to the field `fromService`. -/
theorem expansion_from_service (isUppercase : Char → Bool) (isPath : String → Bool)
    (toUppercase : Char → List Char) (attrs : List TokenTree) (structName : String) (data : StructData)
    (expansion : Expansion) (written : conf isUppercase isPath toUppercase attrs structName data = .ok expansion)
    (registers : expansion.registration.isSome) : expansion.loader.path = none := by
  rw [conf] at written
  cases parsed : parseAttr toUppercase attrs with
  | error message => rw [parsed] at written; cases written
  | ok attr =>
      rw [parsed] at written
      have build := (build_ok isUppercase isPath attr structName data expansion).mp written
      rw [build.2.2] at registers ⊢
      cases path : attr.path with
      | none => rfl
      | some file => simp [path] at registers

/-- A struct with what the macro writes for it. -/
def Struct.ofConf {V : Type} {isUppercase : Char → Bool} {isPath : String → Bool} {toUppercase : Char → List Char}
    {attrs : List TokenTree} {structName : String} {data : StructData} {expansion : Expansion}
    (written : conf isUppercase isPath toUppercase attrs structName data = .ok expansion) (typeName : String)
    (fromValue : Bool → Yaml → Option V) (fieldCheck : V → Except String Unit) : Struct V where
  typeName := typeName
  expansion := expansion
  fromValue := fromValue
  fieldCheck := fieldCheck
  fromService := expansion_from_service isUppercase isPath toUppercase attrs structName data expansion written

abbrev Files := String → Option String

def expect {A : Type} (message : String) : Option A → Except String A
  | some value => .ok value
  | none => .error message

section Load

variable {V : Type} (fromStr : String → Option Yaml)

def Struct.mapValue (struct : Struct V) (yamlValue : Yaml) : Except String V := do
  let targetValue ← walk (prefixKeys struct.expansion.loader.prefixPath) yamlValue
  if struct.expansion.loader.proxy then
    expect "Failed to map YAML value to struct with defaults" (struct.fromValue true targetValue)
  else
    expect "Failed to map YAML value to struct" (struct.fromValue false targetValue)

/-- `conf()`, where `config` is the content of `CONF`. -/
def Struct.conf (struct : Struct V) (files : Files) (config : Option String) : Except String V := do
  match struct.expansion.loader.path with
  | none =>
      let yamlContent ← expect "service configuration has not yet been initialized" config
      let yamlValue ← expect "Failed to parse YAML content" (fromStr yamlContent)
      struct.mapValue yamlValue
  | some path =>
      let yamlContent ← expect "Failed to read YAML file" (files path)
      let yamlValue ← expect "Failed to parse YAML" (fromStr yamlContent)
      struct.mapValue yamlValue

def Struct.checks (struct : Struct V) : Bool := (struct.expansion.registration.map Registration.check).getD false

/-- The closure that the struct registers. It reads no file. -/
def Struct.validate (struct : Struct V) (config : Option String) : Except String (Except String Unit) := do
  let value ← struct.conf fromStr (fun _ => none) config
  .ok (if struct.checks then struct.fieldCheck value else .ok ())

end Load

/-! The process. -/

abbrev Instances (V : Type) := List (String × Struct V)

/-- A call of `init_cfg`; one that panicked had set `CONF`, or not. -/
inductive InitCall (V : Type) where
  | opening (path : String)
  | read (content : String)
  | initialized
  | validating (done rest : Instances V) (errMsg : String)
  | returned (done : Instances V)
  | exited (done : Instances V) (errMsg : String)
  | panicked (set : Bool) (message : String)

/-- `holder` is the call that holds the lock of `INSTANCES`. -/
structure Process (V : Type) where
  config : Option String
  instances : Instances V
  holder : Option Nat
  poisoned : Bool
  exited : Bool
  calls : Nat → Option (InitCall V)

/-- What the opening of the configuration file gives. -/
inductive Opened where
  | notFound
  | unreadable
  | content (text : String)

/-- `order` is the order in which the hash map is iterated. -/
inductive Act (V : Type) where
  | register (struct : Struct V)
  | initCfg (id : Nat) (path : String)
  | advance (id : Nat) (file : String → Opened) (order : List Nat)

namespace Process

variable {V : Type}

def new : Process V where
  config := none
  instances := []
  holder := none
  poisoned := false
  exited := false
  calls _ := none

def setCall (s : Process V) (id : Nat) (call : InitCall V) : Process V :=
  { s with calls := fun other => if other = id then some call else s.calls other }

def registerFunction (s : Process V) (struct : Struct V) : Process V :=
  if struct.expansion.registration.isSome ∧ s.holder = none ∧ s.poisoned = false then
    { s with instances := s.instances.filter (fun entry => entry.1 ≠ struct.typeName) ++ [(struct.typeName, struct)] }
  else
    s

def line (name err : String) : String := name ++ ": " ++ err ++ "\n"

/-- The next step of a call of `init_cfg`. -/
def advance (fromStr : String → Option Yaml) (s : Process V) (id : Nat) (file : String → Opened)
    (order : List Nat) : InitCall V → Process V
  | .opening path =>
      match file path with
      | .notFound => s.setCall id (.panicked false "not found config file to open")
      | .unreadable => s.setCall id (.panicked false "read file content to string failed")
      | .content text => s.setCall id (.read text)
  | .read content =>
      if s.config.isSome then
        s.setCall id (.panicked false "form config of service has been initialized")
      else
        { s with config := some content }.setCall id .initialized
  | .initialized =>
      if s.poisoned then
        s.setCall id (.panicked true "PoisonError")
      else if s.holder = none ∧ order.Perm (List.range s.instances.length) then
        { s with holder := some id }.setCall id (.validating [] (order.filterMap fun i => s.instances[i]?) "")
      else
        s
  | .validating done [] errMsg =>
      if errMsg = "" then
        { s with holder := none }.setCall id (.returned done)
      else
        { s with holder := none, exited := true }.setCall id (.exited done errMsg)
  | .validating done (entry :: rest) errMsg =>
      match entry.2.validate fromStr s.config with
      | .error message => { s with holder := none, poisoned := true }.setCall id (.panicked true message)
      | .ok (.error err) => s.setCall id (.validating (done ++ [entry]) rest (errMsg ++ line entry.1 err))
      | .ok (.ok _) => s.setCall id (.validating (done ++ [entry]) rest errMsg)
  | .returned _ => s
  | .exited _ _ => s
  | .panicked _ _ => s

def step (fromStr : String → Option Yaml) (s : Process V) : Act V → Process V
  | .register struct => if s.exited then s else s.registerFunction struct
  | .initCfg id path => if s.exited ∨ (s.calls id).isSome then s else s.setCall id (.opening path)
  | .advance id file order =>
      if s.exited then s
      else
        match s.calls id with
        | none => s
        | some call => s.advance fromStr id file order call

def run (fromStr : String → Option Yaml) (s : Process V) (acts : List (Act V)) : Process V :=
  runFrom (step fromStr) s acts

end Process

/-! What a registered struct makes of the configuration. -/

section Verdict

variable {V : Type} (fromStr : String → Option Yaml) (content : String)

/-- `conf()` gives a value, whatever the file system holds. -/
def Struct.Loads (struct : Struct V) : Prop :=
  ∃ value, ∀ files, struct.conf fromStr files (some content) = .ok value

/-- The value of `conf()` passes the check of its fields as well. -/
def Struct.Passes (struct : Struct V) : Prop :=
  ∃ value, (∀ files, struct.conf fromStr files (some content) = .ok value) ∧
    (struct.checks = true → struct.fieldCheck value = .ok ())

variable {fromStr content} {struct : Struct V}

theorem Struct.Passes.loads (passes : struct.Passes fromStr content) : struct.Loads fromStr content :=
  passes.imp fun _ value => value.1

theorem Struct.conf_files (registered : struct.expansion.registration.isSome) (files other : Files)
    (config : Option String) : struct.conf fromStr files config = struct.conf fromStr other config := by
  simp only [Struct.conf, struct.fromService registered]

/-- The closure fails where the struct does not load, and passes the verdict of the check on. -/
inductive Struct.Verdict (fromStr : String → Option Yaml) (content : String) (struct : Struct V) : Prop where
  | broken (message : String) (unloaded : ¬ struct.Loads fromStr content)
      (result : struct.validate fromStr (some content) = .error message)
  | refused (err : String) (loads : struct.Loads fromStr content) (refuses : ¬ struct.Passes fromStr content)
      (result : struct.validate fromStr (some content) = .ok (.error err))
  | passed (passes : struct.Passes fromStr content)
      (result : struct.validate fromStr (some content) = .ok (.ok ()))

theorem Struct.verdict (fromStr : String → Option Yaml) (content : String) (struct : Struct V)
    (registered : struct.expansion.registration.isSome) : struct.Verdict fromStr content := by
  have same : ∀ files, struct.conf fromStr files (some content) =
      struct.conf fromStr (fun _ => none) (some content) :=
    fun files => Struct.conf_files registered files _ _
  cases loaded : struct.conf fromStr (fun _ => none) (some content) with
  | error message =>
      refine .broken message ?_ ?_
      · rintro ⟨value, all⟩
        rw [all] at loaded
        cases loaded
      · rw [Struct.validate, loaded]
        rfl
  | ok value =>
      have loads : ∀ files, struct.conf fromStr files (some content) = .ok value :=
        fun files => (same files).trans loaded
      have result : struct.validate fromStr (some content) =
          .ok (if struct.checks then struct.fieldCheck value else .ok ()) := by
        rw [Struct.validate, loaded]
        rfl
      cases checks : struct.checks with
      | false =>
          rw [checks] at result
          exact .passed ⟨value, loads, fun impossible => by rw [checks] at impossible; cases impossible⟩ result
      | true =>
          rw [checks] at result
          cases checked : struct.fieldCheck value with
          | error err =>
              refine .refused err ⟨value, loads⟩ ?_ (by rw [result, if_pos rfl, checked])
              rintro ⟨other, all, fine⟩
              have equal : value = other := Except.ok.inj (loaded.symm.trans (all _))
              rw [← equal, checked] at fine
              cases fine checks
          | ok done => exact .passed ⟨value, loads, fun _ => checked⟩ (by rw [result, if_pos rfl, checked])

/-- The line that the report holds for a struct. -/
def failure (fromStr : String → Option Yaml) (content : String) (entry : String × Struct V) : Option String :=
  match entry.2.validate fromStr (some content) with
  | .ok (.error err) => some (Process.line entry.1 err)
  | _ => none

def report (fromStr : String → Option Yaml) (content : String) (done : Instances V) : String :=
  String.join (done.filterMap (failure fromStr content))

theorem line_ne_empty (name err : String) : Process.line name err ≠ "" := by
  intro empty
  have chars := congrArg String.toList empty
  simp [Process.line] at chars

theorem report_concat (done : Instances V) (entry : String × Struct V) :
    report fromStr content (done ++ [entry]) =
      report fromStr content done ++ (failure fromStr content entry).getD "" := by
  cases found : failure fromStr content entry <;> simp [report, found, String.join_append]

/-- The report is empty where every struct passes. -/
theorem report_eq_empty_iff (done : Instances V) (registered : ∀ e ∈ done, e.2.expansion.registration.isSome)
    (loads : ∀ e ∈ done, e.2.Loads fromStr content) :
    report fromStr content done = "" ↔ ∀ e ∈ done, e.2.Passes fromStr content := by
  induction done using List.reverseRecOn with
  | nil => simp [report, String.join]
  | append_singleton done entry ih =>
      have earlier := ih (fun e member => registered e (List.mem_append_left _ member))
        fun e member => loads e (List.mem_append_left _ member)
      have last : entry ∈ done ++ [entry] := List.mem_append_right _ (List.mem_singleton_self entry)
      have all : (∀ e ∈ done ++ [entry], e.2.Passes fromStr content) ↔
          (∀ e ∈ done, e.2.Passes fromStr content) ∧ entry.2.Passes fromStr content := by
        simp [or_imp, forall_and]
      rw [report_concat, String.append_eq_empty_iff, earlier, all]
      refine and_congr_right fun _ => ?_
      cases entry.2.verdict fromStr content (registered entry last) with
      | broken message unloaded result => exact absurd (loads entry last) unloaded
      | refused err _ refuses result => simp [failure, result, line_ne_empty, refuses]
      | passed passes result => simp [failure, result, passes]

end Verdict

/-! What a step of a call does. -/

theorem filterMap_range {A : Type} (items : List A) :
    (List.range items.length).filterMap (fun i => items[i]?) = items := by
  induction items using List.reverseRecOn with
  | nil => rfl
  | append_singleton items item ih =>
      rw [List.length_append, List.length_singleton, List.range_succ, List.filterMap_append]
      have front : (List.range items.length).filterMap (fun i => (items ++ [item])[i]?) = items := by
        refine Eq.trans (List.filterMap_congr fun i member => ?_) ih
        exact List.getElem?_append_left (List.mem_range.mp member)
      rw [front]
      simp

namespace Process

variable {V : Type} {fromStr : String → Option Yaml}

/-- What the verdict on a struct adds to the report. -/
def added (name : String) : Except String Unit → String
  | .ok _ => ""
  | .error err => line name err

inductive Advance (fromStr : String → Option Yaml) (s : Process V) (id : Nat) : InitCall V → Process V → Prop where
  | unopened (path message : String) : Advance fromStr s id (.opening path) (s.setCall id (.panicked false message))
  | opened (path text : String) : Advance fromStr s id (.opening path) (s.setCall id (.read text))
  | again (content message : String) : Advance fromStr s id (.read content) (s.setCall id (.panicked false message))
  | sets (content : String) (unset : s.config = none) :
      Advance fromStr s id (.read content) ({ s with config := some content }.setCall id .initialized)
  | poisoned (message : String) (broken : s.poisoned = true) :
      Advance fromStr s id .initialized (s.setCall id (.panicked true message))
  | stays (call : InitCall V) : Advance fromStr s id call s
  | lock (order : Instances V) (free : s.holder = none) (same : order.Perm s.instances) :
      Advance fromStr s id .initialized ({ s with holder := some id }.setCall id (.validating [] order ""))
  | finish (done : Instances V) :
      Advance fromStr s id (.validating done [] "") ({ s with holder := none }.setCall id (.returned done))
  | exit (done : Instances V) (errMsg : String) (failed : errMsg ≠ "") :
      Advance fromStr s id (.validating done [] errMsg)
        ({ s with holder := none, exited := true }.setCall id (.exited done errMsg))
  | broken (done rest : Instances V) (entry : String × Struct V) (errMsg message : String) :
      Advance fromStr s id (.validating done (entry :: rest) errMsg)
        ({ s with holder := none, poisoned := true }.setCall id (.panicked true message))
  | validated (done rest : Instances V) (entry : String × Struct V) (errMsg : String)
      (result : Except String Unit) (validates : entry.2.validate fromStr s.config = .ok result) :
      Advance fromStr s id (.validating done (entry :: rest) errMsg)
        (s.setCall id (.validating (done ++ [entry]) rest (errMsg ++ added entry.1 result)))

theorem advance_cases (s : Process V) (id : Nat) (file : String → Opened) (order : List Nat) (call : InitCall V) :
    Advance fromStr s id call (s.advance fromStr id file order call) := by
  cases call with
  | opening path =>
      simp only [advance]
      cases file path with
      | notFound => exact .unopened path _
      | unreadable => exact .unopened path _
      | content text => exact .opened path text
  | read content =>
      simp only [advance]
      cases config : s.config with
      | some other => exact .again content _
      | none => exact .sets content config
  | initialized =>
      simp only [advance]
      split_ifs with broken free
      · exact .poisoned _ broken
      · refine .lock _ free.1 ?_
        simpa [filterMap_range] using free.2.filterMap fun i => s.instances[i]?
      · exact .stays _
  | validating done rest errMsg =>
      cases rest with
      | nil =>
          simp only [advance]
          split_ifs with empty
          · subst empty
            exact .finish done
          · exact .exit done errMsg empty
      | cons entry rest =>
          simp only [advance]
          cases validates : entry.2.validate fromStr s.config with
          | error message => exact .broken done rest entry errMsg message
          | ok result =>
              cases result with
              | error err => exact .validated done rest entry errMsg _ validates
              | ok fine => simpa [added] using Advance.validated done rest entry errMsg _ validates
  | returned done => exact .stays _
  | exited done errMsg => exact .stays _
  | panicked set message => exact .stays _

end Process

/-- The call has set `CONF`. -/
def InitCall.past {V : Type} : InitCall V → Bool
  | opening _ => false
  | read _ => false
  | panicked set _ => set
  | _ => true

namespace Process

variable {V : Type} {fromStr : String → Option Yaml} {s : Process V}

/-- What a call has found out so far. -/
def Found (fromStr : String → Option Yaml) (s : Process V) (id : Nat) : InitCall V → Prop
  | .opening _ => True
  | .read _ => True
  | .initialized => s.config.isSome
  | .validating done rest errMsg =>
      s.holder = some id ∧ (done ++ rest).Perm s.instances ∧ ∃ content, s.config = some content ∧
        (∀ e ∈ done, e.2.Loads fromStr content) ∧ errMsg = report fromStr content done
  | .returned done =>
      ∃ content, s.config = some content ∧ ∀ e ∈ done, e.2.Passes fromStr content
  | .exited done errMsg =>
      ∃ content, s.config = some content ∧ (∀ e ∈ done, e.2.Loads fromStr content) ∧
        errMsg = report fromStr content done ∧ ∃ e ∈ done, ¬ e.2.Passes fromStr content
  | .panicked set _ => set = true → s.config.isSome

structure Sound (fromStr : String → Option Yaml) (s : Process V) : Prop where
  registered : ∀ e ∈ s.instances, e.2.expansion.registration.isSome
  found : ∀ id call, s.calls id = some call → Found fromStr s id call
  one : ∀ i j first second, s.calls i = some first → s.calls j = some second → first.past → second.past → i = j

theorem Found.config (id : Nat) (call : InitCall V) (found : Found fromStr s id call) (past : call.past) :
    s.config.isSome := by
  cases call with
  | opening path => cases past
  | read content => cases past
  | panicked set message => exact found past
  | initialized => exact found
  | validating done rest errMsg =>
      rcases found with ⟨_, _, content, config, _⟩
      exact config ▸ rfl
  | returned done =>
      rcases found with ⟨content, config, _⟩
      exact config ▸ rfl
  | exited done errMsg =>
      rcases found with ⟨content, config, _⟩
      exact config ▸ rfl

/-- What a call has found out stays true as long as the configuration, and under its lock the registered
structs, stay. -/
theorem Found.keep {t : Process V} (id : Nat) (call : InitCall V) (found : Found fromStr s id call)
    (config : ∀ content, s.config = some content → t.config = some content)
    (held : s.holder = some id → t.holder = some id ∧ t.instances = s.instances) : Found fromStr t id call := by
  have stays (before : s.config.isSome) : t.config.isSome := by
    obtain ⟨content, set⟩ := Option.isSome_iff_exists.mp before
    exact Option.isSome_iff_exists.mpr ⟨content, config content set⟩
  cases call with
  | opening path => trivial
  | read content => trivial
  | panicked set message => exact fun past => stays (found past)
  | initialized => exact stays found
  | validating done rest errMsg =>
      obtain ⟨holds, same, content, set, loads⟩ := found
      obtain ⟨kept, instances⟩ := held holds
      exact ⟨kept, instances ▸ same, content, config content set, loads⟩
  | returned done =>
      obtain ⟨content, set, passes⟩ := found
      exact ⟨content, config content set, passes⟩
  | exited done errMsg =>
      obtain ⟨content, set, rest⟩ := found
      exact ⟨content, config content set, rest⟩

theorem setCall_self (id : Nat) (call : InitCall V) : (s.setCall id call).calls id = some call := if_pos rfl

theorem setCall_other (id other : Nat) (call : InitCall V) (different : other ≠ id) :
    (s.setCall id call).calls other = s.calls other := if_neg different

/-- A step of one call, from `s` with its fields changed to `t`, keeps the process sound. -/
theorem Sound.setCall {t : Process V} (sound : Sound fromStr s) (id : Nat) (call : InitCall V)
    (calls : t.calls = s.calls) (instances : t.instances = s.instances)
    (config : ∀ content, s.config = some content → t.config = some content)
    (held : ∀ other ≠ id, s.holder = some other → t.holder = some other)
    (found : Found fromStr (t.setCall id call) id call)
    (first : call.past → ∀ other later, other ≠ id → s.calls other = some later → later.past = false) :
    Sound fromStr (t.setCall id call) where
  registered e member := sound.registered e (instances ▸ member)
  found other later present := by
    by_cases same : other = id
    · subst same
      rw [setCall_self] at present
      cases present
      exact found
    · rw [setCall_other id other call same, calls] at present
      exact (sound.found other later present).keep other later config fun holds =>
        ⟨held other same holds, instances⟩
  one i j a b here there pastA pastB := by
    by_cases sameI : i = id
    · by_cases sameJ : j = id
      · exact sameI.trans sameJ.symm
      · subst sameI
        rw [setCall_self] at here
        cases here
        rw [setCall_other i j call sameJ, calls] at there
        rw [first pastA j b sameJ there] at pastB
        cases pastB
    · rw [setCall_other id i call sameI, calls] at here
      by_cases sameJ : j = id
      · subst sameJ
        rw [setCall_self] at there
        cases there
        rw [first pastB i a sameI here] at pastA
        cases pastA
      · rw [setCall_other id j call sameJ, calls] at there
        exact sound.one i j a b here there pastA pastB

/-- The lock is in the hands of the call that validates. -/
theorem Sound.held (sound : Sound fromStr s) (id other : Nat) (done rest : Instances V) (errMsg : String)
    (present : s.calls id = some (.validating done rest errMsg)) (different : other ≠ id) :
    s.holder ≠ some other := by
  obtain ⟨holds, _⟩ := sound.found id _ present
  rw [holds]
  intro equal
  exact different (Option.some.inj equal).symm

/-- Only one call gets past `CONF`. -/
theorem Sound.alone (sound : Sound fromStr s) (id other : Nat) (call later : InitCall V)
    (present : s.calls id = some call) (past : call.past) (different : other ≠ id)
    (there : s.calls other = some later) : later.past = false := by
  by_contra still
  exact different (sound.one other id later call there present (by simpa using still) past)

theorem Sound.advance {t : Process V} (sound : Sound fromStr s) (id : Nat) (call : InitCall V)
    (present : s.calls id = some call) (advance : Advance fromStr s id call t) : Sound fromStr t := by
  have found := sound.found id call present
  cases advance with
  | stays call => exact sound
  | unopened path message =>
      exact sound.setCall id _ rfl rfl (fun _ set => set) (fun _ _ holds => holds) (fun past => by cases past)
        fun past => by cases past
  | opened path text =>
      exact sound.setCall id _ rfl rfl (fun _ set => set) (fun _ _ holds => holds) trivial fun past => by cases past
  | again content message =>
      exact sound.setCall id _ rfl rfl (fun _ set => set) (fun _ _ holds => holds) (fun past => by cases past)
        fun past => by cases past
  | poisoned message broken =>
      exact sound.setCall id _ rfl rfl (fun _ set => set) (fun _ _ holds => holds) (fun _ => found)
        fun _ other later different there => sound.alone id other _ later present rfl different there
  | sets content unset =>
      refine sound.setCall id _ rfl rfl ?_ (fun _ _ holds => holds) rfl fun _ other later _ there => ?_
      · intro earlier set
        rw [unset] at set
        cases set
      · by_contra past
        have config := (sound.found other later there).config other later (by simpa using past)
        rw [unset] at config
        cases config
  | lock order free same =>
      obtain ⟨content, set⟩ := Option.isSome_iff_exists.mp found
      refine sound.setCall id _ rfl rfl (fun _ set => set) ?_ ?_ fun _ other later different there =>
        sound.alone id other _ later present rfl different there
      · intro other _ holds
        rw [free] at holds
        cases holds
      · exact ⟨rfl, same, content, set, fun _ absent => (by cases absent), rfl⟩
  | finish done =>
      obtain ⟨holds, same, content, set, loads, empty⟩ := found
      rw [List.append_nil] at same
      refine sound.setCall id _ rfl rfl (fun _ set => set) ?_ ?_ fun _ other later different there =>
        sound.alone id other _ later present rfl different there
      · exact fun other different holds => absurd holds (sound.held id other _ _ _ present different)
      · exact ⟨content, set, (report_eq_empty_iff done
          (fun e member => sound.registered e (same.mem_iff.mp member)) loads).mp empty.symm⟩
  | exit done errMsg failed =>
      obtain ⟨holds, same, content, set, loads, reported⟩ := found
      rw [List.append_nil] at same
      refine sound.setCall id _ rfl rfl (fun _ set => set) ?_ ?_ fun _ other later different there =>
        sound.alone id other _ later present rfl different there
      · exact fun other different holds => absurd holds (sound.held id other _ _ _ present different)
      · refine ⟨content, set, loads, reported, ?_⟩
        by_contra none
        push Not at none
        exact failed (reported.trans ((report_eq_empty_iff done
          (fun e member => sound.registered e (same.mem_iff.mp member)) loads).mpr none))
  | broken done rest entry errMsg message =>
      obtain ⟨holds, same, content, set, loads⟩ := found
      refine sound.setCall id _ rfl rfl (fun _ set => set) ?_ (fun _ => set ▸ rfl)
        fun _ other later different there => sound.alone id other _ later present rfl different there
      exact fun other different holds => absurd holds (sound.held id other _ _ _ present different)
  | validated done rest entry errMsg result validates =>
      obtain ⟨holds, same, content, set, loads, reported⟩ := found
      have registered := sound.registered entry (same.mem_iff.mp (List.mem_append_right _ List.mem_cons_self))
      rw [set] at validates
      have loaded : entry.2.Loads fromStr content := by
        cases entry.2.verdict fromStr content registered with
        | broken message _ failed => rw [failed] at validates; cases validates
        | refused _ loads _ _ => exact loads
        | passed passes _ => exact passes.loads
      refine sound.setCall id _ rfl rfl (fun _ set => set) (fun _ _ holds => holds) ?_
        fun _ other later different there => sound.alone id other _ later present rfl different there
      refine ⟨holds, (List.append_cons done entry rest) ▸ same, content, set, ?_, ?_⟩
      · intro e member
        rcases List.mem_append.mp member with earlier | last
        · exact loads e earlier
        · rwa [List.mem_singleton.mp last]
      · rw [report_concat, ← reported]
        cases result <;> simp [failure, validates, added]

theorem Sound.register (sound : Sound fromStr s) (struct : Struct V) :
    Sound fromStr (s.registerFunction struct) := by
  simp only [registerFunction]
  split_ifs with allowed
  · obtain ⟨registers, free, _⟩ := allowed
    constructor
    · intro e member
      rcases List.mem_append.mp member with earlier | last
      · exact sound.registered e (List.mem_of_mem_filter earlier)
      · rw [List.mem_singleton.mp last]
        exact registers
    · intro id call present
      refine (sound.found id call present).keep id call (fun _ set => set) fun holds => ?_
      rw [free] at holds
      cases holds
    · exact sound.one
  · exact sound

theorem Sound.step (sound : Sound fromStr s) (act : Act V) : Sound fromStr (s.step fromStr act) := by
  cases act with
  | register struct =>
      simp only [Process.step]
      split_ifs
      · exact sound
      · exact sound.register struct
  | initCfg id path =>
      simp only [Process.step]
      split_ifs
      · exact sound
      · exact sound.setCall id _ rfl rfl (fun _ set => set) (fun _ _ holds => holds) trivial
          fun past => by cases past
  | advance id file order =>
      simp only [Process.step]
      split_ifs
      · exact sound
      · cases present : s.calls id with
        | none => exact sound
        | some call => exact sound.advance id call present (advance_cases s id file order call)

theorem new_sound : Sound fromStr (new : Process V) where
  registered _ member := by cases member
  found _ _ absent := by cases absent
  one _ _ _ _ absent := by cases absent

theorem run_sound (fromStr : String → Option Yaml) (acts : List (Act V)) :
    Sound fromStr (run fromStr (new : Process V) acts) :=
  invariant_run (Process.step fromStr) (Sound fromStr) (fun _ act sound => sound.step act) new acts new_sound

/-! The configuration stays, and a call validates all that was registered before it took the lock. -/

theorem Advance.config {t : Process V} {id : Nat} {call : InitCall V} (advance : Advance fromStr s id call t)
    (content : String) (set : s.config = some content) : t.config = some content := by
  cases advance with
  | sets other unset =>
      rw [unset] at set
      cases set
  | _ => exact set

theorem config_step (act : Act V) (content : String) (set : s.config = some content) :
    (s.step fromStr act).config = some content := by
  cases act with
  | register struct =>
      simp only [Process.step, registerFunction]
      split_ifs <;> exact set
  | initCfg id path =>
      simp only [Process.step]
      split_ifs <;> exact set
  | advance id file order =>
      simp only [Process.step]
      split_ifs
      · exact set
      · cases s.calls id with
        | none => exact set
        | some call => exact (advance_cases s id file order call).config content set

theorem config_run (acts : List (Act V)) (content : String) (set : s.config = some content) :
    (run fromStr s acts).config = some content :=
  invariant_run (Process.step fromStr) (fun s => s.config = some content)
    (fun _ act set => config_step act content set) s acts set

end Process

def names {V : Type} (instances : Instances V) : List String := instances.map Prod.fst

/-- The structs that a call goes through, once it has the lock. -/
def InitCall.validated {V : Type} : InitCall V → Option (Instances V)
  | validating done rest _ => some (done ++ rest)
  | returned done => some done
  | exited done _ => some done
  | _ => none

namespace Process

variable {V : Type} {fromStr : String → Option Yaml} {s : Process V}

structure Covers (known : List String) (id : Nat) (s : Process V) : Prop where
  instances : known ⊆ names s.instances
  validated : ∀ call structs, s.calls id = some call → call.validated = some structs → known ⊆ names structs

theorem Covers.register {known : List String} {id : Nat} (covers : Covers known id s) (struct : Struct V) :
    Covers known id (s.registerFunction struct) := by
  simp only [registerFunction]
  split_ifs
  · refine ⟨fun name member => ?_, covers.validated⟩
    obtain ⟨entry, present, rfl⟩ := List.mem_map.mp (covers.instances member)
    by_cases same : entry.1 = struct.typeName
    · exact List.mem_map.mpr ⟨(struct.typeName, struct), List.mem_append_right _ (List.mem_singleton_self _), same.symm⟩
    · exact List.mem_map.mpr ⟨entry, List.mem_append_left _ (List.mem_filter.mpr ⟨present, by simpa using same⟩), rfl⟩
  · exact covers

theorem Covers.setCall {t : Process V} {known : List String} {id : Nat} (covers : Covers known id s) (at' : Nat)
    (call : InitCall V) (calls : t.calls = s.calls) (instances : t.instances = s.instances)
    (kept : at' = id → ∀ structs, call.validated = some structs → known ⊆ names structs) :
    Covers known id (t.setCall at' call) := by
  refine ⟨instances ▸ covers.instances, fun later structs present validated => ?_⟩
  by_cases same : id = at'
  · subst same
    rw [setCall_self] at present
    cases present
    exact kept rfl structs validated
  · rw [setCall_other at' id call same, calls] at present
    exact covers.validated later structs present validated

theorem Covers.advance {t : Process V} {known : List String} {id at' : Nat} (covers : Covers known id s)
    (call : InitCall V) (present : s.calls at' = some call) (advance : Advance fromStr s at' call t) :
    Covers known id t := by
  have before : at' = id → ∀ structs, call.validated = some structs → known ⊆ names structs := by
    rintro rfl structs validated
    exact covers.validated call structs present validated
  cases advance with
  | stays call => exact covers
  | unopened path message => exact covers.setCall at' _ rfl rfl fun _ _ none => by cases none
  | opened path text => exact covers.setCall at' _ rfl rfl fun _ _ none => by cases none
  | again content message => exact covers.setCall at' _ rfl rfl fun _ _ none => by cases none
  | sets content unset => exact covers.setCall at' _ rfl rfl fun _ _ none => by cases none
  | poisoned message broken => exact covers.setCall at' _ rfl rfl fun _ _ none => by cases none
  | broken done rest entry errMsg message => exact covers.setCall at' _ rfl rfl fun _ _ none => by cases none
  | lock order free same =>
      refine covers.setCall at' _ rfl rfl fun _ structs all => ?_
      cases all
      exact fun name member => (same.map Prod.fst).mem_iff.mpr (covers.instances member)
  | finish done =>
      refine covers.setCall at' _ rfl rfl fun same structs all => ?_
      cases all
      exact before same done (congrArg some (List.append_nil done))
  | exit done errMsg failed =>
      refine covers.setCall at' _ rfl rfl fun same structs all => ?_
      cases all
      exact before same done (congrArg some (List.append_nil done))
  | validated done rest entry errMsg result validates =>
      refine covers.setCall at' _ rfl rfl fun same structs all => ?_
      exact before same structs ((congrArg some (List.append_cons done entry rest)).trans all)

theorem Covers.step {known : List String} {id : Nat} (covers : Covers known id s) (act : Act V) :
    Covers known id (s.step fromStr act) := by
  cases act with
  | register struct =>
      simp only [Process.step]
      split_ifs
      · exact covers
      · exact covers.register struct
  | initCfg at' path =>
      simp only [Process.step]
      split_ifs
      · exact covers
      · exact covers.setCall at' _ rfl rfl fun _ _ none => by cases none
  | advance at' file order =>
      simp only [Process.step]
      split_ifs
      · exact covers
      · cases present : s.calls at' with
        | none => exact covers
        | some call => exact covers.advance call present (advance_cases s at' file order call)

theorem covers_run (id : Nat) (acts : List (Act V))
    (before : ∀ call, s.calls id = some call → call.validated = none) :
    Covers (names s.instances) id (run fromStr s acts) := by
  refine invariant_run (Process.step fromStr) _ (fun _ act covers => covers.step act) s acts
    ⟨List.Subset.refl _, fun call structs present validated => ?_⟩
  rw [before call present] at validated
  cases validated

/-! How a call that has set `CONF` ends. -/

theorem advance_over (id : Nat) (file : String → Opened) (order : List Nat) (count : Nat)
    (ended : s.exited = true ∨ ∃ call, s.calls id = some call ∧ s.advance fromStr id file order call = s) :
    run fromStr s (List.replicate count (.advance id file order)) = s := by
  induction count with
  | zero => rfl
  | succ count ih =>
      rw [List.replicate_succ, run, runFrom_cons]
      have stays : s.step fromStr (.advance id file order) = s := by
        rcases ended with exited | ⟨call, present, stays⟩
        · simp [Process.step, exited]
        · simp [Process.step, present, stays]
      rw [stays]
      exact ih

/-- The three ways in which the validation of `rest` ends. -/
inductive Ends (fromStr : String → Option Yaml) (content : String) (id : Nat) (done rest : Instances V)
    (errMsg : String) (t : Process V) : Prop where
  | panicked (message : String) (ended : t.calls id = some (.panicked true message))
      (broken : ∃ e ∈ rest, ¬ e.2.Loads fromStr content)
  | returned (ended : t.calls id = some (.returned (done ++ rest))) (clean : errMsg = "")
      (passes : ∀ e ∈ rest, e.2.Passes fromStr content)
  | exited (report : String) (ended : t.calls id = some (.exited (done ++ rest) report))
      (loads : ∀ e ∈ rest, e.2.Loads fromStr content)
      (refused : errMsg ≠ "" ∨ ∃ e ∈ rest, ¬ e.2.Passes fromStr content)

theorem Ends.cons {content : String} {id : Nat} {done rest : Instances V} {entry : String × Struct V}
    {errMsg after : String} {t : Process V} (ends : Ends fromStr content id (done ++ [entry]) rest after t)
    (loads : entry.2.Loads fromStr content)
    (refused : after = "" ↔ errMsg = "" ∧ entry.2.Passes fromStr content) :
    Ends fromStr content id done (entry :: rest) errMsg t := by
  cases ends with
  | panicked message ended broken => exact .panicked message ended (by simpa using Or.inr broken)
  | returned ended clean passes =>
      have here := refused.mp clean
      exact .returned ((List.append_cons done entry rest) ▸ ended) here.1 (List.forall_mem_cons.mpr ⟨here.2, passes⟩)
  | exited report ended all some =>
      refine .exited report ((List.append_cons done entry rest) ▸ ended)
        (List.forall_mem_cons.mpr ⟨loads, all⟩) ?_
      by_cases clean : errMsg = ""
      · right
        by_cases passes : entry.2.Passes fromStr content
        · rcases some with dirty | ⟨e, member, refuses⟩
          · exact absurd (refused.mpr ⟨clean, passes⟩) dirty
          · exact ⟨e, List.mem_cons_of_mem _ member, refuses⟩
        · exact ⟨entry, List.mem_cons_self, passes⟩
      · exact Or.inl clean

theorem validating_ends (id : Nat) (file : String → Opened) (order : List Nat) (content : String)
    (done rest : Instances V) (errMsg : String) (alive : s.exited = false) (set : s.config = some content)
    (registered : ∀ e ∈ rest, e.2.expansion.registration.isSome)
    (present : s.calls id = some (.validating done rest errMsg)) :
    Ends fromStr content id done rest errMsg
      (run fromStr s (List.replicate (rest.length + 1) (.advance id file order))) := by
  induction rest generalizing s done errMsg with
  | nil =>
      have one : run fromStr s (List.replicate 1 (.advance id file order)) =
          s.advance fromStr id file order (.validating done [] errMsg) := by
        simp [run, Process.step, alive, present]
      rw [List.length_nil, Nat.zero_add, one]
      by_cases clean : errMsg = ""
      · refine .returned ?_ clean fun _ absent => (by cases absent)
        simp only [advance, clean, if_true, List.append_nil]
        exact setCall_self id _
      · refine .exited errMsg ?_ (fun _ absent => (by cases absent)) (Or.inl clean)
        simp only [advance, clean, if_false, List.append_nil]
        exact setCall_self id _
  | cons entry rest ih =>
      have first : run fromStr s (List.replicate (rest.length + 1 + 1) (.advance id file order)) =
          run fromStr (s.advance fromStr id file order (.validating done (entry :: rest) errMsg))
            (List.replicate (rest.length + 1) (.advance id file order)) := by
        rw [List.replicate_succ, run, runFrom_cons]
        simp only [Process.step, alive, present]
        rfl
      have tail := fun e member => registered e (List.mem_cons_of_mem entry member)
      rw [List.length_cons, first]
      cases entry.2.verdict fromStr content (registered entry List.mem_cons_self) with
      | broken message unloaded failed =>
          have next : s.advance fromStr id file order (.validating done (entry :: rest) errMsg) =
              { s with holder := none, poisoned := true }.setCall id (.panicked true message) := by
            simp only [advance, set, failed]
          rw [next, advance_over id file order _ (Or.inr ⟨_, setCall_self id _, rfl⟩)]
          exact .panicked message (setCall_self id _) ⟨entry, List.mem_cons_self, unloaded⟩
      | refused err loads refuses result =>
          have next : s.advance fromStr id file order (.validating done (entry :: rest) errMsg) =
              s.setCall id (.validating (done ++ [entry]) rest (errMsg ++ line entry.1 err)) := by
            simp only [advance, set, result]
          rw [next]
          refine (ih (s := s.setCall id _) _ _ alive set tail (setCall_self id _)).cons loads ?_
          simp [line_ne_empty, refuses]
      | passed passes result =>
          have next : s.advance fromStr id file order (.validating done (entry :: rest) errMsg) =
              s.setCall id (.validating (done ++ [entry]) rest errMsg) := by
            simp only [advance, set, result]
          rw [next]
          refine (ih (s := s.setCall id _) _ _ alive set tail (setCall_self id _)).cons passes.loads ?_
          simp [passes]

theorem initialized_ends (sound : Sound fromStr s) (id : Nat) (file : String → Opened) (order : List Nat)
    (content : String) (alive : s.exited = false) (whole : s.poisoned = false) (free : s.holder = none)
    (set : s.config = some content) (ordered : order.Perm (List.range s.instances.length))
    (present : s.calls id = some .initialized) :
    ∃ structs : Instances V, structs.Perm s.instances ∧
      Ends fromStr content id [] structs "" (run fromStr s
        (List.replicate (s.instances.length + 2) (.advance id file order))) := by
  have same : (order.filterMap fun i => s.instances[i]?).Perm s.instances := by
    simpa [filterMap_range] using ordered.filterMap fun i => s.instances[i]?
  have next : s.step fromStr (.advance id file order) =
      { s with holder := some id }.setCall id (.validating [] (order.filterMap fun i => s.instances[i]?) "") := by
    simp [Process.step, alive, present, advance, whole, free, ordered]
  refine ⟨_, same, ?_⟩
  rw [List.replicate_succ, run, runFrom_cons, next, ← same.length_eq]
  exact validating_ends (s := { s with holder := some id }.setCall id _) id file order content _ _ _ alive set
    (fun e member => sound.registered e (same.mem_iff.mp member)) (setCall_self id _)

/-- How the validation ended, by what the structs make of the configuration. -/
structure EndsBy (fromStr : String → Option Yaml) (content : String) (id : Nat) (instances : Instances V)
    (t : Process V) : Prop where
  returned : (∃ done, t.calls id = some (.returned done)) ↔ ∀ e ∈ instances, e.2.Passes fromStr content
  panicked : (∃ message, t.calls id = some (.panicked true message)) ↔
    ∃ e ∈ instances, ¬e.2.Loads fromStr content
  exited : (∃ done errMsg, t.calls id = some (.exited done errMsg)) ↔
    (∀ e ∈ instances, e.2.Loads fromStr content) ∧ ∃ e ∈ instances, ¬e.2.Passes fromStr content

theorem Ends.by_structs {content : String} {id : Nat} {structs instances : Instances V} {t : Process V}
    (ends : Ends fromStr content id [] structs "" t) (same : structs.Perm instances) :
    EndsBy fromStr content id instances t := by
  have only {call other : InitCall V} (ended : t.calls id = some call) (there : t.calls id = some other) :
      call = other := Option.some.inj (ended.symm.trans there)
  cases ends with
  | panicked message ended broken =>
      obtain ⟨e, member, unloaded⟩ := broken
      have inside := same.mem_iff.mp member
      constructor
      case returned =>
        refine iff_of_false ?_ fun all => unloaded (all e inside).loads
        rintro ⟨done, there⟩
        cases only ended there
      case panicked => exact iff_of_true ⟨message, ended⟩ ⟨e, inside, unloaded⟩
      case exited =>
        refine iff_of_false ?_ fun both => unloaded (both.1 e inside)
        rintro ⟨done, errMsg, there⟩
        cases only ended there
  | returned ended clean passes =>
      have all : ∀ e ∈ instances, e.2.Passes fromStr content := fun e member =>
        passes e (same.mem_iff.mpr member)
      constructor
      case returned => exact iff_of_true ⟨_, ended⟩ all
      case panicked =>
        apply iff_of_false
        · rintro ⟨message, there⟩
          cases only ended there
        · rintro ⟨e, member, unloaded⟩
          exact unloaded (all e member).loads
      case exited =>
        apply iff_of_false
        · rintro ⟨done, errMsg, there⟩
          cases only ended there
        · rintro ⟨_, e, member, refuses⟩
          exact refuses (all e member)
  | exited report ended loads refused =>
      have all : ∀ e ∈ instances, e.2.Loads fromStr content := fun e member =>
        loads e (same.mem_iff.mpr member)
      obtain ⟨e, member, refuses⟩ := refused.resolve_left fun dirty => dirty rfl
      have inside := same.mem_iff.mp member
      constructor
      case returned =>
        refine iff_of_false ?_ fun passes => refuses (passes e inside)
        rintro ⟨done, there⟩
        cases only ended there
      case panicked =>
        apply iff_of_false
        · rintro ⟨message, there⟩
          cases only ended there
        · rintro ⟨other, there, unloaded⟩
          exact unloaded (all other there)
      case exited => exact iff_of_true ⟨_, report, ended⟩ ⟨all, e, inside, refuses⟩

/-- A set configuration stays, and one call at most has set it. It goes through every struct that was
registered before it took the lock. Once it has returned, each of them has a configuration that passes its
check; once it has exited, its report is that of the structs that fail. With the lock free, how it ends
depends on what the registered structs make of the configuration, and not on their order. -/
theorem init_cfg_checks_what_is_registered (fromStr : String → Option Yaml) (acts : List (Act V)) :
    (∀ content, (run fromStr new acts).config = some content →
      ∀ more, (run fromStr new (acts ++ more)).config = some content) ∧
    (∀ i j first second, (run fromStr new acts).calls i = some first → (run fromStr new acts).calls j = some second →
      first.past → second.past → i = j) ∧
    (∀ id call, (run fromStr new acts).calls id = some call → call.past → (run fromStr new acts).config.isSome) ∧
    (∀ id done, (run fromStr new acts).calls id = some (.returned done) →
      ∃ content, (run fromStr new acts).config = some content ∧ ∀ e ∈ done, e.2.Passes fromStr content) ∧
    (∀ id done errMsg, (run fromStr new acts).calls id = some (.exited done errMsg) →
      ∃ content, (run fromStr new acts).config = some content ∧ (∀ e ∈ done, e.2.Loads fromStr content) ∧
        errMsg = report fromStr content done ∧ ∃ e ∈ done, ¬ e.2.Passes fromStr content) ∧
    (∀ id call structs, (run fromStr new acts).calls id = some call → call.validated = some structs →
      ∀ front back, acts = front ++ back →
        (∀ earlier, (run fromStr new front).calls id = some earlier → earlier.validated = none) →
          names (run fromStr new front).instances ⊆ names structs) ∧
    ∀ id file order content, (run fromStr new acts).exited = false → (run fromStr new acts).poisoned = false →
      (run fromStr new acts).holder = none → (run fromStr new acts).config = some content →
        order.Perm (List.range (run fromStr new acts).instances.length) →
          (run fromStr new acts).calls id = some .initialized →
            EndsBy fromStr content id (run fromStr new acts).instances (run fromStr (run fromStr new acts)
              (List.replicate ((run fromStr new acts).instances.length + 2) (.advance id file order))) := by
  have sound := run_sound fromStr acts
  refine ⟨?_, sound.one, fun id call present => (sound.found id call present).config, ?_, ?_, ?_, ?_⟩
  · intro content set more
    rw [run, runFrom_append]
    exact config_run more content set
  · intro id done returned
    exact sound.found id _ returned
  · intro id done errMsg exited
    exact sound.found id _ exited
  · intro id call structs present validated front back split before
    have covers : Covers _ id (run fromStr _ back) := covers_run id back before
    rw [split, run, runFrom_append] at present
    exact covers.validated call structs present validated
  · intro id file order content alive whole free set ordered present
    obtain ⟨structs, same, ends⟩ := initialized_ends sound id file order content alive whole free set ordered present
    exact ends.by_structs same

/-- `#[conf(prefix = "log", lib)]` on the logger's struct. -/
def loggerStruct : Struct Unit :=
  have written : conf Char.isUpper (fun _ => true) (fun c => [c.toUpper])
      [.ident "prefix", .punct, .literal "\"log\"", .punct, .ident "lib"] "Logger" .named =
        .ok ⟨⟨.own, none, some "log", true⟩, some ⟨.own, "register_instance_logger", false⟩⟩ := rfl
  .ofConf written "base::logger::Logger" (fun _ _ => some ()) fun _ => .ok ()

def startsLogger : List (Act Unit) :=
  .register loggerStruct :: .initCfg 0 "./config.yml" :: List.replicate 5 (.advance 0 (fun _ => .content "log: {}") [0])

theorem init_cfg_checks_what_is_registered_logger :
    (run (fun _ => some (.mapping [(.string "log", .mapping [])])) new startsLogger).config = some "log: {}" ∧
      loggerStruct.Passes (fun _ => some (.mapping [(.string "log", .mapping [])])) "log: {}" ∧
      ∀ more, (run (fun _ => some (.mapping [(.string "log", .mapping [])])) new
        (startsLogger ++ more)).config = some "log: {}" := by
  have checked := init_cfg_checks_what_is_registered
    (fun _ => some (.mapping [(.string "log", .mapping [])])) startsLogger
  have set : (run (fun _ => some (.mapping [(.string "log", .mapping [])])) new startsLogger).config =
      some "log: {}" := rfl
  obtain ⟨content, same, passes⟩ := checked.2.2.2.1 0 [(loggerStruct.typeName, loggerStruct)] rfl
  cases set.symm.trans same
  exact ⟨set, passes _ (List.mem_singleton_self _), checked.1 _ set⟩

end Process

end Pigs.Macros.Conf
