import Pigs.Lib.Assoc
import Pigs.Lib.Recency
import Pigs.Macros.Constructor.Expand

/-! What the derived methods do. An object gives every field of the struct its value; the arguments of a
setter and of `new` are taken after `into`, and a call that does not compile has no result. -/

namespace Pigs.Macros.Constructor

open Pigs.Lib

abbrev Object (V : Type) := Member → Option V

section Evaluation

variable {Ty V : Type}

/-- The struct expression. Of a named struct the rest comes from the struct's own `Default`, of an unnamed
one from the `Default` of each field's type, and where that is missing nothing compiles;
`Self{,..Default::default()}` is no expression either. -/
def NewBody.eval (declared : List (Member × Ty)) (default : Ty → Option V) (whole : Option (Member → V))
    (params : List (Ident × V)) : NewBody → Option (Object V)
  | .named names rest =>
      if rest && (names.isEmpty || whole.isNone) then
        none
      else
        some fun field =>
          (declared.lookup field).bind fun _ =>
            match field with
            | .named name =>
                if name ∈ names then params.lookup name else if rest then whole.map (· field) else none
            | .unnamed _ => none
  | .unnamed vars =>
      if (declared.zip vars).any fun entry => entry.2.isNone && (default entry.1.2).isNone then
        none
      else
        some fun field =>
          (findKeyed (fun entry => entry.1.1) field (declared.zip vars)).bind fun entry =>
            match entry.2 with
            | some param => params.lookup param
            | none => default entry.1.2

def Method.evalGet (self : Object V) : Method Ty → Option V
  | .get _ field _ => self field
  | _ => none

def Method.evalSet (self : Object V) (value : V) : Method Ty → Option (Object V)
  | .set _ _ field _ => (self field).map fun _ => Function.update self field (some value)
  | _ => none

def Method.evalNew (declared : List (Member × Ty)) (default : Ty → Option V) (whole : Option (Member → V))
    (args : List V) : Method Ty → Option (Object V)
  | .new params body =>
      if args.length = params.length then
        body.eval declared default whole ((params.map Prod.fst).zip args)
      else
        none
  | _ => none

def methodName (ident : Ident) (field : Member) : Ident := ident ++ ['_'] ++ field.text

def callGet (impl : List (Method Ty)) (field : Member) (self : Object V) : Option V :=
  (findKeyed Method.name (methodName IDENT_GET field) impl).bind (Method.evalGet self)

def callSet (impl : List (Method Ty)) (self : Object V) (call : Member × V) : Option (Object V) :=
  (findKeyed Method.name (methodName IDENT_SET call.1) impl).bind (Method.evalSet self call.2)

def callNew (impl : List (Method Ty)) (declared : List (Member × Ty)) (default : Ty → Option V)
    (whole : Option (Member → V)) (args : List V) : Option (Object V) :=
  (findKeyed Method.name IDENT_NEW impl).bind (Method.evalNew declared default whole args)

def DeriveInput.declared (input : DeriveInput Ty) : List (Member × Ty) :=
  match input.data with
  | .struct (.named fields) => namedFields fields
  | .struct (.unnamed fields) => unnamedFields fields
  | _ => []

def DeriveInput.isNamed (input : DeriveInput Ty) : Bool :=
  match input.data with
  | .struct (.named _) => true
  | _ => false

/-- The fields that a derive is for. -/
def DeriveInput.selected (input : DeriveInput Ty) (ident : Ident) : Except String (List (Member × Ty)) :=
  match input.data with
  | .struct (.named fields) =>
      (parseArgs parseIdent input.attrs ident).map fun args =>
        (namedFields fields).filter fun field => containsFields args field.1
  | .struct (.unnamed fields) =>
      (parseArgs parseIndex input.attrs ident).map fun args =>
        (unnamedFields fields).filter fun field => containsFields args field.1
  | .struct .unit => .error "Unit struct is not supported"
  | .enum => .error "enum is not supported"
  | .union => .error "union is not supported"

/-- `#[derive(Get, Set, New)]` -/
def DeriveInput.derive (input : DeriveInput Ty) : Except String (List (Method Ty)) := do
  let getters ← driveGet input
  let setters ← driveSet input
  let constructors ← driveNew input
  pure (getters ++ setters ++ constructors)

/-- The value of a field that `new` takes no argument for, where there is a `Default` for it. -/
def fallback (default : Ty → Option V) (whole : Option (Member → V)) : Member × Ty → Option V
  | (.named name, _) => whole.map (· (.named name))
  | (.unnamed _, ty) => default ty

end Evaluation

/-! The names of fields, methods and parameters. -/

section Names

theorem toDigits_injective (index other : Nat) (same : Nat.toDigits 10 index = Nat.toDigits 10 other) :
    index = other := by
  rw [← Nat.ofDigitChars_ten_toDigits (n := index), same, Nat.ofDigitChars_ten_toDigits]

/-- The parameter that stands for a field in `new`. -/
def Member.param : Member → Ident
  | .named name => name
  | .unnamed index => fieldParam index

def Member.isNamed : Member → Bool
  | .named _ => true
  | .unnamed _ => false

theorem Member.text_injective (field other : Member) (kind : field.isNamed = other.isNamed)
    (same : field.text = other.text) : field = other := by
  cases field with
  | named name =>
      cases other with
      | named _ => exact congrArg Member.named same
      | unnamed _ => cases kind
  | unnamed index =>
      cases other with
      | named _ => cases kind
      | unnamed other => exact congrArg Member.unnamed (toDigits_injective index other same)

theorem Member.param_injective (field other : Member) (kind : field.isNamed = other.isNamed)
    (same : field.param = other.param) : field = other := by
  cases field with
  | named name =>
      cases other with
      | named _ => exact congrArg Member.named same
      | unnamed _ => cases kind
  | unnamed index =>
      cases other with
      | named _ => cases kind
      | unnamed other =>
          exact congrArg Member.unnamed (toDigits_injective index other (List.append_cancel_left same))

end Names

/-! What each derive writes, by the fields that it is for. -/

section Drives

variable {Ty : Type}

theorem drive_get (input : DeriveInput Ty) : driveGet input = (input.selected IDENT_GET).map
    (List.map fun field => .get (methodName IDENT_GET field.1) field.1 field.2) := by
  rw [driveGet, drive, DeriveInput.selected]
  cases input.data with
  | struct fields =>
      cases fields with
      | named fields =>
          simp only [handleStruct, if_true, buildEtNamedFn, buildEtFn]
          cases parseArgs parseIdent input.attrs IDENT_GET <;> rfl
      | unnamed fields =>
          simp only [handleStruct, if_true, buildEtUnnamedFn, buildEtFn]
          cases parseArgs parseIndex input.attrs IDENT_GET <;> rfl
      | unit => rfl
  | enum => rfl
  | union => rfl

theorem drive_set (input : DeriveInput Ty) : driveSet input = (input.selected IDENT_SET).map
    (List.map fun field => .set (methodName IDENT_SET field.1) field.1.param field.1 field.2) := by
  rw [driveSet, drive, DeriveInput.selected]
  cases input.data with
  | struct fields =>
      cases fields with
      | named fields =>
          simp only [handleStruct, if_neg (show IDENT_SET ≠ IDENT_GET by decide), if_true, buildEtNamedFn,
            buildEtFn]
          cases parseArgs parseIdent input.attrs IDENT_SET with
          | error error => rfl
          | ok args =>
              simp only [namedFields, List.filter_map]
              change Except.ok _ = Except.ok _
              congr 1
              rw [List.map_map, List.map_map]
              rfl
      | unnamed fields =>
          simp only [handleStruct, if_neg (show IDENT_SET ≠ IDENT_GET by decide), if_true, buildEtUnnamedFn,
            buildEtFn]
          cases parseArgs parseIndex input.attrs IDENT_SET with
          | error error => rfl
          | ok args =>
              simp only [unnamedFields, List.filter_map]
              change Except.ok _ = Except.ok _
              congr 1
              rw [List.map_map, List.map_map]
              rfl
      | unit => rfl
  | enum => rfl
  | union => rfl

/-- The struct expression of `new` for the chosen fields. -/
def newBody (isNamed : Bool) (declared : List (Member × Ty)) (chosen : List Member) : NewBody :=
  if isNamed then
    .named (chosen.map Member.param) (declared.any fun field => field.1 ∉ chosen)
  else
    .unnamed (declared.map fun field => if field.1 ∈ chosen then some field.1.param else none)

theorem chosen_iff (args : Option (List Member)) (declared : List (Member × Ty)) (field : Member × Ty)
    (member : field ∈ declared) :
    field.1 ∈ (declared.filter fun field => containsFields args field.1).map Prod.fst ↔
      containsFields args field.1 = true := by
  constructor
  · intro inside
    obtain ⟨other, found, same⟩ := List.mem_map.mp inside
    rw [← same]
    exact (List.mem_filter.mp found).2
  · intro contains
    exact List.mem_map.mpr ⟨field, List.mem_filter.mpr ⟨member, contains⟩, rfl⟩

theorem named_body (args : Option (List Member)) (fields : List (Ident × Ty)) :
    let chosen := fields.filter fun field => containsFields args (.named field.1)
    let news := (namedFields fields).filter fun field => containsFields args field.1
    (.new chosen (.named (chosen.map Prod.fst) (fields.any fun field => !containsFields args (.named field.1))) :
      Method Ty) = .new (news.map fun field => (field.1.param, field.2))
        (newBody true (namedFields fields) (news.map Prod.fst)) := by
  intro chosen news
  have carried : news = namedFields chosen := List.filter_map ..
  have params : news.map (fun field => (field.1.param, field.2)) = chosen := by
    rw [carried, namedFields, List.map_map]
    exact List.map_id chosen
  have names : (news.map Prod.fst).map Member.param = chosen.map Prod.fst := by
    rw [carried, namedFields, List.map_map, List.map_map]
    rfl
  have rest : (fields.any fun field => !containsFields args (.named field.1)) =
      (namedFields fields).any fun field => field.1 ∉ news.map Prod.fst := by
    rw [namedFields, List.any_map, Bool.eq_iff_iff, List.any_eq_true, List.any_eq_true]
    apply exists_congr
    intro field
    apply and_congr_right
    intro member
    have inside : ((.named field.1, field.2) : Member × Ty) ∈ namedFields fields :=
      List.mem_map_of_mem member
    have contains := chosen_iff args (namedFields fields) _ inside
    rw [Function.comp_apply, decide_eq_true_iff, contains]
    simp
  rw [params, newBody, if_pos rfl, names, rest]

theorem unnamed_body (args : Option (List Member)) (fields : List Ty) :
    let chosen := fields.zipIdx.filter fun field => containsFields args (.unnamed field.2)
    let news := (unnamedFields fields).filter fun field => containsFields args field.1
    (.new (chosen.map fun field => (fieldParam field.2, field.1)) (.unnamed (fields.zipIdx.map fun field =>
      if containsFields args (.unnamed field.2) then some (fieldParam field.2) else none)) : Method Ty) =
      .new (news.map fun field => (field.1.param, field.2))
        (newBody false (unnamedFields fields) (news.map Prod.fst)) := by
  intro chosen news
  have params : news.map (fun field => (field.1.param, field.2)) =
      chosen.map fun field => (fieldParam field.2, field.1) := by
    rw [show news = _ from List.filter_map .., List.map_map]
    rfl
  have vars : (fields.zipIdx.map fun field =>
      if containsFields args (.unnamed field.2) then some (fieldParam field.2) else none) =
      (unnamedFields fields).map fun field =>
        if field.1 ∈ news.map Prod.fst then some field.1.param else none := by
    rw [unnamedFields, List.map_map]
    apply List.map_congr_left
    intro field member
    have inside : ((.unnamed field.2, field.1) : Member × Ty) ∈ unnamedFields fields :=
      List.mem_map_of_mem member
    have contains := chosen_iff args (unnamedFields fields) _ inside
    rw [Function.comp_apply]
    simp only [news, contains]
    rfl
  rw [params, newBody, if_neg Bool.false_ne_true, vars]

theorem drive_new (input : DeriveInput Ty) : driveNew input = (input.selected IDENT_NEW).map fun news =>
    [.new (news.map fun field => (field.1.param, field.2))
      (newBody input.isNamed input.declared (news.map Prod.fst))] := by
  rw [driveNew, drive, DeriveInput.selected, DeriveInput.isNamed, DeriveInput.declared]
  cases input.data with
  | struct fields =>
      cases fields with
      | named fields =>
          simp only [handleStruct, if_neg (show IDENT_NEW ≠ IDENT_GET by decide),
            if_neg (show IDENT_NEW ≠ IDENT_SET by decide), if_true, buildNamedNewConstructor]
          cases parseArgs parseIdent input.attrs IDENT_NEW with
          | error error => rfl
          | ok args => exact congrArg (fun method => Except.ok [method]) (named_body args fields)
      | unnamed fields =>
          simp only [handleStruct, if_neg (show IDENT_NEW ≠ IDENT_GET by decide),
            if_neg (show IDENT_NEW ≠ IDENT_SET by decide), if_true, buildUnnamedNewConstructor]
          cases parseArgs parseIndex input.attrs IDENT_NEW with
          | error error => rfl
          | ok args => exact congrArg (fun method => Except.ok [method]) (unnamed_body args fields)
      | unit => rfl
  | enum => rfl
  | union => rfl

end Drives

/-! The calls. -/

section Calls

variable {Ty V : Type} {declared : List (Member × Ty)} {isNamed : Bool}

theorem param_inj (kind : ∀ field ∈ declared, field.1.isNamed = isNamed) (field other : Member × Ty)
    (member : field ∈ declared) (inside : other ∈ declared) (same : field.1.param = other.1.param) :
    field.1 = other.1 :=
  Member.param_injective field.1 other.1 ((kind field member).trans (kind other inside).symm) same

/-- The argument of a chosen field is the value of its parameter. -/
theorem lookup_param (kind : ∀ field ∈ declared, field.1.isNamed = isNamed) (news : List (Member × Ty))
    (sub : news ⊆ declared) (args : List V) (field : Member × Ty) (member : field ∈ declared) :
    (((news.map fun field => (field.1.param, field.2)).map Prod.fst).zip args).lookup field.1.param =
      ((news.map Prod.fst).zip args).lookup field.1 := by
  have params : (news.map fun field => (field.1.param, field.2)).map Prod.fst =
      (news.map Prod.fst).map Member.param := by
    rw [List.map_map, List.map_map]
    rfl
  rw [params]
  apply lookup_zip_map
  intro other inside same
  obtain ⟨found, chosen, rfl⟩ := List.mem_map.mp inside
  exact param_inj kind found field (sub chosen) member same

/-- A chosen field gets its argument, and another one its fallback. -/
theorem chosen_value (default : Ty → Option V) (whole : Option (Member → V)) (news : List (Member × Ty))
    (args : List V) (lengths : args.length = news.length) (field : Member × Ty) :
    (((news.map Prod.fst).zip args).lookup field.1).or (fallback default whole field) =
      if field.1 ∈ news.map Prod.fst then ((news.map Prod.fst).zip args).lookup field.1
      else fallback default whole field := by
  have lengths : args.length = (news.map Prod.fst).length := by rw [List.length_map, lengths]
  have known := lookup_zip_isSome (news.map Prod.fst) args lengths field.1
  cases found : ((news.map Prod.fst).zip args).lookup field.1 with
  | none =>
      rw [found] at known
      rw [if_neg (known.not.mp Bool.false_ne_true)]
      rfl
  | some value =>
      rw [found] at known
      rw [if_pos (known.mp rfl)]
      rfl

/-- A field without an argument has no default. -/
def Lacks (declared : List (Member × Ty)) (default : Ty → Option V) (whole : Option (Member → V))
    (news : List (Member × Ty)) : Prop :=
  ∃ field ∈ declared, field.1 ∉ news.map Prod.fst ∧ fallback default whole field = none

theorem eval_named_new (keys : (declared.map Prod.fst).Nodup)
    (kind : ∀ field ∈ declared, field.1.isNamed = true) (default : Ty → Option V) (whole : Option (Member → V))
    (news : List (Member × Ty)) (sub : news ⊆ declared) (args : List V) (lengths : args.length = news.length) :
    let made := (newBody true declared (news.map Prod.fst)).eval declared default whole
      (((news.map fun field => (field.1.param, field.2)).map Prod.fst).zip args)
    (made = none ↔ (news = [] ∧ declared ≠ []) ∨ Lacks declared default whole news) ∧
      ∀ object, made = some object → ∀ field ∈ declared,
        object field.1 = (((news.map Prod.fst).zip args).lookup field.1).or (fallback default whole field) := by
  intro made
  have body : made = NewBody.eval _ _ _ _ (.named _ _) := rfl
  rw [NewBody.eval] at body
  have rest : (declared.any fun field => field.1 ∉ news.map Prod.fst) = true ↔
      ∃ field ∈ declared, field.1 ∉ news.map Prod.fst := by
    rw [List.any_eq_true]
    simp only [decide_eq_true_eq]
  have missing : Lacks declared default whole news ↔
      (∃ field ∈ declared, field.1 ∉ news.map Prod.fst) ∧ whole = none := by
    constructor
    · rintro ⟨⟨key, ty⟩, member, absent, none⟩
      refine ⟨⟨_, member, absent⟩, ?_⟩
      cases key with
      | named name => exact Option.map_eq_none_iff.mp none
      | unnamed index => cases kind _ member
    · rintro ⟨⟨⟨key, ty⟩, member, absent⟩, rfl⟩
      cases key with
      | named name => exact ⟨_, member, absent, rfl⟩
      | unnamed index => cases kind _ member
  have empty : news = [] ∧ declared ≠ [] ↔ (∃ field ∈ declared, field.1 ∉ news.map Prod.fst) ∧ news = [] := by
    constructor
    · rintro ⟨rfl, some⟩
      obtain ⟨field, member⟩ := List.exists_mem_of_ne_nil declared some
      exact ⟨⟨field, member, List.not_mem_nil⟩, rfl⟩
    · rintro ⟨⟨field, member, _⟩, none⟩
      exact ⟨none, List.ne_nil_of_mem member⟩
  have fails : ((declared.any fun field => field.1 ∉ news.map Prod.fst) &&
      (((news.map Prod.fst).map Member.param).isEmpty || whole.isNone)) = true ↔
      (news = [] ∧ declared ≠ []) ∨ Lacks declared default whole news := by
    rw [Bool.and_eq_true, Bool.or_eq_true, rest, missing, empty, List.isEmpty_iff, List.map_eq_nil_iff,
      List.map_eq_nil_iff, Option.isNone_iff_eq_none, and_or_left]
  constructor
  · rw [body, ← fails]
    split
    · rename_i absent
      exact iff_of_true rfl absent
    · rename_i present
      exact iff_of_false (Option.some_ne_none _) present
  · intro object evaluated field member
    rw [body] at evaluated
    split at evaluated
    · cases evaluated
    rw [← Option.some.inj evaluated, chosen_value default whole news args lengths field]
    have present : declared.lookup field.1 = some field.2 := (lookup_iff_mem declared keys field.1 field.2).mpr member
    have own := lookup_param kind news sub args field member
    have inside : field.1.param ∈ (news.map Prod.fst).map Member.param ↔ field.1 ∈ news.map Prod.fst := by
      constructor
      · intro found
        obtain ⟨key, chosen, same⟩ := List.mem_map.mp found
        obtain ⟨other, here, rfl⟩ := List.mem_map.mp chosen
        rw [← param_inj kind other field (sub here) member same]
        exact chosen
      · exact List.mem_map_of_mem
    obtain ⟨key, ty⟩ := field
    cases key with
    | unnamed index => cases kind _ member
    | named name =>
        simp only at present
        simp only [present, Option.bind_some]
        by_cases chosen : (.named name) ∈ news.map Prod.fst
        · rw [if_pos chosen]
          exact (if_pos (inside.mpr chosen)).trans own
        · rw [if_neg chosen]
          exact (if_neg (inside.not.mpr chosen)).trans (if_pos (rest.mpr ⟨_, member, chosen⟩))

theorem eval_unnamed_new (keys : (declared.map Prod.fst).Nodup)
    (kind : ∀ field ∈ declared, field.1.isNamed = false) (default : Ty → Option V) (whole : Option (Member → V))
    (news : List (Member × Ty)) (sub : news ⊆ declared) (args : List V) (lengths : args.length = news.length) :
    let made := (newBody false declared (news.map Prod.fst)).eval declared default whole
      (((news.map fun field => (field.1.param, field.2)).map Prod.fst).zip args)
    (made = none ↔ Lacks declared default whole news) ∧ ∀ object, made = some object → ∀ field ∈ declared,
      object field.1 = (((news.map Prod.fst).zip args).lookup field.1).or (fallback default whole field) := by
  intro made
  have body : made = NewBody.eval _ _ _ _ (.unnamed _) := rfl
  have table : declared.zip (declared.map fun field =>
      if field.1 ∈ news.map Prod.fst then some field.1.param else none) =
      declared.map fun field =>
        (field, if field.1 ∈ news.map Prod.fst then some field.1.param else none) :=
    List.map_prod_left_eq_zip.symm
  rw [NewBody.eval, table] at body
  have fails : ((declared.map fun field =>
      (field, if field.1 ∈ news.map Prod.fst then some field.1.param else none)).any fun entry =>
        entry.2.isNone && (default entry.1.2).isNone) = true ↔ Lacks declared default whole news := by
    rw [List.any_map, List.any_eq_true]
    apply exists_congr
    rintro ⟨key, ty⟩
    apply and_congr_right
    intro member
    cases key with
    | named name => cases kind _ member
    | unnamed index => simp [fallback]
  constructor
  · rw [body, ← fails]
    split
    · rename_i absent
      exact iff_of_true rfl absent
    · rename_i present
      exact iff_of_false (Option.some_ne_none _) present
  · intro object evaluated field member
    rw [body] at evaluated
    split at evaluated
    · cases evaluated
    have own := lookup_param kind news sub args field member
    have found : findKeyed (fun entry => entry.1.1) field.1 (declared.map fun field =>
        (field, if field.1 ∈ news.map Prod.fst then some field.1.param else none)) =
        some (field, if field.1 ∈ news.map Prod.fst then some field.1.param else none) := by
      rw [findKeyed_eq_some_iff]
      · exact ⟨List.mem_map_of_mem member, rfl⟩
      · rw [List.map_map]
        exact keys
    rw [← Option.some.inj evaluated, chosen_value default whole news args lengths field]
    simp only [found, Option.bind_some]
    by_cases chosen : field.1 ∈ news.map Prod.fst
    · rw [if_pos chosen, if_pos chosen]
      exact own
    · rw [if_neg chosen, if_neg chosen]
      obtain ⟨key, ty⟩ := field
      cases key with
      | named name => cases kind _ member
      | unnamed index => rfl

end Calls

/-! The three derives together. -/

section Derive

variable {Ty V : Type} {input : DeriveInput Ty}

theorem declared_kind (input : DeriveInput Ty) : ∀ field ∈ input.declared, field.1.isNamed = input.isNamed := by
  rw [DeriveInput.declared, DeriveInput.isNamed]
  intro field member
  split at member
  case h_1 kind =>
    obtain ⟨_, _, rfl⟩ := List.mem_map.mp member
    rw [kind]
    rfl
  case h_2 kind =>
    obtain ⟨_, _, rfl⟩ := List.mem_map.mp member
    rw [kind]
    rfl
  case h_3 => cases member

theorem selected_sublist (ident : Ident) (chosen : List (Member × Ty))
    (selected : input.selected ident = .ok chosen) : chosen.Sublist input.declared := by
  rw [DeriveInput.selected] at selected
  rw [DeriveInput.declared]
  cases kind : input.data with
  | struct fields =>
      rw [kind] at selected
      cases fields with
      | named fields =>
          simp only at selected
          cases parsed : parseArgs parseIdent input.attrs ident with
          | error error =>
              rw [parsed] at selected
              cases selected
          | ok args =>
              rw [parsed] at selected
              cases selected
              exact List.filter_sublist
      | unnamed fields =>
          simp only at selected
          cases parsed : parseArgs parseIndex input.attrs ident with
          | error error =>
              rw [parsed] at selected
              cases selected
          | ok args =>
              rw [parsed] at selected
              cases selected
              exact List.filter_sublist
      | unit =>
          cases selected
  | enum =>
      rw [kind] at selected
      cases selected
  | union =>
      rw [kind] at selected
      cases selected

def getMethod (field : Member × Ty) : Method Ty := .get (methodName IDENT_GET field.1) field.1 field.2

def setMethod (field : Member × Ty) : Method Ty :=
  .set (methodName IDENT_SET field.1) field.1.param field.1 field.2

def newMethod (input : DeriveInput Ty) (news : List (Member × Ty)) : Method Ty :=
  .new (news.map fun field => (field.1.param, field.2))
    (newBody input.isNamed input.declared (news.map Prod.fst))

theorem derive_ok (impl : List (Method Ty)) (derives : input.derive = .ok impl) :
    ∃ gets sets news, input.selected IDENT_GET = .ok gets ∧ input.selected IDENT_SET = .ok sets ∧
      input.selected IDENT_NEW = .ok news ∧
      impl = gets.map getMethod ++ sets.map setMethod ++ [newMethod input news] := by
  rw [DeriveInput.derive, drive_get, drive_set, drive_new] at derives
  cases got : input.selected IDENT_GET with
  | error error =>
      rw [got] at derives
      cases derives
  | ok gets =>
      cases put : input.selected IDENT_SET with
      | error error =>
          rw [got, put] at derives
          cases derives
      | ok sets =>
          cases made : input.selected IDENT_NEW with
          | error error =>
              rw [got, put, made] at derives
              cases derives
          | ok news =>
              rw [got, put, made] at derives
              cases derives
              exact ⟨gets, sets, news, rfl, rfl, rfl, rfl⟩

theorem methodName_injective (ident : Ident) (field other : Member) (kind : field.isNamed = other.isNamed)
    (same : methodName ident field = methodName ident other) : field = other :=
  Member.text_injective field other kind (List.append_cancel_left same)

/-- The getters, and the setters, of different fields have different names. -/
theorem methodNames_nodup (distinct : (input.declared.map Prod.fst).Nodup) (ident : Ident)
    (chosen : List (Member × Ty)) (sub : chosen.Sublist input.declared) :
    (chosen.map fun field => methodName ident field.1).Nodup := by
  have keys : (chosen.map Prod.fst).Nodup := distinct.sublist (sub.map _)
  rw [show (chosen.map fun field => methodName ident field.1) = (chosen.map Prod.fst).map (methodName ident) by
    rw [List.map_map]; rfl]
  apply keys.map_on
  intro field member other inside same
  obtain ⟨first, found, rfl⟩ := List.mem_map.mp member
  obtain ⟨second, here, rfl⟩ := List.mem_map.mp inside
  have kind := (declared_kind input first (sub.subset found)).trans
    (declared_kind input second (sub.subset here)).symm
  exact methodName_injective ident first.1 second.1 kind same

theorem names_nodup (distinct : (input.declared.map Prod.fst).Nodup) (gets sets news : List (Member × Ty))
    (getting : gets.Sublist input.declared) (setting : sets.Sublist input.declared) :
    ((gets.map getMethod ++ sets.map setMethod ++ [newMethod input news]).map Method.name).Nodup := by
  have getters : (gets.map getMethod).map Method.name = gets.map fun field => methodName IDENT_GET field.1 := by
    rw [List.map_map]
    rfl
  have setters : (sets.map setMethod).map Method.name = sets.map fun field => methodName IDENT_SET field.1 := by
    rw [List.map_map]
    rfl
  rw [List.map_append, List.map_append, getters, setters]
  apply List.Nodup.append
  · apply (methodNames_nodup distinct IDENT_GET gets getting).append
      (methodNames_nodup distinct IDENT_SET sets setting)
    intro name got put
    obtain ⟨_, _, rfl⟩ := List.mem_map.mp got
    obtain ⟨_, _, same⟩ := List.mem_map.mp put
    cases same
  · exact List.nodup_singleton _
  · intro name before made
    cases List.mem_singleton.mp made
    rcases List.mem_append.mp before with got | put
    · obtain ⟨_, _, same⟩ := List.mem_map.mp got
      cases same
    · obtain ⟨_, _, same⟩ := List.mem_map.mp put
      cases same

section Impl

variable {gets sets : List (Member × Ty)} (news : List (Member × Ty))

theorem callGet_chosen (distinct : (input.declared.map Prod.fst).Nodup)
    (getting : gets.Sublist input.declared) (setting : sets.Sublist input.declared) (field : Member × Ty)
    (chosen : field ∈ gets) (self : Object V) :
    callGet (gets.map getMethod ++ sets.map setMethod ++ [newMethod input news]) field.1 self = self field.1 := by
  have names := names_nodup distinct gets sets news getting setting
  have member : getMethod field ∈ gets.map getMethod ++ sets.map setMethod ++ [newMethod input news] :=
    List.mem_append_left _ (List.mem_append_left _ (List.mem_map_of_mem chosen))
  have found := (findKeyed_eq_some_iff (methodName IDENT_GET field.1) _ names (getMethod field)).mpr ⟨member, rfl⟩
  rw [callGet, found]
  rfl

theorem callSet_chosen (distinct : (input.declared.map Prod.fst).Nodup)
    (getting : gets.Sublist input.declared) (setting : sets.Sublist input.declared) (field : Member × Ty)
    (chosen : field ∈ sets) (value : V) (self : Object V) :
    callSet (gets.map getMethod ++ sets.map setMethod ++ [newMethod input news]) self (field.1, value) =
      (self field.1).map fun _ => Function.update self field.1 (some value) := by
  have names := names_nodup distinct gets sets news getting setting
  have member : setMethod field ∈ gets.map getMethod ++ sets.map setMethod ++ [newMethod input news] :=
    List.mem_append_left _ (List.mem_append_right _ (List.mem_map_of_mem chosen))
  have found := (findKeyed_eq_some_iff (methodName IDENT_SET field.1) _ names (setMethod field)).mpr ⟨member, rfl⟩
  rw [callSet, found]
  rfl

theorem callNew_eq (distinct : (input.declared.map Prod.fst).Nodup)
    (getting : gets.Sublist input.declared) (setting : sets.Sublist input.declared) (default : Ty → Option V)
    (whole : Option (Member → V)) (args : List V) (lengths : args.length = news.length) :
    callNew (gets.map getMethod ++ sets.map setMethod ++ [newMethod input news]) input.declared default whole args =
      (newBody input.isNamed input.declared (news.map Prod.fst)).eval input.declared default whole
        (((news.map fun field => (field.1.param, field.2)).map Prod.fst).zip args) := by
  have names := names_nodup distinct gets sets news getting setting
  have member : newMethod input news ∈ gets.map getMethod ++ sets.map setMethod ++ [newMethod input news] :=
    List.mem_append_right _ (List.mem_singleton_self _)
  have found := (findKeyed_eq_some_iff IDENT_NEW _ names (newMethod input news)).mpr ⟨member, rfl⟩
  have counted : args.length = (news.map fun field => (field.1.param, field.2)).length := by
    rw [List.length_map, lengths]
  rw [callNew, found, Option.bind_some, newMethod, Method.evalNew, if_pos counted]

/-- A field that was not chosen has no getter. -/
theorem callGet_unchosen (getting : gets.Sublist input.declared) (field : Member × Ty)
    (member : field ∈ input.declared) (unchosen : field.1 ∉ gets.map Prod.fst) (self : Object V) :
    callGet (gets.map getMethod ++ sets.map setMethod ++ [newMethod input news]) field.1 self = none := by
  rw [callGet, (findKeyed_eq_none_iff (methodName IDENT_GET field.1) _).mpr]
  · rfl
  · intro method inside same
    rcases List.mem_append.mp inside with before | made
    · rcases List.mem_append.mp before with got | put
      · obtain ⟨other, chosen, rfl⟩ := List.mem_map.mp got
        have kind := (declared_kind input other (getting.subset chosen)).trans (declared_kind input field member).symm
        apply unchosen
        rw [← methodName_injective IDENT_GET other.1 field.1 kind same]
        exact List.mem_map_of_mem chosen
      · obtain ⟨_, _, rfl⟩ := List.mem_map.mp put
        cases same
    · cases List.mem_singleton.mp made
      cases same

/-- One setter after another: the last value set to a field is the field's. -/
theorem set_run (distinct : (input.declared.map Prod.fst).Nodup) (getting : gets.Sublist input.declared)
    (setting : sets.Sublist input.declared) (calls : List (Member × V)) (self : Object V)
    (present : ∀ field ∈ input.declared, (self field.1).isSome)
    (chosen : ∀ call ∈ calls, call.1 ∈ sets.map Prod.fst) :
    ∃ after, calls.foldlM (callSet (gets.map getMethod ++ sets.map setMethod ++ [newMethod input news])) self =
      some after ∧ ∀ field, after field = (calls.reverse.lookup field).or (self field) := by
  induction calls generalizing self with
  | nil => exact ⟨self, rfl, fun _ => rfl⟩
  | cons call calls ih =>
      obtain ⟨key, given⟩ := call
      obtain ⟨field, inside, rfl⟩ := List.mem_map.mp (chosen _ List.mem_cons_self)
      obtain ⟨value, held⟩ := Option.isSome_iff_exists.mp (present field (setting.subset inside))
      have first := callSet_chosen news distinct getting setting field inside given self
      rw [held, Option.map_some] at first
      have still : ∀ other ∈ input.declared, (Function.update self field.1 (some given) other.1).isSome := by
        intro other member
        by_cases here : other.1 = field.1
        · rw [here, Function.update_self]
          rfl
        · rw [Function.update_of_ne here]
          exact present other member
      obtain ⟨after, ran, values⟩ := ih (Function.update self field.1 (some given)) still
        fun other member => chosen other (List.mem_cons_of_mem _ member)
      refine ⟨after, ?_, ?_⟩
      · rw [List.foldlM_cons, first]
        exact ran
      · intro other
        rw [values other, List.reverse_cons, List.lookup_append, Option.or_assoc]
        congr 1
        by_cases here : other = field.1
        · rw [here, Function.update_self, List.lookup_cons_self]
          rfl
        · rw [Function.update_of_ne here, List.lookup_cons, beq_eq_false_iff_ne.mpr here]
          rfl

end Impl

/-- `Get`, `Set` and `New` write methods of different names. `new` compiles unless it would take no argument
of a named struct that has fields, or there is no `Default` for a field that it takes no argument for. On the
object that it makes, after any calls of setters, a getter gives the last value set to its field, else the
field's argument, else its default. A field that a derive does not name has no such method. -/
theorem derived_methods_are_the_fields (input : DeriveInput Ty) (distinct : (input.declared.map Prod.fst).Nodup)
    (impl : List (Method Ty)) (derives : input.derive = .ok impl) (default : Ty → Option V)
    (whole : Option (Member → V)) :
    (impl.map Method.name).Nodup ∧ ∃ gets sets news, input.selected IDENT_GET = .ok gets ∧
      input.selected IDENT_SET = .ok sets ∧ input.selected IDENT_NEW = .ok news ∧
      (∀ field ∈ input.declared, field.1 ∉ gets.map Prod.fst → ∀ self : Object V,
        callGet impl field.1 self = none) ∧
      ∀ args : List V, args.length = news.length →
        (callNew impl input.declared default whole args = none ↔
          (input.isNamed = true ∧ news = [] ∧ input.declared ≠ []) ∨ Lacks input.declared default whole news) ∧
        ∀ made, callNew impl input.declared default whole args = some made →
          ∀ calls : List (Member × V), (∀ call ∈ calls, call.1 ∈ sets.map Prod.fst) →
            ∃ after, calls.foldlM (callSet impl) made = some after ∧
              ∀ field ∈ gets, ∃ value, callGet impl field.1 after = some value ∧
                ((calls.reverse.lookup field.1).or (((news.map Prod.fst).zip args).lookup field.1)).or
                  (fallback default whole field) = some value := by
  obtain ⟨gets, sets, news, got, put, made, rfl⟩ := derive_ok impl derives
  have getting := selected_sublist IDENT_GET gets got
  have setting := selected_sublist IDENT_SET sets put
  have making := selected_sublist IDENT_NEW news made
  refine ⟨names_nodup distinct gets sets news getting setting, gets, sets, news, got, put, made, ?_, ?_⟩
  · exact fun field member unchosen self => callGet_unchosen news getting field member unchosen self
  · intro args lengths
    have evaluated : (callNew (gets.map getMethod ++ sets.map setMethod ++ [newMethod input news]) input.declared
        default whole args = none ↔
          (input.isNamed = true ∧ news = [] ∧ input.declared ≠ []) ∨ Lacks input.declared default whole news) ∧
        ∀ object, callNew (gets.map getMethod ++ sets.map setMethod ++ [newMethod input news]) input.declared
          default whole args = some object → ∀ field ∈ input.declared, object field.1 =
            (((news.map Prod.fst).zip args).lookup field.1).or (fallback default whole field) := by
      rw [callNew_eq news distinct getting setting default whole args lengths]
      have kind := declared_kind input
      cases named : input.isNamed with
      | true =>
          rw [named] at kind
          have own := eval_named_new distinct kind default whole news making.subset args lengths
          exact ⟨own.1.trans (or_congr_left (and_iff_right rfl).symm), own.2⟩
      | false =>
          rw [named] at kind
          have own := eval_unnamed_new distinct kind default whole news making.subset args lengths
          exact ⟨own.1.trans (or_iff_right fun absurd => Bool.false_ne_true absurd.1).symm, own.2⟩
    refine ⟨evaluated.1, ?_⟩
    intro object new calls chosen
    have values := evaluated.2 object new
    have complete : ¬Lacks input.declared default whole news := by
      intro lacks
      rw [evaluated.1.mpr (.inr lacks)] at new
      cases new
    have present : ∀ field ∈ input.declared, (object field.1).isSome := by
      intro field member
      rw [values field member, chosen_value default whole news args lengths field]
      split
      · rename_i inside
        exact (lookup_zip_isSome (news.map Prod.fst) args (by rw [List.length_map, lengths]) field.1).mpr inside
      · rename_i absent
        exact Option.isSome_iff_ne_none.mpr fun none => complete ⟨field, member, absent, none⟩
    obtain ⟨after, ran, last⟩ := set_run news distinct getting setting calls object present chosen
    refine ⟨after, ran, ?_⟩
    intro field chosenField
    have member := getting.subset chosenField
    obtain ⟨before, held⟩ := Option.isSome_iff_exists.mp (present field member)
    have read := callGet_chosen news distinct getting setting field chosenField after
    rw [last] at read
    rw [read, Option.or_assoc, ← values field member, held]
    cases calls.reverse.lookup field.1 with
    | none => exact ⟨before, rfl, rfl⟩
    | some set => exact ⟨set, rfl, rfl⟩

/-- A struct of which only the second field can be given, and only the first be set. Without a `Default` it
does not compile. -/
theorem derived_methods_are_the_fields_two :
    let input : DeriveInput Unit :=
      ⟨[⟨IDENT_NEW, .list [.ident ['b'], .comma]⟩, ⟨IDENT_SET, .list [.ident ['a']]⟩],
        .struct (.named [(['a'], ()), (['b'], ())])⟩
    ∃ impl, input.derive = .ok impl ∧ (impl.map Method.name).Nodup ∧
      callNew impl input.declared (fun _ => some 0) none [5] = none ∧
      ∃ made, callNew impl input.declared (fun _ => none) (some fun _ => 7) [5] = some made ∧
        callGet impl (.named ['a']) made = some 7 ∧ callGet impl (.named ['b']) made = some 5 := by
  intro input
  have derives : input.derive = .ok
      [.get ['g', 'e', 't', '_', 'a'] (.named ['a']) (), .get ['g', 'e', 't', '_', 'b'] (.named ['b']) (),
        .set ['s', 'e', 't', '_', 'a'] ['a'] (.named ['a']) (),
        .new [(['b'], ())] (.named [['b']] true)] := rfl
  have fields := derived_methods_are_the_fields input (by decide) _ derives (fun _ => none) (some fun _ => 7)
  exact ⟨_, derives, fields.1, rfl, _, rfl, rfl, rfl⟩

end Derive

end Pigs.Macros.Constructor
