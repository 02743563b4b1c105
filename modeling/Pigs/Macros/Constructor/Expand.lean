import Mathlib.Data.List.Basic
import Mathlib.Data.List.Nodup

/-! The derive macros `Get`, `Set` and `New`: what they read of a struct and of its attributes, and the
methods that they write. Identifiers are plain ones. -/

namespace Pigs.Macros.Constructor

abbrev Ident := List Char

def IDENT_GET : Ident := ['g', 'e', 't']

def IDENT_SET : Ident := ['s', 'e', 't']

def IDENT_NEW : Ident := ['n', 'e', 'w']

/-- How a field is referred to: `self.a` or `self.0`. -/
inductive Member where
  | named (name : Ident)
  | unnamed (index : Nat)
  deriving DecidableEq

inductive ArgToken where
  | ident (name : Ident)
  | index (index : Nat)
  | comma
  | other
  deriving DecidableEq

inductive AttrMeta where
  | path
  | list (tokens : List ArgToken)
  | nameValue
  deriving DecidableEq

structure Attribute where
  path : Ident
  content : AttrMeta
  deriving DecidableEq

inductive Fields (Ty : Type) where
  | named (fields : List (Ident × Ty))
  | unnamed (fields : List Ty)
  | unit

inductive Data (Ty : Type) where
  | struct (fields : Fields Ty)
  | enum
  | union

structure DeriveInput (Ty : Type) where
  attrs : List Attribute
  data : Data Ty

/-- The struct expression of `new`: `Self{a, b}` or `Self{a, b,..Default::default()}`, and `Self(..)` where
`none` stands for a `Default::default()`. -/
inductive NewBody where
  | named (names : List Ident) (rest : Bool)
  | unnamed (vars : List (Option Ident))
  deriving DecidableEq

inductive Method (Ty : Type) where
  | get (name : Ident) (field : Member) (ty : Ty)
  | set (name param : Ident) (field : Member) (ty : Ty)
  | new (params : List (Ident × Ty)) (body : NewBody)

def Method.name {Ty : Type} : Method Ty → Ident
  | .get name _ _ => name
  | .set name _ _ _ => name
  | .new _ _ => IDENT_NEW

/-- An identifier is taken as it is, and an index in decimal. -/
def Member.text : Member → Ident
  | .named name => name
  | .unnamed index => Nat.toDigits 10 index

def fieldParam (index : Nat) : Ident := ['f', 'i', 'e', 'l', 'd', '_'] ++ Nat.toDigits 10 index

def parseIdent : ArgToken → Option Member
  | .ident name => some (.named name)
  | _ => none

def parseIndex : ArgToken → Option Member
  | .index index => some (.unnamed index)
  | _ => none

/-- `Punctuated::<T, Comma>::parse_terminated` -/
def parseTerminated (parse : ArgToken → Option Member) : List ArgToken → Option (List Member)
  | [] => some []
  | [token] => (parse token).map fun value => [value]
  | token :: .comma :: rest => do
      let value ← parse token
      let values ← parseTerminated parse rest
      pure (value :: values)
  | _ :: _ :: _ => none

def shouldLike (ident : Ident) : String :=
  "`" ++ String.ofList ident ++ "` attribute should like `#[" ++ String.ofList ident ++ "(a, b, c)]`"

def parseArgs (parse : ArgToken → Option Member) (attrs : List Attribute) (ident : Ident) :
    Except String (Option (List Member)) :=
  match attrs.find? fun attr => attr.path = ident with
  | none => .ok none
  | some attr =>
      match attr.content with
      | .path => .error (shouldLike ident)
      | .nameValue => .error (shouldLike ident)
      | .list tokens =>
          match parseTerminated parse tokens with
          | some args => .ok (some args)
          | none => .error "parse args failed"

/-- Every field where none is specified, and else the specified ones. -/
def containsFields (args : Option (List Member)) (item : Member) : Bool :=
  (args.map fun list => list.any fun arg => arg = item).getD true

section Build

variable {Ty : Type}

def namedFields (fields : List (Ident × Ty)) : List (Member × Ty) :=
  fields.map fun field => (.named field.1, field.2)

def unnamedFields (fields : List Ty) : List (Member × Ty) :=
  fields.zipIdx.map fun field => (.unnamed field.2, field.1)

/-- One method for each of the chosen fields. -/
def buildEtFn (parse : ArgToken → Option Member) (f : Member → Ty → Ident → Method Ty) (attrs : List Attribute)
    (fields : List (Member × Ty)) (ident : Ident) : Except String (List (Method Ty)) := do
  let args ← parseArgs parse attrs ident
  pure ((fields.filter fun field => containsFields args field.1).map fun field =>
    f field.1 field.2 (ident ++ ['_'] ++ field.1.text))

def buildEtNamedFn (f : Member → Ty → Ident → Method Ty) (attrs : List Attribute) (fields : List (Ident × Ty))
    (ident : Ident) : Except String (List (Method Ty)) :=
  buildEtFn parseIdent f attrs (namedFields fields) ident

def buildEtUnnamedFn (f : Member → Ty → Ident → Method Ty) (attrs : List Attribute) (fields : List Ty)
    (ident : Ident) : Except String (List (Method Ty)) :=
  buildEtFn parseIndex f attrs (unnamedFields fields) ident

/-- `build_named_get_constructor` and `build_unnamed_get_constructor`. -/
def buildGetConstructor (field : Member) (ty : Ty) (name : Ident) : Method Ty := .get name field ty

def buildNamedSetConstructor (field : Member) (ty : Ty) (name : Ident) : Method Ty := .set name field.text field ty

def buildUnnamedSetConstructor (field : Member) (ty : Ty) (name : Ident) : Method Ty :=
  .set name (['f', 'i', 'e', 'l', 'd', '_'] ++ field.text) field ty

def buildNamedNewConstructor (attrs : List Attribute) (fields : List (Ident × Ty)) (ident : Ident) :
    Except String (List (Method Ty)) := do
  let args ← parseArgs parseIdent attrs ident
  let chosen := fields.filter fun field => containsFields args (.named field.1)
  let rest := fields.any fun field => !containsFields args (.named field.1)
  pure [.new chosen (.named (chosen.map Prod.fst) rest)]

def buildUnnamedNewConstructor (attrs : List Attribute) (fields : List Ty) (ident : Ident) :
    Except String (List (Method Ty)) := do
  let args ← parseArgs parseIndex attrs ident
  let chosen := fields.zipIdx.filter fun field => containsFields args (.unnamed field.2)
  let vars := fields.zipIdx.map fun field =>
    if containsFields args (.unnamed field.2) then some (fieldParam field.2) else none
  pure [.new (chosen.map fun field => (fieldParam field.2, field.1)) (.unnamed vars)]

def handleStruct (attrs : List Attribute) (fields : Fields Ty) (ident : Ident) : Except String (List (Method Ty)) :=
  match fields with
  | .named fields =>
      if ident = IDENT_GET then
        buildEtNamedFn buildGetConstructor attrs fields ident
      else if ident = IDENT_SET then
        buildEtNamedFn buildNamedSetConstructor attrs fields ident
      else if ident = IDENT_NEW then
        buildNamedNewConstructor attrs fields ident
      else
        .error "invalid ident"
  | .unnamed fields =>
      if ident = IDENT_GET then
        buildEtUnnamedFn buildGetConstructor attrs fields ident
      else if ident = IDENT_SET then
        buildEtUnnamedFn buildUnnamedSetConstructor attrs fields ident
      else if ident = IDENT_NEW then
        buildUnnamedNewConstructor attrs fields ident
      else
        .error "invalid ident"
  | .unit => .error "Unit struct is not supported"

def drive (input : DeriveInput Ty) (ident : Ident) : Except String (List (Method Ty)) :=
  match input.data with
  | .struct fields => handleStruct input.attrs fields ident
  | .enum => .error "enum is not supported"
  | .union => .error "union is not supported"

def driveGet (input : DeriveInput Ty) : Except String (List (Method Ty)) := drive input IDENT_GET

def driveSet (input : DeriveInput Ty) : Except String (List (Method Ty)) := drive input IDENT_SET

def driveNew (input : DeriveInput Ty) : Except String (List (Method Ty)) := drive input IDENT_NEW

end Build

end Pigs.Macros.Constructor
