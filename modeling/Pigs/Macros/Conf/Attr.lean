import Pigs.Lib.LastGiven

/-! The attribute macro `conf`: how it reads its attributes and what it writes for them. -/

open Pigs.Lib

namespace Pigs.Macros.Conf

inductive TokenTree where
  | ident (text : String)
  | punct
  | literal (text : String)
  | group
  deriving DecidableEq

/-- `prefixPath` is the field `prefix`. -/
@[ext]
structure ConAttr where
  path : Option String
  prefixPath : Option String
  dataType : Option String
  lib : Option String
  check : Bool
  default : Bool
  deriving DecidableEq

namespace ConAttr

def byDefault : ConAttr where
  path := none
  prefixPath := none
  dataType := none
  lib := none
  check := false
  default := true

end ConAttr

/-- `trim_matches('"')` -/
def trimQuotes (text : String) : String :=
  String.ofList (((text.toList.dropWhile fun c => c = '\"').reverse.dropWhile fun c => c = '\"').reverse)

def toAsciiLowercase (text : String) : String := String.ofList (text.toList.map Char.toLower)

/-- The loop of `parse_attr` between two tokens. -/
structure Parsing where
  attr : ConAttr
  key : String

def parseIdent (state : Parsing) (identStr : String) : Parsing :=
  if state.key = "default" ∧ (identStr = "true" ∨ identStr = "false") then
    ⟨{ state.attr with default := identStr ≠ "false" }, ""⟩
  else if identStr = "lib" then
    ⟨{ state.attr with lib := some "" }, identStr⟩
  else if identStr = "check" then
    ⟨{ state.attr with check := true }, identStr⟩
  else if identStr = "default" then
    ⟨{ state.attr with default := true }, identStr⟩
  else
    ⟨state.attr, identStr⟩

/-- The value of a literal after `default`. -/
def parseDefault (value : String) : Except String Bool :=
  if toAsciiLowercase value = "false" then .ok false
  else if toAsciiLowercase value = "true" then .ok true
  else .error ("invalid default attr value: " ++ value)

section Parse

variable (toUppercase : Char → List Char)

def parseLiteral (state : Parsing) (value : String) : Except String Parsing :=
  if state.key = "lib" then
    .ok { state with attr := { state.attr with lib := some value } }
  else if state.key = "path" then
    .ok { state with attr := { state.attr with path := some value } }
  else if state.key = "prefix" then
    .ok { state with attr := { state.attr with prefixPath := some value } }
  else if state.key = "data_type" then
    .ok { state with
      attr := { state.attr with dataType := some (String.ofList (value.toList.flatMap toUppercase)) } }
  else if state.key = "default" then do
    let default ← parseDefault value
    .ok { state with attr := { state.attr with default := default } }
  else
    .error ("invalid attr name: " ++ state.key)

def parseToken (state : Parsing) : TokenTree → Except String Parsing
  | .ident text => .ok (parseIdent state text)
  | .punct => .ok state
  | .literal text => parseLiteral toUppercase state (trimQuotes text)
  | .group => .error "Unsupported token in attributes"

def parseAttr (args : List TokenTree) : Except String ConAttr :=
  (args.foldlM (parseToken toUppercase) ⟨.byDefault, ""⟩).map Parsing.attr

end Parse

/-! What the macro writes. -/

/-- What the struct that carries the attribute is made of. -/
inductive StructData where
  | named
  | otherFields
  | notStruct
  deriving DecidableEq

/-- Where the emitted paths start. -/
inductive Root where
  | base
  | own
  | named (libPath : String)
  deriving DecidableEq

/-- The function `register_instance_..` that runs before `main`. -/
structure Registration where
  root : Root
  regIns : String
  check : Bool
  deriving DecidableEq

/-- The function `conf()`: it reads the file at `path`, or the configuration of the service, takes what is
under the prefix, and maps it to the struct directly or by the proxy struct. -/
structure Loader where
  root : Root
  path : Option String
  prefixPath : Option String
  proxy : Bool
  deriving DecidableEq

structure Expansion where
  loader : Loader
  registration : Option Registration
  deriving DecidableEq

section Expand

variable (isUppercase : Char → Bool)

/-- The loop of `camel_to_snake` from the index `i` on. -/
def camelToSnakeFrom : Nat → List Char → List Char
  | _, [] => []
  | i, c :: rest =>
      (if isUppercase c then
        if 0 < i then ['_', c.toLower] else [c.toLower]
      else [c]) ++ camelToSnakeFrom (i + 1) rest

def camelToSnake (s : String) : String := String.ofList (camelToSnakeFrom isUppercase 0 s.toList)

variable (isPath : String → Bool)

/-- `syn::parse_str` on the `lib` attribute. -/
def libRoot : Option String → Except String Root
  | none => .ok .base
  | some lib =>
      if lib = "" then .ok .own
      else if isPath lib then .ok (.named lib)
      else .error "parse lib path failed"

def buildRegisterConstructor (attr : ConAttr) (structName : String) :
    Except String (Option Registration) :=
  if attr.path.isSome then
    .ok none
  else do
    let root ← libRoot isPath attr.lib
    .ok (some ⟨root, "register_instance_" ++ camelToSnake isUppercase structName, attr.check⟩)

def buildDefaultDataType : StructData → Except String Unit
  | .named => .ok ()
  | .otherFields => .error "#[conf(default)] only supports named-field structs"
  | .notStruct => .error "#[conf(default)] only supports structs"

/-- How the value under the prefix is mapped to the struct. -/
def buildDataType (attr : ConAttr) (data : StructData) : Except String Unit :=
  match attr.dataType with
  | none => if attr.default then buildDefaultDataType data else .ok ()
  | some dataType =>
      if dataType = "YAML" then
        if attr.default then buildDefaultDataType data else .ok ()
      else
        .error ("unsupported data type: " ++ dataType)

def buildConfConstructor (attr : ConAttr) (data : StructData) : Except String Loader := do
  let root ← libRoot isPath attr.lib
  buildDataType attr data
  .ok ⟨root, attr.path, attr.prefixPath, attr.default⟩

/-- An error is the message of the panic that stops the expansion. -/
def conf (toUppercase : Char → List Char) (attrs : List TokenTree) (structName : String)
    (data : StructData) : Except String Expansion := do
  let attr ← parseAttr toUppercase attrs
  let registration ← buildRegisterConstructor isUppercase isPath attr structName
  let loader ← buildConfConstructor isPath attr data
  .ok ⟨loader, registration⟩

end Expand

/-! What a list of attributes means. -/

def VALUE_NAMES : List String := ["lib", "path", "prefix", "data_type", "default"]

def WORD_NAMES : List String := ["lib", "check", "default"]

def BOOLS : List String := ["true", "false"]

inductive DefaultValue where
  | absent
  | word (value : Bool)
  | literal (text : String)

/-- An attribute as it is written. A `word` without a value and a `value` stand for the names that the macro
does not know there. -/
inductive Item where
  | path (literal : String)
  | prefixPath (literal : String)
  | dataType (literal : String)
  | lib (literal : Option String)
  | check
  | default (value : DefaultValue)
  | word (name : String) (unknown : name ∉ WORD_NAMES ++ BOOLS)
  | value (name literal : String) (unknown : name ∉ VALUE_NAMES ++ BOOLS)

def DefaultValue.tokens : DefaultValue → List TokenTree
  | .absent => []
  | .word value => [.ident (if value then "true" else "false")]
  | .literal text => [.literal text]

namespace Item

/-- The tokens of an attribute, the punctuation left out. -/
def tokens : Item → List TokenTree
  | path literal => [.ident "path", .literal literal]
  | prefixPath literal => [.ident "prefix", .literal literal]
  | dataType literal => [.ident "data_type", .literal literal]
  | lib none => [.ident "lib"]
  | lib (some literal) => [.ident "lib", .literal literal]
  | check => [.ident "check"]
  | default given => .ident "default" :: given.tokens
  | word name _ => [.ident name]
  | value name literal _ => [.ident name, .literal literal]

def complaint : Item → Option String
  | default (.literal text) =>
      if toAsciiLowercase (trimQuotes text) ∈ BOOLS then none
      else some ("invalid default attr value: " ++ trimQuotes text)
  | value name _ _ => some ("invalid attr name: " ++ name)
  | _ => none

def pathGiven : Item → Option String
  | path literal => some (trimQuotes literal)
  | _ => none

def prefixGiven : Item → Option String
  | prefixPath literal => some (trimQuotes literal)
  | _ => none

def dataTypeGiven (toUppercase : Char → List Char) : Item → Option String
  | dataType literal => some (String.ofList ((trimQuotes literal).toList.flatMap toUppercase))
  | _ => none

def libGiven : Item → Option String
  | lib literal => some ((literal.map trimQuotes).getD "")
  | _ => none

def checkGiven : Item → Option Bool
  | check => some true
  | _ => none

def defaultGiven : Item → Option Bool
  | default .absent => some true
  | default (.word given) => some given
  | default (.literal text) => some (toAsciiLowercase (trimQuotes text) ≠ "false")
  | _ => none

end Item

section Meaning

variable (toUppercase : Char → List Char)

/-- The last value given for an attribute counts, and `default` is on. -/
def meaning (items : List Item) : ConAttr where
  path := lastGiven Item.pathGiven items
  prefixPath := lastGiven Item.prefixGiven items
  dataType := lastGiven (Item.dataTypeGiven toUppercase) items
  lib := lastGiven Item.libGiven items
  check := (lastGiven Item.checkGiven items).getD false
  default := (lastGiven Item.defaultGiven items).getD true

def Item.apply (attr : ConAttr) (item : Item) : ConAttr where
  path := item.pathGiven.or attr.path
  prefixPath := item.prefixGiven.or attr.prefixPath
  dataType := (item.dataTypeGiven toUppercase).or attr.dataType
  lib := item.libGiven.or attr.lib
  check := item.checkGiven.getD attr.check
  default := item.defaultGiven.getD attr.default

theorem parse_tokens_eq (state : Parsing) (tokens : List TokenTree) :
    tokens.foldlM (parseToken toUppercase) state =
      (tokens.filter fun token => token ≠ .punct).foldlM (parseToken toUppercase) state := by
  induction tokens generalizing state with
  | nil => rfl
  | cons token tokens ih =>
      by_cases punct : token = .punct
      · subst punct
        exact ih state
      · rw [List.filter_cons_of_pos (by simpa using punct), List.foldlM_cons, List.foldlM_cons]
        exact bind_congr fun next => ih next

theorem parseIdent_of_not_bool (state : Parsing) (name : String) (plain : name ∉ BOOLS) :
    parseIdent state name =
      ⟨{ state.attr with
          lib := if name = "lib" then some "" else state.attr.lib
          check := if name = "check" then true else state.attr.check
          default := if name = "default" then true else state.attr.default }, name⟩ := by
  have different : ¬ (name = "true" ∨ name = "false") := by simpa [BOOLS] using plain
  simp only [parseIdent, different, and_false, if_false]
  split_ifs <;> simp_all

theorem parseLiteral_unknown (state : Parsing) (value : String) (unknown : state.key ∉ VALUE_NAMES) :
    parseLiteral toUppercase state value = .error ("invalid attr name: " ++ state.key) := by
  simp only [VALUE_NAMES, List.mem_cons, List.not_mem_nil, or_false, not_or] at unknown
  simp [parseLiteral, unknown]

theorem parseDefault_eq (value : String) :
    parseDefault value =
      if toAsciiLowercase value ∈ BOOLS then .ok (toAsciiLowercase value ≠ "false")
      else .error ("invalid default attr value: " ++ value) := by
  by_cases no : toAsciiLowercase value = "false"
  · simp [parseDefault, BOOLS, no]
  · by_cases yes : toAsciiLowercase value = "true"
    · simp [parseDefault, BOOLS, yes]
    · simp [parseDefault, BOOLS, no, yes]

/-- The name that the loop remembers after an attribute. -/
def Item.lastKey : Item → String
  | .path _ => "path"
  | .prefixPath _ => "prefix"
  | .dataType _ => "data_type"
  | .lib _ => "lib"
  | .check => "check"
  | .default (.word _) => ""
  | .default _ => "default"
  | .word name _ => name
  | .value name _ _ => name

def Item.after (state : Parsing) (item : Item) : Parsing := ⟨item.apply toUppercase state.attr, item.lastKey⟩

theorem parseLiteral_default (attr : ConAttr) (value : String) :
    parseLiteral toUppercase ⟨attr, "default"⟩ value =
      (parseDefault value).map fun default => ⟨{ attr with default := default }, "default"⟩ := by
  cases parsed : parseDefault value <;> simp [parseLiteral, parsed] <;> rfl

theorem parse_word (state : Parsing) (name : String) :
    [TokenTree.ident name].foldlM (parseToken toUppercase) state = .ok (parseIdent state name) := rfl

theorem parse_words (state : Parsing) (first second : String) :
    [TokenTree.ident first, .ident second].foldlM (parseToken toUppercase) state =
      .ok (parseIdent (parseIdent state first) second) := rfl

theorem parse_value (state : Parsing) (name literal : String) :
    [TokenTree.ident name, .literal literal].foldlM (parseToken toUppercase) state =
      parseLiteral toUppercase (parseIdent state name) (trimQuotes literal) :=
  bind_pure (parseLiteral toUppercase (parseIdent state name) (trimQuotes literal))

theorem parse_default (state : Parsing) (given : DefaultValue) :
    (Item.default given).tokens.foldlM (parseToken toUppercase) state =
      match (Item.default given).complaint with
      | some message => .error message
      | none => .ok ((Item.default given).after toUppercase state) := by
  have name : parseIdent state "default" = ⟨{ state.attr with default := true }, "default"⟩ :=
    parseIdent_of_not_bool state "default" (by decide)
  cases given with
  | absent => exact (parse_word toUppercase state "default").trans (congrArg Except.ok name)
  | word value =>
      have second : parseIdent ⟨{ state.attr with default := true }, "default"⟩ (if value then "true" else "false") =
          ⟨{ state.attr with default := value }, ""⟩ := by
        cases value <;> rfl
      rw [Item.tokens, DefaultValue.tokens, parse_words, name, second]
      rfl
  | literal text =>
      rw [Item.tokens, DefaultValue.tokens, parse_value, name, parseLiteral_default, parseDefault_eq]
      by_cases known : toAsciiLowercase (trimQuotes text) ∈ BOOLS
      · simp [Except.map, Item.complaint, Item.after, Item.apply, Item.defaultGiven, Item.lastKey,
          Item.pathGiven, Item.prefixGiven, Item.dataTypeGiven, Item.libGiven, Item.checkGiven, known]
      · simp [Except.map, Item.complaint, known]

theorem parse_item (state : Parsing) (item : Item) :
    item.tokens.foldlM (parseToken toUppercase) state =
      match item.complaint with
      | some message => .error message
      | none => .ok (item.after toUppercase state) := by
  cases item with
  | default given => exact parse_default toUppercase state given
  | path literal =>
      rw [Item.tokens, parse_value, parseIdent_of_not_bool state "path" (by decide)]
      rfl
  | prefixPath literal =>
      rw [Item.tokens, parse_value, parseIdent_of_not_bool state "prefix" (by decide)]
      rfl
  | dataType literal =>
      rw [Item.tokens, parse_value, parseIdent_of_not_bool state "data_type" (by decide)]
      rfl
  | lib literal =>
      cases literal with
      | none => rw [Item.tokens, parse_word, parseIdent_of_not_bool state "lib" (by decide)]; rfl
      | some literal =>
          rw [Item.tokens, parse_value, parseIdent_of_not_bool state "lib" (by decide)]
          rfl
  | check =>
      rw [Item.tokens, parse_word, parseIdent_of_not_bool state "check" (by decide)]
      rfl
  | word name unknown =>
      rw [List.mem_append, not_or] at unknown
      have others : name ≠ "lib" ∧ name ≠ "check" ∧ name ≠ "default" := by
        simpa [WORD_NAMES] using unknown.1
      rw [Item.tokens, parse_word, parseIdent_of_not_bool state name unknown.2]
      simp only [others, if_false]
      rfl
  | value name literal unknown =>
      rw [List.mem_append, not_or] at unknown
      rw [Item.tokens, parse_value, parseIdent_of_not_bool state name unknown.2,
        parseLiteral_unknown toUppercase _ _ unknown.1]
      rfl

theorem parse_items (state : Parsing) (items : List Item) :
    (items.flatMap Item.tokens).foldlM (parseToken toUppercase) state =
      items.foldlM (fun state item => item.tokens.foldlM (parseToken toUppercase) state) state := by
  induction items generalizing state with
  | nil => rfl
  | cons item items ih =>
      rw [List.flatMap_cons, List.foldlM_append, List.foldlM_cons]
      exact bind_congr fun next => ih next

theorem after_attr (state : Parsing) (items : List Item) :
    (items.foldl (fun state item => item.after toUppercase state) state).attr =
      items.foldl (fun attr item => item.apply toUppercase attr) state.attr := by
  induction items generalizing state with
  | nil => rfl
  | cons item items ih => exact ih (item.after toUppercase state)

theorem apply_meaning (items : List Item) :
    items.foldl (fun attr item => item.apply toUppercase attr) ConAttr.byDefault = meaning toUppercase items := by
  have last : ∀ {V : Type} (field : ConAttr → Option V) (given : Item → Option V),
      (∀ attr item, field (item.apply toUppercase attr) = (given item).or (field attr)) →
        field (items.foldl (fun attr item => item.apply toUppercase attr) ConAttr.byDefault) =
          (lastGiven given items).or (field ConAttr.byDefault) := fun field given overwrites =>
    foldl_lastGiven _ field given overwrites _ items
  have check := last (fun attr => some attr.check) Item.checkGiven fun attr item => by
    cases found : item.checkGiven <;> simp [Item.apply, found]
  have default := last (fun attr => some attr.default) Item.defaultGiven fun attr item => by
    cases found : item.defaultGiven <;> simp [Item.apply, found]
  apply ConAttr.ext
  · exact (last ConAttr.path Item.pathGiven fun _ _ => rfl).trans (Option.or_none ..)
  · exact (last ConAttr.prefixPath Item.prefixGiven fun _ _ => rfl).trans (Option.or_none ..)
  · exact (last ConAttr.dataType _ fun _ _ => rfl).trans (Option.or_none ..)
  · exact (last ConAttr.lib Item.libGiven fun _ _ => rfl).trans (Option.or_none ..)
  · cases found : lastGiven Item.checkGiven items <;> simp_all [meaning, ConAttr.byDefault]
  · cases found : lastGiven Item.defaultGiven items <;> simp_all [meaning, ConAttr.byDefault]

/-- The attributes are read as they are meant, in any order and with any punctuation between them. -/
theorem parseAttr_items (args : List TokenTree) (items : List Item)
    (written : (args.filter fun token => token ≠ .punct) = items.flatMap Item.tokens) :
    parseAttr toUppercase args =
      match items.findSome? Item.complaint with
      | some message => .error message
      | none => .ok (meaning toUppercase items) := by
  rw [parseAttr, parse_tokens_eq, written, parse_items,
    foldlM_findSome _ (fun state item => item.after toUppercase state) Item.complaint fun state item => by
      rw [parse_item]
      cases item.complaint <;> rfl]
  cases items.findSome? Item.complaint with
  | some message => rfl
  | none =>
      simp only [Except.map]
      rw [after_attr, apply_meaning]

end Meaning

/-! What the macro writes for a list of attributes. -/

def rootOf : Option String → Root
  | none => .base
  | some lib => if lib = "" then .own else .named lib

/-- What the macro accepts besides well-formed attributes. -/
structure Accepted (toUppercase : Char → List Char) (isPath : String → Bool) (items : List Item)
    (data : StructData) : Prop where
  lib : ∀ lib, lastGiven Item.libGiven items = some lib → lib = "" ∨ isPath lib = true
  dataType : ∀ dataType, lastGiven (Item.dataTypeGiven toUppercase) items = some dataType → dataType = "YAML"
  default : (lastGiven Item.defaultGiven items).getD true = true → data = .named

def expansionOf (isUppercase : Char → Bool) (items : List Item) (structName : String) : Expansion where
  loader :=
    { root := rootOf (lastGiven Item.libGiven items)
      path := lastGiven Item.pathGiven items
      prefixPath := lastGiven Item.prefixGiven items
      proxy := (lastGiven Item.defaultGiven items).getD true }
  registration :=
    if (lastGiven Item.pathGiven items).isSome then none
    else some
      { root := rootOf (lastGiven Item.libGiven items)
        regIns := "register_instance_" ++ camelToSnake isUppercase structName
        check := (lastGiven Item.checkGiven items).getD false }

theorem libRoot_eq (isPath : String → Bool) (lib : Option String) :
    libRoot isPath lib =
      if ∀ text, lib = some text → text = "" ∨ isPath text = true then .ok (rootOf lib)
      else .error "parse lib path failed" := by
  cases lib with
  | none => simp [libRoot, rootOf]
  | some text =>
      by_cases empty : text = ""
      · simp [libRoot, rootOf, empty]
      · by_cases path : isPath text = true <;> simp [libRoot, rootOf, empty, path]

section Writes

variable (isUppercase : Char → Bool) (isPath : String → Bool) (attr : ConAttr) (structName : String)
  (data : StructData)

theorem buildDataType_ok :
    buildDataType attr data = .ok () ↔
      (∀ dataType, attr.dataType = some dataType → dataType = "YAML") ∧ (attr.default = true → data = .named) := by
  have mapping : (if attr.default then buildDefaultDataType data else Except.ok ()) = .ok () ↔
      (attr.default = true → data = .named) := by
    cases attr.default <;> cases data <;> simp [buildDefaultDataType]
  cases given : attr.dataType with
  | none => simpa [buildDataType, given] using mapping
  | some dataType =>
      by_cases yaml : dataType = "YAML"
      · simpa [buildDataType, given, yaml] using mapping
      · simp [buildDataType, given, yaml]

/-- The registration and the function are written together or not at all. -/
theorem build_ok (expansion : Expansion) :
    (do
      let registration ← buildRegisterConstructor isUppercase isPath attr structName
      let loader ← buildConfConstructor isPath attr data
      Except.ok (ε := String) (Expansion.mk loader registration)) = .ok expansion ↔
      (∀ lib, attr.lib = some lib → lib = "" ∨ isPath lib = true) ∧ buildDataType attr data = .ok () ∧
        expansion =
          { loader := ⟨rootOf attr.lib, attr.path, attr.prefixPath, attr.default⟩
            registration :=
              if attr.path.isSome then none
              else some ⟨rootOf attr.lib, "register_instance_" ++ camelToSnake isUppercase structName, attr.check⟩ } := by
  by_cases fits : ∀ lib, attr.lib = some lib → lib = "" ∨ isPath lib = true
  · have root := (libRoot_eq isPath attr.lib).trans (if_pos fits)
    have registration : buildRegisterConstructor isUppercase isPath attr structName =
        .ok (if attr.path.isSome then none
          else some ⟨rootOf attr.lib, "register_instance_" ++ camelToSnake isUppercase structName, attr.check⟩) := by
      rw [buildRegisterConstructor, root]
      cases attr.path <;> rfl
    rw [registration, buildConfConstructor, root]
    cases buildDataType attr data with
    | error message => exact iff_of_false (fun impossible => by cases impossible) fun all => by cases all.2.1
    | ok done =>
        constructor
        · intro written
          cases written
          exact ⟨fits, rfl, rfl⟩
        · intro accepted
          rw [accepted.2.2]
          rfl
  · have root := (libRoot_eq isPath attr.lib).trans (if_neg fits)
    rw [buildRegisterConstructor, buildConfConstructor, root]
    refine iff_of_false ?_ fun accepted => fits accepted.1
    cases attr.path <;> (intro impossible; cases impossible)

theorem registration_named (attrs : List TokenTree) (toUppercase : Char → List Char) (expansion : Expansion)
    (registration : Registration)
    (written : conf isUppercase isPath toUppercase attrs structName data = .ok expansion)
    (registers : expansion.registration = some registration) :
    registration.regIns = "register_instance_" ++ camelToSnake isUppercase structName := by
  rw [conf] at written
  cases parsed : parseAttr toUppercase attrs with
  | error message => rw [parsed] at written; cases written
  | ok attr =>
      rw [parsed] at written
      have build := (build_ok isUppercase isPath attr structName data expansion).mp written
      rw [build.2.2] at registers
      dsimp only at registers
      split_ifs at registers
      cases registers
      rfl

end Writes

section Names

variable {isUppercase : Char → Bool}

/-- A name in upper camel case. -/
structure UpperCamel (isUppercase : Char → Bool) (name : String) : Prop where
  first : ∃ c rest, name.toList = c :: rest ∧ isUppercase c = true
  plain : '_' ∉ name.toList

theorem toLower_not_upper (ascii : ∀ c : Char, c.toNat < 128 → isUppercase c = c.isUpper) (c d : Char)
    (shifted : c.val ≥ 'A'.val ∧ c.val ≤ 'Z'.val) (plain : ¬ (d.val ≥ 'A'.val ∧ d.val ≤ 'Z'.val))
    (same : c.val + ('a'.val - 'A'.val) = d.val) : isUppercase d = false := by
  have value : d.val.toNat = c.val.toNat + 32 := by
    rw [← same, UInt32.toNat_add]
    have upper : c.val.toNat ≤ 90 := shifted.2
    have : ('a'.val - 'A'.val).toNat = 32 := by decide
    omega
  have small : d.toNat < 128 := by
    have upper : c.val.toNat ≤ 90 := shifted.2
    have : d.toNat = d.val.toNat := rfl
    omega
  rw [ascii d small]
  exact decide_eq_false plain

theorem toLower_injective (ascii : ∀ c : Char, c.toNat < 128 → isUppercase c = c.isUpper) (c d : Char)
    (upper : isUppercase c = true) (other : isUppercase d = true) (same : c.toLower = d.toLower) : c = d := by
  have moves (e : Char) (letter : e.val ≥ 'A'.val ∧ e.val ≤ 'Z'.val) :
      e.toLower.val = e.val + ('a'.val - 'A'.val) :=
    congrArg Char.val (dif_pos letter)
  have stays (e : Char) (plain : ¬ (e.val ≥ 'A'.val ∧ e.val ≤ 'Z'.val)) : e.toLower = e := dif_neg plain
  by_cases shifted : c.val ≥ 'A'.val ∧ c.val ≤ 'Z'.val <;>
    by_cases otherShifted : d.val ≥ 'A'.val ∧ d.val ≤ 'Z'.val
  · have values := congrArg Char.val same
    rw [moves c shifted, moves d otherShifted] at values
    exact Char.ext ((UInt32.add_left_inj _).mp values)
  · rw [stays d otherShifted] at same
    have lower := toLower_not_upper ascii c d shifted otherShifted (by rw [← moves c shifted, same])
    rw [other] at lower
    cases lower
  · rw [stays c shifted] at same
    have lower := toLower_not_upper ascii d c otherShifted shifted (by rw [← moves d otherShifted, same])
    rw [upper] at lower
    cases lower
  · rw [← stays c shifted, same, stays d otherShifted]

/-- Behind the first character an underscore stands where an uppercase letter was. -/
theorem camelToSnakeFrom_injective (ascii : ∀ c : Char, c.toNat < 128 → isUppercase c = c.isUpper)
    (i j : Nat) (first second : List Char) (plain : '_' ∉ first) (otherPlain : '_' ∉ second)
    (same : camelToSnakeFrom isUppercase (i + 1) first = camelToSnakeFrom isUppercase (j + 1) second) :
    first = second := by
  induction first generalizing i j second with
  | nil =>
      cases second with
      | nil => rfl
      | cons d rest =>
          cases upper : isUppercase d <;> simp [camelToSnakeFrom, upper] at same
  | cons c front ih =>
      cases second with
      | nil => cases upper : isUppercase c <;> simp [camelToSnakeFrom, upper] at same
      | cons d rest =>
          have tail := ih (i + 1) (j + 1) rest (fun member => plain (List.mem_cons_of_mem c member))
            fun member => otherPlain (List.mem_cons_of_mem d member)
          have plainC : c ≠ '_' := fun equal => plain (equal ▸ List.mem_cons_self)
          have plainD : d ≠ '_' := fun equal => otherPlain (equal ▸ List.mem_cons_self)
          cases upper : isUppercase c with
          | false =>
              cases other : isUppercase d with
              | false =>
                  simp [camelToSnakeFrom, upper, other] at same
                  rw [same.1, tail same.2]
              | true =>
                  simp [camelToSnakeFrom, upper, other] at same
                  exact absurd same.1 plainC
          | true =>
              cases other : isUppercase d with
              | false =>
                  simp [camelToSnakeFrom, upper, other] at same
                  exact absurd same.1.symm plainD
              | true =>
                  simp [camelToSnakeFrom, upper, other] at same
                  rw [toLower_injective ascii c d upper other same.1, tail same.2]

theorem camelToSnake_injective (ascii : ∀ c : Char, c.toNat < 128 → isUppercase c = c.isUpper)
    (first second : String) (camel : UpperCamel isUppercase first) (otherCamel : UpperCamel isUppercase second)
    (same : camelToSnake isUppercase first = camelToSnake isUppercase second) : first = second := by
  obtain ⟨⟨c, front, firstChars, upper⟩, plain⟩ := camel
  obtain ⟨⟨d, rest, secondChars, other⟩, otherPlain⟩ := otherCamel
  rw [firstChars] at plain
  rw [secondChars] at otherPlain
  have chars := String.ofList_injective same
  simp only [firstChars, secondChars, camelToSnakeFrom, upper, other, Nat.lt_irrefl, if_true, if_false,
    List.cons_append, List.nil_append, List.cons.injEq] at chars
  apply String.toList_injective
  rw [firstChars, secondChars, toLower_injective ascii c d upper other chars.1,
    camelToSnakeFrom_injective ascii 0 0 front rest (fun member => plain (List.mem_cons_of_mem c member))
      (fun member => otherPlain (List.mem_cons_of_mem d member)) chars.2]

end Names

/-- Attributes in any order and with any punctuation are read as they are meant, the last value of each
counting, the first that makes no sense is named, and structs in upper camel case that register themselves do
it under names of their own. -/
theorem conf_follows_its_attributes (isUppercase : Char → Bool) (isPath : String → Bool)
    (toUppercase : Char → List Char) (ascii : ∀ c : Char, c.toNat < 128 → isUppercase c = c.isUpper)
    (attrs : List TokenTree) (items : List Item)
    (written : (attrs.filter fun token => token ≠ .punct) = items.flatMap Item.tokens) (structName : String)
    (data : StructData) :
    (∀ message, items.findSome? Item.complaint = some message →
      conf isUppercase isPath toUppercase attrs structName data = .error message) ∧
    (items.findSome? Item.complaint = none → ∀ expansion,
      conf isUppercase isPath toUppercase attrs structName data = .ok expansion ↔
        Accepted toUppercase isPath items data ∧ expansion = expansionOf isUppercase items structName) ∧
    ∀ expansion registration, conf isUppercase isPath toUppercase attrs structName data = .ok expansion →
      expansion.registration = some registration → UpperCamel isUppercase structName →
        ∀ otherAttrs otherName otherData otherExpansion otherRegistration,
          conf isUppercase isPath toUppercase otherAttrs otherName otherData = .ok otherExpansion →
            otherExpansion.registration = some otherRegistration → UpperCamel isUppercase otherName →
              registration.regIns = otherRegistration.regIns → structName = otherName := by
  have parsed := parseAttr_items toUppercase attrs items written
  refine ⟨fun message complains => ?_, fun fine expansion => ?_, ?_⟩
  · rw [complains] at parsed
    rw [conf, parsed]
    rfl
  · rw [fine] at parsed
    have build := build_ok isUppercase isPath (meaning toUppercase items) structName data expansion
    rw [buildDataType_ok] at build
    rw [conf, parsed]
    refine Iff.trans build ?_
    exact ⟨fun all => ⟨⟨all.1, all.2.1.1, all.2.1.2⟩, all.2.2⟩,
      fun all => ⟨all.1.lib, ⟨all.1.dataType, all.1.default⟩, all.2⟩⟩
  · intro expansion registration done registers camel otherAttrs otherName otherData otherExpansion
      otherRegistration otherDone otherRegisters otherCamel equal
    rw [registration_named isUppercase isPath structName data attrs toUppercase expansion registration done registers,
      registration_named isUppercase isPath otherName otherData otherAttrs toUppercase otherExpansion
        otherRegistration otherDone otherRegisters] at equal
    exact camelToSnake_injective ascii structName otherName camel otherCamel (String.append_right_inj _ |>.mp equal)

/-- `#[conf(prefix = "log", lib)]` on the logger's struct. -/
theorem conf_follows_its_attributes_logger :
    conf Char.isUpper (fun _ => true) (fun c => [c.toUpper])
        [.ident "prefix", .punct, .literal "\"log\"", .punct, .ident "lib"] "Logger" .named =
      .ok ⟨⟨.own, none, some "log", true⟩, some ⟨.own, "register_instance_logger", false⟩⟩ :=
  ((conf_follows_its_attributes Char.isUpper (fun _ => true) (fun c => [c.toUpper]) (fun _ _ => rfl)
    [.ident "prefix", .punct, .literal "\"log\"", .punct, .ident "lib"]
    [.prefixPath "\"log\"", .lib none] (by decide) "Logger" .named).2.1 (by decide) _).mpr
    ⟨{ lib := fun lib given => Or.inl (Option.some.inj (given.symm.trans (by decide)))
       dataType := fun _ absent => by cases absent
       default := fun _ => rfl }, by decide⟩

end Pigs.Macros.Conf
