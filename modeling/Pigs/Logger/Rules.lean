import Mathlib.Tactic

/-! `Logger::init`: the loggers that a configuration chains together, each with a level and a filter, and
the main logger behind them. -/

set_option linter.dupNamespace false

namespace Pigs.Logger

inductive LevelFilter where
  | off
  | error
  | warn
  | info
  | debug
  | trace
  deriving DecidableEq

def LevelFilter.rank : LevelFilter → Nat
  | .off => 0
  | .error => 1
  | .warn => 2
  | .info => 3
  | .debug => 4
  | .trace => 5

def LevelFilter.max (first second : LevelFilter) : LevelFilter :=
  if first.rank ≤ second.rank then second else first

/-- The level of a record. -/
inductive Level where
  | error
  | warn
  | info
  | debug
  | trace
  deriving DecidableEq

def Level.rank : Level → Nat
  | .error => 1
  | .warn => 2
  | .info => 3
  | .debug => 4
  | .trace => 5

/-- `char::is_whitespace` -/
def isWhitespace (c : Char) : Bool :=
  (9 ≤ c.toNat && c.toNat ≤ 13) || c.toNat = 32 || c.toNat = 0x85 || c.toNat = 0xa0 ||
    c.toNat = 0x1680 || (0x2000 ≤ c.toNat && c.toNat ≤ 0x200a) || c.toNat = 0x2028 ||
    c.toNat = 0x2029 || c.toNat = 0x202f || c.toNat = 0x205f || c.toNat = 0x3000

def trim (text : List Char) : List Char :=
  ((text.dropWhile isWhitespace).reverse.dropWhile isWhitespace).reverse

/-- `char::to_uppercase` where the result is ASCII. Every other letter that is not ASCII is left as it is,
since its uppercase is no part of a level name either. -/
def toUppercase (c : Char) : List Char :=
  match c.toNat with
  | 0xdf => ['S', 'S']
  | 0x131 => ['I']
  | 0x17f => ['S']
  | 0xfb00 => ['F', 'F']
  | 0xfb01 => ['F', 'I']
  | 0xfb02 => ['F', 'L']
  | 0xfb03 => ['F', 'F', 'I']
  | 0xfb04 => ['F', 'F', 'L']
  | 0xfb05 => ['S', 'T']
  | 0xfb06 => ['S', 'T']
  | _ => [c.toUpper]

/-- `none` is the panic "The log level is invalid". -/
def levelFilter (level : String) : Option LevelFilter :=
  match String.ofList ((trim level.toList).flatMap toUppercase) with
  | "OFF" => some .off
  | "ERROR" => some .error
  | "WARN" => some .warn
  | "INFO" => some .info
  | "DEBUG" => some .debug
  | "TRACE" => some .trace
  | _ => none

/-- A level text that `validate_level` and `validate_optional_level` let through. -/
structure LevelText where
  text : String
  valid : (levelFilter text).isSome

def LevelText.filter (level : LevelText) : LevelFilter := (levelFilter level.text).get level.valid

structure Specify where
  crateName : String
  level : Option LevelText
  fileNamePrefix : Option String
  stdout : Option Bool

/-- `namePrefix` is the field `prefix`. -/
structure Logger where
  namePrefix : String
  level : LevelText
  stdout : Bool
  file : Bool
  specify : Option (List Specify)

structure LogRule where
  targets : List String
  level : Option LevelFilter

inductive Output where
  | stdout
  | dateBased (namePrefix : String)

/-- A logger of the chain. -/
structure Dispatch where
  level : LevelFilter
  filter : String → Level → Bool
  outputs : List Output

/-- A logger drops the records above its level and those that its filter refuses. -/
def Dispatch.accepts (logger : Dispatch) (target : String) (level : Level) : Bool :=
  level.rank ≤ logger.level.rank && logger.filter target level

def parseTargets (crateName : String) : List String :=
  (((crateName.toList.splitOn ',').map trim).filter fun target => !target.isEmpty).map String.ofList

/-- One rule of `match_target`. -/
def matchRule (target rule : String) : Bool :=
  if rule.toList.getLast? = some '$' then
    target.toList = rule.toList.dropLast
  else
    rule.toList.isPrefixOf target.toList

def matchTarget (target : String) (rules : List String) : Bool := rules.any (matchRule target)

def effectiveLevel (target : String) (defaultLevel : LevelFilter) (rules : List LogRule) : LevelFilter :=
  ((rules.find? fun rule => matchTarget target rule.targets).bind LogRule.level).getD defaultLevel

namespace Logger

/-- What `init` has put together from the entries of `specify` so far. -/
structure Setup where
  excludeTargets : List String
  mainRules : List LogRule
  mainMaxLevel : LevelFilter
  dispatch : List Dispatch

def fileOutput (log : Logger) (namePrefix : String) : List Output :=
  if log.file then [.dateBased namePrefix] else []

/-- The body of the loop over `specify`. -/
def addSpecify (log : Logger) (setup : Setup) (s : Specify) : Setup :=
  let targets := parseTargets s.crateName
  let level := s.level.map LevelText.filter
  let effective := level.getD log.level.filter
  match s.fileNamePrefix with
  | some filePrefix =>
      let fileLogger : Dispatch :=
        { level := effective
          filter := fun target _ => matchTarget target targets
          outputs := (if s.stdout.getD true then [.stdout] else []) ++ log.fileOutput filePrefix }
      { setup with
        excludeTargets := setup.excludeTargets ++ targets
        dispatch := setup.dispatch ++ [fileLogger] }
  | none =>
      { setup with
        mainMaxLevel := setup.mainMaxLevel.max effective
        mainRules := setup.mainRules ++ [⟨targets, level⟩] }

/-- The entries of `specify`, none when it is left out. -/
def entries (log : Logger) : List Specify := log.specify.getD []

def setup (log : Logger) : Setup :=
  log.entries.foldl (addSpecify log) ⟨[], [], log.level.filter, []⟩

def mainLogger (log : Logger) : Dispatch where
  level := log.setup.mainMaxLevel
  filter target level :=
    !matchTarget target log.setup.excludeTargets &&
      level.rank ≤ (effectiveLevel target log.level.filter log.setup.mainRules).rank
  outputs := (if log.stdout then [.stdout] else []) ++ log.fileOutput log.namePrefix

def init (log : Logger) : List Dispatch := log.setup.dispatch ++ [log.mainLogger]

end Logger

end Pigs.Logger
