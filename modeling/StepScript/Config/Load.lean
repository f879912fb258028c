import StepScript.Config.Basic
import StepScript.Config.File
import StepScript.Environment.Basic
import StepScript.Files

/-!
# Loading a configuration

A configuration has four layers. Above the defaults lies a file, above it the environment, and on
top what the caller overrides. A setting has the value of the highest layer that gives it one, and
only that value must be of the right kind. Settings that are not known do no harm.
-/

namespace StepScript

/-! ## Overrides -/

/-- What a caller wants whatever the other layers say. Numbers are unsigned words of 64 bits. -/
structure Overrides where
  /-- The file to read in place of the usual one. -/
  path : Option String := none
  pollMillis : Option Nat := none
  timeoutSecs : Option Nat := none
  missingParams : Option MissingPolicy := none
  logFilter : Option String := none

namespace Overrides

/-- The value of an unsigned word, which is kept as a signed one. -/
def signedWord (n : Nat) : Config.Value := .integer (Int.bmod n wordLimit)

def entry (group name : String) (value : Option Config.Value) :
    List (List String × Config.Value) :=
  (value.map fun value => ([group, name], value)).toList

def entries (overrides : Overrides) : List (List String × Config.Value) :=
  entry "interpreter" "loop_poll_interval_ms" (overrides.pollMillis.map signedWord)
    ++ entry "interpreter" "run_timeout_secs" (overrides.timeoutSecs.map signedWord)
    ++ entry "template" "missing_params"
        (overrides.missingParams.map fun policy => .text policy.name)
    ++ entry "logging" "filter" (overrides.logFilter.map .text)

end Overrides

namespace Config

/-! ## The file -/

inductive LoadFault where
  | unreadableFile
  | malformedFile
  | unfitSetting (name : String)
deriving DecidableEq

/-- The failure to load a configuration, from a file that was asked for or from the usual one. -/
structure LoadFailure where
  path : Option String
  fault : LoadFault
deriving DecidableEq

def LoadFailure.message (failure : LoadFailure) : String :=
  match failure.path with
  | some path => "Failed to load configuration from " ++ path
  | none => "Failed to load configuration"

/-- Whether the name of a file says that its lines are settings. -/
def isSettingsFile (path : String) : Bool :=
  let name := (path.toList.reverse.takeWhile (· != '/')).reverse
  ".toml".toList.isSuffixOf name && 5 < name.length

/-- A path with the usual ending of a file of settings. What follows the last name on the path is
left out, and a path that does not end with a name has no ending. -/
def withSettingsEnding? (path : String) : Option String :=
  let isFiller (part : List Char) : Bool := part == [] || part == ['.']
  match (Text.pieces '/' path.toList).reverse.dropWhile isFiller with
  | [] | ['.', '.'] :: _ => none
  | parts => some (String.ofList (List.intercalate ['/'] parts.reverse) ++ ".toml")

/-- The text of the file that a path stands for. The name of the file need not be complete, but a
file of just that name hides the others. Only files in TOML are looked for: those in other formats
(`robot.json`, `robot.yaml` and the like), which may stand in for one in TOML, are left out. -/
def findFile (files : Files) (path : String) : Option String :=
  match files path with
  | .ok text => if isSettingsFile path then some text else none
  | .error _ => (withSettingsEnding? path).bind fun path => (files path).toOption

def usualName : String := "robot"

/-- The settings of a file. A file that was asked for must be there. -/
def fileEntries (files : Files) (path : Option String) :
    Except LoadFault (List (String × Value)) :=
  match findFile files (path.getD usualName), path with
  | some text, _ =>
    match readFile text with
    | some entries => .ok entries
    | none => .error .malformedFile
  | none, some _ => .error .unreadableFile
  | none, none => .ok []

/-! ## Settings -/

/-- The settings of a section: under their names in a table, or in their order in a list. -/
inductive Section where
  | named (entries : Table)
  | listed (items : List Value)

def sectionOf (table : Table) (name : String) : Except LoadFault Section :=
  match table.get? name with
  | none => .ok (.named [])
  | some (.table entries) => .ok (.named entries)
  | some (.list items) => .ok (.listed items)
  | some _ => .error (.unfitSetting name)

def Section.get? (group : Section) (name : String) (place : Nat) : Option Value :=
  match group with
  | .named entries => Dictionary.get? entries name
  | .listed items => items[place]?

def setting {α : Type} (read : Value → Option α) (default : α) (group : Section) (name : String)
    (place : Nat) : Except LoadFault α :=
  match group.get? name place with
  | none => .ok default
  | some value =>
    match read value with
    | some value => .ok value
    | none => .error (.unfitSetting name)

def ofTable (table : Table) : Except LoadFault Config := do
  let interpreter ← sectionOf table "interpreter"
  let template ← sectionOf table "template"
  let logging ← sectionOf table "logging"
  let pollMillis ← setting Value.toWord? 0 interpreter "loop_poll_interval_ms" 0
  let timeoutSecs ← setting Value.toOptionalWord? none interpreter "run_timeout_secs" 1
  let missingParams ←
    setting (·.toName?.bind MissingPolicy.ofName?) .lenient template "missing_params" 0
  let logFilter ← setting Value.toText? "info" logging "filter" 0
  let logFormat ← setting (·.toName?.bind LogFormat.ofName?) .pretty logging "format" 1
  return { pollMillis, timeoutSecs, missingParams, logFilter, logFormat }

/-! ## All layers -/

/-- The settings of all layers, from the lowest to the highest. -/
def layered (file : List (String × Value)) (environment : Environment) (overrides : Overrides) :
    Table :=
  overrides.entries.foldl (fun table entry => table.put (entry.1.map .name) entry.2)
    (Table.putAll (Table.putAll [] file) environment.entries)

/-- The file that is asked for, by the caller or else by the environment. -/
def requestedPath (environment : Environment) (overrides : Overrides) : Option String :=
  overrides.path.or (environment.get? Environment.pathVariable)

def load (files : Files) (environment : Environment) (overrides : Overrides) :
    Except LoadFailure Config :=
  let path := requestedPath environment overrides
  let config := do
    let file ← fileEntries files path
    ofTable (layered file environment overrides)
  match config with
  | .ok config => .ok config
  | .error fault => .error { path, fault }

end Config

end StepScript
