import StepScript.Config.Value

/-!
# Environments

The variables that a program is started with. Those whose names begin with a common marker are
settings.
-/

namespace StepScript

abbrev Environment : Type := Dictionary String

namespace Environment

/-- The variable that names the configuration file. -/
def pathVariable : String := "ROBOT_CONFIG_PATH"

/-- What the names of variables that are settings begin with. -/
def marker : List Char := ['r', 'o', 'b', 'o', 't', '_']

/-- The text with a point for every two underscores. -/
def pointed : List Char → List Char
  | '_' :: '_' :: rest => '.' :: pointed rest
  | c :: rest => c :: pointed rest
  | [] => []

/-- The name of the setting that a variable gives a value, in any case. Two underscores separate
the names of a section and of a setting in it. -/
def settingName? (name : String) : Option String :=
  let chars := (Text.lowercase name).toList
  if marker.isPrefixOf chars then some (String.ofList (pointed (chars.drop marker.length)))
  else none

def entries (environment : Environment) : List (String × Config.Value) :=
  environment.filterMap fun (name, text) =>
    (settingName? name).map fun setting => (setting, .ofText text)

end Environment

end StepScript
