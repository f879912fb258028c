import StepScript.Run.Basic

/-!
# Configurations

The settings of the program: how runs are carried out, and what is logged about them.
-/

namespace StepScript

inductive LogFormat where
  | pretty
  | compact
deriving DecidableEq, Repr

def LogFormat.name : LogFormat → String
  | .pretty => "pretty"
  | .compact => "compact"

def LogFormat.ofName? (name : String) : Option LogFormat :=
  [LogFormat.pretty, .compact].find? fun format => format.name = name

/-- The settings of the program. -/
structure Config where
  /-- The pause between two rounds of a loop, in milliseconds. -/
  pollMillis : Nat := 0
  /-- How long a run may take, in seconds. -/
  timeoutSecs : Option Nat := none
  missingParams : MissingPolicy := .lenient
  logFilter : String := "info"
  logFormat : LogFormat := .pretty
deriving DecidableEq, Repr

namespace Config

def toJson (config : Config) : Json :=
  .object [
    ("interpreter", .object [
      ("loop_poll_interval_ms", .ofNat config.pollMillis),
      ("run_timeout_secs", (config.timeoutSecs.map Json.ofNat).getD .null)]),
    ("template", .object [("missing_params", .string config.missingParams.name)]),
    ("logging", .object [
      ("filter", .string config.logFilter),
      ("format", .string config.logFormat.name)])]

def runSettings (config : Config) : RunSettings where
  pollMillis := config.pollMillis
  timeoutMillis := config.timeoutSecs.map (1000 * ·)
  policy := config.missingParams

end Config

end StepScript
