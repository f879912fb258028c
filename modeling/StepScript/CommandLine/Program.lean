import StepScript.Action.Builtin
import StepScript.CommandLine.Invocation
import StepScript.CommandLine.LogFilter
import StepScript.Environment.File
import StepScript.Plan.Outline
import StepScript.Run.Stream

/-!
# The program

What the program does with its arguments, the environment and the files that it reads. It either
prints the outline of a script, or runs a script and prints a line for every result.
-/

namespace StepScript

/-- The backend without browsers: scripts of the program open none. -/
def Backend.absent : Backend where
  World := Unit
  Browser := Empty
  Page := Empty
  launch _ := pure (.error (.missingResource "browser"))
  newPage browser := nomatch browser
  close browser := nomatch browser
  goto page := nomatch page
  typeText page := nomatch page
  setValue page := nomatch page
  readText page := nomatch page
  readValue page := nomatch page
  waitForSelector page := nomatch page
  waitForXPath page := nomatch page

namespace CommandLine

/-! ## Failures -/

inductive Failure where
  | configuration (cause : Config.LoadFailure)
  | logFilter (filter : String) (fault : LogFilter.Fault)
  | unreadableScript (path : String) (fault : FileFault)
  | malformedScript (path : String) (cause : Json.ReadError)
  | unbalancedScript (name : String) (cause : PlanError)
  | failedScript (name : String) (cause : RunError)
deriving DecidableEq

/-- The wording of a run error together with its cause. The cause of an expression that fails is
part of the error's own wording too. -/
def fullMessage (error : RunError) : String :=
  match error with
  | .expressionEvaluation _ cause => error.message ++ ": " ++ cause.message
  | error => error.message

def Failure.message : Failure → String
  | .configuration cause => cause.message
  | .logFilter filter fault => "Invalid log filter '" ++ filter ++ "': " ++ fault.fullMessage
  | .unreadableScript path fault => "Failed to read script " ++ path ++ ": " ++ fault.message
  | .malformedScript path cause => "Failed to parse script " ++ path ++ ": " ++ cause.message
  | .unbalancedScript name cause =>
    "Script '" ++ name ++ "' has unbalanced blocks: " ++ cause.message
  | .failedScript name cause => "Script '" ++ name ++ "' failed: " ++ fullMessage cause

/-! ## Jobs -/

/-- What an invocation comes down to. -/
inductive Job where
  | print (text : String)
  | execute (run : Run .absent)

/-- The file of variables that is read into the environment. -/
def variablesPath : String := ".env"

/-- The environment with the file of variables, if there is one. -/
def fullEnvironment (files : Files) (environment : Environment) : Environment :=
  match files variablesPath with
  | .ok text => environment.addFile text
  | .error _ => environment

/-- The variable with a log filter that takes the place of the configured one. -/
def filterVariable : String := "RUST_LOG"

/-- Checks the log filter. The one of the environment is used if it is a filter at all. -/
def checkFilter (environment : Environment) (config : Config) : Except Failure Unit :=
  match (environment.get? filterVariable).map LogFilter.check with
  | some (.ok ()) => .ok ()
  | _ => (LogFilter.check config.logFilter).mapError (.logFilter config.logFilter)

def loadScript (files : Files) (path : String) : Except Failure Script := do
  let text ← (files path).mapError (.unreadableScript path)
  (Script.parse text).mapError (.malformedScript path)

def description (script : Script) (plan : List Node) : String :=
  script.name ++ " (" ++ natText script.steps.length ++ " steps)\n" ++ Plan.outline plan

/-- What the caller of a run overrides. -/
def overrides (invocation : Invocation) (strict : Bool) (pollMillis : Option Nat) : Overrides where
  path := invocation.configPath
  pollMillis := pollMillis
  timeoutSecs := invocation.timeoutSecs
  missingParams := if strict then some .strict else none

end CommandLine

open CommandLine

/-- What an invocation comes down to. For a run, the configuration comes first, the log filter
second and the script last. The one interceptor of a run writes to the log. -/
def Invocation.job (files : Files) (environment : Environment) (invocation : Invocation) :
    Except Failure Job :=
  match invocation.command with
  | .run path strict pollMillis => do
    let config ← (Config.load files environment (overrides invocation strict pollMillis)).mapError
      .configuration
    checkFilter environment config
    let script ← loadScript files path
    return .execute {
      script
      registry := .control
      interceptors := [.passThrough]
      settings := config.runSettings }
  | .check path => do
    let script ← loadScript files path
    let plan ← (Plan.resolve script.steps).mapError (.unbalancedScript script.name)
    return .print (description script plan)

/-- The files that the job of an invocation may depend on. -/
def Invocation.paths (environment : Environment) (invocation : Invocation) : List String :=
  match invocation.command with
  | .run path _ _ =>
    let config :=
      (Config.requestedPath environment { path := invocation.configPath }).getD Config.usualName
    config :: (Config.withSettingsEnding? config).toList ++ [path]
  | .check path => [path]

namespace CommandLine

/-! ## Reports -/

inductive OutputLine where
  | text (line : String)
  | result (result : ActionResult)

/-- The characters of a line, for a result whose step began and ended at some times. -/
def OutputLine.render (began ended : Timestamp) : OutputLine → String
  | .text line => line
  | .result record =>
    (TimedResult.toJson { result := record, startTime := began, endTime := ended }).render

structure Report where
  lines : List OutputLine
  failure : Option Failure

def Report.exitCode (report : Report) : Nat := if report.failure.isSome then 1 else 0

/-- The report of a streamed run whose results have been read up to some state. There is one only
if nothing is left to read. -/
def Report.ofReads (run : Run .absent) (fuel : Nat) (reads : List (Option ActionResult))
    (state : Stream.State .absent) : Option Report :=
  if state.hasEnded && state.queue.isEmpty then
    (Stream.join run fuel state).joined?.map fun joined =>
      { lines := (reads.filterMap id).map .result
        failure := joined.error.map (.failedScript run.script.name) }
  else none

/-- The report of a job on a virtual clock, if `fuel` is enough for its run. The results are printed
as they are read, and at the end the program waits for the run. -/
def Job.report (fuel : Nat) : Job → Option Report
  | .print text => some { lines := (Text.lines text).map .text, failure := none }
  | .execute run =>
    let (reads, state) := Stream.receiveAll run fuel fuel (.start false ())
    Report.ofReads run fuel reads state

/-- The report of an invocation on a virtual clock, if `fuel` is enough for its run. -/
def report (fuel : Nat) (files : Files) (environment : Environment) (invocation : Invocation) :
    Option Report :=
  match invocation.job files (fullEnvironment files environment) with
  | .ok job => job.report fuel
  | .error failure => some { lines := [], failure := some failure }

end CommandLine

end StepScript
