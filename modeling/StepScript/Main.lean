import StepScript.CommandLine.Program
import Std.Time.DateTime.Timestamp

/-!
# The executable

Reads the environment and the files, lets the library decide what is to be done, and does it on a
real clock: it sleeps when a run sleeps and prints each result as soon as there is one.
-/

namespace StepScript.Executable

open CommandLine

/-! ## Input -/

/-- The variables to look up if the system does not list its environment. -/
def knownVariables : List String :=
  [filterVariable, Environment.pathVariable, "ROBOT_INTERPRETER__LOOP_POLL_INTERVAL_MS",
    "ROBOT_INTERPRETER__RUN_TIMEOUT_SECS", "ROBOT_TEMPLATE__MISSING_PARAMS",
    "ROBOT_LOGGING__FILTER", "ROBOT_LOGGING__FORMAT"]

/-- The variable in an entry of the list of the environment. -/
def variableOf (entry : List Char) : Option (String × String) :=
  match entry.dropWhile (· != '=') with
  | _ :: value => some (String.ofList (entry.takeWhile (· != '=')), String.ofList value)
  | [] => none

def readEnvironment : IO Environment := do
  try
    let text ← IO.FS.readFile "/proc/self/environ"
    return .ofList ((Text.pieces '\x00' text.toList).filterMap variableOf)
  catch _ =>
    let entries ← knownVariables.filterMapM fun name => do
      let value? ← IO.getEnv name
      return value?.map fun value => (name, value)
    return .ofList entries

def readPath (path : String) : IO (Except FileFault String) := do
  try
    let text ← IO.FS.readFile path
    return .ok text
  catch
    | .noFileOrDirectory .. => return .error .notFound
    | .inappropriateType _ code _ =>
      return .error (if code = 20 then .notFolder else .isFolder)
    | .invalidArgument _ code reason =>
      return .error (if code = 36 then .nameTooLong else .other reason)
    | cause => return .error (.other (toString cause))

def readFiles (paths : List String) : IO Files := do
  let contents ← paths.mapM fun path => do
    let content ← readPath path
    return (path, content)
  return fun path => (contents.lookup path).getD (.error .notFound)

/-! ## Runs -/

def now : IO Timestamp := do
  let nanos := (← Std.Time.Timestamp.now).toNanosecondsSinceUnixEpoch.val
  return { second := nanos / 1000000000, nanos := (nanos % 1000000000).toNat }

/-- Sleeps, at most an hour at a time. -/
partial def sleep (millis : Nat) : IO Unit := do
  let hour := 3600000
  IO.sleep (UInt32.ofNat (min millis hour))
  if hour < millis then sleep (millis - hour)

/-- Waits for a run, unless its time limit is reached before the end. -/
def wait (start : Nat) (timeout : Option Nat) (millis : Nat) : IO (Option RunError) := do
  match timeout with
  | none =>
    sleep millis
    return none
  | some limit =>
    let elapsed := (← IO.monoMsNow) - start
    if elapsed < limit ∧ elapsed + millis ≤ limit then
      sleep millis
      return none
    sleep (limit - elapsed)
    return some (.timedOut limit)

/-- How far a run has come: the time at which the last dispatch began, and what is left of the
turn. -/
structure Progress where
  began : Timestamp
  turn : Nat := turnLength

/-- Waits for a run and begins a new turn. -/
def Progress.wait (progress : Progress) (start : Nat) (timeout : Option Nat) (millis : Nat) :
    IO (Except RunError Progress) := do
  match ← Executable.wait start timeout millis with
  | some error => return .error error
  | none => return .ok { progress with turn := turnLength }

/-- Sleeps when a run sleeps, which steps aside first at the end of a turn. -/
def Progress.sleep (progress : Progress) (start : Nat) (timeout : Option Nat) (millis : Nat) :
    IO (Except RunError Progress) := do
  let rested ← if progress.turn = 0 then progress.wait start timeout 0 else pure (.ok progress)
  match rested with
  | .error error => return .error error
  | .ok progress =>
    let woken ← if millis = 0 then pure (.ok progress) else progress.wait start timeout millis
    return woken.map fun progress => { progress with turn := progress.turn - 1 }

/-- Acts out the moments of a move. Ends with the progress of the run, or with the error that cuts
it short. -/
def act (start : Nat) (timeout : Option Nat) (progress : Progress) :
    List (Moment .absent) → IO (Except RunError Progress)
  | [] => return .ok progress
  | moment :: rest => do
    match moment.signal with
    | .dispatch _ =>
      let began ← now
      act start timeout { progress with began } rest
    | .emit result =>
      IO.println ((OutputLine.result result).render progress.began (← now))
      (← IO.getStdout).flush
      act start timeout progress rest
    | .sleep millis =>
      match ← progress.sleep start timeout millis with
      | .error error => return .error error
      | .ok progress => act start timeout progress rest
    | .stepAside =>
      match ← progress.wait start timeout 0 with
      | .error error => return .error error
      | .ok progress => act start timeout progress rest

partial def follow (run : Run .absent) (start : Nat) (progress : Progress) :
    Machine.Next .absent → IO (Option RunError)
  | .ended error _ => return error
  | .resume state => do
    let move := Machine.advance run.setup state
    match ← act start run.settings.timeoutMillis progress move.moments with
    | .error error => return some error
    | .ok progress => follow run start progress move.next

def execute : Job → IO (Option Failure)
  | .print text => do
    IO.print text
    return none
  | .execute run => do
    let error ← follow run (← IO.monoMsNow) { began := ← now } (run.start false ())
    return error.map (.failedScript run.script.name)

/-! ## The command line -/

def usage : String :=
  "\n".intercalate [
    "Usage: robot [OPTIONS] <COMMAND>",
    "",
    "Commands:",
    "  run <SCRIPT> [--strict] [--poll-interval-ms <N>]  Run a script, printing each result",
    "  check <SCRIPT>                                    Print the blocks of a script",
    "",
    "Options:",
    "  --config <PATH>     The configuration file",
    "  --timeout-secs <N>  How long a run may take",
    "  -h, --help          Print help",
    ""]

def perform (invocation : Invocation) : IO UInt32 := do
  let atHand ← readFiles [variablesPath]
  let environment := fullEnvironment atHand (← readEnvironment)
  let files ← readFiles (invocation.paths environment)
  let failure ← match invocation.job files environment with
    | .ok job => execute job
    | .error failure => pure (some failure)
  match failure with
  | none => return 0
  | some failure =>
    IO.eprintln ("Error: " ++ failure.message)
    return 1

end StepScript.Executable

open StepScript in
def main (arguments : List String) : IO UInt32 := do
  match Invocation.ofArguments arguments with
  | .ok invocation => Executable.perform invocation
  | .error .helpWanted =>
    IO.print Executable.usage
    return 0
  | .error fault =>
    IO.eprint ("error: " ++ fault.message ++ "\n\n" ++ Executable.usage)
    return 2
