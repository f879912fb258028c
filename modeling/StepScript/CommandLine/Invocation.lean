import StepScript.Config.Load

/-!
# Invocations

What the arguments of the program ask for: a command with a script and its options. The options
that all commands share may also stand before the command; what is given behind it then wins.
-/

namespace StepScript

inductive Command where
  | run (script : String) (strict : Bool) (pollMillis : Option Nat)
  | check (script : String)
deriving DecidableEq, Repr

/-- A command with the options that all commands share. -/
structure Invocation where
  command : Command
  configPath : Option String
  timeoutSecs : Option Nat
deriving DecidableEq, Repr

namespace Arguments

/-! ## Options -/

inductive Flag where
  | config
  | timeoutSecs
  | strict
  | pollIntervalMs
deriving DecidableEq, Repr

/-- Where options are looked for: before any command, behind one of them, or in a request for
help. -/
inductive Scope where
  | program
  | run
  | check
  | help
deriving DecidableEq, Repr

def Flag.name : Flag → String
  | .config => "config"
  | .timeoutSecs => "timeout-secs"
  | .strict => "strict"
  | .pollIntervalMs => "poll-interval-ms"

def Flag.hasValue : Flag → Bool
  | .strict => false
  | _ => true

def Scope.flags : Scope → List Flag
  | .run => [.config, .timeoutSecs, .strict, .pollIntervalMs]
  | _ => [.config, .timeoutSecs]

/-- The unsigned word of 64 bits that is the whole text. -/
def word? (text : String) : Option Nat :=
  (Numeral.natOfWholeText? text.toList).filter (· < wordLimit)

def Flag.accepts : Flag → String → Bool
  | .config, value => !value.isEmpty
  | .strict, _ => true
  | .timeoutSecs, value | .pollIntervalMs, value => (word? value).isSome

inductive Fault where
  | helpWanted
  | unknownOption (argument : String)
  | unexpected (argument : String)
  | valueMissing (flag : Flag)
  | valueUnwanted (argument : String)
  | badValue (flag : Flag) (value : String)
  | givenTwice (flag : Flag)
  | emptyScript
  | scriptMissing
  | commandMissing
deriving DecidableEq, Repr

def Fault.message : Fault → String
  | .helpWanted => "help requested"
  | .unknownOption argument => "unknown option '" ++ argument ++ "'"
  | .unexpected argument => "unexpected argument '" ++ argument ++ "'"
  | .valueMissing flag => "a value is required for '--" ++ flag.name ++ "'"
  | .valueUnwanted argument => "unexpected value in '" ++ argument ++ "'"
  | .badValue flag value => "invalid value '" ++ value ++ "' for '--" ++ flag.name ++ "'"
  | .givenTwice flag => "'--" ++ flag.name ++ "' cannot be used multiple times"
  | .emptyScript => "the path of the script is empty"
  | .scriptMissing => "a script is required"
  | .commandMissing => "a command is required"

/-! ## Forms of arguments -/

inductive Form where
  /-- Two dashes alone: no options follow. -/
  | onlyPlain
  /-- An option by its name, and the value behind an equals sign. -/
  | named (name : String) (attached : Option String)
  /-- Letters behind a single dash. -/
  | letters (first : Char)
  | plain

def Form.of (argument : String) : Form :=
  match argument.toList with
  | ['-', '-'] => .onlyPlain
  | '-' :: '-' :: text =>
    let name := String.ofList (text.takeWhile (· != '='))
    match text.dropWhile (· != '=') with
    | _ :: value => .named name (some (String.ofList value))
    | [] => .named name none
  | '-' :: c :: _ => .letters c
  | _ => .plain

/-! ## Reading arguments -/

structure State where
  scope : Scope := .program
  /-- The options before the command. -/
  outer : List (Flag × String) := []
  /-- The options in the present scope. -/
  given : List (Flag × String) := []
  /-- The option whose value comes next. -/
  pending : Option Flag := none
  script : Option String := none
  onlyPlain : Bool := false

def State.give (state : State) (flag : Flag) (value : String) : Except Fault State :=
  if (state.given.lookup flag).isSome then .error (.givenTwice flag)
  else if flag.accepts value then
    .ok { state with given := (flag, value) :: state.given, pending := none }
  else .error (.badValue flag value)

def State.enter (state : State) (scope : Scope) : State :=
  { scope, outer := state.given }

/-- One more argument that is neither an option nor the value of one. -/
def State.readPlain (state : State) (argument : String) : Except Fault State :=
  match state.scope with
  | .program =>
    if state.onlyPlain then .error (.unexpected argument)
    else if argument = "run" then .ok (state.enter .run)
    else if argument = "check" then .ok (state.enter .check)
    else if argument = "help" then .ok (state.enter .help)
    else .error (.unexpected argument)
  | .run | .check =>
    if state.script.isSome then .error (.unexpected argument)
    else if argument.isEmpty then .error .emptyScript
    else .ok { state with script := some argument }
  | .help =>
    if state.script.isNone ∧ ["run", "check", "help"].contains argument then
      .ok { state with script := some argument }
    else .error (.unexpected argument)

def State.readOption (state : State) (argument name : String) (attached : Option String) :
    Except Fault State :=
  if name = "help" then
    if attached.isSome then .error (.valueUnwanted argument) else .error .helpWanted
  else
    match state.scope.flags.find? (fun flag => flag.name = name), attached with
    | none, _ => .error (.unknownOption argument)
    | some flag, some value =>
      if flag.hasValue then state.give flag value else .error (.valueUnwanted argument)
    | some flag, none =>
      if flag.hasValue then .ok { state with pending := some flag } else state.give flag ""

/-- One more argument. The value of an option must not look like an option itself. -/
def State.read (state : State) (argument : String) : Except Fault State :=
  if state.onlyPlain ∨ state.scope = .help then state.readPlain argument
  else
    match Form.of argument, state.pending with
    | .plain, some flag => state.give flag argument
    | .plain, none => state.readPlain argument
    | _, some flag => .error (.valueMissing flag)
    | .onlyPlain, none => .ok { state with onlyPlain := true }
    | .named name attached, none => state.readOption argument name attached
    | .letters c, none => .error (if c = 'h' then .helpWanted else .unknownOption argument)

/-- The value of an option; the one behind the command wins. -/
def State.value? (state : State) (flag : Flag) : Option String :=
  (state.given.lookup flag).or (state.outer.lookup flag)

def State.finish (state : State) : Except Fault Invocation := do
  if let some flag := state.pending then throw (.valueMissing flag)
  let invocation (command : Command) : Invocation :=
    { command
      configPath := state.value? .config
      timeoutSecs := (state.value? .timeoutSecs).bind word? }
  match state.scope, state.script with
  | .program, _ => throw .commandMissing
  | .help, _ => throw .helpWanted
  | _, none => throw .scriptMissing
  | .run, some script =>
    return invocation (.run script (state.value? .strict).isSome
      ((state.value? .pollIntervalMs).bind word?))
  | .check, some script => return invocation (.check script)

end Arguments

def Invocation.ofArguments (arguments : List String) : Except Arguments.Fault Invocation := do
  let state ← arguments.foldlM Arguments.State.read {}
  state.finish

end StepScript
