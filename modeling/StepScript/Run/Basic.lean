import StepScript.Plan.Basic
import StepScript.Run.Interceptor

/-!
# Runs

A run resolves its script and walks the plan one node at a time. It is described as a machine whose
stack holds what is left to do. Each move of the machine begins with a decision and ends before the
next one; in between it dispatches at most one step, sleeps and emits results.

A run waits while it sleeps and when it steps aside for others. It steps aside after each round of a
loop without a pause, and whenever it has worked for a whole turn without waiting: a turn allows a
number of sleeps that are over at once and of results that are handed on.

## Main definitions

- `RunError` — why a run ended early
- `Signal`, `Moment` — what an observer of a run sees, with the context at that time
- `turnLength` — how long a turn is
- `dispatch` — one step on its way through the interceptors
- `Machine.State`, `Machine.advance` — the machine
-/

namespace StepScript

inductive RunError where
  | unsupportedStep (name : String) (type : StepType)
  | actionExecution (name message : String)
  | expressionEvaluation (name : String) (cause : ExpressionError)
  | plan (cause : PlanError)
  | cancelled
  | timedOut (millis : Nat)
deriving DecidableEq

/-- The text of a duration: the largest unit of seconds and milliseconds that it reaches, with a
fraction if it needs one. -/
def durationText (millis : Nat) : String :=
  if millis = 0 then "0ns"
  else if millis < 1000 then natText millis ++ "ms"
  else
    let seconds := digitsOfNat (millis / 1000)
    let rest := millis % 1000
    let padded := List.replicate (3 - (digitsOfNat rest).length) '0' ++ digitsOfNat rest
    let shown := (padded.reverse.dropWhile (· == '0')).reverse
    String.ofList (seconds ++ (if rest = 0 then [] else '.' :: shown) ++ ['s'])

def RunError.message : RunError → String
  | .unsupportedStep name type => "no action supports step '" ++ name ++ "' (" ++ type.name ++ ")"
  | .actionExecution name message => "step '" ++ name ++ "' failed: " ++ message
  | .expressionEvaluation name cause =>
    "expression in step '" ++ name ++ "' failed: " ++ cause.message
  | .plan cause => cause.message
  | .cancelled => "run cancelled"
  | .timedOut millis => "run timed out after " ++ durationText millis

/-- The error of a run in which the step with a name failed. -/
def ActionError.toRunError (name : String) : ActionError → RunError
  | .expression cause => .expressionEvaluation name cause
  | cause => .actionExecution name cause.message

variable {B : Backend}

/-! ## Signals -/

/-- What an observer of a run sees. -/
inductive Signal where
  /-- A step of the script goes to the interceptors. -/
  | dispatch (step : Step)
  /-- The run sleeps. -/
  | sleep (millis : Nat)
  /-- The run steps aside. -/
  | stepAside
  /-- The run hands out a result. -/
  | emit (result : ActionResult)

/-- How many sleeps that are over at once, and results that are handed on, a turn allows. -/
def turnLength : Nat := 128

structure Moment (B : Backend) where
  signal : Signal
  context : Context B

structure Setup (B : Backend) where
  registry : Registry B
  interceptors : List (Interceptor B)
  pollMillis : Nat

/-! ## Dispatches -/

structure Dispatched (B : Backend) where
  moments : List (Moment B)
  outcome : Except RunError ActionResult
  context : Context B

/-- The context `after`, in a run that stays cancelled once it is. -/
def Context.stayCancelled (before after : Context B) : Context B :=
  { after with cancelled := before.cancelled || after.cancelled }

/-- What is seen of the pauses of a dispatch that began in one context and ended in another, and the
context after it. If the run is cancelled in between, it stays cancelled. -/
def seePauses (before : Context B) :
    List (Activity.Pause (Context B)) → Context B → List (Moment B) × Context B
  | [], last => ([], before.stayCancelled last)
  | pause :: pauses, last =>
    let during := before.stayCancelled pause.state
    let later := seePauses during pauses last
    (⟨.sleep pause.millis, during⟩ :: later.1, later.2)

/-- Sends a step to the interceptors, if an action supports it. A step that fails leaves a record
of the failure. -/
def dispatch (setup : Setup B) (step : Step) (context : Context B) : Dispatched B :=
  match setup.registry.resolve step with
  | none => ⟨[], .error (.unsupportedStep step.name step.type), context⟩
  | some _ =>
    let trace :=
      (intercepted (carryOut setup.registry) setup.interceptors step).run.run context
    let seen := seePauses context trace.pauses trace.state
    let after := seen.2
    let moments := ⟨.dispatch step, context⟩ :: seen.1
    match trace.value with
    | .ok result =>
      if result.success then ⟨moments, .ok result, after⟩
      else
        ⟨moments ++ [⟨.emit result, after⟩],
          .error (.actionExecution step.name (result.error.getD "action reported failure")), after⟩
    | .error cause =>
      ⟨moments ++ [⟨.emit (.failed step cause.message), after⟩],
        .error (cause.toRunError step.name), after⟩

/-! ## The machine -/

namespace Machine

inductive Frame where
  /-- The nodes of a block. -/
  | visit (nodes : List Node)
  /-- The guard of a loop, and its body if the guard holds. -/
  | check (guard : Step) (body : List Node)
  /-- The pause after the body of a loop, and then its guard. -/
  | rest (guard : Step) (body : List Node)

/-- A run between two moves: what is left to do, innermost first. -/
structure State (B : Backend) where
  frames : List Frame
  context : Context B

inductive Next (B : Backend) where
  | resume (state : State B)
  | ended (error : Option RunError) (context : Context B)

/-- A move: what an observer sees of it, and what follows. -/
structure Move (B : Backend) where
  moments : List (Moment B)
  next : Next B

/-- Dispatches a step and, if it succeeds, goes on with its result. -/
def afterDispatch (setup : Setup B) (step : Step) (context : Context B)
    (proceed : List (Moment B) → ActionResult → Context B → Move B) : Move B :=
  let dispatched := dispatch setup step context
  match dispatched.outcome with
  | .ok result => proceed dispatched.moments result dispatched.context
  | .error cause => ⟨dispatched.moments, .ended (some cause) dispatched.context⟩

/-- Emits the result of a dispatch and goes on with the frames that it leads to. -/
def emitting (frames : ActionResult → List Frame) (moments : List (Moment B))
    (result : ActionResult) (context : Context B) : Move B :=
  ⟨moments ++ [⟨.emit result, context⟩], .resume ⟨frames result, context⟩⟩

/-- Goes on with the frames that a result leads to; the result is not shown. -/
def silent (frames : ActionResult → List Frame) (moments : List (Moment B))
    (result : ActionResult) (context : Context B) : Move B :=
  ⟨moments, .resume ⟨frames result, context⟩⟩

def visitNode (setup : Setup B) (context : Context B) (rest : List Frame) : Node → Move B
  | .sequential step => afterDispatch setup step context (emitting fun _ => rest)
  | .conditional guard thenBranch elseBranch =>
    afterDispatch setup guard context (emitting fun result =>
      .visit (if result.condition then thenBranch else elseBranch) :: rest)
  | .loop guard body => ⟨[], .resume ⟨.check guard body :: rest, context⟩⟩

/-- The pause between two rounds of a loop. Without milliseconds the run steps aside; otherwise it
sleeps, for no time if it has been cancelled. -/
def pauseBetween (setup : Setup B) (context : Context B) : List (Moment B) :=
  if setup.pollMillis = 0 then [⟨.stepAside, context⟩]
  else [⟨.sleep (if context.cancelled then 0 else sleepSpan setup.pollMillis), context⟩]

/-- The next move. Between the nodes of a block and after the pause of a loop, a cancelled run
ends. -/
def advance (setup : Setup B) (state : State B) : Move B :=
  let context := state.context
  match state.frames with
  | [] => ⟨[], .ended none context⟩
  | .visit [] :: rest => ⟨[], .resume ⟨rest, context⟩⟩
  | .visit (node :: nodes) :: rest =>
    if context.cancelled then ⟨[], .ended (some .cancelled) context⟩
    else visitNode setup context (.visit nodes :: rest) node
  | .check guard body :: rest =>
    afterDispatch setup guard context (silent fun result =>
      if result.condition then .visit body :: .rest guard body :: rest else rest)
  | .rest guard body :: rest =>
    if context.cancelled then
      ⟨pauseBetween setup context, .ended (some .cancelled) context⟩
    else ⟨pauseBetween setup context, .resume ⟨.check guard body :: rest, context⟩⟩

/-- The first move of a run: the plan is made before anything else, and a run that is cancelled
already does not begin. -/
def start (steps : List Step) (context : Context B) : Next B :=
  match Plan.resolve steps with
  | .error cause => .ended (some (.plan cause)) context
  | .ok nodes =>
    if context.cancelled then .ended (some .cancelled) context
    else .resume ⟨[.visit nodes], context⟩

end Machine

/-! ## Settings -/

/-- The limits of a run and its policy. Durations are whole milliseconds; finer ones cannot be set
here. -/
structure RunSettings where
  pollMillis : Nat := 0
  timeoutMillis : Option Nat := none
  policy : MissingPolicy := .lenient

structure Run (B : Backend) where
  script : Script
  registry : Registry B
  interceptors : List (Interceptor B) := []
  settings : RunSettings := {}

def Run.setup (run : Run B) : Setup B :=
  ⟨run.registry, run.interceptors, run.settings.pollMillis⟩

def Run.start (run : Run B) (cancelled : Bool) (world : B.World) : Machine.Next B :=
  Machine.start run.script.steps (.fresh run.settings.policy cancelled world)

end StepScript
