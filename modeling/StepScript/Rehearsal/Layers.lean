import StepScript.Rehearsal.Browser
import StepScript.Run.Interceptor

/-!
# Rehearsal interceptors and actions

Interceptors that record, replace or disturb dispatches, and actions that leave a mark in the log.
-/

namespace StepScript.Rehearsal

inductive LayerKind where
  /-- Nothing that could be seen. -/
  | tracing
  /-- Logs what goes in and what comes back. -/
  | record (label : String)
  /-- Succeeds in place of the action. -/
  | short (shown : Option Json)
  /-- Appends to the value of a parameter step. -/
  | append (text : String)
  /-- Passes on the step that a value describes. -/
  | replace (value : Json)
  /-- Fails in place of the action. -/
  | fail (cause : ActionError)
  /-- Cancels the run. -/
  | cancel
  /-- Sets a parameter. -/
  | set (key : String) (value : Json)
  /-- Pauses. -/
  | sleep (millis : Nat)
  /-- Replaces the data of the result. -/
  | data (shown : Option Json)
  /-- Turns a result into a failure. -/
  | refuse (message : Option String)
  /-- Turns an error into a result. -/
  | recover
  /-- Is not known. -/
  | unknown (name : String)

/-- An interceptor of a rehearsal and the steps that it looks at: those of a type, which is given by
its name, and those of a name. -/
structure Layer where
  kind : LayerKind
  type : Option String := none
  name : Option String := none

def Layer.appliesTo (layer : Layer) (step : Step) : Bool :=
  layer.type.all (· == step.type.name) && layer.name.all (· == step.name)

def logEvent (event : String) : Act backend Unit :=
  Act.update fun context => { context with world := World.log context.world event }

def afterEvent (label : String) : Except ActionError ActionResult → String
  | .ok result =>
    if result.success then label ++ "-after ok"
    else label ++ "-after refused " ++ result.error.getD "-"
  | .error cause => label ++ "-after err " ++ cause.message

/-- The step with a text appended to the value that it stores. -/
def appendedTo (text : String) (step : Step) : Step :=
  match step.instruction with
  | .putParam key selector (some value) readFromText isExpression =>
    { step with
      instruction := .putParam key selector (some (value ++ text)) readFromText isExpression }
  | _ => step

def LayerKind.run (kind : LayerKind) : Interceptor backend := fun step next =>
  match kind with
  | .tracing => next step
  | .record label => do
    logEvent (label ++ "-before " ++ step.type.name ++ " " ++ step.name)
    let outcome ← ExceptT.lift (next step).run
    logEvent (afterEvent label outcome)
    Act.ofExcept outcome
  | .short shown => return .succeeded step shown
  | .append text => next (appendedTo text step)
  | .replace value =>
    match Step.ofJson value with
    | .ok other => next other
    | .error cause => throw (.backend cause.message)
  | .fail cause => throw cause
  | .cancel => do
    Act.update fun context => { context with cancelled := true }
    next step
  | .set key value => do
    Act.update fun context => { context with params := context.params.set key value }
    next step
  | .sleep millis => do
    Act.sleep millis
    next step
  | .data shown => do
    let result ← next step
    return { result with data := shown }
  | .refuse message => do
    let result ← next step
    return { result with success := false, error := message }
  | .recover => do
    match ← ExceptT.lift (next step).run with
    | .ok result => return result
    | .error cause => return .succeeded step (some (.string cause.message))
  | .unknown name => throw (.invalidStep ("unknown interceptor " ++ name))

/-- The interceptor of a layer, which passes on the steps that it does not look at. Tracing looks at
all of them. -/
def Layer.interceptor (layer : Layer) : Interceptor backend := fun step next =>
  if layer.appliesTo step then layer.kind.run step next else next step

/-- An action that leaves a mark in the log. -/
structure Mark where
  type : StepType
  name : Option String := none
  tag : Option Json := none
  failure : Option String := none
  refusal : Option String := none

/-- The action of a mark. It supports steps of its name only, or all steps if it has none. -/
def Mark.action (mark : Mark) : Action backend where
  type := mark.type
  supports step := mark.name.all (· == step.name)
  run step := do
    logEvent ("mark " ++ step.name)
    match mark.failure, mark.refusal with
    | some message, _ => throw (.backend message)
    | none, some message => return .failed step message
    | none, none => return .succeeded step mark.tag

end StepScript.Rehearsal
