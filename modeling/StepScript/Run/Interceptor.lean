import StepScript.Action.Registry

/-!
# Interceptors

Interceptors wrap every dispatch of a step. The first one is the outermost; inside the last one the
step is expanded and carried out by an action.
-/

namespace StepScript

variable {B : Backend}

/-- Handles a step in place of the next layer, which it may call with any step. -/
abbrev Interceptor (B : Backend) : Type := Step → (Step → Act B ActionResult) → Act B ActionResult

/-- Puts the parameters into the step and carries it out. The action is chosen for the expanded
step. -/
def carryOut (registry : Registry B) (step : Step) : Act B ActionResult := do
  let context ← Act.context
  match step.expand context.params context.policy with
  | .error cause => throw (.template cause)
  | .ok expanded =>
    match registry.resolve expanded with
    | some action => action.run expanded
    | none =>
      throw (.invalidStep
        ("no action supports step '" ++ expanded.name ++ "' (" ++ expanded.type.name ++ ")"))

/-- Sends a step through the interceptors to the innermost layer. -/
def intercepted (innermost : Step → Act B ActionResult) :
    List (Interceptor B) → Step → Act B ActionResult
  | [], step => innermost step
  | interceptor :: rest, step => interceptor step (intercepted innermost rest)

def Interceptor.passThrough : Interceptor B := fun step next => next step

end StepScript
