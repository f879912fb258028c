import StepScript.Action.Result
import StepScript.Activity
import StepScript.Expr.Evaluate
import StepScript.Template

/-!
# Actions

An action carries out the steps of one type, in the context of a run. Browsers are reached through
a backend, of which actions know only the operations.
-/

namespace StepScript

inductive ActionError where
  | backend (message : String)
  | expression (cause : ExpressionError)
  | template (cause : TemplateError)
  | missingResource (name : String)
  | invalidStep (message : String)
deriving DecidableEq

def ActionError.message : ActionError → String
  | .backend message => message
  | .expression cause => cause.message
  | .template cause => cause.message
  | .missingResource name => "no " ++ name ++ " is open"
  | .invalidStep message => "invalid step: " ++ message

/-! ## Backends -/

/-- The operations of a browser backend. Its world holds whatever the backend remembers. -/
structure Backend where
  World : Type
  Browser : Type
  Page : Type
  launch : Option Json → Activity World (Except ActionError Browser)
  newPage : Browser → Activity World (Except ActionError Page)
  close : Browser → Activity World (Except ActionError Unit)
  goto : Page → String → Option Json → Activity World (Except ActionError Unit)
  typeText : Page → String → String → Activity World (Except ActionError Unit)
  setValue : Page → String → String → Activity World (Except ActionError Unit)
  readText : Page → String → Activity World (Except ActionError String)
  readValue : Page → String → Activity World (Except ActionError String)
  waitForSelector : Page → String → Activity World (Except ActionError Unit)
  waitForXPath : Page → String → Activity World (Except ActionError Unit)

/-! ## Contexts -/

/-- What the steps of a run share. -/
structure Context (B : Backend) where
  params : Parameters
  policy : MissingPolicy
  cancelled : Bool
  browser : Option B.Browser
  page : Option B.Page
  world : B.World

def Context.fresh {B : Backend} (policy : MissingPolicy) (cancelled : Bool) (world : B.World) :
    Context B :=
  { params := .empty, policy, cancelled, browser := none, page := none, world }

/-- An activity in a context that may fail. -/
abbrev Act (B : Backend) (α : Type) : Type := ExceptT ActionError (Activity (Context B)) α

namespace Act

variable {B : Backend} {α : Type}

def context : Act B (Context B) := ExceptT.lift Activity.getState

def update (f : Context B → Context B) : Act B Unit := ExceptT.lift (Activity.update f)

def sleep (millis : Nat) : Act B Unit := ExceptT.lift (Activity.sleep millis)

/-- Fails with an error, or goes on. -/
def ofExcept (result : Except ActionError α) : Act B α := ExceptT.mk (pure result)

def onWorld (operation : Activity B.World (Except ActionError α)) : Act B α :=
  ExceptT.mk
    (operation.onPart Context.world fun context world => { context with world })

def browser : Act B B.Browser := do
  match (← context).browser with
  | some browser => return browser
  | none => throw (.missingResource "browser")

def page : Act B B.Page := do
  match (← context).page with
  | some page => return page
  | none => throw (.missingResource "page")

/-- Sleeps for some milliseconds, or for none if the run has been cancelled. -/
def sleepUnlessCancelled (millis : Nat) : Act B Unit := do
  let cancelled := (← context).cancelled
  sleep (if cancelled then 0 else millis)

end Act

/-- The text of a value of an optional truth, as descriptions of contexts show it. -/
def describeFlag (flag : Bool) : String := if flag then "true" else "false"

def MissingPolicy.label : MissingPolicy → String
  | .lenient => "Lenient"
  | .strict => "Strict"

/-- The description of a context that has no parameters, in a run with the given number. -/
def Context.describe {B : Backend} (runId : String) (context : Context B) : String :=
  let entries := context.params.entries.map fun (key, value) =>
    Text.quoted key ++ ": " ++ value.render
  "ExecutionContext \x7b run_id: " ++ runId
    ++ ", params: ParameterStore \x7b values: \x7b" ++ ", ".intercalate entries ++ "\x7d \x7d"
    ++ ", missing_params: " ++ context.policy.label
    ++ ", browser: " ++ describeFlag context.browser.isSome
    ++ ", page: " ++ describeFlag context.page.isSome ++ " \x7d"

/-! ## Actions -/

/-- What carries out the steps of a type; within the type it may choose the steps it supports. -/
structure Action (B : Backend) where
  type : StepType
  supports : Step → Bool
  run : Step → Act B ActionResult

end StepScript
