import StepScript.Action.Registry

/-!
# Built-in actions

Guards, parameters and waits need no browser; the others open, use and close one.
-/

namespace StepScript

variable {B : Backend}

namespace Action

/-- An action that supports all steps of its type. -/
def ofType (type : StepType) (run : Step → Act B ActionResult) : Action B where
  type := type
  supports step := step.type = type
  run := run

def evaluated {α : Type} (value : Except ExpressionError α) : Act B α :=
  match value with
  | .ok value => pure value
  | .error cause => throw (.expression cause)

/-! ## Guards -/

def runGuard (step : Step) : Act B ActionResult := do
  match step.guardText? with
  | none => throw (.invalidStep step.name)
  | some text =>
    let holds ← evaluated (Expr.holds text)
    return .succeeded step (some (.bool holds))

def guard (type : StepType) : Action B := ofType type runGuard

/-! ## Parameters -/

/-- The value that a parameter step stores: what an element holds, the value of an expression, or
a text. -/
def parameterValue (step : Step) (selector value : Option String)
    (readFromText isExpression : Bool) : Act B Json :=
  match selector, value with
  | some selector, _ => do
    let page ← Act.page
    let text ← Act.onWorld
      (if readFromText then B.readText page selector else B.readValue page selector)
    return .string text
  | none, some text =>
    if isExpression then do
      let value ← evaluated (Expr.evaluate text)
      return value.toJson
    else return .string text
  | none, none =>
    throw (.invalidStep ("PutParam '" ++ step.name ++ "' has neither a selector nor a value"))

def runPutParam (step : Step) : Act B ActionResult := do
  match step.instruction with
  | .putParam key selector value readFromText isExpression =>
    let stored ← parameterValue step selector value readFromText isExpression
    Act.update fun context => { context with params := context.params.set key stored }
    return .succeeded step (some stored)
  | _ => throw (.invalidStep step.name)

def putParam : Action B := ofType .putParam runPutParam

/-! ## Waits -/

inductive WaitPlan where
  | nothing
  | sleep (millis : Nat)
  | selector (text : String)
  | xpath (text : String)
deriving DecidableEq, Repr

def startsWithSlashes : List Char → Bool
  | '/' :: '/' :: _ => true
  | _ => false

/-- The plan of a wait. A text of digits is a duration, one that begins with two slashes an XPath,
any other a selector; blanks around it do not count. -/
def WaitPlan.ofTarget : Option WaitTarget → WaitPlan
  | none => .nothing
  | some (.duration millis) => .sleep millis.toNat
  | some (.element text) =>
    let trimmed := Text.trimChars text.toList
    if trimmed.isEmpty then .nothing
    else
      match (Numeral.natOfWholeText? trimmed).filter (· < wordLimit) with
      | some millis => .sleep millis
      | none =>
        if startsWithSlashes trimmed then .xpath (String.ofList trimmed)
        else .selector (String.ofList trimmed)

/-- Waits on the open page; without a page there is nothing to wait for. -/
def waitOnPage (operation : B.Page → Activity B.World (Except ActionError Unit)) : Act B Unit := do
  match (← Act.context).page with
  | some page => Act.onWorld (operation page)
  | none => return

def runWait (step : Step) : Act B ActionResult := do
  match step.instruction with
  | .wait target =>
    match WaitPlan.ofTarget target with
    | .nothing => pure ()
    | .sleep millis => Act.sleepUnlessCancelled millis
    | .selector text => waitOnPage (B.waitForSelector · text)
    | .xpath text => waitOnPage (B.waitForXPath · text)
    return .succeeded step
  | _ => throw (.invalidStep step.name)

def wait : Action B := ofType .wait runWait

/-! ## Browsers -/

/-- Launches a browser and closes the one that it replaces. -/
def runOpenBrowser (step : Step) : Act B ActionResult := do
  let browser ← Act.onWorld (B.launch step.options)
  let previous := (← Act.context).browser
  Act.update fun context => { context with browser := some browser }
  if let some previous := previous then
    Act.update fun context => { context with page := none }
    Act.onWorld (B.close previous)
  return .succeeded step

def openBrowser : Action B := ofType .openBrowser runOpenBrowser

/-- Gives up the open browser and its page, and closes it. -/
def runCloseBrowser (step : Step) : Act B ActionResult := do
  let browser ← Act.browser
  Act.update fun context => { context with browser := none, page := none }
  Act.onWorld (B.close browser)
  return .succeeded step

def closeBrowser : Action B := ofType .closeBrowser runCloseBrowser

/-- Opens a page and navigates it; only then it is the open page. -/
def runOpenPage (step : Step) : Act B ActionResult := do
  match step.instruction with
  | .openPage url =>
    let browser ← Act.browser
    let page ← Act.onWorld (B.newPage browser)
    Act.onWorld (B.goto page url step.options)
    Act.update fun context => { context with page := some page }
    return .succeeded step
  | _ => throw (.invalidStep step.name)

def openPage : Action B := ofType .openPage runOpenPage

def runInputText (step : Step) : Act B ActionResult := do
  match step.instruction with
  | .inputText selector text append =>
    let page ← Act.page
    Act.onWorld (if append then B.typeText page selector text else B.setValue page selector text)
    return .succeeded step
  | _ => throw (.invalidStep step.name)

def inputText : Action B := ofType .inputText runInputText

end Action

namespace Registry

/-- The actions that need no browser. -/
def control : Registry B :=
  .ofList [.wait, .putParam, .guard .ifGuard, .guard .whileGuard]

def standard : Registry B :=
  .ofList [.openBrowser, .wait, .openPage, .putParam, .guard .ifGuard, .guard .whileGuard,
    .inputText, .closeBrowser]

/-- The built-in action with the name of its step type. -/
def builtin? (name : String) : Option (Action B) := do
  let type ← StepType.ofName? name
  (standard.candidates type).head?

end Registry

end StepScript
