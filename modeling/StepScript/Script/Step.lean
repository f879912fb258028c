import StepScript.Json.Basic

/-!
# Steps

A script is a named list of steps. A step is an instruction with a name and options; among the
instructions are the guards and markers that delimit blocks.
-/

namespace StepScript

/-- What a wait waits for: a number of milliseconds, or the element that a text names. -/
inductive WaitTarget where
  | duration (millis : UInt64)
  | element (text : String)
deriving DecidableEq

inductive Instruction where
  | openBrowser
  | closeBrowser
  | openPage (url : String)
  | inputText (selector text : String) (append : Bool)
  | putParam (key : String) (selector value : Option String) (readFromText isExpression : Bool)
  | wait (target : Option WaitTarget)
  | ifGuard (expression : String)
  | elseMarker
  | endIf
  | whileGuard (expression : String)
  | endWhile
deriving DecidableEq

/-- The instructions without their payload. -/
inductive StepType where
  | openBrowser
  | closeBrowser
  | openPage
  | inputText
  | putParam
  | wait
  | ifGuard
  | elseMarker
  | endIf
  | whileGuard
  | endWhile
deriving DecidableEq, Repr

/-- All step types, in the order of their numbers. -/
def StepType.all : List StepType :=
  [.openBrowser, .closeBrowser, .openPage, .inputText, .putParam, .wait, .ifGuard, .elseMarker,
    .endIf, .whileGuard, .endWhile]

def StepType.name : StepType → String
  | .openBrowser => "OpenBrowser"
  | .closeBrowser => "CloseBrowser"
  | .openPage => "OpenPage"
  | .inputText => "InputText"
  | .putParam => "PutParam"
  | .wait => "Wait"
  | .ifGuard => "If"
  | .elseMarker => "Else"
  | .endIf => "EndIf"
  | .whileGuard => "While"
  | .endWhile => "EndWhile"

def StepType.ofName? (name : String) : Option StepType :=
  StepType.all.find? fun type => type.name = name

/-- Markers only delimit blocks and are never carried out. -/
def StepType.isMarker : StepType → Bool
  | .elseMarker | .endIf | .endWhile => true
  | _ => false

def Instruction.type : Instruction → StepType
  | .openBrowser => .openBrowser
  | .closeBrowser => .closeBrowser
  | .openPage _ => .openPage
  | .inputText .. => .inputText
  | .putParam .. => .putParam
  | .wait _ => .wait
  | .ifGuard _ => .ifGuard
  | .elseMarker => .elseMarker
  | .endIf => .endIf
  | .whileGuard _ => .whileGuard
  | .endWhile => .endWhile

structure Step where
  name : String
  options : Option Json := none
  instruction : Instruction

instance : Inhabited Step := ⟨{ name := "", instruction := .elseMarker }⟩

namespace Step

def type (step : Step) : StepType := step.instruction.type

def isMarker (step : Step) : Bool := step.type.isMarker

/-- The expression of a guard. -/
def guardText? (step : Step) : Option String :=
  match step.instruction with
  | .ifGuard expression | .whileGuard expression => some expression
  | _ => none

/-! ## Common steps -/

def putText (name key value : String) : Step :=
  { name, instruction := .putParam key none (some value) false false }

def putExpression (name key expression : String) : Step :=
  { name, instruction := .putParam key none (some expression) false true }

/-- Stores the value of an element, or the text that it shows, under a key. -/
def putElement (name key selector : String) (readFromText : Bool) : Step :=
  { name, instruction := .putParam key (some selector) none readFromText false }

def waitMillis (name : String) (millis : UInt64) : Step :=
  { name, instruction := .wait (some (.duration millis)) }

def waitFor (name selector : String) : Step :=
  { name, instruction := .wait (some (.element selector)) }

end Step

structure Script where
  name : String
  steps : List Step := []

instance : Inhabited Script := ⟨{ name := "" }⟩

end StepScript
