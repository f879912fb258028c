import StepScript.Script.Step

/-!
# Scripts as JSON values

The members of a step are its kind, its name, its options if it has any and the fields of its
instruction. Flags are always written, absent texts never.
-/

namespace StepScript

def WaitTarget.toJson : WaitTarget → Json
  | .duration millis => .ofNat millis.toNat
  | .element text => .string text

/-- A member that is written only if there is a value. -/
def optionalMember (key : String) (value : Option Json) : List (String × Json) :=
  match value with
  | some value => [(key, value)]
  | none => []

def Instruction.members : Instruction → List (String × Json)
  | .openPage url => [("url", .string url)]
  | .inputText selector text append =>
    [("selector", .string selector), ("text", .string text), ("append", .bool append)]
  | .putParam key selector value readFromText isExpression =>
    [("key", .string key)] ++ optionalMember "selector" (selector.map .string)
      ++ optionalMember "value" (value.map .string)
      ++ [("readFromText", .bool readFromText), ("isExpression", .bool isExpression)]
  | .wait target => optionalMember "selectorOrDurationMs" (target.map WaitTarget.toJson)
  | .ifGuard expression | .whileGuard expression => [("expression", .string expression)]
  | .openBrowser | .closeBrowser | .elseMarker | .endIf | .endWhile => []

/-- The members of a step, in the order in which they are written. -/
def Step.members (step : Step) : List (String × Json) :=
  [("name", .string step.name)] ++ optionalMember "options" step.options
    ++ ("kind", .string step.type.name) :: step.instruction.members

def Step.toJson (step : Step) : Json := .object step.members

def Script.toJson (script : Script) : Json :=
  .object [("name", .string script.name), ("steps", .array (script.steps.map Step.toJson))]

end StepScript
