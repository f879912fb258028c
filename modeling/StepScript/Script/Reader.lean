import StepScript.Json.Reader
import StepScript.Script.Step

/-!
# Reading scripts

The name and the options of a step are read where they stand, everything else when the step is
complete: first the kind, then the fields of that kind. Other members are ignored.
-/

namespace StepScript

open Json

/-! ## Instructions -/

/-- Reads a step type, given by its name or its number. -/
def StepType.read : Reader StepType
  | .string name =>
    match StepType.ofName? name with
    | some type => .ok type
    | none => misfit (.unknownVariant name (StepType.all.map StepType.name))
  | .number (.integer index) =>
    if index < 0 then wrongType "variant identifier" (.number (.integer index))
    else
      match StepType.all[index.toNat]? with
      | some type => .ok type
      | none => misfit (.wrongValue (.integer index) "variant index 0 <= i < 11")
  | document => wrongType "variant identifier" document

/-- Reads a wait target: a natural number of 64 bits or a text. -/
def WaitTarget.read : Reader WaitTarget
  | .number (.integer millis) =>
    if 0 ≤ millis then .ok (.duration (UInt64.ofNat millis.toNat))
    else misfit (.noVariantFits "WaitTarget")
  | .string text => .ok (.element text)
  | .broken cause => .error (.malformed cause)
  | _ => misfit (.noVariantFits "WaitTarget")

/-- The fields of an instruction, with what each of them must be. -/
def StepType.fields : StepType → List (String × Reader Unit)
  | .openPage => [("url", checked readString)]
  | .inputText =>
    [("selector", checked readString), ("text", checked readString),
      ("append", checked readBool)]
  | .putParam =>
    [("key", checked readString), ("selector", checked (readOptional readString)),
      ("value", checked (readOptional readString)), ("readFromText", checked readBool),
      ("isExpression", checked readBool)]
  | .wait => [("selectorOrDurationMs", checked (readOptional WaitTarget.read))]
  | .ifGuard | .whileGuard => [("expression", checked readString)]
  | .openBrowser | .closeBrowser | .elseMarker | .endIf | .endWhile => []

/-- Reads the instruction of a type out of the members of a step. -/
def Instruction.read (type : StepType) (members : List (String × Document)) :
    Except ReadError Instruction := do
  checkFields type.fields [] members
  match type with
  | .openBrowser => return .openBrowser
  | .closeBrowser => return .closeBrowser
  | .openPage =>
    let url ← requiredField "url" readString members
    return .openPage url
  | .inputText =>
    let selector ← requiredField "selector" readString members
    let text ← requiredField "text" readString members
    let append ← defaultField "append" readBool false members
    return .inputText selector text append
  | .putParam =>
    let key ← requiredField "key" readString members
    let selector ← defaultField "selector" (readOptional readString) none members
    let value ← defaultField "value" (readOptional readString) none members
    let readFromText ← defaultField "readFromText" readBool false members
    let isExpression ← defaultField "isExpression" readBool false members
    return .putParam key selector value readFromText isExpression
  | .wait =>
    let target ← defaultField "selectorOrDurationMs" (readOptional WaitTarget.read) none members
    return .wait target
  | .ifGuard =>
    let expression ← requiredField "expression" readString members
    return .ifGuard expression
  | .elseMarker => return .elseMarker
  | .endIf => return .endIf
  | .whileGuard =>
    let expression ← requiredField "expression" readString members
    return .whileGuard expression
  | .endWhile => return .endWhile

/-- Reads the type of a step, which must be given once. -/
def StepType.readFrom (members : List (String × Document)) : Except ReadError StepType := do
  match members.filter (·.1 == "kind") with
  | [] => misfit (.missingField "kind")
  | (_, document) :: others =>
    let type ← StepType.read document
    if others.isEmpty then return type else misfit (.duplicateField "kind")

/-! ## Steps -/

/-- What has been read of a step. The other members are kept as they are, last one first. -/
structure Step.Draft where
  name : Option String := none
  options : Option (Option Json) := none
  others : List (String × Document) := []

def Step.Draft.read (draft : Step.Draft) (key : String) (document : Document) :
    Except ReadError Step.Draft := do
  if key = "name" then
    if draft.name.isSome then misfit (.duplicateField "name")
    let name ← readString document
    return { draft with name := some name }
  else if key = "options" then
    if draft.options.isSome then misfit (.duplicateField "options")
    let options ← readOptional readJson document
    return { draft with options := some options }
  else
    let _ ← readJson document
    return { draft with others := (key, document) :: draft.others }

/-- The step of a draft of which all members have been read. -/
def Step.Draft.finish (draft : Step.Draft) : Except ReadError Step := do
  match draft.name with
  | none => misfit (.missingField "name")
  | some name =>
    let members := draft.others.reverse
    let type ← StepType.readFrom members
    let instruction ← Instruction.read type members
    return { name, options := draft.options.join, instruction }

def Step.read : Reader Step
  | .object members fault => do
    let draft ← members.foldlM (fun (draft : Step.Draft) member => draft.read member.1 member.2) {}
    noFault fault ()
    draft.finish
  | document => wrongType "struct Step" document

/-! ## Scripts -/

structure Script.Draft where
  name : Option String := none
  steps : Option (List Step) := none

def Script.Draft.read (draft : Script.Draft) (key : String) (document : Document) :
    Except ReadError Script.Draft := do
  if key = "name" then
    if draft.name.isSome then misfit (.duplicateField "name")
    let name ← readString document
    return { draft with name := some name }
  else if key = "steps" then
    if draft.steps.isSome then misfit (.duplicateField "steps")
    let steps ← readList Step.read document
    return { draft with steps := some steps }
  else
    match document with
    | .broken cause => .error (.malformed cause)
    | _ => return draft

/-- Reads a script, given as an object or as a list of its fields. -/
def Script.read (origin : Origin) : Reader Script
  | .object members fault => do
    let draft ←
      members.foldlM (fun (draft : Script.Draft) member => draft.read member.1 member.2) {}
    noFault fault ()
    match draft.name with
    | none => misfit (.missingField "name")
    | some name => return { name, steps := draft.steps.getD [] }
  | .array items fault => do
    let (name, items) ←
      requiredItem 0 "struct ScriptCase with 2 elements" readString fault items
    let (steps, items) ← optionalItem [] (readList Step.read) fault items
    endOfFields origin 2 fault items
    return { name, steps }
  | document => wrongType "struct ScriptCase" document

def Script.parse (text : String) : Except ReadError Script :=
  (scanKnown ["name", "steps"] text).read (Script.read .text)

def Step.parse (text : String) : Except ReadError Step :=
  (scan text).read Step.read

def Step.ofJson (value : Json) : Except ReadError Step :=
  Step.read (.ofJson value)

def Step.listOfJson (value : Json) : Except ReadError (List Step) :=
  readList Step.read (.ofJson value)

def Script.ofJson (value : Json) : Except ReadError Script :=
  Script.read .value (.ofJson value)

end StepScript
