import StepScript.Json.Reader
import StepScript.Parameters
import StepScript.Script.Step

/-!
# Templates

A `${name}` in a text stands for the parameter of that name; with a further dollar sign before
it, it stands for itself. Text that is put in is not looked at again.
-/

namespace StepScript

/-- What becomes of a placeholder whose parameter is not set. -/
inductive MissingPolicy where
  | lenient
  | strict
deriving DecidableEq, Repr

inductive TemplateError where
  | missingParameter (name : String)
deriving DecidableEq, Repr

def TemplateError.message : TemplateError → String
  | .missingParameter name => "parameter '" ++ name ++ "' is not set"

/-! ## Texts -/

def isNameChar (c : Char) : Bool := c.isAlphanum || c == '_'

/-- The name in the placeholder at the start of a text, and the text after it. -/
def placeholder? : List Char → Option (List Char × List Char)
  | '$' :: '\x7b' :: body =>
    match body.dropWhile isNameChar with
    | '\x7d' :: rest =>
      if (body.takeWhile isNameChar).isEmpty then none
      else some (body.takeWhile isNameChar, rest)
    | _ => none
  | _ => none

def placeholderChars (name : List Char) : List Char := '$' :: '\x7b' :: name ++ ['\x7d']

theorem length_placeholder? {text name rest : List Char}
    (h : placeholder? text = some (name, rest)) : rest.length < text.length := by
  unfold placeholder? at h
  split at h
  · next body =>
    have hle : (body.dropWhile isNameChar).length ≤ body.length :=
      (List.dropWhile_sublist _).length_le
    split at h
    · next hdrop =>
      split at h
      · simp at h
      · simp only [Option.some.injEq, Prod.mk.injEq] at h
        simp only [hdrop, h.2, List.length_cons] at hle ⊢
        omega
    · simp at h
  · simp at h

/-- The text with its placeholders replaced from left to right. A dollar sign before a placeholder
is dropped and the placeholder kept. -/
def expandChars {ε : Type} (lookUp : List Char → Except ε (List Char)) :
    List Char → Except ε (List Char)
  | [] => .ok []
  | c :: text =>
    match _hescaped : if c = '$' then placeholder? text else none with
    | some (name, rest) => do
      let tail ← expandChars lookUp rest
      return placeholderChars name ++ tail
    | none =>
      match _hplain : placeholder? (c :: text) with
      | some (name, rest) => do
        let value ← lookUp name
        let tail ← expandChars lookUp rest
        return value ++ tail
      | none => do
        let tail ← expandChars lookUp text
        return c :: tail
termination_by text => text.length
decreasing_by
  · have hescaped : placeholder? text = some (name, rest) := by
      split at _hescaped <;> simp_all
    have := length_placeholder? hescaped
    simp only [List.length_cons]
    omega
  · exact length_placeholder? _hplain
  · simp

/-- What a placeholder stands for. -/
def lookUpName (params : Parameters) (policy : MissingPolicy) (name : List Char) :
    Except TemplateError (List Char) :=
  match params.display? (String.ofList name), policy with
  | some text, _ => .ok text.toList
  | none, .lenient => .ok []
  | none, .strict => .error (.missingParameter (String.ofList name))

/-- The text with parameters put in. -/
def expandText (params : Parameters) (policy : MissingPolicy) (text : String) :
    Except TemplateError String := do
  let chars ← expandChars (lookUpName params policy) text.toList
  return String.ofList chars

/-! ## Values -/

mutual

/-- The value with a function applied to every string in it; the keys of objects stay. -/
def Json.mapStrings {ε : Type} (f : String → Except ε String) : Json → Except ε Json
  | .string text => do
    let text ← f text
    return .string text
  | .array items => do
    let items ← Json.mapItems f items
    return .array items
  | .object members => do
    let members ← Json.mapMembers f members
    return .object members
  | value => .ok value

def Json.mapItems {ε : Type} (f : String → Except ε String) :
    List Json → Except ε (List Json)
  | [] => .ok []
  | item :: rest => do
    let item ← item.mapStrings f
    let rest ← Json.mapItems f rest
    return item :: rest

def Json.mapMembers {ε : Type} (f : String → Except ε String) :
    List (String × Json) → Except ε (List (String × Json))
  | [] => .ok []
  | (key, value) :: rest => do
    let value ← value.mapStrings f
    let rest ← Json.mapMembers f rest
    return (key, value) :: rest

end

def expandJson (params : Parameters) (policy : MissingPolicy) (value : Json) :
    Except TemplateError Json :=
  value.mapStrings (expandText params policy)

/-! ## Steps -/

def mapOptional {ε α : Type} (f : α → Except ε α) : Option α → Except ε (Option α)
  | none => .ok none
  | some value => do
    let value ← f value
    return some value

/-- The instruction with a function applied to every text, in the order of its fields. -/
def Instruction.mapTexts {ε : Type} (f : String → Except ε String) :
    Instruction → Except ε Instruction
  | .openPage url => do
    let url ← f url
    return .openPage url
  | .inputText selector text append => do
    let selector ← f selector
    let text ← f text
    return .inputText selector text append
  | .putParam key selector value readFromText isExpression => do
    let key ← f key
    let selector ← mapOptional f selector
    let value ← mapOptional f value
    return .putParam key selector value readFromText isExpression
  | .wait (some (.element text)) => do
    let text ← f text
    return .wait (some (.element text))
  | .ifGuard expression => do
    let expression ← f expression
    return .ifGuard expression
  | .whileGuard expression => do
    let expression ← f expression
    return .whileGuard expression
  | instruction => .ok instruction

/-- The step with a function applied to every text: those of the instruction, the name, and the
strings of the options. -/
def Step.mapTexts {ε : Type} (f : String → Except ε String) (step : Step) : Except ε Step := do
  let instruction ← step.instruction.mapTexts f
  let name ← f step.name
  let options ← mapOptional (·.mapStrings f) step.options
  return { name, options, instruction }

def Step.expand (params : Parameters) (policy : MissingPolicy) (step : Step) :
    Except TemplateError Step :=
  step.mapTexts (expandText params policy)

/-! ## Policies as texts -/

def MissingPolicy.name : MissingPolicy → String
  | .lenient => "lenient"
  | .strict => "strict"

def MissingPolicy.ofName? (name : String) : Option MissingPolicy :=
  [MissingPolicy.lenient, .strict].find? fun policy => policy.name = name

def MissingPolicy.readName (name : String) : Except Json.ReadError MissingPolicy :=
  match MissingPolicy.ofName? name with
  | some policy => .ok policy
  | none => Json.misfit (.unknownVariant name ["lenient", "strict"])

/-- Reads a policy, given by its name or as the one key of an object with an empty value. -/
def MissingPolicy.read : Json.Reader MissingPolicy
  | .string name => MissingPolicy.readName name
  | .object [(name, value)] _ => do
    let policy ← MissingPolicy.readName name
    match value with
    | .null => return policy
    | value => Json.wrongType "unit" value
  | .object _ _ => Json.misfit (.wrongValue .map "map with a single key")
  | document => Json.wrongType "string or map" document

end StepScript
