import StepScript.Expr.Value
import StepScript.Script.Reader
import StepScript.Script.Writer
import StepScript.Timestamp

/-!
# Results

The record of a step that was carried out. Records that are kept also say when the step began and
when it ended.
-/

namespace StepScript

/-- The record of a step; `step` is the step as it was carried out. -/
structure ActionResult where
  success : Bool
  step : Step
  data : Option Json := none
  error : Option String := none

instance : Inhabited ActionResult := ⟨{ success := false, step := default }⟩

namespace ActionResult

def succeeded (step : Step) (data : Option Json := none) : ActionResult :=
  { success := true, step, data }

def failed (step : Step) (message : String) : ActionResult :=
  { success := false, step, error := some message }

end ActionResult

def Json.Number.toBinary64 : Json.Number → Binary64
  | .integer n => .ofInt n
  | .real x => .finite x

/-- How a value decides as the data of a guard: truth values as they are, other scalars as in
expressions, and lists and objects always hold. -/
def Json.holds : Json → Bool
  | .null => false
  | .bool b => b
  | .number n => (Value.number n.toBinary64).isTruthy
  | .string text => !text.isEmpty
  | .array _ | .object _ => true

namespace ActionResult

/-- The decision of a guard; without data it does not hold. -/
def condition (result : ActionResult) : Bool :=
  match result.data with
  | none => false
  | some data => data.holds

/-- The members of a record behind the success flag and the times. -/
def membersAfterTimes (result : ActionResult) : List (String × Json) :=
  [("step", result.step.toJson)] ++ optionalMember "data" result.data
    ++ optionalMember "error" (result.error.map .string)

def toJson (result : ActionResult) : Json :=
  .object (("success", .bool result.success) :: result.membersAfterTimes)

end ActionResult

/-- A record with the times at which its step began and ended. -/
structure TimedResult where
  result : ActionResult
  startTime : Timestamp
  endTime : Timestamp

namespace TimedResult

def toJson (timed : TimedResult) : Json :=
  .object (("success", .bool timed.result.success)
    :: ("startTime", .string timed.startTime.render)
    :: ("endTime", .string timed.endTime.render)
    :: timed.result.membersAfterTimes)

end TimedResult

/-! ## Reading -/

open Json

def Timestamp.read : Reader Timestamp
  | .string text =>
    match Timestamp.parse text with
    | .ok time => .ok time
    | .error cause => misfit (.badText cause.message)
  | document => wrongType "an RFC 3339 formatted date and time string" document

def TimedResult.fields : List (String × Reader Unit) :=
  [("success", checked readBool), ("startTime", checked Timestamp.read),
    ("endTime", checked Timestamp.read), ("step", checked Step.read),
    ("data", checked (readOptional readJson)), ("error", checked (readOptional readString))]

/-- The name under which messages speak of a record given as a list. -/
def TimedResult.shape : String := "struct ActionResult with 6 elements"

/-- Reads a record, given as an object or as a list of its fields. -/
def TimedResult.read (origin : Origin) : Reader TimedResult
  | .object members fault => do
    checkFields TimedResult.fields [] members
    match members.getLast? with
    | some (_, .broken cause) => .error (.malformed cause)
    | _ => noFault fault ()
    let success ← requiredField "success" readBool members
    let startTime ← requiredField "startTime" Timestamp.read members
    let endTime ← requiredField "endTime" Timestamp.read members
    let step ← requiredField "step" Step.read members
    let data ← defaultField "data" (readOptional readJson) none members
    let error ← defaultField "error" (readOptional readString) none members
    return { result := { success, step, data, error }, startTime, endTime }
  | .array items fault => do
    let (success, items) ← requiredItem 0 TimedResult.shape readBool fault items
    let (startTime, items) ← requiredItem 1 TimedResult.shape Timestamp.read fault items
    let (endTime, items) ← requiredItem 2 TimedResult.shape Timestamp.read fault items
    let (step, items) ← requiredItem 3 TimedResult.shape Step.read fault items
    let (data, items) ← optionalItem none (readOptional readJson) fault items
    let (error, items) ← optionalItem none (readOptional readString) fault items
    endOfFields origin 6 fault items
    return { result := { success, step, data, error }, startTime, endTime }
  | document => wrongType "struct ActionResult" document

def TimedResult.parse (text : String) : Except ReadError TimedResult :=
  (scanKnown (TimedResult.fields.map (·.1)) text).read (TimedResult.read .text)

end StepScript
