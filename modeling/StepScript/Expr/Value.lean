import StepScript.Expr.Basic
import StepScript.Json.Basic
import StepScript.Text.Blank

/-!
# Values

The views of a value that operators use, and its form as a parameter.
-/

namespace StepScript.Value

/-- Nothing, `false`, zero, not-a-number and the empty text do not hold as conditions. -/
def isTruthy : Value → Bool
  | .null => false
  | .boolean b => b
  | .number x => !x.isZero && !x.isNaN
  | .text s => !s.isEmpty

def typeName : Value → String
  | .null => "null"
  | .boolean _ => "boolean"
  | .number _ => "number"
  | .text _ => "string"

/-- The number that a value counts as. A text counts if nothing but a number stands in it; blank
text is zero. -/
def toNumber? : Value → Option Binary64
  | .null => some .zero
  | .boolean b => some (if b then .one else .zero)
  | .number x => some x
  | .text s =>
    let trimmed := Text.trimChars s.toList
    if trimmed.isEmpty then some .zero else Numeral.ofWholeText? trimmed

/-- The greatest integer up to which a binary64 number holds every integer. -/
def safeInteger : Nat := twoTo 53 - 1

/-- The integer that a number is written as, if it is one and not too large. -/
def toSafeInteger? : Binary64 → Option Int
  | .finite x => do
    let n ← x.toInt?
    if n.natAbs ≤ safeInteger then some n else none
  | _ => none

/-- Numbers that are no safe integers are written out in full, never with an exponent. -/
def plainFormat : NumberFormat where
  tie := .up
  isPlain _ := true
  keepsPoint := false

def displayNumber (x : Binary64) : List Char :=
  match toSafeInteger? x, x with
  | some n, _ => Json.integerChars n
  | none, .finite x => plainFormat.render x
  | none, .infinite negative => if negative then ['-', 'i', 'n', 'f'] else ['i', 'n', 'f']
  | none, .nan => ['N', 'a', 'N']

/-- The text of a value, as `+` joins it to another text. -/
def display : Value → String
  | .null => "null"
  | .boolean b => if b then "true" else "false"
  | .number x => String.ofList (displayNumber x)
  | .text s => s

/-- The value as a parameter. Safe integers become integers, and numbers that are not finite
become nothing. -/
def toJson : Value → Json
  | .null => .null
  | .boolean b => .bool b
  | .number x =>
    match toSafeInteger? x, x with
    | some n, _ => .ofInt n
    | none, .finite x => .number (.real x)
    | none, _ => .null
  | .text s => .string s

end StepScript.Value
