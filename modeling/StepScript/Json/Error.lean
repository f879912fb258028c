import StepScript.Json.Basic
import StepScript.Text.Visible

/-!
# Reasons why a JSON text is refused

A text is refused because it is malformed, or because a well-formed value has not the shape that
its reader expects.
-/

namespace StepScript.Json

inductive Malformed where
  | endInValue
  | endInList
  | endInObject
  | endInString
  | valueExpected
  | identExpected
  | colonExpected
  | listCommaExpected
  | objectCommaExpected
  | keyExpected
  | trailingComma
  | trailingCharacters
  | badNumber
  | numberOutOfRange
  | badEscape
  | controlCharacter
  | loneSurrogate
  | endOfHexEscape
  | nestingTooDeep
deriving DecidableEq, Repr

def Malformed.message : Malformed → String
  | .endInValue => "EOF while parsing a value"
  | .endInList => "EOF while parsing a list"
  | .endInObject => "EOF while parsing an object"
  | .endInString => "EOF while parsing a string"
  | .valueExpected => "expected value"
  | .identExpected => "expected ident"
  | .colonExpected => "expected `:`"
  | .listCommaExpected => "expected `,` or `]`"
  | .objectCommaExpected => "expected `,` or `\x7d`"
  | .keyExpected => "key must be a string"
  | .trailingComma => "trailing comma"
  | .trailingCharacters => "trailing characters"
  | .badNumber => "invalid number"
  | .numberOutOfRange => "number out of range"
  | .badEscape => "invalid escape"
  | .controlCharacter => "control character (\\u0000-\\u001F) found while parsing a string"
  | .loneSurrogate => "lone leading surrogate in hex escape"
  | .endOfHexEscape => "unexpected end of hex escape"
  | .nestingTooDeep => "recursion limit exceeded"

/-- What a reader found in place of what it expected. -/
inductive Found where
  | null
  | bool (value : Bool)
  | integer (value : Int)
  | real (value : Binary64.Finite)
  | string (value : String)
  | sequence
  | map
deriving DecidableEq

def Found.describe : Found → String
  | .null => "null"
  | .bool value => if value then "boolean `true`" else "boolean `false`"
  | .integer value => "integer `" ++ String.ofList (integerChars value) ++ "`"
  | .real value => "floating point `" ++ String.ofList (realFormat.render value) ++ "`"
  | .string value => "string " ++ Text.quoted value
  | .sequence => "sequence"
  | .map => "map"

inductive Misfit where
  | missingField (name : String)
  | duplicateField (name : String)
  | unknownVariant (name : String) (known : List String)
  | wrongType (found : Found) (expected : String)
  | wrongValue (found : Found) (expected : String)
  | wrongLength (length : Nat) (expected : String)
  | noVariantFits (type : String)
  | badText (reason : String)
deriving DecidableEq

/-- A name in back quotes. -/
def ticked (name : String) : String := "`" ++ name ++ "`"

/-- The names that a message offers in place of an unknown one. -/
def describeKnown : List String → String
  | [] => "there are no variants"
  | [only] => "expected " ++ ticked only
  | [first, second] => "expected " ++ ticked first ++ " or " ++ ticked second
  | names => "expected one of " ++ ", ".intercalate (names.map ticked)

def Misfit.message : Misfit → String
  | .missingField name => "missing field " ++ ticked name
  | .duplicateField name => "duplicate field " ++ ticked name
  | .unknownVariant name known => "unknown variant " ++ ticked name ++ ", " ++ describeKnown known
  | .wrongType found expected => "invalid type: " ++ found.describe ++ ", expected " ++ expected
  | .wrongValue found expected => "invalid value: " ++ found.describe ++ ", expected " ++ expected
  | .wrongLength length expected =>
    "invalid length " ++ natText length ++ ", expected " ++ expected
  | .noVariantFits type => "data did not match any variant of untagged enum " ++ type
  | .badText reason => reason

inductive ReadError where
  | malformed (cause : Malformed)
  | misfit (cause : Misfit)
deriving DecidableEq

def ReadError.message : ReadError → String
  | .malformed cause => cause.message
  | .misfit cause => cause.message

end StepScript.Json
