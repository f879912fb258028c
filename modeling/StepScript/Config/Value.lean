import StepScript.Dictionary
import StepScript.Expr.Value
import StepScript.Text.Pieces

/-!
# Values of settings

What the sources of a configuration say about a setting, and what it counts as where a number, a
text or a name is needed.
-/

namespace StepScript.Config

/-- What a source says about a setting, or about a table of settings. -/
inductive Value where
  /-- Nothing, in a place of a list that is only there because of later ones. -/
  | missing
  | bool (value : Bool)
  | integer (value : Int)
  | real (value : Binary64)
  | text (value : String)
  | list (items : List Value)
  | table (entries : List (String × Value))

abbrev Table : Type := Dictionary Value

/-! ## Plain texts -/

def fitsSigned (n : Int) : Bool := -(signedLimit : Int) ≤ n && n < signedLimit

def integerOfText? (text : List Char) : Option Int :=
  let (negative, digits) := Numeral.takeSign text
  if digits.isEmpty || !digits.all Char.isDigit then none
  else
    let magnitude := natOfDigits digits
    let n : Int := if negative then -(magnitude : Int) else magnitude
    if fitsSigned n then some n else none

/-- The value of a plain text: a truth value in any case, else an integer, else any number, else
the text itself. -/
def Value.ofText (text : String) : Value :=
  if Text.lowercase text = "true" then .bool true
  else if Text.lowercase text = "false" then .bool false
  else
    match integerOfText? text.toList, Numeral.ofWholeText? text.toList with
    | some n, _ => .integer n
    | none, some x => .real x
    | none, none => .text text

/-! ## Unsigned words -/

def greatestWord : Nat := wordLimit - 1

/-- The unsigned word nearest to a number; a half goes up. Not-a-number counts as zero. -/
def wordOfReal : Binary64 → Nat
  | .nan => 0
  | .infinite negative => if negative then 0 else greatestWord
  | .finite x =>
    if x.negative then 0
    else min ((2 * x.units + Binary64.unitsPerOne) / (2 * Binary64.unitsPerOne)) greatestWord

/-- The unsigned word that a text stands for: a word for yes or no in any case, or digits. -/
def wordOfText? (text : String) : Option Nat :=
  let word := Text.lowercase text
  if word = "true" ∨ word = "on" ∨ word = "yes" then some 1
  else if word = "false" ∨ word = "off" ∨ word = "no" then some 0
  else (Numeral.natOfWholeText? text.toList).filter (· ≤ greatestWord)

def Value.toWord? : Value → Option Nat
  | .bool value => some value.toNat
  | .integer n => if n < 0 then none else some n.toNat
  | .real x => some (wordOfReal x)
  | .text content => wordOfText? content
  | .missing | .list _ | .table _ => none

/-- The unsigned word that a value counts as where there need not be one. -/
def Value.toOptionalWord? : Value → Option (Option Nat)
  | .missing => some none
  | value => value.toWord?.map some

/-! ## Texts and names -/

/-- The text of a number, never with an exponent. -/
def textOfReal : Binary64 → String
  | .finite x => String.ofList (Value.plainFormat.render x)
  | .infinite negative => if negative then "-inf" else "inf"
  | .nan => "NaN"

def Value.toText? : Value → Option String
  | .bool value => some (if value then "true" else "false")
  | .integer n => some (String.ofList (Json.integerChars n))
  | .real x => some (textOfReal x)
  | .text content => some content
  | .missing | .list _ | .table _ => none

/-- The name, in small letters, that a value counts as: a text, or the only name in a table. -/
def Value.toName? : Value → Option String
  | .text content => some (Text.lowercase content)
  | .table [(name, _)] => some (Text.lowercase name)
  | _ => none

end StepScript.Config
