import StepScript.Number.Numeral
import StepScript.Text.Alphanumeric
import StepScript.Text.Blank
import StepScript.Text.Pieces

/-!
# Log filters

A filter is a list of directives with commas between them. A directive is a level, or a target that
may be followed by a span with fields in brackets and by an equals sign and a level.
-/

namespace StepScript.LogFilter

inductive Fault where
  | badLevel
  | badDirective
deriving DecidableEq, Repr

def Fault.message : Fault → String
  | .badLevel =>
    "error parsing level filter: expected one of \"off\", \"error\", \"warn\", \"info\", "
      ++ "\"debug\", \"trace\", or a number 0-5"
  | .badDirective => "invalid filter directive"

/-- The wording of a fault together with its cause. A bad level is its own cause. -/
def Fault.fullMessage : Fault → String
  | .badLevel => Fault.badLevel.message ++ ": " ++ Fault.badLevel.message
  | .badDirective => Fault.badDirective.message

def levelNames : List String := ["off", "error", "warn", "info", "debug", "trace"]

/-- Whether a text is a level: a name in any case, a number up to five, or nothing. -/
def isLevel (text : List Char) : Bool :=
  text.isEmpty || levelNames.contains (Text.lowercase (String.ofList text))
    || (Numeral.natOfWholeText? text).any (· ≤ 5)

/-- Where a directive stands while it is read. -/
inductive Mode where
  | start
  | target
  | span
  /-- Inside of the braces of a span; whether the field at hand has no characters yet. -/
  | field (isEmpty : Bool)
  | afterFields
  | afterSpan
  /-- Behind the equals sign, with the number of characters up to it. -/
  | level (before : Nat)
deriving DecidableEq, Repr

def isTargetStart (c : Char) : Bool :=
  c == '-' || c == ':' || c == '_' || Text.isAlphanumeric c

/-- The mode behind one more character, if the directive may go on with it; `before` characters
stand before it. -/
def Mode.step (mode : Mode) (before : Nat) (c : Char) : Option Mode :=
  match mode with
  | .start => if c = '[' then some .span else if isTargetStart c then some .target else none
  | .target => some (if c = '=' then .level (before + 1) else if c = '[' then .span else .target)
  | .span => some (if c = ']' then .afterSpan else if c = '\x7b' then .field true else .span)
  | .field isEmpty => if c = '\x7d' then if isEmpty then none else some .afterFields
    else some (.field false)
  | .afterFields => if c = ']' then some .afterSpan else none
  | .afterSpan => if c = '=' then some (.level (before + 1)) else none
  | .level offset => some (.level offset)

def readFrom (mode : Mode) (before : Nat) : List Char → Option Mode
  | [] => some mode
  | c :: rest => do
    let next ← mode.step before c
    readFrom next (before + 1) rest

/-- Checks a directive. Blanks around it do not count when its parts are told apart, but they do in
the text of its level, which begins as many characters from the start as without the blanks. -/
def checkDirective (text : List Char) : Except Fault Unit :=
  match readFrom .start 0 (Text.trimChars text) with
  | some (.level offset) => if isLevel (text.drop offset) then .ok () else .error .badLevel
  | some .target | some .afterSpan => .ok ()
  | _ => .error .badDirective

/-- Checks a filter; empty directives do not count. -/
def check (text : String) : Except Fault Unit :=
  ((Text.pieces ',' text.toList).filter (!·.isEmpty)).forM checkDirective

end StepScript.LogFilter
