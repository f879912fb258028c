import StepScript.Environment.Basic
import StepScript.Text.Alphanumeric
import StepScript.Text.Blank

/-!
# Files of variables

A file of variables adds to an environment what is not there yet. A line assigns a value to a name;
the value may be quoted, may go on in the next line inside quotes, and may refer to variables. The
first line that is not well formed ends the reading, and what stands before it counts.
-/

namespace StepScript

namespace VariablesFile

/-! ## Lines -/

/-- Where a line stands while its end is searched. -/
inductive LineMode where
  | plain
  | afterBlank
  | escaped
  | quoted (quote : Char)
  | escapedInQuotes (quote : Char)
  | comment
deriving DecidableEq

/-- The mode behind a character that may begin an escape or a quotation. -/
def LineMode.opened (c : Char) : LineMode :=
  if c = '\\' then .escaped
  else if c = '"' ∨ c = '\'' then .quoted c
  else .plain

/-- The mode behind one more character. A comment begins at a hash behind a blank. -/
def LineMode.step : LineMode → Char → LineMode
  | .plain, c =>
    if Text.isBlank c ∧ c ≠ '\n' ∧ c ≠ '\r' then .afterBlank else .opened c
  | .afterBlank, c => if c = '#' then .comment else .opened c
  | .escaped, _ => .plain
  | .quoted quote, c =>
    if c = '\\' then .escapedInQuotes quote
    else if c = quote then .plain
    else .quoted quote
  | .escapedInQuotes quote, _ => .quoted quote
  | .comment, _ => .comment

/-- The characters before a comment, and the mode at the end. -/
def beforeComment (mode : LineMode) : List Char → List Char × LineMode
  | [] => ([], mode)
  | c :: rest =>
    match mode.step c with
    | .comment => ([], .comment)
    | next =>
      let (kept, last) := beforeComment next rest
      (c :: kept, last)

/-- Joins the lines that quotations run over, and leaves out comments. The file is broken where it
ends inside of a quotation. -/
def joined (pending : List Char) (mode : LineMode) : List (List Char) → List (Option (List Char))
  | [] => if mode = .plain then [] else [none]
  | line :: rest =>
    if ((pending ++ line).dropWhile Text.isBlank).head? = some '#' then joined [] .plain rest
    else
      match beforeComment mode line with
      | (kept, .plain) => some (Text.withoutBreak (pending ++ kept)) :: joined [] .plain rest
      | (kept, .comment) => some (pending ++ kept) :: joined [] .plain rest
      | (kept, next) => joined (pending ++ kept) next rest

/-! ## Values -/

/-- Where a value stands while it is read; `quoted` tells whether inside of double quotes. -/
inductive ValueMode where
  | plain (quoted : Bool)
  | escaped (quoted : Bool)
  | verbatim
  | name (quoted : Bool) (chars : List Char)
  | bracedName (quoted : Bool) (chars : List Char)
  | spaceAfter
  | comment

structure ValueState where
  content : List Char := []
  mode : ValueMode := .plain false

def ValueState.push (state : ValueState) (c : Char) (mode : ValueMode) : ValueState :=
  { content := state.content ++ [c], mode }

def ValueState.putIn (environment : Environment) (state : ValueState) (name : List Char)
    (mode : ValueMode) : ValueState :=
  { content := state.content ++ ((environment.get? (String.ofList name)).getD "").toList, mode }

/-- A character that is neither escaped nor part of a name. -/
def ValueState.readPlain (state : ValueState) (quoted : Bool) (c : Char) : ValueState :=
  if c = '$' then { state with mode := .name quoted [] }
  else if c = '\\' then { state with mode := .escaped quoted }
  else if c = '"' then { state with mode := .plain (!quoted) }
  else if quoted then state.push c (.plain true)
  else if c = '\'' then { state with mode := .verbatim }
  else if c = ' ' ∨ c = '\t' then { state with mode := .spaceAfter }
  else state.push c (.plain false)

/-- The state behind one more character, unless the value is not well formed. -/
def ValueState.step (environment : Environment) (state : ValueState) (c : Char) :
    Option ValueState :=
  match state.mode with
  | .plain quoted => some (state.readPlain quoted c)
  | .escaped quoted =>
    if c = '\\' ∨ c = '\'' ∨ c = '"' ∨ c = '$' ∨ c = ' ' then some (state.push c (.plain quoted))
    else if c = 'n' then some (state.push '\n' (.plain quoted))
    else none
  | .verbatim =>
    if c = '\'' then some { state with mode := .plain false } else some (state.push c .verbatim)
  | .name quoted chars =>
    if Text.isAlphanumeric c then some { state with mode := .name quoted (chars ++ [c]) }
    else if c = '\x7b' ∧ chars = [] then some { state with mode := .bracedName quoted [] }
    else if c = '$' then some (state.putIn environment chars (.name quoted []))
    else some ((state.putIn environment chars (.plain quoted)).push c (.plain quoted))
  | .bracedName quoted chars =>
    if c = '\x7d' then some (state.putIn environment chars (.plain quoted))
    else some { state with mode := .bracedName quoted (chars ++ [c]) }
  | .spaceAfter =>
    if c = ' ' ∨ c = '\t' then some state
    else if c = '#' then some { state with mode := .comment }
    else none
  | .comment => some state

def ValueState.finish (environment : Environment) (state : ValueState) : Option (List Char) :=
  match state.mode with
  | .plain false | .escaped false | .spaceAfter | .comment => some state.content
  | .name false chars => some (state.putIn environment chars (.plain false)).content
  | .plain true | .escaped true | .name true _ | .verbatim | .bracedName _ _ => none

def value? (environment : Environment) (text : List Char) : Option (List Char) := do
  let state ← text.foldlM (ValueState.step environment) {}
  state.finish environment

/-! ## Assignments -/

def scanName (text : List Char) : Option (List Char × List Char) :=
  let isNameChar (c : Char) : Bool := c.isAlphanum || c == '_' || c == '.'
  match text with
  | c :: _ =>
    if c.isAlpha ∨ c = '_' then some (text.takeWhile isNameChar, text.dropWhile isNameChar)
    else none
  | [] => none

/-- What follows an equals sign, without blanks around the sign. -/
def afterEquals (text : List Char) : Option (List Char) :=
  match text.dropWhile Text.isBlank with
  | '=' :: rest => some (rest.dropWhile Text.isBlank)
  | _ => none

/-- The word that may stand before the name. -/
def exportWord : List Char := ['e', 'x', 'p', 'o', 'r', 't']

def parts? (line : List Char) : Option (List Char × List Char) := do
  let (name, rest) ← scanName line
  match afterEquals rest with
  | some text => return (name, text)
  | none =>
    if name = exportWord then
      let (name, rest) ← scanName (rest.dropWhile Text.isBlank)
      let text ← afterEquals rest
      return (name, text)
    else none

/-- What a line assigns, if it is well formed; a line may assign nothing. Blanks at both ends of the
line do not count. -/
def assignment? (environment : Environment) (line : List Char) :
    Option (Option (String × String)) :=
  let text := Text.trimChars line
  if text.isEmpty ∨ text.head? = some '#' then some none
  else do
    let (name, text) ← parts? text
    let value ← if text.head? = some '#' then some [] else value? environment text
    return some (String.ofList name, String.ofList value)

end VariablesFile

namespace Environment

/-- The environment with a variable, unless there is one of that name. -/
def addNew (environment : Environment) (name value : String) : Environment :=
  if environment.contains name then environment else environment.insert name value

/-- The environment with what lines assign, up to a line that is not well formed. -/
def addLines (environment : Environment) : List (Option (List Char)) → Environment
  | [] | none :: _ => environment
  | some line :: rest =>
    match VariablesFile.assignment? environment line with
    | none => environment
    | some none => addLines environment rest
    | some (some (name, value)) => addLines (environment.addNew name value) rest

def addFile (environment : Environment) (text : String) : Environment :=
  environment.addLines
    (VariablesFile.joined [] .plain (Text.brokenLines (Text.withoutMark text.toList)))

end Environment

end StepScript
