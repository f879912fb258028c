import StepScript.Config.Draft
import StepScript.Config.Scalar

/-!
# Configuration files

A file is a list of lines. A line gives a setting its value, or it is a header that names the table
of the settings below it; either may name a setting inside of further tables. A value is a scalar, a
list in brackets, which may run over several lines, or a table in braces, which may not.
-/

namespace StepScript.Config

/-! ## Names -/

/-- Whether a character may stand in a name without quotes. -/
def isNameChar (c : Char) : Bool := c.isAlphanum || c == '_' || c == '-'

def scanName (text : List Char) : Option (String × List Char) :=
  match scanQuoted text with
  | some (name, rest) => some (String.ofList name, rest)
  | none =>
    if (text.takeWhile isNameChar).isEmpty then none
    else some (String.ofList (text.takeWhile isNameChar), text.dropWhile isNameChar)

theorem length_scanName {text : List Char} {scanned : String × List Char}
    (h : scanName text = some scanned) : scanned.2.length ≤ text.length := by
  unfold scanName at h
  split at h
  · next name rest hq =>
    have := length_scanQuoted hq
    grind
  · have := (List.dropWhile_sublist isNameChar (l := text)).length_le
    grind

def scanNames (text : List Char) : Option (List String × List Char) :=
  match _hname : scanName (skipSpaces text) with
  | none => none
  | some (name, afterName) =>
    match _hpoint : skipSpaces afterName with
    | '.' :: rest => do
      let (path, rest) ← scanNames rest
      return (name :: path, rest)
    | rest => some ([name], rest)
termination_by text.length
decreasing_by
  have hname := length_scanName _hname
  have hpoint := length_skipSpaces afterName
  have htext := length_skipSpaces text
  simp only [_hpoint, List.length_cons] at hpoint
  simp only at hname
  omega

/-- How many names a path may have, and how deep lists and tables in braces may be nested. -/
def depthLimit : Nat := 79

def scanPath (text : List Char) : Option (List String × List Char) :=
  (scanNames text).filter fun scanned => scanned.1.length ≤ depthLimit

/-- What follows a sign, if the text begins with it. -/
def after? (sign : Char) : List Char → Option (List Char)
  | [] => none
  | c :: rest => if c = sign then some rest else none

/-! ## Values -/

/-- What follows spaces, line breaks and comments; `comment` tells whether a comment goes on here. A
comment ends before a character that must not stand in it. -/
def skipGap (comment : Bool) : List Char → List Char
  | [] => []
  | c :: rest =>
    if c = '\n' then skipGap false rest
    else if comment then if isControl c then c :: rest else skipGap true rest
    else if isSpace c then skipGap false rest
    else if c = '#' then skipGap true rest
    else c :: rest

abbrev ValueScanner : Type := List Char → Option (Value × List Char)

/-- The items of a list up to its closing bracket; a comma may follow the last one. More `fuel`
than the text has characters always suffices. -/
def scanItems (item : ValueScanner) : Nat → List Char → Option (List Value × List Char)
  | 0, _ => none
  | fuel + 1, text =>
    match skipGap false text with
    | ']' :: rest => some ([], rest)
    | text => do
      let (value, rest) ← item text
      match skipGap false rest with
      | ',' :: rest => do
        let (values, rest) ← scanItems item fuel rest
        return (value :: values, rest)
      | ']' :: rest => return ([value], rest)
      | _ => none

def scanSetting (item : ValueScanner) (text : List Char) :
    Option (List String × Value × List Char) := do
  let (path, rest) ← scanPath text
  let rest ← after? '=' rest
  let (value, rest) ← item (skipSpaces rest)
  return (path, value, rest)

/-- The settings of a table up to its closing brace, added to those before them. More `fuel` than
the text has characters always suffices. -/
def scanSettings (item : ValueScanner) : Nat → Entries → List Char → Option (Entries × List Char)
  | 0, _, _ => none
  | fuel + 1, entries, text => do
    let (path, value, rest) ← scanSetting item text
    let entries ← addSetting path value entries
    match skipSpaces rest with
    | ',' :: rest => scanSettings item fuel entries rest
    | '\x7d' :: rest => return (entries, rest)
    | _ => none

def scanTable (item : ValueScanner) (text : List Char) : Option (Value × List Char) :=
  match skipSpaces text with
  | '\x7d' :: rest => some (.table [], rest)
  | text =>
    (scanSettings item (text.length + 1) [] text).map fun (entries, rest) =>
      (.table (valuesOf entries), rest)

/-- A value at the start of a text, and what follows it. Inside of it lists and tables may be nested
as many levels deep. -/
def scanValue (levels : Nat) (text : List Char) : Option (Value × List Char) :=
  match levels with
  | 0 => scanScalar text
  | levels + 1 =>
    match text with
    | '[' :: rest =>
      (scanItems (scanValue levels) (rest.length + 1) rest).map fun (items, rest) =>
        (.list items, rest)
    | '\x7b' :: rest => scanTable (scanValue levels) rest
    | text => scanScalar text

/-! ## Lines -/

inductive Line where
  | header (path : List String)
  /-- The header of a table in a list of tables. -/
  | listHeader (path : List String)
  | setting (path : List String) (value : Value)

/-- What follows the end of a line, if nothing but a comment stands before it. -/
def afterLine (text : List Char) : Option (List Char) :=
  let rest :=
    match skipSpaces text with
    | '#' :: comment => comment.dropWhile (!isControl ·)
    | rest => rest
  match rest with
  | [] => some []
  | '\n' :: rest => some rest
  | _ => none

def scanLine (text : List Char) : Option (Line × List Char) :=
  match skipSpaces text with
  | '[' :: '[' :: text => do
    let (path, rest) ← scanPath text
    let rest ← after? ']' rest
    let rest ← after? ']' rest
    let rest ← afterLine rest
    return (.listHeader path, rest)
  | '[' :: text => do
    let (path, rest) ← scanPath text
    let rest ← after? ']' rest
    let rest ← afterLine rest
    return (.header path, rest)
  | text => do
    let (path, value, rest) ← scanSetting (scanValue depthLimit) text
    let rest ← afterLine rest
    return (.setting path value, rest)

/-- The lines of a text. More `fuel` than the text has characters always suffices. -/
def scanLines : Nat → List Char → Option (List Line)
  | 0, text => if text.isEmpty then some [] else none
  | fuel + 1, text =>
    if text.isEmpty then some []
    else
      match afterLine text with
      | some rest => scanLines fuel rest
      | none => do
        let (line, rest) ← scanLine text
        let lines ← scanLines fuel rest
        return line :: lines

/-! ## Files -/

/-- A file up to some line: its entries, and the table that the next settings belong to. -/
structure Draft where
  entries : Entries := []
  current : List String := []

def Draft.add (draft : Draft) : Line → Option Draft
  | .header path => do
    let entries ← addTable path draft.entries
    return { entries, current := path }
  | .listHeader path => do
    let entries ← addListed path draft.entries
    return { entries, current := path }
  | .setting path value => do
    let entries ←
      changeAt (fun _ => addSetting path value) .outside draft.current .header draft.entries
    return { draft with entries }

/-- The text with every carriage return left out that stands before a line feed. -/
def withoutReturns : List Char → List Char
  | [] => []
  | '\r' :: '\n' :: rest => '\n' :: withoutReturns rest
  | c :: rest => c :: withoutReturns rest

/-- The text of a file without what may stand before it and with plain line feeds. -/
def plainText (text : String) : List Char :=
  withoutReturns (Text.withoutMark (Text.withoutMark text.toList))

/-- The entries of a file, if it is well formed. -/
def readFile (text : String) : Option (List (String × Value)) := do
  let text := plainText text
  let lines ← scanLines (text.length + 1) text
  let draft ← lines.foldlM Draft.add {}
  return valuesOf draft.entries

end StepScript.Config
