import StepScript.Json.Document

/-!
# Reading typed values

Readers turn documents into values of a type. A reader that meets another shape says what it found
and what it expected.
-/

namespace StepScript.Json

/-- Reads a value of a type out of a document. -/
abbrev Reader (α : Type) := Document → Except ReadError α

def misfit {α : Type} (cause : Misfit) : Except ReadError α := .error (.misfit cause)

def wrongType {α : Type} (expected : String) : Reader α
  | .null | .skipped => misfit (.wrongType .null expected)
  | .bool value => misfit (.wrongType (.bool value) expected)
  | .number (.integer value) => misfit (.wrongType (.integer value) expected)
  | .number (.real value) => misfit (.wrongType (.real value) expected)
  | .string value => misfit (.wrongType (.string value) expected)
  | .array _ _ => misfit (.wrongType .sequence expected)
  | .object _ _ => misfit (.wrongType .map expected)
  | .broken cause => .error (.malformed cause)

def readString : Reader String
  | .string value => .ok value
  | document => wrongType "a string" document

def readBool : Reader Bool
  | .bool value => .ok value
  | document => wrongType "a boolean" document

def readJson : Reader Json := fun document =>
  match document.toJson with
  | .ok value => .ok value
  | .error cause => .error (.malformed cause)

/-- Reads nothing, or a value with another reader. -/
def readOptional {α : Type} (reader : Reader α) : Reader (Option α)
  | .null => .ok none
  | document => do
    let value ← reader document
    return some value

/-- Ends with the fault of the text, if there is one. -/
def noFault {α : Type} (fault : Option Malformed) (value : α) : Except ReadError α :=
  match fault with
  | some cause => .error (.malformed cause)
  | none => .ok value

def readList {α : Type} (reader : Reader α) : Reader (List α)
  | .array items fault => do
    let values ← items.mapM reader
    noFault fault values
  | document => wrongType "a sequence" document

/-! ## Structures given as lists -/

/-- Where a document comes from. A text is refused at the first superfluous item of a list, a
value only after all of them have been counted. -/
inductive Origin where
  | text
  | value
deriving DecidableEq

/-- The next item of a list that stands for a structure. -/
def nextItem (fault : Option Malformed) :
    List Document → Except ReadError (Option Document × List Document)
  | item :: rest => .ok (some item, rest)
  | [] => do
    noFault fault ()
    return (none, [])

/-- The field of a structure that stands at some place of a list. -/
def requiredItem {α : Type} (place : Nat) (expected : String) (reader : Reader α)
    (fault : Option Malformed) (items : List Document) :
    Except ReadError (α × List Document) := do
  match ← nextItem fault items with
  | (some item, rest) =>
    let value ← reader item
    return (value, rest)
  | (none, _) => misfit (.wrongLength place expected)

/-- The field of a structure at the end of a list, where it may be left out. -/
def optionalItem {α : Type} (default : α) (reader : Reader α) (fault : Option Malformed)
    (items : List Document) : Except ReadError (α × List Document) := do
  match ← nextItem fault items with
  | (some item, rest) =>
    let value ← reader item
    return (value, rest)
  | (none, rest) => return (default, rest)

/-- Checks that a list of `length` fields ends after them. -/
def endOfFields (origin : Origin) (length : Nat) (fault : Option Malformed) :
    List Document → Except ReadError Unit
  | [] =>
    match fault with
    | some .listCommaExpected => .error (.malformed .trailingCharacters)
    | fault => noFault fault ()
  | extra@(_ :: _) =>
    match origin with
    | .text => .error (.malformed .trailingCharacters)
    | .value => misfit (.wrongLength (length + extra.length) "fewer elements in array")

/-! ## Structures given as objects -/

/-- Reads the known ones among some members, in their order, none of them twice. -/
def checkFields (fields : List (String × Reader Unit)) (seen : List String) :
    List (String × Document) → Except ReadError Unit
  | [] => .ok ()
  | (key, document) :: rest =>
    match fields.lookup key with
    | none => checkFields fields seen rest
    | some check => do
      if seen.contains key then misfit (.duplicateField key)
      check document
      checkFields fields (key :: seen) rest

/-- A reader that only checks. -/
def checked {α : Type} (reader : Reader α) : Reader Unit := fun document => do
  let _ ← reader document
  return ()

/-- The field with a name, which must be there. -/
def requiredField {α : Type} (name : String) (reader : Reader α)
    (members : List (String × Document)) : Except ReadError α :=
  match members.lookup name with
  | some document => reader document
  | none => misfit (.missingField name)

def defaultField {α : Type} (name : String) (reader : Reader α) (default : α)
    (members : List (String × Document)) : Except ReadError α :=
  match members.lookup name with
  | some document => reader document
  | none => .ok default

end StepScript.Json
