import StepScript.Dictionary
import StepScript.Text.Pieces

/-!
# Files

What a program reads from files, as a function of their paths. A path is followed from name to
name, and every name but the last one must lead to a folder.
-/

namespace StepScript

inductive FileFault where
  | notFound
  | notFolder
  | isFolder
  | nameTooLong
  | other (reason : String)
deriving DecidableEq

def FileFault.message : FileFault → String
  | .notFound => "No such file or directory (os error 2)"
  | .notFolder => "Not a directory (os error 20)"
  | .isFolder => "Is a directory (os error 21)"
  | .nameTooLong => "File name too long (os error 36)"
  | .other reason => reason

/-- The text of the file at a path. -/
abbrev Files : Type := String → Except FileFault String

namespace Files

def nameLimit : Nat := 255

def pathLimit : Nat := 4095

/-- The names on a path. A slash at the end stands for the folder that it follows. -/
def namesOnPath (path : String) : List String :=
  let parts := (Text.pieces '/' path.toList).map String.ofList
  parts.filter (· ≠ "") ++ (if parts.getLast? = some "" then ["."] else [])

/-- Where a path has led to: a file, a folder, or a folder outside of which nothing is known. -/
inductive Place where
  | file (text : String)
  | folder (names : List String)
  | outside
deriving DecidableEq

/-- Whether `inner` names something in the folder that `outer` names, or in one inside of it. -/
def liesIn (outer inner : List String) : Bool :=
  outer.length < inner.length && inner.take outer.length == outer

def placeOf (files : List (List String × String)) (names : List String) :
    Except FileFault Place :=
  match files.lookup names with
  | some text => .ok (.file text)
  | none =>
    if files.any fun file => liesIn names file.1 then .ok (.folder names) else .error .notFound

/-- Follows one more name. A single point stays in the same folder, and two points go back to the
folder around it. -/
def Place.follow (files : List (List String × String)) (place : Place) (name : String) :
    Except FileFault Place :=
  match place with
  | .file _ => .error .notFolder
  | .outside =>
    if name = "." ∨ name = ".." then .ok .outside
    else .error (if nameLimit < name.utf8ByteSize then .nameTooLong else .notFound)
  | .folder names =>
    if name = "." then .ok (.folder names)
    else if name = ".." then .ok (if names.isEmpty then .outside else .folder names.dropLast)
    else if nameLimit < name.utf8ByteSize then .error .nameTooLong
    else placeOf files (names ++ [name])

def start (path : String) : Place :=
  if path.toList.head? = some '/' then .outside else .folder []

/-- The files of a folder under their relative paths. Nothing is known of what lies around the
folder. -/
def ofFolder (folder : Dictionary String) : Files := fun path => do
  let files := folder.map fun (path, text) => (namesOnPath path, text)
  if pathLimit < path.utf8ByteSize then throw .nameTooLong
  if path = "" then throw .notFound
  match ← (namesOnPath path).foldlM (Place.follow files) (start path) with
  | .file text => return text
  | .folder _ | .outside => throw .isFolder

end Files

end StepScript
