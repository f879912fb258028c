import StepScript.Json.Basic

/-!
# Parameters

The parameters of a run: names with JSON values.
-/

namespace StepScript

structure Parameters where
  entries : Dictionary Json

instance : Inhabited Parameters := ⟨⟨[]⟩⟩

/-- The text that stands for a value inside a step: a string as it is, anything else as JSON. -/
def displayText : Json → String
  | .string text => text
  | value => value.render

namespace Parameters

def empty : Parameters := ⟨[]⟩

def get? (p : Parameters) (name : String) : Option Json := p.entries.get? name

def contains (p : Parameters) (name : String) : Bool := p.entries.contains name

def set (p : Parameters) (name : String) (value : Json) : Parameters :=
  ⟨p.entries.insert name value⟩

def size (p : Parameters) : Nat := p.entries.length

def display? (p : Parameters) (name : String) : Option String := (p.get? name).map displayText

def toJson (p : Parameters) : Json := .object p.entries

/-- The parameters of a list of entries; later ones replace earlier ones. -/
def ofList (entries : List (String × Json)) : Parameters := ⟨.ofList entries⟩

end Parameters

end StepScript
