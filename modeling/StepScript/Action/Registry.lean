import StepScript.Action.Basic

/-!
# Registries

A registry holds actions under their step types. Of several that support a step, the one that was
registered first carries it out.
-/

namespace StepScript

/-- The actions of each step type, in the order of their registration. -/
structure Registry (B : Backend) where
  candidates : StepType → List (Action B)

namespace Registry

variable {B : Backend}

def empty : Registry B := ⟨fun _ => []⟩

def register (registry : Registry B) (action : Action B) : Registry B :=
  ⟨fun type =>
    if type = action.type then registry.candidates type ++ [action]
    else registry.candidates type⟩

def ofList (actions : List (Action B)) : Registry B := actions.foldl register empty

/-- The first action of the step's type that supports the step. -/
def resolve (registry : Registry B) (step : Step) : Option (Action B) :=
  (registry.candidates step.type).find? fun action => action.supports step

def handles (registry : Registry B) (type : StepType) : Bool :=
  !(registry.candidates type).isEmpty

def size (registry : Registry B) : Nat :=
  (StepType.all.flatMap registry.candidates).length

def insertSorted (text : String) : List String → List String
  | [] => [text]
  | other :: rest =>
    if text < other then text :: other :: rest else other :: insertSorted text rest

/-- The description of a registry: its types in alphabetical order and the number of actions. -/
def describe (registry : Registry B) : String :=
  let names := (StepType.all.filter registry.handles).map StepType.name
  let sorted := names.foldr insertSorted []
  "ActionRegistry \x7b step_types: [" ++ ", ".intercalate (sorted.map Text.quoted)
    ++ "], actions: " ++ natText registry.size ++ " \x7d"

end Registry

end StepScript
