import StepScript.Action.Builtin
import StepScript.Rehearsal.Layers

/-!
# Registries as lists

A registry keeps the actions of each type apart. For whoever looks up an action it is one list, in
the order of the registrations, that is searched from its start.
-/

namespace StepScript.Registry

variable {B : Backend}

/-! ## One registration -/

theorem candidates_register (registry : Registry B) (action : Action B) (type : StepType) :
    (registry.register action).candidates type =
      registry.candidates type ++ [action].filter (fun a => a.type = type) := by
  by_cases htype : action.type = type
  · simp [register, htype]
  · simp [register, htype, Ne.symm htype]

theorem size_empty : (empty : Registry B).size = 0 := rfl

/-- An action is counted among the actions of its type, and there only. -/
theorem size_register (registry : Registry B) (action : Action B) :
    (registry.register action).size = registry.size + 1 := by
  cases htype : action.type <;> simp [size, StepType.all, register, htype] <;> omega

/-! ## Registrations in a row -/

theorem candidates_foldl_register (registry : Registry B) (actions : List (Action B))
    (type : StepType) :
    (actions.foldl register registry).candidates type =
      registry.candidates type ++ actions.filter (fun action => action.type = type) := by
  induction actions generalizing registry with
  | nil => simp
  | cons action actions ih =>
    rw [List.foldl_cons, ih, candidates_register, List.append_assoc, ← List.filter_append,
      List.singleton_append]

/-- The actions of a type are kept in the order of their registration. -/
theorem candidates_ofList (actions : List (Action B)) (type : StepType) :
    (ofList actions).candidates type = actions.filter (fun action => action.type = type) :=
  candidates_foldl_register empty actions type

theorem size_foldl_register (registry : Registry B) (actions : List (Action B)) :
    (actions.foldl register registry).size = registry.size + actions.length := by
  induction actions generalizing registry with
  | nil => rfl
  | cons action actions ih =>
    rw [List.foldl_cons, ih, size_register, List.length_cons]
    omega

theorem resolve_ofList (actions : List (Action B)) (step : Step) :
    (ofList actions).resolve step =
      actions.find? fun action => action.type = step.type ∧ action.supports step = true := by
  rw [resolve, candidates_ofList, List.find?_filter]
  simp only [decide_eq_true_eq]

theorem handles_ofList (actions : List (Action B)) (type : StepType) :
    (ofList actions).handles type = true ↔ ∃ action ∈ actions, action.type = type := by
  rw [handles, candidates_ofList]
  simp [List.filter_eq_nil_iff]

theorem size_ofList (actions : List (Action B)) : (ofList actions).size = actions.length := by
  rw [ofList, size_foldl_register, size_empty, Nat.zero_add]

/-- Registries with the same actions of each type, in the same order, are the same. -/
theorem ofList_congr {actions others : List (Action B)}
    (h : ∀ type, others.filter (fun action => action.type = type) =
      actions.filter (fun action => action.type = type)) : ofList others = ofList actions := by
  have hcandidates : (ofList others).candidates = (ofList actions).candidates := by
    funext type
    rw [candidates_ofList, candidates_ofList, h]
  exact congrArg Registry.mk hcandidates

/-- The actions registered one after the other are one list: a step is carried out by the first of
them that is of its type and supports it, there are actions of the types that were registered, and as
many as were registered. The order in which actions of different types were registered does not
matter. -/
theorem ofList_ordered (actions : List (Action B)) :
    (∀ step, (ofList actions).resolve step =
      actions.find? fun action => action.type = step.type ∧ action.supports step = true) ∧
    (∀ type, (ofList actions).handles type = true ↔ ∃ action ∈ actions, action.type = type) ∧
    (ofList actions).size = actions.length ∧
    ∀ others : List (Action B), (∀ type, others.filter (fun action => action.type = type) =
        actions.filter (fun action => action.type = type)) →
      ofList others = ofList actions :=
  ⟨resolve_ofList actions, handles_ofList actions, size_ofList actions, fun _ => ofList_congr⟩

/-- Waits for the steps of one name, around the built-in one, and a guard among them. -/
def namedWaits : List (Action Rehearsal.backend) :=
  [Rehearsal.Mark.action { type := .wait, name := some "special" }, .guard .ifGuard, .wait,
    Rehearsal.Mark.action { type := .wait, name := some "never" }]

/-- The same with the guard at the end. -/
def waitsFirst : List (Action Rehearsal.backend) :=
  [Rehearsal.Mark.action { type := .wait, name := some "special" }, .wait,
    Rehearsal.Mark.action { type := .wait, name := some "never" }, .guard .ifGuard]

/-- A wait that is registered before the one with the name of the step is found first, also when the
guard is registered at another place. -/
theorem ofList_ordered_waits :
    (∀ type, waitsFirst.filter (fun action => action.type = type) =
      namedWaits.filter (fun action => action.type = type)) ∧
    ofList waitsFirst = ofList namedWaits ∧
    (ofList waitsFirst).resolve (Step.waitMillis "never" 0) = some Action.wait := by
  have hfilter : ∀ type, waitsFirst.filter (fun action => action.type = type) =
      namedWaits.filter (fun action => action.type = type) := by
    intro type
    cases type <;> rfl
  obtain ⟨hresolve, -, -, hreorder⟩ := ofList_ordered namedWaits
  have hsame := hreorder waitsFirst hfilter
  refine ⟨hfilter, hsame, ?_⟩
  rw [hsame, hresolve]
  rfl

end StepScript.Registry
