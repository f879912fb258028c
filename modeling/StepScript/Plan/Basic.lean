import StepScript.Script.Step

/-!
# Plans

Before a script runs, its flat list of steps is resolved into blocks. Blocks that are still open at
the end of the list end there.
-/

namespace StepScript

inductive Node where
  | sequential (step : Step)
  | conditional (guard : Step) (thenBranch elseBranch : List Node)
  | loop (guard : Step) (body : List Node)

instance : Inhabited Node := ⟨.sequential default⟩

inductive PlanError where
  | unbalanced (index : Nat) (marker : StepType)
  | tooDeep (index limit : Nat)
deriving DecidableEq, Repr

namespace Plan

/-- How deep blocks may nest. -/
def depthLimit : Nat := 64

/-- A sequence of nodes and the steps after it, which are none or begin with the marker that
stopped the sequence. -/
structure Sequence where
  nodes : List Node
  rest : List Step

/-- The error of a marker that closes no open block; it is the first of the steps `rest` that are
left of `total`. -/
def unbalanced {α : Type} (total : Nat) (marker : Step) (rest : List Step) :
    Except PlanError α :=
  .error (.unbalanced (total - rest.length) marker.type)

section

/-! The resolvers of single nodes are given the resolver `sequence` for the blocks in them, which
takes the number of blocks around the steps that it resolves. All of them see what is left of
`total` steps and return what is left after them. -/

variable (total : Nat) (sequence : Nat → List Step → Except PlanError Sequence)

/-- The second branch of a condition, after its marker. -/
def resolveElse (depth : Nat) (guard : Step) (thenBranch : List Node) (rest : List Step) :
    Except PlanError (Node × List Step) := do
  let branch ← sequence depth rest
  match branch.rest with
  | [] => return (.conditional guard thenBranch branch.nodes, [])
  | marker :: after =>
    if marker.type = .endIf then
      return (.conditional guard thenBranch branch.nodes, after)
    else unbalanced total marker (marker :: after)

def resolveIf (depth : Nat) (guard : Step) (rest : List Step) :
    Except PlanError (Node × List Step) := do
  let branch ← sequence depth rest
  match branch.rest with
  | [] => return (.conditional guard branch.nodes [], [])
  | marker :: after =>
    if marker.type = .endIf then return (.conditional guard branch.nodes [], after)
    else if marker.type = .elseMarker then
      resolveElse total sequence depth guard branch.nodes after
    else unbalanced total marker (marker :: after)

def resolveWhile (depth : Nat) (guard : Step) (rest : List Step) :
    Except PlanError (Node × List Step) := do
  let body ← sequence depth rest
  match body.rest with
  | [] => return (.loop guard body.nodes, [])
  | marker :: after =>
    if marker.type = .endWhile then return (.loop guard body.nodes, after)
    else unbalanced total marker (marker :: after)

/-- The node that a step begins, inside `depth` blocks. -/
def resolveNode (depth : Nat) (step : Step) (rest : List Step) :
    Except PlanError (Node × List Step) :=
  let opensBlock := step.type = .ifGuard ∨ step.type = .whileGuard
  if opensBlock ∧ depthLimit ≤ depth then
    .error (.tooDeep (total - (step :: rest).length) depthLimit)
  else if step.type = .ifGuard then resolveIf total sequence (depth + 1) step rest
  else if step.type = .whileGuard then resolveWhile total sequence (depth + 1) step rest
  else .ok (.sequential step, rest)

end

/-- The nodes up to the first marker that closes no block among them, inside `depth` blocks. The
steps are what is left of `total`, and `bound` is at least their number. -/
def resolveSequence (total : Nat) : Nat → Nat → List Step → Except PlanError Sequence
  | 0, _, steps => .ok ⟨[], steps⟩
  | _ + 1, _, [] => .ok ⟨[], []⟩
  | bound + 1, depth, step :: rest =>
    if step.isMarker then .ok ⟨[], step :: rest⟩
    else do
      let (node, rest) ← resolveNode total (resolveSequence total bound) depth step rest
      let more ← resolveSequence total bound depth rest
      return ⟨node :: more.nodes, more.rest⟩

def resolve (steps : List Step) : Except PlanError (List Node) := do
  let all ← resolveSequence steps.length steps.length 0 steps
  match all.rest with
  | [] => return all.nodes
  | marker :: rest => unbalanced steps.length marker (marker :: rest)

end Plan

def PlanError.message : PlanError → String
  | .unbalanced index marker =>
    "unbalanced block: " ++ marker.name ++ " at step " ++ natText index
      ++ " does not close an open block"
  | .tooDeep index limit =>
    "block at step " ++ natText index ++ " nests deeper than " ++ natText limit ++ " levels"

end StepScript
