import StepScript.Plan.Basic

/-!
# Outlines

The structure of a plan as text, one line for each node and marker.
-/

namespace StepScript.Plan

def indented (depth : Nat) (line : String) : String :=
  String.ofList (List.replicate (2 * depth) ' ') ++ line

def guardLine (word : String) (guard : Step) : String :=
  word ++ " " ++ guard.name ++ " [" ++ guard.guardText?.getD "" ++ "]"

mutual

/-- The lines of a node inside `depth` blocks. A second branch without steps has no lines. -/
def nodeLines (depth : Nat) : Node → List String
  | .sequential step => [indented depth (step.type.name ++ " " ++ step.name)]
  | .conditional guard thenBranch elseBranch =>
    indented depth (guardLine "If" guard) :: outlineLines (depth + 1) thenBranch
      ++ (match elseBranch with
        | [] => []
        | _ :: _ => indented depth "Else" :: outlineLines (depth + 1) elseBranch)
      ++ [indented depth "EndIf"]
  | .loop guard body =>
    indented depth (guardLine "While" guard) :: outlineLines (depth + 1) body
      ++ [indented depth "EndWhile"]

def outlineLines (depth : Nat) : List Node → List String
  | [] => []
  | node :: rest => nodeLines depth node ++ outlineLines depth rest

end

/-- The outline of a plan; every line ends with a line break. -/
def outline (nodes : List Node) : String :=
  String.join ((outlineLines 0 nodes).map (· ++ "\n"))

end StepScript.Plan
