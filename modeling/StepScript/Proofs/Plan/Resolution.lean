import StepScript.Proofs.Plan.Scan

/-!
# Resolved scripts

A script is resolved exactly if it renders a plan whose blocks nest no deeper than the limit, and
then to that plan. Otherwise the fault is the first one in a scan for open blocks.
-/

namespace StepScript.Plan

theorem Renders.scan_eq_ok {steps : List Step} {nodes : List Node} (h : Renders steps nodes [])
    (hdepth : nodesDepth nodes ≤ depthLimit) :
    ∃ stack, scan 0 [] steps = .ok stack ∧ Leaves steps nodes stack [] := by
  obtain ⟨stack, hleaves⟩ := h.leaves
  refine ⟨stack, ?_, hleaves⟩
  rw [hleaves.scans 0 [] (by simpa using hdepth), List.append_nil, scan_nil]

/-- What a resolved script renders. -/
theorem resolve_renders {steps : List Step} {nodes : List Node} (h : resolve steps = .ok nodes) :
    Renders steps nodes [] ∧ nodesDepth nodes ≤ depthLimit := by
  rw [resolve] at h
  obtain ⟨all, hall, h⟩ := exists_of_bind_eq_ok h
  obtain ⟨hrenders, -, hdepth⟩ :=
    resolveSequence_renders _ _ _ _ _ (Nat.le_refl _) (Nat.zero_le _) hall
  split at h
  · next hrest =>
    cases h
    rw [hrest] at hrenders
    exact ⟨hrenders, by rwa [Nat.zero_add] at hdepth⟩
  · cases h

/-- The fault of a script that is not resolved is a fault of the scan. -/
theorem resolve_fault {steps : List Step} {cause : PlanError} (h : resolve steps = .error cause) :
    scan 0 [] steps = .error cause := by
  rw [resolve] at h
  rcases cases_of_bind_eq_error h with hall | ⟨all, hall, h⟩
  · exact resolveSequence_fault _ _ 0 [] steps _ (Nat.le_refl _) (Nat.zero_add _) (Nat.zero_le _)
      hall
  · obtain ⟨hrenders, hstop, hdepth⟩ :=
      resolveSequence_renders _ _ _ _ _ (Nat.le_refl _) (Nat.zero_le _) hall
    split at h
    · cases h
    · next marker rest hrest =>
      cases h
      rw [hrest] at hrenders hstop
      -- the sequence has stopped before a marker, and the scan comes to it with no open block
      obtain ⟨opened, hleaves⟩ := hrenders.leaves
      obtain rfl := hleaves.opened_eq_nil
      rw [hleaves.scans 0 [] (by simpa using hdepth), List.nil_append, Nat.zero_add]
      apply scan_cons_error
      apply scanStep_unbalanced hstop.isMarker
      · rintro - outer ⟨⟩
      · rintro block outer ⟨⟩

/-- A script is resolved to a plan exactly if it renders the plan and the blocks of the plan nest no
deeper than the limit; it renders no other plan. The plan has all steps of the script in their
order except the markers, and markers that close the blocks left open do not change it. -/
theorem resolve_eq_ok_iff (steps : List Step) :
    (∀ nodes, resolve steps = .ok nodes ↔
      Renders steps nodes [] ∧ nodesDepth nodes ≤ depthLimit) ∧
    (∀ nodes nodes', Renders steps nodes [] → Renders steps nodes' [] → nodes = nodes') ∧
    (∀ nodes, resolve steps = .ok nodes → nodesSteps nodes = steps.filter (!·.isMarker)) ∧
    ∀ nodes closing, resolve steps = .ok nodes →
      closing.map Step.type = missingMarkers steps → resolve (steps ++ closing) = .ok nodes := by
  have hcomplete : ∀ steps nodes, Renders steps nodes [] → nodesDepth nodes ≤ depthLimit →
      resolve steps = .ok nodes := by
    intro steps nodes h hdepth
    obtain ⟨stack, hscan, -⟩ := h.scan_eq_ok hdepth
    cases hresolve : resolve steps with
    | error cause =>
      rw [resolve_fault hresolve] at hscan
      cases hscan
    | ok found =>
      have hfound := (resolve_renders hresolve).1
      rw [(h.unique .atEnd hfound .atEnd).1]
  refine ⟨fun nodes => ⟨resolve_renders, fun h => hcomplete steps nodes h.1 h.2⟩,
    fun nodes nodes' h h' => (h.unique .atEnd h' .atEnd).1, fun nodes h => ?_,
    fun nodes closing h hclosing => ?_⟩
  · rw [(resolve_renders h).1.filter_steps, List.filter_nil, List.append_nil]
  · obtain ⟨hrenders, hdepth⟩ := resolve_renders h
    obtain ⟨stack, hscan, hleaves⟩ := hrenders.scan_eq_ok hdepth
    rw [missingMarkers, hscan] at hclosing
    have hrendered := hleaves.completes closing [] hclosing
    rw [List.append_nil] at hrendered
    exact hcomplete _ _ hrendered hdepth

/-- A loop in a conditional, both left open. -/
def openLoop : List Step :=
  [⟨"when", none, .ifGuard "a < b"⟩, .putText "set" "x" "1", ⟨"while", none, .whileGuard "c"⟩,
    .putText "reset" "x" "0"]

theorem resolve_openLoop :
    let nodes : List Node :=
      [.conditional ⟨"when", none, .ifGuard "a < b"⟩
        [.sequential (.putText "set" "x" "1"),
          .loop ⟨"while", none, .whileGuard "c"⟩ [.sequential (.putText "reset" "x" "0")]] []]
    Renders openLoop nodes [] ∧ (∀ nodes', Renders openLoop nodes' [] → nodes' = nodes) ∧
      nodesSteps nodes = openLoop ∧
      resolve (openLoop ++ [⟨"", none, .endWhile⟩, ⟨"", none, .endIf⟩]) = .ok nodes := by
  intro nodes
  obtain ⟨hiff, hunique, hsteps, hcompletes⟩ := resolve_eq_ok_iff openLoop
  have hrenders := ((hiff nodes).1 rfl).1
  exact ⟨hrenders, fun nodes' h => hunique nodes' nodes h hrenders, hsteps nodes rfl,
    hcompletes nodes _ rfl rfl⟩

/-- A script is resolved exactly if a scan of its steps for open blocks comes to the end, and
otherwise both find the same fault at the same step. -/
theorem resolve_eq_error_iff (steps : List Step) :
    ((∃ nodes, resolve steps = .ok nodes) ↔ ∃ stack, scan 0 [] steps = .ok stack) ∧
    ∀ cause, resolve steps = .error cause ↔ scan 0 [] steps = .error cause := by
  cases h : resolve steps with
  | ok nodes =>
    obtain ⟨hrenders, hdepth⟩ := resolve_renders h
    obtain ⟨stack, hscan, -⟩ := hrenders.scan_eq_ok hdepth
    rw [hscan]
    exact ⟨⟨fun _ => ⟨stack, rfl⟩, fun _ => ⟨nodes, rfl⟩⟩, fun cause => ⟨nofun, nofun⟩⟩
  | error cause =>
    rw [resolve_fault h]
    exact ⟨⟨nofun, nofun⟩, fun cause' => ⟨fun h => by cases h; rfl, fun h => by cases h; rfl⟩⟩

end StepScript.Plan
