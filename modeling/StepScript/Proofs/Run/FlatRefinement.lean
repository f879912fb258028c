import StepScript.Proofs.Action.Keeps
import StepScript.Proofs.Plan.Resolution
import StepScript.Proofs.Run.Collected
import StepScript.Proofs.Run.FlatSimulation
import StepScript.Rehearsal.Browser

/-!
# Runs without a plan

A run that walks its plan does the same as the flat machine on the steps of its script, completed by
the markers that are missing at the end.
-/

namespace StepScript

variable {B : Backend}

namespace FlatMachine

/-! ## Authored steps -/

/-- A dispatch and the result that it may emit. -/
theorem dispatchedSteps_carryOn {setup : Setup B} {step sent : Step} {context : Context B}
    {emits : Bool} {target : ActionResult → Nat}
    (h : sent ∈ dispatchedSteps (carryOn setup step context emits target).1) : sent = step := by
  unfold carryOn at h
  dsimp only at h
  split at h
  · exact dispatchedSteps_dispatch h
  · rw [dispatchedSteps_append] at h
    rcases List.mem_append.1 h with h | h
    · exact dispatchedSteps_dispatch h
    · cases emits <;> cases h

theorem dispatchedSteps_pause (setup : Setup B) (context : Context B) :
    dispatchedSteps (pause setup context) = [] := by
  unfold pause
  split <;> rfl

/-- The flat machine dispatches steps of its list, but no markers. -/
theorem dispatchedSteps_proceed {setup : Setup B} {code : List Step} {next : Next B} {sent : Step}
    (h : sent ∈ dispatchedSteps (proceed setup code next).1) :
    sent ∈ code ∧ sent.isMarker = false := by
  cases next with
  | ended => cases h
  | «at» position context =>
    cases hstep : code[position]? with
    | none =>
      simp only [proceed, hstep] at h
      cases h
    | some step =>
      have hmem := List.mem_of_getElem? hstep
      simp only [proceed, hstep] at h
      cases htype : step.type <;> simp only [htype] at h
      case elseMarker | endIf => cases h
      case endWhile =>
        rw [dispatchedSteps_pause] at h
        cases h
      all_goals
        obtain rfl := dispatchedSteps_carryOn h
        exact ⟨hmem, by rw [Step.isMarker, htype]; rfl⟩

theorem dispatchedSteps_trace {setup : Setup B} {code : List Step} {n : Nat} {next : Next B}
    {sent : Step} (h : sent ∈ dispatchedSteps (trace (proceed setup code) n next).1) :
    sent ∈ code ∧ sent.isMarker = false := by
  induction n generalizing next with
  | zero => cases h
  | succ n ih =>
    rw [trace_succ, dispatchedSteps_append] at h
    rcases List.mem_append.1 h with h | h
    · exact dispatchedSteps_proceed h
    · exact ih h

/-! ## Whole runs -/

def start (run : Run B) (world : B.World) : Next B :=
  .at 0 (.fresh run.settings.policy false world)

/-- A run and the flat machine on some steps show the same and end alike, and the steps that they
dispatch are those of the script. A run that does not end shows, move by move, what the machine
does. -/
structure Agrees (run : Run B) (code : List Step) (world : B.World) (turn : Nat) : Prop where
  ended_of_collect : ∀ fuel outcome, run.collect fuel false world turn = some outcome →
    ∃ n moments error context,
      trace (proceed run.setup code) n (start run world) = (moments, .ended error context) ∧
      outcome.Shows moments error context
  collect_of_ended : ∀ n moments error context,
    trace (proceed run.setup code) n (start run world) = (moments, .ended error context) →
    ∃ fuel outcome, run.collect fuel false world turn = some outcome ∧
      outcome.Shows moments error context
  forward : ∀ n, ∃ m, (trace (Machine.proceed run.setup) n (run.start false world)).1 =
    (trace (proceed run.setup code) m (start run world)).1
  backward : ∀ m, ∃ n, (trace (proceed run.setup code) m (start run world)).1 =
    (trace (Machine.proceed run.setup) n (run.start false world)).1
  authored : ∀ n, ∀ step ∈ dispatchedSteps (trace (proceed run.setup code) n (start run world)).1,
    step ∈ run.script.steps

/-- A run and the flat machine on the completed steps begin in corresponding states. -/
theorem related_start {run : Run B} {world : B.World} {nodes : List Node} {closing : List Step}
    (hplan : Plan.resolve run.script.steps = .ok nodes)
    (hclosing : closing.map Step.type = Plan.missingMarkers run.script.steps)
    (hquiet : run.NeverCancelled world) :
    Related run.setup (run.script.steps ++ closing) (run.start false world) (start run world) := by
  have hstart : run.start false world =
      .resume ⟨[.visit nodes], .fresh run.settings.policy false world⟩ := by
    rw [Run.start, Machine.start, hplan]
    rfl
  obtain ⟨hrenders, hdepth⟩ := Plan.resolve_renders hplan
  obtain ⟨stack, hscan, hleaves⟩ := hrenders.scan_eq_ok hdepth
  rw [Plan.missingMarkers, hscan] at hclosing
  -- some step behind the script keeps its last markers from being left out
  obtain ⟨code, hcode, layout⟩ :=
    (hleaves.completes closing [default] hclosing).layout (List.cons_ne_nil _ _)
  rw [← List.append_assoc, List.nil_append] at hcode
  obtain rfl := List.append_cancel_right hcode
  have hresumes : Resumes (run.script.steps ++ closing) [.visit nodes] 0 := by
    have hdrop : (run.script.steps ++ closing).drop 0 = (run.script.steps ++ closing) ++ [] := by
      rw [List.drop_zero, List.append_nil]
    refine .visit hdrop layout ?_
    rw [Nat.zero_add]
    exact .exhausted .finished
  rw [start]
  unfold Run.NeverCancelled at hquiet
  rw [hstart] at hquiet ⊢
  exact .resumes hresumes hquiet

end FlatMachine

namespace Plan

theorem isMarker_of_mem_missingMarkers {steps : List Step} {type : StepType}
    (h : type ∈ missingMarkers steps) : type.isMarker = true := by
  unfold missingMarkers at h
  split at h
  · obtain ⟨block, -, rfl⟩ := List.mem_map.1 h
    cases block <;> rfl
  · cases h

end Plan

/-- A run that is accepted agrees with the flat machine on its steps and the markers that are
missing at their end. -/
theorem Run.refines_flatMachine {run : Run B} {world : B.World} {nodes : List Node}
    {closing : List Step} (hplan : Plan.resolve run.script.steps = .ok nodes)
    (hclosing : closing.map Step.type = Plan.missingMarkers run.script.steps)
    (htimeout : run.settings.timeoutMillis = none) (hquiet : run.NeverCancelled world)
    (turn : Nat) : FlatMachine.Agrees run (run.script.steps ++ closing) world turn := by
  have hsimulation := FlatMachine.simulation run.setup (run.script.steps ++ closing)
  have related := FlatMachine.related_start hplan hclosing hquiet
  constructor
  case ended_of_collect =>
    intro fuel outcome houtcome
    have hcollect := Run.collect_shows htimeout hquiet turn fuel
    obtain ⟨m, hshown, hend⟩ := hsimulation.forward related fuel
    split at hcollect
    · next error context hended =>
      obtain ⟨outcome', houtcome', hshows⟩ := hcollect
      rw [houtcome] at houtcome'
      cases houtcome'
      rw [hended] at hend
      cases hend' : (trace (FlatMachine.proceed run.setup (run.script.steps ++ closing)) m
        (FlatMachine.start run world)).2 with
      | «at» => rw [hend'] at hend; cases hend
      | ended =>
        rw [hend'] at hend
        cases hend
        exact ⟨m, _, error, context, Prod.ext hshown.symm hend', hshows⟩
    · rw [houtcome] at hcollect
      cases hcollect
  case collect_of_ended =>
    intro m moments error context hended
    obtain ⟨n, hshown, hend⟩ := hsimulation.backward related m
    rw [hended] at hshown hend
    have hcollect := Run.collect_shows htimeout hquiet turn n
    generalize (trace (Machine.proceed run.setup) n (run.start false world)).2 = reached at *
    cases hend
    obtain ⟨outcome, houtcome, hshows⟩ := hcollect
    rw [hshown] at hshows
    exact ⟨n, outcome, houtcome, hshows⟩
  case forward =>
    intro n
    obtain ⟨m, hshown, -⟩ := hsimulation.forward related n
    exact ⟨m, hshown⟩
  case backward =>
    intro m
    obtain ⟨n, hshown, -⟩ := hsimulation.backward related m
    exact ⟨n, hshown.symm⟩
  case authored =>
    intro n step hstep
    obtain ⟨hmem, hmarker⟩ := FlatMachine.dispatchedSteps_trace hstep
    rcases List.mem_append.1 hmem with hmem | hmem
    · exact hmem
    · have htype : step.type ∈ Plan.missingMarkers run.script.steps :=
        hclosing ▸ List.mem_map_of_mem hmem
      rw [Step.isMarker, Plan.isMarker_of_mem_missingMarkers htype] at hmarker
      cases hmarker

/-- A run whose script leaves a loop in an `Else` branch open. -/
def Run.unclosed : Run Rehearsal.backend :=
  { script :=
      { name := "unclosed"
        steps := [.putText "init" "n" "1", ⟨"more", none, .ifGuard "${n} > 2"⟩,
          .putText "many" "size" "many", ⟨"otherwise", none, .elseMarker⟩,
          ⟨"again", none, .whileGuard "${n} < 3"⟩, .putExpression "count" "n" "${n} + 1"] }
    registry := .control }

/-- The run takes the second branch and goes round its loop twice. -/
theorem Run.unclosed_refines :
    Plan.missingMarkers Run.unclosed.script.steps = [.endWhile, .endIf] ∧
      Run.unclosed.NeverCancelled {} ∧
      FlatMachine.Agrees Run.unclosed (Run.unclosed.script.steps ++
        [⟨"", none, .endWhile⟩, ⟨"", none, .endIf⟩]) {} turnLength ∧
      ∃ outcome, Run.unclosed.collect 30 false {} = some outcome ∧
        (outcome.dispatches.toList.map (·.2.name), outcome.error) =
          (["init", "more", "again", "count", "again", "count", "again"], none) := by
  have hquiet : Run.unclosed.NeverCancelled {} :=
    Run.neverCancelled_of_isQuiet (Setup.isQuiet_control _) _
  have hends : (Run.unclosed.collect 30 false {}).map
      (fun outcome => (outcome.dispatches.toList.map (·.2.name), outcome.error)) =
        some (["init", "more", "again", "count", "again", "count", "again"], none) := by
    decide +kernel
  exact ⟨rfl, hquiet, Run.refines_flatMachine rfl rfl rfl hquiet turnLength,
    Option.map_eq_some_iff.1 hends⟩

end StepScript
