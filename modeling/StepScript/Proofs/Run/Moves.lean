import StepScript.Proofs.Plan.Rendering
import StepScript.Proofs.Run.Trace

/-!
# Moves of a run

What a single move of a run can be: nothing but pauses is seen of it, or it takes a step that no
action supports, or it dispatches a step, which succeeds or fails. What is true of whole runs is
derived from these four cases.
-/

namespace StepScript

variable {B : Backend}

/-! ## Dispatches -/

/-- How the dispatch of a step fails: the record that it leaves and the error of the run. -/
inductive FailsWith (setup : Setup B) (step : Step) (context : Context B) :
    ActionResult → RunError → Prop where
  /-- A result says that the step failed, and why. -/
  | reported {record : ActionResult} {text : String}
      (hvalue : (trip setup step context).value = .ok record) (hfailed : record.success = false)
      (htext : record.error = some text) :
      FailsWith setup step context record (.actionExecution step.name text)
  /-- A result says that the step failed, but not why. -/
  | unexplained {record : ActionResult}
      (hvalue : (trip setup step context).value = .ok record) (hfailed : record.success = false)
      (htext : record.error = none) :
      FailsWith setup step context record
        (.actionExecution step.name "action reported failure")
  /-- An error is raised. -/
  | raised {cause : ActionError} (hvalue : (trip setup step context).value = .error cause)
      (hcause : ∀ fault, cause ≠ .expression fault) :
      FailsWith setup step context (.failed step cause.message)
        (.actionExecution step.name cause.message)
  /-- An expression cannot be evaluated. -/
  | evaluation {fault : ExpressionError}
      (hvalue : (trip setup step context).value = .error (.expression fault)) :
      FailsWith setup step context (.failed step fault.message)
        (.expressionEvaluation step.name fault)

theorem FailsWith.success_eq {setup : Setup B} {step : Step} {context : Context B}
    {record : ActionResult} {error : RunError} (h : FailsWith setup step context record error) :
    record.success = false := by
  cases h with
  | reported _ hfailed | unexplained _ hfailed => exact hfailed
  | raised | evaluation => rfl

def Signal.isPause : Signal → Bool
  | .sleep _ | .stepAside => true
  | .dispatch _ | .emit _ => false

/-- What is seen of some results that are handed out in a context. -/
def shown (context : Context B) (results : List ActionResult) : List (Moment B) :=
  results.map fun result => ⟨.emit result, context⟩

theorem isPause_of_mem_tripPauses {setup : Setup B} {step : Step} {context : Context B}
    {moment : Moment B} (h : moment ∈ tripPauses setup step context) :
    moment.signal.isPause = true := by
  obtain ⟨pause, -, cancelled, rfl⟩ := mem_seePauses h
  rfl

/-- What a dispatch shows and how it ends. -/
theorem dispatch_shape (setup : Setup B) (step : Step) (context : Context B) :
    (setup.registry.resolve step = none ∧ dispatch setup step context =
      ⟨[], .error (.unsupportedStep step.name step.type), context⟩) ∨
    ((setup.registry.resolve step).isSome ∧
      ((∃ result, (trip setup step context).value = .ok result ∧ result.success = true ∧
        dispatch setup step context =
          ⟨⟨.dispatch step, context⟩ :: tripPauses setup step context, .ok result,
            afterTrip setup step context⟩) ∨
      ∃ record error, FailsWith setup step context record error ∧
        dispatch setup step context =
          ⟨⟨.dispatch step, context⟩ :: tripPauses setup step context ++
              shown (afterTrip setup step context) [record], .error error,
            afterTrip setup step context⟩)) := by
  -- the registry decides whether the step is sent at all, the value of the trip how it ends
  cases hresolve : setup.registry.resolve step with
  | none => exact .inl ⟨rfl, by simp only [dispatch, hresolve]⟩
  | some action =>
    refine .inr ⟨rfl, ?_⟩
    cases hvalue : (trip setup step context).value with
    | ok result =>
      have hdispatch := hvalue
      unfold trip at hdispatch
      cases hsuccess : result.success with
      | true =>
        refine .inl ⟨result, rfl, hsuccess, ?_⟩
        simp only [dispatch, hresolve, hdispatch, hsuccess]
        rfl
      | false =>
        let text := result.error.getD "action reported failure"
        refine .inr ⟨result, .actionExecution step.name text, ?_, ?_⟩
        · dsimp only [text]
          cases htext : result.error with
          | none => exact .unexplained hvalue hsuccess htext
          | some text => exact .reported hvalue hsuccess htext
        · simp only [dispatch, hresolve, hdispatch, hsuccess]
          rfl
    | error cause =>
      have hdispatch := hvalue
      unfold trip at hdispatch
      refine .inr ⟨.failed step cause.message, cause.toRunError step.name, ?_, ?_⟩
      · cases cause with
        | expression fault => exact .evaluation hvalue
        | backend | template | missingResource | invalidStep => exact .raised hvalue nofun
      · simp only [dispatch, hresolve, hdispatch]
        rfl

/-! ## Moves -/

namespace Machine

/-- The step that the next move takes, if it takes one. -/
def State.due? (state : State B) : Option Step :=
  match state.frames with
  | .visit (node :: _) :: _ =>
    if state.context.cancelled then none
    else
      match node with
      | .sequential step => some step
      | .conditional guard _ _ => some guard
      | .loop _ _ => none
  | .check guard _ :: _ => some guard
  | _ => none

/-- The four kinds of moves. -/
inductive State.Moves (setup : Setup B) (state : State B) : Move B → Prop where
  | silent {moments : List (Moment B)} {next : Next B} (hdue : state.due? = none)
      (hpauses : ∀ moment ∈ moments, moment.signal.isPause = true ∧ moment.context = state.context)
      (hcontext : next.context = state.context)
      (herror : ∀ error context, next = .ended (some error) context → error = .cancelled) :
      Moves setup state ⟨moments, next⟩
  | unsupported {step : Step} (hdue : state.due? = some step)
      (hresolve : setup.registry.resolve step = none) :
      Moves setup state ⟨[], .ended (some (.unsupportedStep step.name step.type)) state.context⟩
  | succeeds {step : Step} {result : ActionResult} {results : List ActionResult}
      {frames : List Frame} (hdue : state.due? = some step)
      (hresolve : (setup.registry.resolve step).isSome)
      (hvalue : (trip setup step state.context).value = .ok result)
      (hsuccess : result.success = true) (hresults : results = [] ∨ results = [result]) :
      Moves setup state
        ⟨⟨.dispatch step, state.context⟩ :: tripPauses setup step state.context ++
            shown (afterTrip setup step state.context) results,
          .resume ⟨frames, afterTrip setup step state.context⟩⟩
  | fails {step : Step} {record : ActionResult} {error : RunError} (hdue : state.due? = some step)
      (hresolve : (setup.registry.resolve step).isSome)
      (hfails : FailsWith setup step state.context record error) :
      Moves setup state
        ⟨⟨.dispatch step, state.context⟩ :: tripPauses setup step state.context ++
            shown (afterTrip setup step state.context) [record],
          .ended (some error) (afterTrip setup step state.context)⟩

section

variable {setup : Setup B} {state : State B} {step : Step} {frames : ActionResult → List Frame}

theorem afterDispatch_emitting (hdue : state.due? = some step) :
    state.Moves setup (afterDispatch setup step state.context (emitting frames)) := by
  rcases dispatch_shape setup step state.context with ⟨hresolve, hdispatch⟩ |
    ⟨hresolve, ⟨result, hvalue, hsuccess, hdispatch⟩ | ⟨record, error, hfails, hdispatch⟩⟩
  · simp only [afterDispatch, hdispatch]
    exact .unsupported hdue hresolve
  · simp only [afterDispatch, hdispatch]
    exact .succeeds hdue hresolve hvalue hsuccess (.inr rfl)
  · simp only [afterDispatch, hdispatch]
    exact .fails hdue hresolve hfails

theorem afterDispatch_silent (hdue : state.due? = some step) :
    state.Moves setup (afterDispatch setup step state.context (silent frames)) := by
  rcases dispatch_shape setup step state.context with ⟨hresolve, hdispatch⟩ |
    ⟨hresolve, ⟨result, hvalue, hsuccess, hdispatch⟩ | ⟨record, error, hfails, hdispatch⟩⟩
  · simp only [afterDispatch, hdispatch]
    exact .unsupported hdue hresolve
  · simp only [afterDispatch, hdispatch]
    rw [silent, ← List.append_nil (_ :: tripPauses setup step state.context)]
    exact .succeeds hdue hresolve hvalue hsuccess (.inl rfl)
  · simp only [afterDispatch, hdispatch]
    exact .fails hdue hresolve hfails

end

theorem isPause_pauseBetween {setup : Setup B} {context : Context B} {moment : Moment B}
    (h : moment ∈ pauseBetween setup context) :
    moment.signal.isPause = true ∧ moment.context = context := by
  unfold pauseBetween at h
  split at h
  all_goals
    obtain rfl := List.mem_singleton.1 h
    exact ⟨rfl, rfl⟩

/-- A move of which nothing but pauses is seen and after which the run goes on. -/
theorem State.Moves.goesOn {setup : Setup B} {state state' : State B} {moments : List (Moment B)}
    (hdue : state.due? = none)
    (hpauses : ∀ moment ∈ moments, moment.signal.isPause = true ∧ moment.context = state.context)
    (hcontext : state'.context = state.context) : state.Moves setup ⟨moments, .resume state'⟩ := by
  refine .silent hdue hpauses hcontext fun error context h => ?_
  cases h

/-- Every move is of one of the four kinds. -/
theorem advance_moves (setup : Setup B) (state : State B) :
    state.Moves setup (advance setup state) := by
  obtain ⟨frames, context⟩ := state
  -- only a node of a block and a guard take a step; a loop is entered without one
  match frames with
  | [] =>
    refine .silent rfl (List.forall_mem_nil _) rfl fun error context h => ?_
    cases h
  | .visit [] :: rest => exact .goesOn rfl (List.forall_mem_nil _) rfl
  | .visit (node :: nodes) :: rest =>
    cases hcancelled : context.cancelled with
    | true =>
      simp only [advance, hcancelled]
      refine .silent (by simp [State.due?, hcancelled]) (List.forall_mem_nil _) rfl ?_
      rintro error _ ⟨⟩
      rfl
    | false =>
      simp only [advance, hcancelled]
      cases node with
      | sequential step => exact afterDispatch_emitting (by simp [State.due?, hcancelled])
      | conditional guard _ _ => exact afterDispatch_emitting (by simp [State.due?, hcancelled])
      | loop _ _ =>
        exact .goesOn (by simp [State.due?, hcancelled]) (List.forall_mem_nil _) rfl
  | .check guard body :: rest => exact afterDispatch_silent rfl
  | .rest guard body :: rest =>
    simp only [advance]
    split
    · refine .silent rfl (fun moment h => isPause_pauseBetween h) rfl ?_
      rintro error _ ⟨⟩
      rfl
    · exact .goesOn rfl (fun moment h => isPause_pauseBetween h) rfl

/-! ## The steps that a run takes -/

/-- The steps of what is left to do. -/
def Frame.steps : Frame → List Step
  | .visit nodes => nodesSteps nodes
  | .check guard body | .rest guard body => guard :: nodesSteps body

/-- The steps that a run may still take. -/
def Next.steps : Next B → List Step
  | .ended .. => []
  | .resume state => state.frames.flatMap Frame.steps

theorem State.due?_mem {state : State B} {step : Step} (h : state.due? = some step) :
    step ∈ (Next.resume state).steps := by
  obtain ⟨frames, context⟩ := state
  match frames with
  | [] | .visit [] :: _ | .rest _ _ :: _ => cases h
  | .visit (node :: nodes) :: rest =>
    simp only [State.due?] at h
    split at h
    · cases h
    · cases node with
      | sequential | conditional =>
        cases h
        simp [Next.steps, Frame.steps, nodesSteps, nodeSteps]
      | loop => cases h
  | .check guard body :: rest =>
    cases h
    simp [Next.steps, Frame.steps]

/-- After a dispatch a run has only steps of the frames to which the results lead. -/
theorem steps_afterDispatch {setup : Setup B} {step : Step} {context : Context B}
    {frames : ActionResult → List Frame} {proceed : List (Moment B) → ActionResult → Context B → Move B}
    {steps : List Step} (hproceed : proceed = emitting frames ∨ proceed = silent frames)
    (hframes : ∀ result, (frames result).flatMap Frame.steps ⊆ steps) :
    (afterDispatch setup step context proceed).next.steps ⊆ steps := by
  simp only [afterDispatch]
  split
  · next result _ => rcases hproceed with rfl | rfl <;> exact hframes result
  · exact List.nil_subset _

/-- A run takes no steps that were not left to do. -/
theorem steps_advance (setup : Setup B) (state : State B) :
    (advance setup state).next.steps ⊆ (Next.resume state).steps := by
  obtain ⟨frames, context⟩ := state
  match frames with
  | [] => exact List.nil_subset _
  | .visit [] :: rest => exact fun step h => h
  | .visit (node :: nodes) :: rest =>
    simp only [advance]
    split
    · exact List.nil_subset _
    · cases node with
      | sequential step =>
        refine steps_afterDispatch (.inl rfl) fun result => ?_
        simp [Next.steps, Frame.steps, nodesSteps]
      | conditional guard thenBranch elseBranch =>
        refine steps_afterDispatch (.inl rfl) fun result step h => ?_
        simp only [Next.steps, Frame.steps, nodesSteps, nodeSteps, List.flatMap_cons,
          List.mem_append, List.mem_cons] at h ⊢
        split at h <;> tauto
      | loop guard body => simp [visitNode, Next.steps, Frame.steps, nodesSteps, nodeSteps]
  | .check guard body :: rest =>
    refine steps_afterDispatch (.inr rfl) fun result step h => ?_
    simp only [Next.steps, List.flatMap_cons, Frame.steps, List.mem_append, List.mem_cons]
    split at h
    · simp only [List.flatMap_cons, Frame.steps, List.mem_append, List.mem_cons] at h
      tauto
    · exact .inr h
  | .rest guard body :: rest =>
    simp only [advance]
    split
    · exact List.nil_subset _
    · exact fun step h => h

end Machine

end StepScript
