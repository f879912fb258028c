import StepScript.Proofs.Action.Books
import StepScript.Proofs.Run.Disturbed

/-!
# The two lookups of a dispatch

A dispatch looks for an action twice: for the step of the script, before the interceptors see it,
and for the expanded step that comes out behind them. If both are of one type, and the types alone
decide, the second lookup finds the action that the first one found.
-/

namespace StepScript

variable {B : Backend}

/-! ## Registries -/

/-- Whether an action of a type supports a step depends on the type of the step only. -/
def Registry.DecidesByType (registry : Registry B) : Prop :=
  ∀ type, ∀ action ∈ registry.candidates type, ∀ step step' : Step, step.type = step'.type →
    action.supports step = action.supports step'

theorem Registry.DecidesByType.resolve_eq {registry : Registry B} (h : registry.DecidesByType)
    {step step' : Step} (htype : step.type = step'.type) :
    registry.resolve step = registry.resolve step' := by
  rw [resolve, resolve, htype, ← List.head?_filter, ← List.head?_filter]
  congr 1
  apply List.filter_congr
  intro action haction
  exact h _ action haction step step' htype

/-- Expanding a step does not change which action is found. -/
theorem Registry.DecidesByType.resolve_expand {registry : Registry B} (h : registry.DecidesByType)
    {step expanded : Step} {params : Parameters} {policy : MissingPolicy}
    (hexpand : step.expand params policy = .ok expanded) :
    registry.resolve expanded = registry.resolve step :=
  h.resolve_eq (Step.type_expand hexpand)

theorem Registry.decidesByType_of_builtins {registry : Registry B}
    (h : ∀ type, ∀ action ∈ registry.candidates type, action ∈ builtins) :
    registry.DecidesByType := by
  intro type action haction step step' htype
  have hsupports : ∀ type (run : Step → Act B ActionResult),
      (Action.ofType type run).supports step = (Action.ofType type run).supports step' := by
    intro type run
    change decide (step.type = type) = decide (step'.type = type)
    rw [htype]
  exact forall_mem_builtins
    (motive := fun action => action.supports step = action.supports step')
    (hsupports _ _) (hsupports _ _) (hsupports _ _) (hsupports _ _) (hsupports _ _)
    (hsupports _ _) (hsupports _ _) (hsupports _ _) action (h type action haction)

theorem Registry.decidesByType_standard : (standard : Registry B).DecidesByType :=
  decidesByType_of_builtins fun _ _ h => mem_of_candidates_ofList h

theorem Registry.decidesByType_control : (control : Registry B).DecidesByType :=
  decidesByType_of_builtins fun _ _ h => mem_builtins_of_candidates_control h

/-! ## Interceptors -/

/-- What an interceptor does with a step depends on the next layer only in so far as this is given
steps of the same type. -/
def Interceptor.KeepsType (interceptor : Interceptor B) : Prop :=
  ∀ (step : Step) (next next' : Step → Act B ActionResult),
    (∀ sent : Step, sent.type = step.type → next sent = next' sent) →
      interceptor step next = interceptor step next'

theorem Interceptor.keepsType_passThrough : (passThrough : Interceptor B).KeepsType :=
  fun step _ _ h => h step rfl

/-- Innermost layers that do the same with all steps of a type are the same to interceptors that
keep the type. -/
theorem intercepted_congr {innermost innermost' : Step → Act B ActionResult}
    {interceptors : List (Interceptor B)} (h : ∀ interceptor ∈ interceptors, interceptor.KeepsType)
    (step : Step)
    (hsame : ∀ sent : Step, sent.type = step.type → innermost sent = innermost' sent) :
    intercepted innermost interceptors step = intercepted innermost' interceptors step := by
  induction interceptors generalizing step with
  | nil => exact hsame step rfl
  | cons interceptor rest ih =>
    obtain ⟨hfirst, hrest⟩ := List.forall_mem_cons.1 h
    refine hfirst step _ _ fun sent htype => ih hrest sent fun other hother => ?_
    exact hsame other (hother.trans htype)

theorem intercepted_concat (innermost : Step → Act B ActionResult)
    (interceptors : List (Interceptor B)) (last : Interceptor B) :
    intercepted innermost (interceptors ++ [last]) =
      intercepted (fun step => last step innermost) interceptors := by
  induction interceptors with
  | nil => rfl
  | cons interceptor rest ih =>
    funext step
    rw [List.cons_append, intercepted, intercepted, ih]

/-! ## The innermost layer -/

/-- Puts the parameters into the step and carries it out with an action. -/
def carryOutWith (action : Action B) (step : Step) : Act B ActionResult := do
  let context ← Act.context
  match step.expand context.params context.policy with
  | .error cause => throw (.template cause)
  | .ok expanded => action.run expanded

/-- Does something else with an expanded step that no action supports, and passes on all others. -/
def Interceptor.standIn (registry : Registry B) (otherwise : Step → Act B ActionResult) :
    Interceptor B := fun step next => do
  let context ← Act.context
  match step.expand context.params context.policy with
  | .error _ => next step
  | .ok expanded =>
    match registry.resolve expanded with
    | none => otherwise expanded
    | some _ => next step

/-- Two activities are the same if they do the same in each context. -/
theorem Act.ext {α : Type} {act act' : Act B α}
    (h : ∀ context, act.run.run context = act'.run.run context) : act = act' :=
  funext h

section

variable {registry : Registry B} {action : Action B} {step : Step}
  (hresolve : ∀ params policy expanded, step.expand params policy = .ok expanded →
    registry.resolve expanded = some action)

include hresolve

theorem carryOut_eq_carryOutWith : carryOut registry step = carryOutWith action step := by
  apply Act.ext
  intro context
  change (match step.expand context.params context.policy with
      | .error cause => throw (.template cause)
      | .ok expanded => perform registry expanded : Act B ActionResult).run.run context =
    (match step.expand context.params context.policy with
      | .error cause => throw (.template cause)
      | .ok expanded => action.run expanded : Act B ActionResult).run.run context
  cases hexpand : step.expand context.params context.policy with
  | error cause => rfl
  | ok expanded => simp only [perform, hresolve _ _ _ hexpand]

theorem standIn_eq (otherwise : Step → Act B ActionResult) (next : Step → Act B ActionResult) :
    Interceptor.standIn registry otherwise step next = next step := by
  apply Act.ext
  intro context
  change (match step.expand context.params context.policy with
      | .error _ => next step
      | .ok expanded =>
        match registry.resolve expanded with
        | none => otherwise expanded
        | some _ => next step : Act B ActionResult).run.run context = (next step).run.run context
  cases hexpand : step.expand context.params context.policy with
  | error cause => rfl
  | ok expanded => simp only [hresolve _ _ _ hexpand]

end

/-! ## Runs -/

/-- Setups that send the steps with an action on the same way dispatch all steps alike. -/
theorem dispatch_congr {setup setup' : Setup B} (hregistry : setup.registry = setup'.registry)
    {step : Step} {context : Context B}
    (htrip : ∀ action, setup.registry.resolve step = some action →
      trip setup step context = trip setup' step context) :
    dispatch setup step context = dispatch setup' step context := by
  rw [dispatch, dispatch, ← hregistry]
  split
  · rfl
  · next action haction =>
    have hsame := htrip action haction
    unfold trip at hsame
    rw [hregistry] at hsame ⊢
    rw [hsame]

theorem Machine.advance_congr {setup setup' : Setup B}
    (hdispatch : ∀ step context, dispatch setup step context = dispatch setup' step context)
    (hpoll : setup.pollMillis = setup'.pollMillis) (state : State B) :
    advance setup state = advance setup' state := by
  have hafter : afterDispatch setup = afterDispatch setup' := by
    funext step context proceed
    rw [afterDispatch, afterDispatch, hdispatch]
  have hvisit : ∀ context rest node, visitNode setup context rest node =
      visitNode setup' context rest node := by
    intro context rest node
    cases node <;> simp only [visitNode, hafter]
  have hpause : pauseBetween setup = pauseBetween setup' := by
    funext context
    rw [pauseBetween, pauseBetween, hpoll]
  unfold advance
  simp only [hafter, hvisit, hpause]

theorem Collect.follow_congr {setup setup' : Setup B}
    (hadvance : ∀ state, Machine.advance setup state = Machine.advance setup' state)
    (timeout : Option Nat) (fuel : Nat) (state : State B) (next : Machine.Next B) :
    follow setup timeout fuel state next = follow setup' timeout fuel state next := by
  induction fuel generalizing state next with
  | zero => cases next <;> rfl
  | succ fuel ih =>
    cases next with
    | ended error context => rfl
    | resume machine => simp only [follow, hadvance, ih]

/-- The run that does something else where the second lookup finds no action. -/
def Run.withStandIn (run : Run B) (otherwise : Step → Act B ActionResult) : Run B :=
  { run with interceptors := run.interceptors ++ [.standIn run.registry otherwise] }

namespace Run

variable {run : Run B} (hregistry : run.registry.DecidesByType)
  (hinterceptors : ∀ interceptor ∈ run.interceptors, interceptor.KeepsType)

include hregistry

theorem resolve_sent {step sent expanded : Step} {action : Action B} {params : Parameters}
    {policy : MissingPolicy} (hresolve : run.registry.resolve step = some action)
    (htype : sent.type = step.type) (hexpand : sent.expand params policy = .ok expanded) :
    run.registry.resolve expanded = some action := by
  rw [hregistry.resolve_expand hexpand, hregistry.resolve_eq htype, hresolve]

include hinterceptors

/-- Behind the interceptors a step is carried out by the action that was found in front of them. -/
theorem intercepted_carryOut {step : Step} {action : Action B}
    (hresolve : run.registry.resolve step = some action) :
    intercepted (carryOut run.registry) run.interceptors step =
      intercepted (carryOutWith action) run.interceptors step :=
  intercepted_congr hinterceptors step fun _ htype =>
    carryOut_eq_carryOutWith fun _ _ _ hexpand => resolve_sent hregistry hresolve htype hexpand

/-- No move of the run depends on what happens where the second lookup finds no action. -/
theorem advance_withStandIn (otherwise : Step → Act B ActionResult) (state : Machine.State B) :
    Machine.advance (run.withStandIn otherwise).setup state = Machine.advance run.setup state := by
  have htrip : ∀ step context action, run.registry.resolve step = some action →
      trip (run.withStandIn otherwise).setup step context = trip run.setup step context := by
    intro step context action haction
    have hway : intercepted (carryOut run.registry)
        (run.interceptors ++ [.standIn run.registry otherwise]) step =
          intercepted (carryOut run.registry) run.interceptors step := by
      rw [intercepted_concat]
      refine intercepted_congr hinterceptors step fun sent htype => ?_
      exact standIn_eq (fun _ _ _ hexpand => resolve_sent hregistry haction htype hexpand) _ _
    exact congrArg (fun act : Act B ActionResult => act.run.run context) hway
  have hdispatch : ∀ step context, dispatch (run.withStandIn otherwise).setup step context =
      dispatch run.setup step context := by
    intro step context
    apply dispatch_congr
    · rfl
    · exact htrip step context
  exact Machine.advance_congr hdispatch rfl state

theorem collect_withStandIn (otherwise : Step → Act B ActionResult) (fuel : Nat) (cancelled : Bool)
    (world : B.World) (turn : Nat) :
    (run.withStandIn otherwise).collect fuel cancelled world turn =
      run.collect fuel cancelled world turn :=
  Collect.follow_congr (advance_withStandIn hregistry hinterceptors otherwise) _ _ _ _

end Run

end StepScript
