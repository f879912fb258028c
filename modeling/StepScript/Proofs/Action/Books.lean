import StepScript.Proofs.Action.Keeps
import StepScript.Proofs.Basic
import StepScript.Proofs.Template.Texts

/-!
# What results tell of the parameters

A parameter step that succeeds stores its data under its key. With the built-in actions and no
interceptors nothing else changes the parameters, so that the result of a dispatch tells what became
of them.
-/

namespace StepScript

variable {B : Backend}

/-! ## Replaying results -/

/-- The parameters after a result. A parameter step that succeeded has stored its data. -/
def Parameters.enter (params : Parameters) (result : ActionResult) : Parameters :=
  match result.success, result.step.instruction, result.data with
  | true, .putParam key _ _ _ _, some value => params.set key value
  | _, _, _ => params

/-- The parameters that results tell, if there were none before. -/
def replay (results : List ActionResult) : Parameters := results.foldl Parameters.enter .empty

theorem replay_concat (results : List ActionResult) (result : ActionResult) :
    replay (results ++ [result]) = (replay results).enter result := by
  rw [replay, List.foldl_append]
  rfl

theorem Parameters.enter_of_failed {params : Parameters} {result : ActionResult}
    (h : result.success = false) : params.enter result = params := by
  simp [Parameters.enter, h]

theorem Parameters.enter_of_type {params : Parameters} {result : ActionResult}
    (h : result.step.type ≠ .putParam) : params.enter result = params := by
  unfold Parameters.enter
  split
  · next hinstruction _ => exact absurd (by rw [Step.type, hinstruction]; rfl) h
  · rfl

theorem Parameters.enter_stored {params : Parameters} {step : Step} {key : String}
    {selector value : Option String} {readFromText isExpression : Bool}
    (h : step.instruction = .putParam key selector value readFromText isExpression)
    (stored : Json) : params.enter (.succeeded step (some stored)) = params.set key stored := by
  simp [Parameters.enter, ActionResult.succeeded, h]

/-! ## Actions -/

/-- The parameters of a context. -/
def Context.HasParams (params : Parameters) (context : Context B) : Prop := context.params = params

theorem Context.ignoresBrowser_hasParams (params : Parameters) :
    Context.IgnoresBrowser (Context.HasParams params : Context B → Prop) :=
  ⟨fun _ _ h => h, fun _ _ h => h, fun _ _ h => h⟩

/-- A result that tells what became of the parameters. -/
def Enters (params : Parameters) (type : StepType) (result : ActionResult) (context : Context B) :
    Prop :=
  context.HasParams (params.enter result) ∧ result.success = true ∧ result.step.type = type

namespace Action

/-- A parameter step changes the parameters as its result tells. -/
theorem enters_putParam (step : Step) (params : Parameters) :
    Act.Ensures (Context.HasParams params) (Context.HasParams params)
      ((putParam : Action B).run step) (Enters params step.type) := by
  change Act.Ensures _ _ (runPutParam step) _
  rw [runPutParam]
  split
  · next key selector value readFromText isExpression hinstruction =>
    have hvalue := keeps_parameterValue (B := B) (Context.ignoresBrowser_hasParams params).pages step
      selector value readFromText isExpression
    refine .bind hvalue.ensures fun stored =>
      .bind (Q := fun _ => Context.HasParams (params.set key stored)) (.update ?_) fun _ =>
        .pure fun context h => ⟨?_, rfl, rfl⟩
    · rintro context rfl
      rfl
    · rw [Parameters.enter_stored hinstruction]
      exact h
  · exact .throw

/-- An action of another type leaves the parameters as they are. -/
theorem Carries.enters {action : Action B} {params : Parameters} {step : Step}
    (h : action.Carries (Context.HasParams params)) (htype : step.type ≠ .putParam) :
    Act.Ensures (Context.HasParams params) (Context.HasParams params) (action.run step)
      (Enters params step.type) := by
  intro context hcontext
  obtain ⟨hpauses, hend⟩ := h step context hcontext
  refine ⟨hpauses, ?_⟩
  split
  · next result hvalue =>
    rw [hvalue] at hend
    obtain ⟨hparams, hsuccess, rfl⟩ := hend
    refine ⟨?_, hsuccess, rfl⟩
    rw [Parameters.enter_of_type htype]
    exact hparams
  · next cause hvalue =>
    rw [hvalue] at hend
    exact hend

theorem type_of_supports {action : Action B} (h : action ∈ Registry.builtins) {step : Step}
    (hsupports : action.supports step = true) : step.type = action.type := by
  refine Registry.forall_mem_builtins
    (motive := fun action => action.supports step = true → step.type = action.type)
    ?_ ?_ ?_ ?_ ?_ ?_ ?_ ?_ action h hsupports
  all_goals exact of_decide_eq_true

/-- A built-in action changes the parameters as its result tells. -/
theorem enters_of_mem_builtins {action : Action B} (h : action ∈ Registry.builtins) {step : Step}
    (hsupports : action.supports step = true) (params : Parameters) :
    Act.Ensures (Context.HasParams params) (Context.HasParams params) (action.run step)
      (Enters params step.type) := by
  have hignores : Context.IgnoresBrowser (Context.HasParams params : Context B → Prop) :=
    Context.ignoresBrowser_hasParams params
  have htype : step.type = action.type := type_of_supports h hsupports
  refine Registry.forall_mem_builtins (motive := fun action => step.type = action.type →
    Act.Ensures (Context.HasParams params) (Context.HasParams params) (action.run step)
      (Enters params step.type)) ?_ ?_ ?_ ?_ ?_ ?_ ?_ ?_ action h htype
  all_goals intro htype
  · exact (carries_openBrowser hignores).enters (htype ▸ nofun)
  · exact (carries_wait hignores.pages).enters (htype ▸ nofun)
  · exact (carries_openPage hignores).enters (htype ▸ nofun)
  · exact enters_putParam step params
  · exact (carries_guard _).enters (htype ▸ nofun)
  · exact (carries_guard _).enters (htype ▸ nofun)
  · exact (carries_inputText hignores.pages).enters (htype ▸ nofun)
  · exact (carries_closeBrowser hignores).enters (htype ▸ nofun)

end Action

/-! ## Dispatches -/

/-- What carries out a step changes the parameters as its result tells. -/
theorem enters_carryOut {registry : Registry B}
    (h : ∀ step action, registry.resolve step = some action → action ∈ Registry.builtins)
    (step : Step) (params : Parameters) :
    Act.Ensures (Context.HasParams params) (Context.HasParams params) (carryOut registry step)
      (Enters params step.type) := by
  rw [carryOut]
  refine .bind Act.Keeps.context.ensures fun context => ?_
  split
  · exact .throw
  · next expanded hexpanded =>
    split
    · next action haction =>
      have hsupports := List.find?_some haction
      rw [← Step.type_expand hexpanded]
      exact Action.enters_of_mem_builtins (h expanded action haction) hsupports params
    · exact .throw

/-- The results of the dispatches of a setup tell what happens to the parameters. -/
structure Setup.KeepsBooks (setup : Setup B) : Prop where
  pauses : ∀ step context, ∀ moment ∈ tripPauses setup step context,
    moment.context.params = context.params
  result : ∀ step context result, (trip setup step context).value = .ok result →
    (afterTrip setup step context).params = context.params.enter result ∧
      result.step.type = step.type
  cause : ∀ step context cause, (trip setup step context).value = .error cause →
    (afterTrip setup step context).params = context.params

theorem params_afterTrip (setup : Setup B) (step : Step) (context : Context B) :
    (afterTrip setup step context).params = (trip setup step context).state.params := by
  obtain ⟨cancelled, hafter⟩ :=
    seePauses_after context (trip setup step context).state (trip setup step context).pauses
  rw [afterTrip, hafter]

/-- The built-in actions, if there are no interceptors. -/
theorem Setup.keepsBooks_of_builtin {setup : Setup B}
    (hregistry : setup.registry = .control ∨ setup.registry = .standard)
    (hinterceptors : setup.interceptors = []) : setup.KeepsBooks := by
  have hbuiltin : ∀ step action, setup.registry.resolve step = some action →
      action ∈ Registry.builtins := by
    intro step action haction
    rcases hregistry with hregistry | hregistry <;> rw [hregistry] at haction
    · exact Registry.mem_builtins_of_control haction
    · exact Registry.mem_builtins_of_standard haction
  have htrip : ∀ step context, trip setup step context =
      (carryOut setup.registry step).run.run context := by
    intro step context
    rw [trip, hinterceptors]
    rfl
  refine ⟨fun step context moment hmoment => ?_, fun step context result hvalue => ?_,
    fun step context cause hvalue => ?_⟩
  all_goals
    obtain ⟨hpauses, hend⟩ := enters_carryOut hbuiltin step context.params context rfl
    rw [← htrip] at hpauses hend
  · obtain ⟨pause, hpause, cancelled, rfl⟩ := mem_seePauses hmoment
    exact hpauses pause hpause
  · rw [hvalue] at hend
    rw [params_afterTrip]
    exact ⟨hend.1, hend.2.2⟩
  · rw [hvalue] at hend
    rw [params_afterTrip]
    exact hend

end StepScript
