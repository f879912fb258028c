import StepScript.Proofs.Action.Control
import StepScript.Proofs.Action.Lookups
import StepScript.Rehearsal.Browser

/-!
# Invalid steps

A built-in action that is given a step of its type finds fault with the step in one case only: a
parameter is to be stored, but there is neither a selector nor a value. Whatever else fails is not
the fault of the step, unless the backend says so.
-/

namespace StepScript

variable {B : Backend} {α β : Type}

/-! ## Failing activities -/

namespace Act

def Fails (act : Act B α) (context : Context B) (cause : ActionError) : Prop :=
  (act.run.run context).value = .error cause

variable {context : Context B} {cause : ActionError}

theorem not_fails_pure (value : α) : ¬ (Pure.pure value : Act B α).Fails context cause := nofun

theorem not_fails_sleep (millis : Nat) : ¬ (Act.sleep millis : Act B Unit).Fails context cause :=
  nofun

theorem Fails.throw_eq {raised : ActionError} (h : (throw raised : Act B α).Fails context cause) :
    raised = cause :=
  Except.error.inj h

/-- Of two activities one after the other, the first fails or the second one. -/
theorem Fails.of_bind {act : Act B α} {next : α → Act B β} (h : (act >>= next).Fails context cause) :
    act.Fails context cause ∨ ∃ value, (act.run.run context).value = .ok value ∧
      (next value).Fails (act.run.run context).state cause := by
  change (Activity.bind act (ExceptT.bindCont next) context).value = .error cause at h
  cases hvalue : (act context).value with
  | ok value =>
    simp only [Activity.bind, hvalue, ExceptT.bindCont] at h
    exact .inr ⟨value, hvalue, h⟩
  | error raised =>
    simp only [Activity.bind, hvalue, ExceptT.bindCont] at h
    have hsame : (Except.error raised : Except ActionError β) = .error cause := h
    cases hsame
    exact .inl hvalue

/-- What only computes with the value of an activity cannot fail. -/
theorem Fails.of_map {act : Act B α} {g : α → β}
    (h : (act >>= fun value => Pure.pure (g value)).Fails context cause) : act.Fails context cause :=
  h.of_bind.resolve_right fun ⟨_, _, h⟩ => not_fails_pure _ h

/-- Changing the context does not fail. -/
theorem Fails.of_update {f : Context B → Context B} {next : Unit → Act B β}
    (h : (Act.update f >>= next).Fails context cause) : (next ()).Fails (f context) cause := h

theorem run_context_bind (next : Context B → Act B β) :
    (Act.context >>= next).run.run context = (next context).run.run context := rfl

theorem Fails.browser (h : (Act.browser : Act B B.Browser).Fails context cause) :
    cause = .missingResource "browser" := by
  rw [Fails, Act.browser, run_context_bind] at h
  cases hbrowser : context.browser <;> rw [hbrowser] at h
  · exact (Except.error.inj h).symm
  · cases h

/-- Without a page there is none to work with. -/
theorem Fails.page (h : (Act.page : Act B B.Page).Fails context cause) :
    cause = .missingResource "page" := by
  rw [Fails, Act.page, run_context_bind] at h
  cases hpage : context.page <;> rw [hpage] at h
  · exact (Except.error.inj h).symm
  · cases h

theorem page_eq_of_ok {page : B.Page} (h : (Act.page.run.run context).value = .ok page) :
    context.page = some page := by
  rw [Act.page, run_context_bind] at h
  cases hpage : context.page <;> rw [hpage] at h
  · cases h
  · cases h
    rfl

end Act

/-- An operation of the backend may fail with an error. -/
inductive Backend.Answers (B : Backend) (cause : ActionError) : Prop where
  | launch {options : Option Json} {world : B.World}
      (h : (B.launch options world).value = .error cause)
  | newPage {browser : B.Browser} {world : B.World}
      (h : (B.newPage browser world).value = .error cause)
  | close {browser : B.Browser} {world : B.World}
      (h : (B.close browser world).value = .error cause)
  | goto {page : B.Page} {url : String} {options : Option Json} {world : B.World}
      (h : (B.goto page url options world).value = .error cause)
  | typeText {page : B.Page} {selector text : String} {world : B.World}
      (h : (B.typeText page selector text world).value = .error cause)
  | setValue {page : B.Page} {selector text : String} {world : B.World}
      (h : (B.setValue page selector text world).value = .error cause)
  | readText {page : B.Page} {selector : String} {world : B.World}
      (h : (B.readText page selector world).value = .error cause)
  | readValue {page : B.Page} {selector : String} {world : B.World}
      (h : (B.readValue page selector world).value = .error cause)
  | waitForSelector {page : B.Page} {selector : String} {world : B.World}
      (h : (B.waitForSelector page selector world).value = .error cause)
  | waitForXPath {page : B.Page} {xpath : String} {world : B.World}
      (h : (B.waitForXPath page xpath world).value = .error cause)

/-- A step that would store a parameter, but has neither a selector nor a value. -/
def Step.IsUnfilled (step : Step) : Prop :=
  ∃ key readFromText isExpression,
    step.instruction = .putParam key none none readFromText isExpression

def Step.unfilledText (step : Step) : String :=
  "PutParam '" ++ step.name ++ "' has neither a selector nor a value"

namespace Action

variable {context : Context B} {step : Step} {text : String}

/-- A page is open, and the backend finds fault with what it is asked to do there. -/
def FaultOnPage (context : Context B) (text : String) : Prop :=
  context.page.isSome ∧ B.Answers (.invalidStep text)

theorem not_fails_evaluated {value : Except ExpressionError α} :
    ¬ (evaluated value : Act B α).Fails context (.invalidStep text) := by
  cases value <;> nofun

theorem not_fault_guard {type : StepType} (hguard : type = .ifGuard ∨ type = .whileGuard)
    (htype : step.type = type) : ¬ ((guard type).run step).Fails context (.invalidStep text) := by
  intro h
  change (runGuard step).Fails context _ at h
  obtain ⟨name, options, instruction⟩ := step
  have hevaluated : ∀ expression, ¬ Act.Fails (do
      let holds ← evaluated (Expr.holds expression)
      return ActionResult.succeeded ⟨name, options, instruction⟩ (some (.bool holds)))
      context (.invalidStep text) := by
    intro expression h
    exact not_fails_evaluated h.of_map
  cases instruction with
  | ifGuard expression | whileGuard expression => exact hevaluated expression h
  | _ => rcases hguard with rfl | rfl <;> cases htype

theorem fault_waitOnPage {operation : B.Page → Activity B.World (Except ActionError Unit)}
    (hanswers : ∀ page world, (operation page world).value = .error (.invalidStep text) →
      B.Answers (.invalidStep text))
    (h : (waitOnPage operation).Fails context (.invalidStep text)) : FaultOnPage context text := by
  rw [Act.Fails, waitOnPage, Act.run_context_bind] at h
  cases hpage : context.page <;> rw [hpage] at h
  · cases h
  · exact ⟨by rw [hpage]; rfl, hanswers _ _ h⟩

theorem fault_wait (htype : step.type = .wait)
    (h : (wait.run step).Fails context (.invalidStep text)) : FaultOnPage context text := by
  change (runWait step).Fails context _ at h
  obtain ⟨name, options, instruction⟩ := step
  cases instruction with
  | wait target =>
    rw [runWait] at h
    dsimp only at h
    split at h
    · exact absurd h (Act.not_fails_pure _)
    · exact absurd h.of_map (Act.not_fails_sleep _)
    · exact fault_waitOnPage (fun _ _ => .waitForSelector) h.of_map
    · exact fault_waitOnPage (fun _ _ => .waitForXPath) h.of_map
  | _ => cases htype

theorem fault_parameterValue {selector value : Option String} {readFromText isExpression : Bool}
    (h : (parameterValue step selector value readFromText isExpression : Act B Json).Fails context
      (.invalidStep text)) :
    (selector = none ∧ value = none ∧ text = step.unfilledText) ∨ FaultOnPage context text := by
  unfold parameterValue at h
  split at h
  · next selector _ =>
    rcases h.of_bind with h | ⟨page, hpage, h⟩
    · cases h.page
    · refine .inr ⟨by rw [Act.page_eq_of_ok hpage]; rfl, ?_⟩
      have h := h.of_map
      cases readFromText with
      | true => exact .readText h
      | false => exact .readValue h
  · split at h
    · exact absurd h.of_map not_fails_evaluated
    · exact absurd h (Act.not_fails_pure _)
  · exact .inl ⟨rfl, rfl, (ActionError.invalidStep.inj h.throw_eq).symm⟩

theorem fault_putParam (htype : step.type = .putParam)
    (h : (putParam.run step).Fails context (.invalidStep text)) :
    (step.IsUnfilled ∧ text = step.unfilledText) ∨ FaultOnPage context text := by
  change (runPutParam step).Fails context _ at h
  obtain ⟨name, options, instruction⟩ := step
  cases instruction with
  | putParam key selector value readFromText isExpression =>
    rcases h.of_bind with h | ⟨_, -, h⟩
    · rcases fault_parameterValue h with ⟨rfl, rfl, htext⟩ | hpage
      · exact .inl ⟨⟨key, readFromText, isExpression, rfl⟩, htext⟩
      · exact .inr hpage
    · exact absurd h.of_update (Act.not_fails_pure _)
  | _ => cases htype

/-- What the control actions find fault with. -/
theorem fault_control {action : Action B}
    (haction : action = .wait ∨ action = .putParam ∨ action = .guard .ifGuard ∨
      action = .guard .whileGuard)
    (htype : step.type = action.type) (h : (action.run step).Fails context (.invalidStep text)) :
    (step.IsUnfilled ∧ text = step.unfilledText) ∨ FaultOnPage context text := by
  rcases haction with rfl | rfl | rfl | rfl
  · exact .inr (fault_wait htype h)
  · exact fault_putParam htype h
  · exact absurd h (not_fault_guard (.inl rfl) htype)
  · exact absurd h (not_fault_guard (.inr rfl) htype)

theorem fault_openBrowser (h : (openBrowser.run step).Fails context (.invalidStep text)) :
    B.Answers (.invalidStep text) := by
  change (runOpenBrowser step).Fails context _ at h
  rcases h.of_bind with h | ⟨_, -, h⟩
  · exact .launch h
  rcases h.of_bind with h | ⟨_, -, h⟩
  · cases h
  have h := h.of_update
  -- only a browser that is replaced is closed
  dsimp only at h
  split at h
  · exact .close h.of_update.of_map
  · exact absurd h (Act.not_fails_pure _)

theorem fault_closeBrowser (h : (closeBrowser.run step).Fails context (.invalidStep text)) :
    B.Answers (.invalidStep text) := by
  change (runCloseBrowser step).Fails context _ at h
  rcases h.of_bind with h | ⟨_, -, h⟩
  · cases h.browser
  exact .close h.of_update.of_map

theorem fault_openPage (htype : step.type = .openPage)
    (h : (openPage.run step).Fails context (.invalidStep text)) : B.Answers (.invalidStep text) := by
  change (runOpenPage step).Fails context _ at h
  obtain ⟨name, options, instruction⟩ := step
  cases instruction with
  | openPage url =>
    rcases h.of_bind with h | ⟨_, -, h⟩
    · cases h.browser
    rcases h.of_bind with h | ⟨_, -, h⟩
    · exact .newPage h
    rcases h.of_bind with h | ⟨_, -, h⟩
    · exact .goto h
    exact absurd h.of_update (Act.not_fails_pure _)
  | _ => cases htype

theorem fault_inputText (htype : step.type = .inputText)
    (h : (inputText.run step).Fails context (.invalidStep text)) : B.Answers (.invalidStep text) := by
  change (runInputText step).Fails context _ at h
  obtain ⟨name, options, instruction⟩ := step
  cases instruction with
  | inputText selector content append =>
    rcases h.of_bind with h | ⟨_, -, h⟩
    · cases h.page
    have h := h.of_map
    cases append with
    | true => exact .typeText h
    | false => exact .setValue h
  | _ => cases htype

/-- What the built-in actions find fault with. -/
theorem fault_of_mem_builtins {action : Action B} (haction : action ∈ Registry.builtins)
    (htype : step.type = action.type) (h : (action.run step).Fails context (.invalidStep text)) :
    (step.IsUnfilled ∧ text = step.unfilledText) ∨ B.Answers (.invalidStep text) := by
  have hcontrol : (action = .wait ∨ action = .putParam ∨ action = .guard .ifGuard ∨
      action = .guard .whileGuard) →
      (step.IsUnfilled ∧ text = step.unfilledText) ∨ B.Answers (.invalidStep text) :=
    fun hcontrol => (fault_control hcontrol htype h).imp_right And.right
  refine Registry.forall_mem_builtins (motive := fun other => action = other → _) ?_ ?_ ?_ ?_ ?_
    ?_ ?_ ?_ action haction rfl
  · rintro rfl
    exact .inr (fault_openBrowser h)
  · exact fun heq => hcontrol (.inl heq)
  · rintro rfl
    exact .inr (fault_openPage htype h)
  · exact fun heq => hcontrol (.inr (.inl heq))
  · exact fun heq => hcontrol (.inr (.inr (.inl heq)))
  · exact fun heq => hcontrol (.inr (.inr (.inr heq)))
  · rintro rfl
    exact .inr (fault_inputText htype h)
  · rintro rfl
    exact .inr (fault_closeBrowser h)

end Action

/-! ## Dispatches -/

theorem mapOptional_eq_none_iff {ε : Type} {f : α → Except ε α} {value value' : Option α}
    (h : mapOptional f value = .ok value') : value' = none ↔ value = none := by
  cases value with
  | none =>
    cases h
    rfl
  | some value =>
    obtain ⟨_, -, ⟨⟩⟩ := exists_of_bind_eq_ok h
    simp

/-- Expanding a step does not fill it. -/
theorem Step.isUnfilled_expand {params : Parameters} {policy : MissingPolicy} {step expanded : Step}
    (h : step.expand params policy = .ok expanded) : expanded.IsUnfilled ↔ step.IsUnfilled := by
  have htype := Step.type_expand h
  obtain ⟨instruction, hinstruction, h⟩ := exists_of_bind_eq_ok h
  obtain ⟨name, -, h⟩ := exists_of_bind_eq_ok h
  obtain ⟨options, -, ⟨⟩⟩ := exists_of_bind_eq_ok h
  obtain ⟨name', options', instruction'⟩ := step
  cases instruction' with
  | putParam key selector value readFromText isExpression =>
    obtain ⟨key', -, h⟩ := exists_of_bind_eq_ok hinstruction
    obtain ⟨selector', hselector, h⟩ := exists_of_bind_eq_ok h
    obtain ⟨value', hvalue, ⟨⟩⟩ := exists_of_bind_eq_ok h
    have hselector := mapOptional_eq_none_iff hselector
    have hvalue := mapOptional_eq_none_iff hvalue
    constructor
    · rintro ⟨_, _, _, ⟨⟩⟩
      cases hselector.1 rfl
      cases hvalue.1 rfl
      exact ⟨_, _, _, rfl⟩
    · rintro ⟨_, _, _, ⟨⟩⟩
      cases hselector.2 rfl
      cases hvalue.2 rfl
      exact ⟨_, _, _, rfl⟩
  | _ =>
    refine iff_of_false ?_ ?_
    · rintro ⟨_, _, _, rfl⟩
      cases htype
    · rintro ⟨_, _, _, ⟨⟩⟩

/-- What is wrong with the steps of a script, if a registry of built-in actions carries them out. -/
theorem fault_carryOut {registry : Registry B} {step : Step} {context : Context B} {text : String}
    (hregistry : registry.DecidesByType) (hresolve : (registry.resolve step).isSome)
    (h : (carryOut registry step).Fails context (.invalidStep text)) :
    ∃ action expanded, registry.resolve expanded = some action ∧
      step.expand context.params context.policy = .ok expanded ∧
      (action.run expanded).Fails context (.invalidStep text) := by
  rw [Act.Fails] at h
  cases hexpand : step.expand context.params context.policy with
  | error cause =>
    rw [carryOut_of_error hexpand] at h
    cases h
  | ok expanded =>
    rw [← hregistry.resolve_expand hexpand] at hresolve
    obtain ⟨action, haction⟩ := Option.isSome_iff_exists.1 hresolve
    rw [carryOut_of_ok hexpand, perform, haction] at h
    exact ⟨action, expanded, haction, rfl, h⟩

theorem fails_unfilled {registry : Registry B} {step expanded : Step} {context : Context B}
    (hregistry : registry = .control ∨ registry = .standard) (hunfilled : step.IsUnfilled)
    (hexpand : step.expand context.params context.policy = .ok expanded) :
    (carryOut registry step).Fails context (.invalidStep expanded.unfilledText) := by
  rw [Act.Fails, carryOut_of_ok hexpand]
  obtain ⟨key, readFromText, isExpression, hinstruction⟩ := (Step.isUnfilled_expand hexpand).2 hunfilled
  obtain ⟨name, options, instruction⟩ := expanded
  obtain rfl : instruction = _ := hinstruction
  rcases hregistry with rfl | rfl <;> rfl

/-! ## Runs -/

def Context.IsPageless (context : Context B) : Prop := context.page = none

namespace Run

variable {run : Run B} {cancelled : Bool} {world : B.World} {turn : Nat}

/-- What holds at the start of a run, and behind each dispatch and each cancellation, holds
throughout. -/
theorem Reaches.invariant {P : Context B → Prop}
    (hstart : P (.fresh run.settings.policy cancelled world))
    (htrip : ∀ step context, P context → P (afterTrip run.setup step context))
    (hcancel : ∀ context, P context → P { context with cancelled := true })
    {state : Collect.State B} {next : Machine.Next B}
    (h : run.Reaches cancelled world turn state next) : P next.context := by
  induction h with
  | start =>
    rw [Run.start, Machine.start]
    split
    · exact hstart
    · split <;> exact hstart
  | @move state state' machine h hmoments ih =>
    have hmoves := Machine.advance_moves run.setup machine
    generalize Machine.advance run.setup machine = move at hmoves
    cases hmoves with
    | silent _ _ hcontext => rwa [hcontext]
    | unsupported => exact ih
    | succeeds | fails => exact htrip _ _ ih
  | disturbed h ih => exact hcancel _ ih

theorem Reaches.isPageless (hregistry : run.registry = .control) (hinterceptors : run.interceptors = [])
    {state : Collect.State B} {next : Machine.Next B}
    (h : run.Reaches cancelled world turn state next) : next.context.IsPageless := by
  have hsetup : run.setup.IsPlain := ⟨hregistry, hinterceptors⟩
  refine h.invariant (P := Context.IsPageless) rfl (fun step context hcontext => ?_) fun _ h => h
  have hignores : Context.IgnoresPages (Context.IsPageless : Context B → Prop) :=
    Context.ignoresPages_of_world fun _ _ h => h
  obtain ⟨-, hstate⟩ := keeps_control hignores (fun _ _ h => h) step context hcontext
  rw [← hsetup.trip_eq] at hstate
  obtain ⟨cancelled, hafter⟩ := seePauses_after context (trip run.setup step context).state
    (trip run.setup step context).pauses
  rw [afterTrip, hafter]
  exact hstate

/-- Of the steps that a run sends on their way, only those are invalid that would store a parameter
and have neither a selector nor a value, unless the backend finds fault with a step. -/
def OnlyUnfilledIsInvalid (run : Run B) : Prop :=
  ∀ cancelled world turn state machine step,
    run.Reaches cancelled world turn state (.resume machine) → machine.due? = some step →
    (run.registry.resolve step).isSome →
    (∀ text, (trip run.setup step machine.context).value = .error (.invalidStep text) →
      (step.IsUnfilled ∧ ∃ expanded,
        step.expand machine.context.params machine.context.policy = .ok expanded ∧
          text = expanded.unfilledText) ∨
      (run.registry = .standard ∧ B.Answers (.invalidStep text))) ∧
    (step.IsUnfilled → ∀ expanded,
      step.expand machine.context.params machine.context.policy = .ok expanded →
        (trip run.setup step machine.context).value =
          .error (.invalidStep expanded.unfilledText))

theorem onlyUnfilledIsInvalid (hregistry : run.registry = .control ∨ run.registry = .standard)
    (hinterceptors : run.interceptors = []) : run.OnlyUnfilledIsInvalid := by
  intro cancelled world turn state machine step hreaches _ hresolve
  have htrip : trip run.setup step machine.context =
      (carryOut run.registry step).run.run machine.context := by
    change (intercepted _ run.interceptors step).run.run _ = _
    rw [hinterceptors]
    rfl
  have hdecides : run.registry.DecidesByType := by
    rcases hregistry with hregistry | hregistry <;> rw [hregistry]
    · exact Registry.decidesByType_control
    · exact Registry.decidesByType_standard
  rw [htrip]
  refine ⟨fun text hvalue => ?_, fun hunfilled expanded hexpand =>
    fails_unfilled hregistry hunfilled hexpand⟩
  obtain ⟨action, expanded, haction, hexpand, hfails⟩ := fault_carryOut hdecides hresolve hvalue
  have hsupports := List.find?_some haction
  have hmem := List.mem_of_find?_eq_some haction
  have hunfilled : expanded.IsUnfilled ∧ text = expanded.unfilledText →
      step.IsUnfilled ∧ ∃ expanded,
        step.expand machine.context.params machine.context.policy = .ok expanded ∧
          text = expanded.unfilledText :=
    fun ⟨hunfilled, htext⟩ => ⟨(Step.isUnfilled_expand hexpand).1 hunfilled, expanded, hexpand, htext⟩
  rcases hregistry with hregistry | hregistry
  · -- without a page the backend is not asked anything
    have hpage : machine.context.page = none := hreaches.isPageless hregistry hinterceptors
    rw [hregistry] at hmem
    have htype := Action.type_of_supports (Registry.mem_builtins_of_candidates_control hmem) hsupports
    have hcontrol := Registry.mem_of_candidates_ofList hmem
    simp only [List.mem_cons, List.not_mem_nil, or_false] at hcontrol
    rcases Action.fault_control hcontrol htype hfails with hfault | ⟨hsome, -⟩
    · exact .inl (hunfilled hfault)
    · rw [hpage] at hsome
      cases hsome
  · rw [hregistry] at hmem
    have hbuiltin : action ∈ Registry.builtins := Registry.mem_of_candidates_ofList hmem
    have htype := Action.type_of_supports hbuiltin hsupports
    exact (Action.fault_of_mem_builtins hbuiltin htype hfails).imp hunfilled fun h => ⟨hregistry, h⟩

/-- What comes out behind the interceptors is carried out by the action that was found in front of
them, so it does not matter for the run what happens to a step without an action there. With the
built-in actions alone, only steps that would store nothing are invalid. -/
theorem lookups_agree (run : Run B) (hregistry : run.registry.DecidesByType)
    (hinterceptors : ∀ interceptor ∈ run.interceptors, interceptor.KeepsType) :
    (∀ step action, run.registry.resolve step = some action →
      (∀ (sent expanded : Step) params policy, sent.type = step.type →
        sent.expand params policy = .ok expanded → run.registry.resolve expanded = some action) ∧
      intercepted (carryOut run.registry) run.interceptors step =
        intercepted (carryOutWith action) run.interceptors step) ∧
    (∀ otherwise : Step → Act B ActionResult,
      (∀ state, Machine.advance (run.withStandIn otherwise).setup state =
        Machine.advance run.setup state) ∧
      ∀ fuel cancelled world turn, (run.withStandIn otherwise).collect fuel cancelled world turn =
        run.collect fuel cancelled world turn) ∧
    (Registry.control : Registry B).DecidesByType ∧ (Registry.standard : Registry B).DecidesByType ∧
    (run.registry = .control ∨ run.registry = .standard → run.interceptors = [] →
      run.OnlyUnfilledIsInvalid) := by
  refine ⟨fun step action hresolve => ⟨?_, intercepted_carryOut hregistry hinterceptors hresolve⟩,
    fun otherwise => ⟨advance_withStandIn hregistry hinterceptors otherwise,
      collect_withStandIn hregistry hinterceptors otherwise⟩,
    Registry.decidesByType_control, Registry.decidesByType_standard, onlyUnfilledIsInvalid⟩
  intro sent expanded params policy htype hexpand
  exact resolve_sent hregistry hresolve htype hexpand

/-- A step that would store nothing. -/
def unfilledStep : Step := ⟨"put", none, .putParam "${key}" none none false false⟩

/-- A run that stores nothing and would then wait. -/
def unfilled (interceptors : List (Interceptor Rehearsal.backend)) : Run Rehearsal.backend where
  script := ⟨"unfilled", [unfilledStep, .waitMillis "${pause}" 5]⟩
  registry := .control
  interceptors

theorem expand_unfilledStep :
    unfilledStep.expand .empty .lenient = .ok ⟨"put", none, .putParam "" none none false false⟩ := by
  have hkey : expandText .empty .lenient "$\x7bkey\x7d" = .ok "" := by decide +kernel
  have hname : expandText .empty .lenient "put" = .ok "put" := by decide +kernel
  simp only [unfilledStep, Step.expand, Step.mapTexts, Instruction.mapTexts, hkey, hname]
  rfl

theorem lookups_agree_unfilled :
    (unfilled [.passThrough]).registry.DecidesByType ∧
      (∀ interceptor ∈ (unfilled [.passThrough]).interceptors, interceptor.KeepsType) ∧
      intercepted (carryOut (unfilled [.passThrough]).registry) (unfilled [.passThrough]).interceptors
          unfilledStep =
        intercepted (carryOutWith .putParam) (unfilled [.passThrough]).interceptors unfilledStep ∧
      ∃ state machine, (unfilled []).Reaches false {} turnLength state (.resume machine) ∧
        machine.due? = some unfilledStep ∧
        (trip (unfilled []).setup unfilledStep machine.context).value =
          .error (.invalidStep "PutParam 'put' has neither a selector nor a value") := by
  have hinterceptors : ∀ interceptor ∈ (unfilled [.passThrough]).interceptors,
      interceptor.KeepsType := List.forall_mem_singleton.2 Interceptor.keepsType_passThrough
  refine ⟨Registry.decidesByType_control, hinterceptors, ?_, ?_⟩
  · have hresolve : (unfilled [.passThrough]).registry.resolve unfilledStep = some .putParam := rfl
    exact ((lookups_agree _ Registry.decidesByType_control hinterceptors).1 _ _ hresolve).2
  · obtain ⟨-, -, -, -, honly⟩ :=
      lookups_agree (unfilled []) Registry.decidesByType_control (List.forall_mem_nil _)
    have hstart : (unfilled []).Reaches false {} turnLength (beginning turnLength)
        (.resume ⟨[.visit [.sequential unfilledStep, .sequential (.waitMillis "${pause}" 5)]],
          .fresh .lenient false {}⟩) := .start
    have hinvalid := honly (.inl rfl) rfl _ _ _ _ _ _ hstart rfl rfl
    exact ⟨_, _, hstart, rfl, hinvalid.2 ⟨_, _, _, rfl⟩ _ expand_unfilledStep⟩

/-- A backend that finds fault with every step that opens a browser. -/
def refusing : Backend :=
  { Rehearsal.backend with launch := fun _ world => ⟨[], .error (.invalidStep "launch"), world⟩ }

def openStep : Step := ⟨"open", none, .openBrowser⟩

def unopened : Run refusing where
  script := ⟨"unopened", [openStep]⟩
  registry := .standard

theorem trip_unopened :
    (trip unopened.setup openStep (.fresh .lenient false {})).value =
      .error (.invalidStep "launch") := by
  have hexpand : openStep.expand .empty .lenient = .ok openStep := by
    have hname : expandText .empty .lenient "open" = .ok "open" := by decide +kernel
    simp only [openStep, Step.expand, Step.mapTexts, Instruction.mapTexts, hname]
    rfl
  change ((carryOut .standard openStep).run.run _).value = _
  rw [carryOut_of_ok hexpand]
  rfl

/-- A run with an interceptor that reports what the second lookup would report. -/
def meddled : Run Rehearsal.backend where
  script := ⟨"meddled", [⟨"a", none, .wait none⟩]⟩
  registry := .control
  interceptors := [Rehearsal.Layer.interceptor
    { kind := .fail (.invalidStep "no action supports step 'a' (Wait)") }]

/-- A backend may find fault with a step that is not unfilled, and an interceptor may report that no
action supports a step, although there is one. -/
theorem invalid_elsewhere :
    (unopened.registry = .standard ∧ unopened.interceptors = [] ∧
      ∃ state machine step, unopened.Reaches false {} turnLength state (.resume machine) ∧
        machine.due? = some step ∧ ¬ step.IsUnfilled ∧
        (trip unopened.setup step machine.context).value = .error (.invalidStep "launch")) ∧
    (meddled.registry.DecidesByType ∧ (∀ interceptor ∈ meddled.interceptors, interceptor.KeepsType) ∧
      ∃ outcome, meddled.collect 1 false {} = some outcome ∧ outcome.error =
        some (.actionExecution "a" "invalid step: no action supports step 'a' (Wait)")) := by
  refine ⟨⟨rfl, rfl, _, _, openStep, .start, rfl, ?_, trip_unopened⟩,
    Registry.decidesByType_control, ?_, ?_⟩
  · rintro ⟨_, _, _, ⟨⟩⟩
  · refine List.forall_mem_singleton.2 fun step next next' _ => ?_
    rfl
  · exact ⟨_, rfl, rfl⟩

end Run

end StepScript
