import StepScript.Action.Builtin
import StepScript.Proofs.Action.Registration
import StepScript.Proofs.Run.Trace

/-!
# What actions keep

Properties of contexts that an activity does not lose, not even while it sleeps. The built-in
actions do not cancel the run that they belong to.
-/

namespace StepScript

variable {B : Backend} {α β : Type}

namespace Act

/-- An activity that begins in a context with a property sleeps and ends in such contexts. -/
def Keeps (P : Context B → Prop) (act : Act B α) : Prop :=
  ∀ context, P context →
    (∀ pause ∈ (act.run.run context).pauses, P pause.state) ∧ P (act.run.run context).state

variable {P : Context B → Prop}

theorem Keeps.pure (value : α) : Keeps P (Pure.pure value : Act B α) :=
  fun _ h => ⟨List.forall_mem_nil _, h⟩

theorem Keeps.throw (cause : ActionError) : Keeps P (throw cause : Act B α) :=
  fun _ h => ⟨List.forall_mem_nil _, h⟩

theorem Keeps.bind {act : Act B α} {next : α → Act B β} (h : Keeps P act)
    (hnext : ∀ value, Keeps P (next value)) : Keeps P (act >>= next) := by
  intro context hcontext
  obtain ⟨hpauses, hstate⟩ := h context hcontext
  -- behind the transformer for errors there is one activity that goes on with a value or a cause
  change (∀ pause ∈ (Activity.bind act (ExceptT.bindCont next) context).pauses, P pause.state) ∧
    P (Activity.bind act (ExceptT.bindCont next) context).state
  cases hvalue : (act context).value with
  | ok value =>
    obtain ⟨hlater, hend⟩ := hnext value _ hstate
    simp only [Activity.bind, hvalue, ExceptT.bindCont]
    refine ⟨fun pause hpause => ?_, hend⟩
    rcases List.mem_append.1 hpause with hpause | hpause
    · exact hpauses pause hpause
    · exact hlater pause hpause
  | error cause =>
    simp only [Activity.bind, hvalue, ExceptT.bindCont]
    refine ⟨fun pause hpause => ?_, hstate⟩
    rcases List.mem_append.1 hpause with hpause | hpause
    · exact hpauses pause hpause
    · cases hpause

theorem Keeps.context : Keeps P (Act.context : Act B (Context B)) :=
  fun _ h => ⟨List.forall_mem_nil _, h⟩

theorem Keeps.update {f : Context B → Context B} (h : ∀ context, P context → P (f context)) :
    Keeps P (Act.update f) :=
  fun context hcontext => ⟨List.forall_mem_nil _, h context hcontext⟩

theorem Keeps.sleep (millis : Nat) : Keeps P (Act.sleep millis : Act B Unit) := by
  intro context h
  refine ⟨fun pause hpause => ?_, h⟩
  obtain rfl := List.mem_singleton.1 hpause
  exact h

/-- An operation of the backend keeps what does not depend on its world. -/
theorem Keeps.onWorld (h : ∀ context world, P context → P { context with world })
    (operation : Activity B.World (Except ActionError α)) : Keeps P (Act.onWorld operation) := by
  intro context hcontext
  refine ⟨fun pause hpause => ?_, h context _ hcontext⟩
  obtain ⟨inner, -, rfl⟩ := List.mem_map.1 hpause
  exact h context _ hcontext

theorem Keeps.browser : Keeps P (Act.browser : Act B B.Browser) := by
  refine .bind .context fun context => ?_
  cases context.browser with
  | none => exact .throw _
  | some browser => exact .pure browser

theorem Keeps.page : Keeps P (Act.page : Act B B.Page) := by
  refine .bind .context fun context => ?_
  cases context.page with
  | none => exact .throw _
  | some page => exact .pure page

end Act

/-! ## Values -/

namespace Act

/-- An activity that begins in a context with the property `P` sleeps and fails in contexts with the
property `I`. When it has a value, the value and the context are as `Q` says. -/
def Ensures (I P : Context B → Prop) (act : Act B α) (Q : α → Context B → Prop) : Prop :=
  ∀ context, P context →
    (∀ pause ∈ (act.run.run context).pauses, I pause.state) ∧
      match (act.run.run context).value with
      | .ok value => Q value (act.run.run context).state
      | .error _ => I (act.run.run context).state

variable {I P : Context B → Prop}

theorem Ensures.pure {value : α} {Q : α → Context B → Prop}
    (h : ∀ context, P context → Q value context) : Ensures I P (Pure.pure value : Act B α) Q :=
  fun context hcontext => ⟨List.forall_mem_nil _, h context hcontext⟩

theorem Ensures.throw {cause : ActionError} {Q : α → Context B → Prop} :
    Ensures P P (throw cause : Act B α) Q :=
  fun _ h => ⟨List.forall_mem_nil _, h⟩

theorem Ensures.bind {act : Act B α} {next : α → Act B β} {Q : α → Context B → Prop}
    {R : β → Context B → Prop} (h : Ensures I P act Q)
    (hnext : ∀ value, Ensures I (Q value) (next value) R) : Ensures I P (act >>= next) R := by
  intro context hcontext
  obtain ⟨hpauses, hend⟩ := h context hcontext
  change (∀ pause ∈ (Activity.bind act (ExceptT.bindCont next) context).pauses, I pause.state) ∧
    match (Activity.bind act (ExceptT.bindCont next) context).value with
    | .ok value => R value (Activity.bind act (ExceptT.bindCont next) context).state
    | .error _ => I (Activity.bind act (ExceptT.bindCont next) context).state
  change match (act context).value with
    | .ok value => Q value (act context).state
    | .error _ => I (act context).state at hend
  cases hvalue : (act context).value with
  | ok value =>
    rw [hvalue] at hend
    obtain ⟨hlater, hvalues⟩ := hnext value _ hend
    simp only [Activity.bind, hvalue, ExceptT.bindCont]
    refine ⟨fun pause hpause => ?_, hvalues⟩
    rcases List.mem_append.1 hpause with hpause | hpause
    · exact hpauses pause hpause
    · exact hlater pause hpause
  | error cause =>
    rw [hvalue] at hend
    simp only [Activity.bind, hvalue, ExceptT.bindCont]
    refine ⟨fun pause hpause => ?_, hend⟩
    rcases List.mem_append.1 hpause with hpause | hpause
    · exact hpauses pause hpause
    · cases hpause

theorem Ensures.update {f : Context B → Context B} {Q : Unit → Context B → Prop}
    (h : ∀ context, P context → Q () (f context)) : Ensures I P (Act.update f) Q :=
  fun context hcontext => ⟨List.forall_mem_nil _, h context hcontext⟩

/-- The value is the context itself. -/
theorem Ensures.context : Ensures I P (Act.context : Act B (Context B)) fun value context =>
    P context ∧ value = context :=
  fun _ h => ⟨List.forall_mem_nil _, h, rfl⟩

theorem Ensures.weaken {P' : Context B → Prop} {act : Act B α} {Q : α → Context B → Prop}
    (h : Ensures I P act Q) (hP : ∀ context, P' context → P context) : Ensures I P' act Q :=
  fun context hcontext => h context (hP context hcontext)

/-- The value is the browser that is open. -/
theorem Ensures.browser (h : ∀ context, P context → I context) :
    Ensures I P (Act.browser : Act B B.Browser) fun browser context =>
      P context ∧ context.browser = some browser := by
  refine .bind .context fun context => ?_
  cases hbrowser : context.browser with
  | none => exact Ensures.throw.weaken fun _ hcontext => h _ hcontext.1
  | some browser =>
    refine .pure fun current hcurrent => ⟨hcurrent.1, ?_⟩
    rw [← hcurrent.2, hbrowser]

/-- Whatever is kept holds of all values. -/
theorem Keeps.ensures {act : Act B α} (h : Keeps P act) : Ensures P P act fun _ => P := by
  intro context hcontext
  obtain ⟨hpauses, hstate⟩ := h context hcontext
  refine ⟨hpauses, ?_⟩
  split <;> exact hstate

theorem Ensures.keeps {act : Act B α} {Q : α → Context B → Prop} (h : Ensures P P act Q)
    (hvalues : ∀ value context, Q value context → P context) : Keeps P act := by
  intro context hcontext
  obtain ⟨hpauses, hend⟩ := h context hcontext
  refine ⟨hpauses, ?_⟩
  split at hend
  · exact hvalues _ _ hend
  · exact hend

end Act

/-! ## Built-in actions -/

/-- A property of contexts that says nothing of the browser, its page and the world. -/
structure Context.IgnoresBrowser (P : Context B → Prop) : Prop where
  world : ∀ context world, P context → P { context with world }
  browser : ∀ context browser, P context → P { context with browser }
  page : ∀ context page, P context → P { context with page }

/-- The run that a context belongs to is not cancelled. -/
def Context.IsRunning (context : Context B) : Prop := context.cancelled = false

theorem Context.ignoresBrowser_isRunning :
    Context.IgnoresBrowser (Context.IsRunning : Context B → Prop) :=
  ⟨fun _ _ h => h, fun _ _ h => h, fun _ _ h => h⟩

/-- A property of contexts that no operation on an open page takes away. -/
structure Context.IgnoresPages (P : Context B → Prop) : Prop where
  typeText : ∀ page selector text, Act.Keeps P (Act.onWorld (B.typeText page selector text))
  setValue : ∀ page selector text, Act.Keeps P (Act.onWorld (B.setValue page selector text))
  readText : ∀ page selector, Act.Keeps P (Act.onWorld (B.readText page selector))
  readValue : ∀ page selector, Act.Keeps P (Act.onWorld (B.readValue page selector))
  waitForSelector : ∀ page text, Act.Keeps P (Act.onWorld (B.waitForSelector page text))
  waitForXPath : ∀ page text, Act.Keeps P (Act.onWorld (B.waitForXPath page text))

theorem Context.ignoresPages_of_world {P : Context B → Prop}
    (h : ∀ context world, P context → P { context with world }) : Context.IgnoresPages P :=
  ⟨fun _ _ _ => .onWorld h _, fun _ _ _ => .onWorld h _, fun _ _ => .onWorld h _,
    fun _ _ => .onWorld h _, fun _ _ => .onWorld h _, fun _ _ => .onWorld h _⟩

theorem Context.IgnoresBrowser.pages {P : Context B → Prop} (h : Context.IgnoresBrowser P) :
    Context.IgnoresPages P :=
  Context.ignoresPages_of_world h.world

namespace Action

/-- An action that keeps a property of contexts and reports the step that it was given as a
success, if it does not fail. -/
def Carries (P : Context B → Prop) (action : Action B) : Prop :=
  ∀ step, Act.Ensures P P (action.run step) fun result context =>
    P context ∧ result.success = true ∧ result.step = step

def IsQuiet (action : Action B) : Prop := ∀ step, Act.Keeps Context.IsRunning (action.run step)

theorem Carries.isQuiet {action : Action B} (h : action.Carries Context.IsRunning) :
    action.IsQuiet :=
  fun step => (h step).keeps fun _ _ hend => hend.1

section

variable {P : Context B → Prop}

theorem keeps_evaluated (value : Except ExpressionError α) :
    Act.Keeps P (evaluated value : Act B α) := by
  cases value with
  | ok value => exact .pure value
  | error cause => exact .throw _

theorem carries_guard (type : StepType) : (guard type : Action B).Carries P := by
  intro step
  change Act.Ensures _ _ (runGuard step) _
  rw [runGuard]
  split
  · exact .throw
  · exact .bind (keeps_evaluated _).ensures fun _ => .pure fun _ h => ⟨h, rfl, rfl⟩

theorem keeps_waitOnPage {operation : B.Page → Activity B.World (Except ActionError Unit)}
    (h : ∀ page, Act.Keeps P (Act.onWorld (operation page))) :
    Act.Keeps P (waitOnPage operation) := by
  refine .bind .context fun context => ?_
  cases context.page with
  | none => exact .pure _
  | some page => exact h page

section

variable (hP : Context.IgnoresPages P)

include hP

theorem keeps_parameterValue (step : Step) (selector value : Option String)
    (readFromText isExpression : Bool) :
    Act.Keeps P (parameterValue step selector value readFromText isExpression : Act B Json) := by
  unfold parameterValue
  split
  · next selector =>
    refine .bind .page fun page => .bind ?_ fun _ => .pure _
    cases readFromText with
    | true => exact hP.readText page selector
    | false => exact hP.readValue page selector
  · split
    · exact .bind (keeps_evaluated _) fun _ => .pure _
    · exact .pure _
  · exact .throw _

theorem keeps_putParam (hparams : ∀ context params, P context → P { context with params })
    (step : Step) : Act.Keeps P ((putParam : Action B).run step) := by
  change Act.Keeps _ (runPutParam step)
  rw [runPutParam]
  split
  · exact .bind (keeps_parameterValue hP _ _ _ _ _) fun _ =>
      .bind (.update fun context h => hparams context _ h) fun _ => .pure _
  · exact .throw _

theorem carries_wait : (wait : Action B).Carries P := by
  intro step
  change Act.Ensures _ _ (runWait step) _
  have hdone : ∀ act : Act B Unit, Act.Keeps P act → Act.Ensures P P
      (act >>= fun _ => Pure.pure (ActionResult.succeeded step)) fun result context =>
        P context ∧ result.success = true ∧ result.step = step :=
    fun act hact => .bind hact.ensures fun _ => .pure fun _ h => ⟨h, rfl, rfl⟩
  rw [runWait]
  split
  · split
    · exact hdone (Pure.pure ()) (.pure ())
    · exact hdone _ (.bind .context fun _ => .sleep _)
    · exact hdone _ (keeps_waitOnPage fun page => hP.waitForSelector page _)
    · exact hdone _ (keeps_waitOnPage fun page => hP.waitForXPath page _)
  · exact .throw

theorem carries_inputText : (inputText : Action B).Carries P := by
  intro step
  change Act.Ensures _ _ (runInputText step) _
  rw [runInputText]
  split
  · next selector text append _ =>
    have hoperation : ∀ page, Act.Keeps P (Act.onWorld
        (if append then B.typeText page selector text else B.setValue page selector text)) := by
      intro page
      cases append with
      | true => exact hP.typeText page selector text
      | false => exact hP.setValue page selector text
    exact .bind Act.Keeps.page.ensures fun page => .bind (hoperation page).ensures fun _ =>
      .pure fun _ h => ⟨h, rfl, rfl⟩
  · exact .throw

end

section

variable (hP : Context.IgnoresBrowser P)

include hP

theorem keeps_onWorld (operation : Activity B.World (Except ActionError α)) :
    Act.Keeps P (Act.onWorld operation) :=
  .onWorld hP.world operation

theorem carries_openBrowser : (openBrowser : Action B).Carries P := by
  intro step
  change Act.Ensures _ _ (runOpenBrowser step) _
  rw [runOpenBrowser]
  refine .bind (keeps_onWorld hP _).ensures fun browser => .bind Act.Keeps.context.ensures
    fun context => .bind (Act.Keeps.update fun _ h => hP.browser _ _ h).ensures fun _ => ?_
  split
  · exact .bind (Act.Keeps.update fun _ h => hP.page _ _ h).ensures fun _ =>
      .bind (keeps_onWorld hP _).ensures fun _ => .pure fun _ h => ⟨h, rfl, rfl⟩
  · exact .pure fun _ h => ⟨h, rfl, rfl⟩

theorem carries_closeBrowser : (closeBrowser : Action B).Carries P :=
  fun _ => .bind Act.Keeps.browser.ensures fun _ =>
    .bind (Act.Keeps.update fun context h =>
      hP.page _ none (hP.browser context none h)).ensures fun _ =>
      .bind (keeps_onWorld hP _).ensures fun _ => .pure fun _ h => ⟨h, rfl, rfl⟩

theorem carries_openPage : (openPage : Action B).Carries P := by
  intro step
  change Act.Ensures _ _ (runOpenPage step) _
  rw [runOpenPage]
  split
  · exact .bind Act.Keeps.browser.ensures fun _ => .bind (keeps_onWorld hP _).ensures fun _ =>
      .bind (keeps_onWorld hP _).ensures fun _ =>
        .bind (Act.Keeps.update fun _ h => hP.page _ _ h).ensures fun _ =>
          .pure fun _ h => ⟨h, rfl, rfl⟩
  · exact .throw

end

end

end Action

/-! ## Registries -/

namespace Registry

/-- A registry holds only what was registered. -/
theorem mem_of_candidates_ofList {actions : List (Action B)} {action : Action B} {type : StepType}
    (h : action ∈ (ofList actions).candidates type) : action ∈ actions := by
  rw [candidates_ofList] at h
  exact (List.mem_filter.1 h).1

theorem mem_of_resolve {actions : List (Action B)} {action : Action B} {step : Step}
    (h : (ofList actions).resolve step = some action) : action ∈ actions :=
  mem_of_candidates_ofList (List.mem_of_find?_eq_some h)

def builtins : List (Action B) :=
  [.openBrowser, .wait, .openPage, .putParam, .guard .ifGuard, .guard .whileGuard, .inputText,
    .closeBrowser]

/-- What holds of each built-in action holds of all. -/
theorem forall_mem_builtins {motive : Action B → Prop} (openBrowser : motive .openBrowser)
    (wait : motive .wait) (openPage : motive .openPage) (putParam : motive .putParam)
    (ifGuard : motive (.guard .ifGuard)) (whileGuard : motive (.guard .whileGuard))
    (inputText : motive .inputText) (closeBrowser : motive .closeBrowser) :
    ∀ action ∈ builtins, motive action := by
  intro action h
  simp only [builtins, List.mem_cons, List.not_mem_nil, or_false] at h
  rcases h with rfl | rfl | rfl | rfl | rfl | rfl | rfl | rfl
  · exact openBrowser
  · exact wait
  · exact openPage
  · exact putParam
  · exact ifGuard
  · exact whileGuard
  · exact inputText
  · exact closeBrowser

theorem mem_builtins_of_standard {step : Step} {action : Action B}
    (h : standard.resolve step = some action) : action ∈ builtins :=
  mem_of_resolve h

theorem mem_builtins_of_candidates_control {type : StepType} {action : Action B}
    (h : action ∈ control.candidates type) : action ∈ builtins := by
  have hmem := mem_of_candidates_ofList h
  simp only [builtins, List.mem_cons, List.not_mem_nil, or_false] at hmem ⊢
  tauto

theorem mem_builtins_of_control {step : Step} {action : Action B}
    (h : control.resolve step = some action) : action ∈ builtins :=
  mem_builtins_of_candidates_control (List.mem_of_find?_eq_some h)

def IsQuiet (registry : Registry B) : Prop :=
  ∀ step action, registry.resolve step = some action → action.IsQuiet

theorem isQuiet_of_mem_builtins {action : Action B} (h : action ∈ builtins) : action.IsQuiet := by
  have hrunning : Context.IgnoresBrowser (Context.IsRunning : Context B → Prop) :=
    Context.ignoresBrowser_isRunning
  refine forall_mem_builtins ?_ ?_ ?_ ?_ ?_ ?_ ?_ ?_ action h
  · exact (Action.carries_openBrowser hrunning).isQuiet
  · exact (Action.carries_wait hrunning.pages).isQuiet
  · exact (Action.carries_openPage hrunning).isQuiet
  · exact Action.keeps_putParam hrunning.pages fun _ _ h => h
  · exact (Action.carries_guard _).isQuiet
  · exact (Action.carries_guard _).isQuiet
  · exact (Action.carries_inputText hrunning.pages).isQuiet
  · exact (Action.carries_closeBrowser hrunning).isQuiet

theorem isQuiet_standard : (standard : Registry B).IsQuiet :=
  fun _ _ h => isQuiet_of_mem_builtins (mem_builtins_of_standard h)

theorem isQuiet_control : (control : Registry B).IsQuiet :=
  fun _ _ h => isQuiet_of_mem_builtins (mem_builtins_of_control h)

end Registry

/-! ## Carrying out a step -/

/-- What the run does with an expanded step. -/
def perform (registry : Registry B) (expanded : Step) : Act B ActionResult :=
  match registry.resolve expanded with
  | some action => action.run expanded
  | none =>
    throw (.invalidStep
      ("no action supports step '" ++ expanded.name ++ "' (" ++ expanded.type.name ++ ")"))

theorem carryOut_run (registry : Registry B) (step : Step) (context : Context B) :
    (carryOut registry step).run.run context =
      (match step.expand context.params context.policy with
        | .error cause => throw (.template cause)
        | .ok expanded => perform registry expanded : Act B ActionResult).run.run context :=
  rfl

theorem carryOut_of_ok {registry : Registry B} {step expanded : Step} {context : Context B}
    (h : step.expand context.params context.policy = .ok expanded) :
    (carryOut registry step).run.run context = (perform registry expanded).run.run context := by
  rw [carryOut_run, h]

theorem carryOut_of_error {registry : Registry B} {step : Step} {context : Context B}
    {cause : TemplateError} (h : step.expand context.params context.policy = .error cause) :
    (carryOut registry step).run.run context = ⟨[], .error (.template cause), context⟩ := by
  rw [carryOut_run, h]
  rfl

/-! ## Dispatches -/

theorem keeps_carryOut {registry : Registry B} (h : registry.IsQuiet) (step : Step) :
    Act.Keeps Context.IsRunning (carryOut registry step) := by
  refine .bind .context fun context => ?_
  split
  · exact .throw _
  · next expanded _ =>
    split
    · next action haction => exact h expanded action haction expanded
    · exact .throw _

/-- An interceptor that cancels the run only if what it calls does. -/
def Interceptor.IsQuiet (interceptor : Interceptor B) : Prop :=
  ∀ next : Step → Act B ActionResult, (∀ step, Act.Keeps Context.IsRunning (next step)) →
    ∀ step, Act.Keeps Context.IsRunning (interceptor step next)

/-- Nobody who takes part in the dispatches of a run cancels it. -/
structure Setup.IsQuiet (setup : Setup B) : Prop where
  registry : setup.registry.IsQuiet
  interceptors : ∀ interceptor ∈ setup.interceptors, interceptor.IsQuiet

theorem Setup.isQuiet_standard (pollMillis : Nat) :
    Setup.IsQuiet (⟨.standard, [], pollMillis⟩ : Setup B) :=
  ⟨Registry.isQuiet_standard, List.forall_mem_nil _⟩

theorem Setup.isQuiet_control (pollMillis : Nat) :
    Setup.IsQuiet (⟨.control, [], pollMillis⟩ : Setup B) :=
  ⟨Registry.isQuiet_control, List.forall_mem_nil _⟩

theorem keeps_intercepted {innermost : Step → Act B ActionResult}
    (hinnermost : ∀ step, Act.Keeps Context.IsRunning (innermost step))
    {interceptors : List (Interceptor B)}
    (h : ∀ interceptor ∈ interceptors, interceptor.IsQuiet) (step : Step) :
    Act.Keeps Context.IsRunning (intercepted innermost interceptors step) := by
  induction interceptors generalizing step with
  | nil => exact hinnermost step
  | cons interceptor rest ih =>
    refine h interceptor (List.mem_cons_self ..) _ (fun step => ih ?_ step) step
    exact fun other hother => h other (List.mem_cons_of_mem _ hother)

theorem Context.IsRunning.stayCancelled {before after : Context B} (hbefore : before.IsRunning)
    (hafter : after.IsRunning) : (before.stayCancelled after).IsRunning := by
  simp only [Context.IsRunning] at hbefore hafter
  simp [Context.IsRunning, Context.stayCancelled, hbefore, hafter]

/-- Nothing that is seen of a dispatch without cancellations is cancelled. -/
theorem seePauses_isRunning {before last : Context B}
    {pauses : List (Activity.Pause (Context B))} (hbefore : before.IsRunning)
    (hpauses : ∀ pause ∈ pauses, pause.state.IsRunning) (hlast : last.IsRunning) :
    (∀ moment ∈ (seePauses before pauses last).1, moment.context.IsRunning) ∧
      (seePauses before pauses last).2.IsRunning := by
  induction pauses generalizing before with
  | nil => exact ⟨List.forall_mem_nil _, hbefore.stayCancelled hlast⟩
  | cons pause pauses ih =>
    have hduring : (before.stayCancelled pause.state).IsRunning :=
      hbefore.stayCancelled (hpauses pause (List.mem_cons_self ..))
    obtain ⟨hmoments, hafter⟩ :=
      ih hduring fun other hother => hpauses other (List.mem_cons_of_mem _ hother)
    refine ⟨fun moment hmoment => ?_, hafter⟩
    rcases List.mem_cons.1 hmoment with rfl | hmoment
    · exact hduring
    · exact hmoments moment hmoment

/-- A dispatch of a quiet setup leaves the run as it is, also while it sleeps. -/
theorem Setup.IsQuiet.dispatch {setup : Setup B} (h : setup.IsQuiet) (step : Step)
    {context : Context B} (hrunning : context.IsRunning) :
    (∀ moment ∈ (dispatch setup step context).moments, moment.context.IsRunning) ∧
      (dispatch setup step context).context.IsRunning := by
  obtain ⟨hpauses, hstate⟩ :=
    keeps_intercepted (keeps_carryOut h.registry) h.interceptors step context hrunning
  obtain ⟨hseen, hafter⟩ := seePauses_isRunning hrunning hpauses hstate
  rcases dispatch_cases setup step context with hnone | ⟨failures, hmoments, hcontext, -⟩
  · rw [hnone]
    exact ⟨List.forall_mem_nil _, hrunning⟩
  · rw [hmoments, hcontext]
    refine ⟨fun moment hmoment => ?_, hafter⟩
    rcases List.mem_cons.1 hmoment with rfl | hmoment
    · exact hrunning
    · rcases List.mem_append.1 hmoment with hmoment | hmoment
      · exact hseen moment hmoment
      · obtain ⟨result, -, rfl⟩ := List.mem_map.1 hmoment
        exact hafter

theorem Machine.afterDispatch_undisturbed {setup : Setup B} (h : setup.IsQuiet) (step : Step)
    {context : Context B} (hrunning : context.IsRunning)
    (frames : ActionResult → List Machine.Frame) (emits : Bool) :
    let move := Machine.afterDispatch setup step context
      (if emits then Machine.emitting frames else Machine.silent frames)
    Undisturbed (move.moments, move.next) := by
  obtain ⟨hmoments, hcontext⟩ := h.dispatch step hrunning
  dsimp only [Machine.afterDispatch]
  split
  · next result _ =>
    cases emits with
    | false => exact ⟨hmoments, hcontext⟩
    | true =>
      refine ⟨fun moment hmoment => ?_, hcontext⟩
      rcases List.mem_append.1 hmoment with hmoment | hmoment
      · exact hmoments moment hmoment
      · obtain rfl := List.mem_singleton.1 hmoment
        exact hcontext
  · exact ⟨hmoments, hcontext⟩

theorem Machine.context_pauseBetween {setup : Setup B} {context : Context B} {moment : Moment B}
    (h : moment ∈ Machine.pauseBetween setup context) : moment.context = context := by
  unfold Machine.pauseBetween at h
  split at h
  all_goals
    obtain rfl := List.mem_singleton.1 h
    rfl

/-- A move of a run with a quiet setup does not cancel it. -/
theorem Machine.proceed_undisturbed {setup : Setup B} (h : setup.IsQuiet) {next : Machine.Next B}
    (hrunning : next.context.IsRunning) : Undisturbed (Machine.proceed setup next) := by
  rcases next with ⟨frames, context⟩ | ⟨error, context⟩
  · have hcontext : context.cancelled = false := hrunning
    match frames with
    | [] => exact ⟨List.forall_mem_nil _, hrunning⟩
    | .visit [] :: rest => exact ⟨List.forall_mem_nil _, hrunning⟩
    | .visit (node :: nodes) :: rest =>
      simp only [Machine.proceed, Machine.advance, hcontext]
      cases node with
      | sequential step =>
        exact afterDispatch_undisturbed h step hrunning (fun _ => .visit nodes :: rest) true
      | conditional guard thenBranch elseBranch =>
        exact afterDispatch_undisturbed h guard hrunning (fun result =>
          .visit (if result.condition then thenBranch else elseBranch) :: .visit nodes :: rest) true
      | loop guard body => exact ⟨List.forall_mem_nil _, hrunning⟩
    | .check guard body :: rest =>
      exact afterDispatch_undisturbed h guard hrunning (fun result =>
        if result.condition then .visit body :: .rest guard body :: rest else rest) false
    | .rest guard body :: rest =>
      simp only [Machine.proceed, Machine.advance, hcontext]
      exact ⟨fun moment hmoment => context_pauseBetween hmoment ▸ hrunning, hrunning⟩
  · exact ⟨List.forall_mem_nil _, hrunning⟩

theorem Machine.trace_undisturbed {setup : Setup B} (h : setup.IsQuiet) {next : Machine.Next B}
    (hrunning : next.context.IsRunning) (n : Nat) :
    Undisturbed (trace (Machine.proceed setup) n next) := by
  induction n generalizing next with
  | zero => exact ⟨List.forall_mem_nil _, hrunning⟩
  | succ n ih =>
    obtain ⟨hmoments, hnext⟩ := proceed_undisturbed h hrunning
    obtain ⟨hlater, hend⟩ := ih hnext
    rw [trace_succ]
    refine ⟨fun moment hmoment => ?_, hend⟩
    rcases List.mem_append.1 hmoment with hmoment | hmoment
    · exact hmoments moment hmoment
    · exact hlater moment hmoment

/-- If neither actions nor interceptors cancel runs, a run is never cancelled. -/
theorem Run.neverCancelled_of_isQuiet {run : Run B} (h : run.setup.IsQuiet) (world : B.World) :
    run.NeverCancelled world := by
  refine Machine.trace_undisturbed h ?_
  simp only [Run.start, Machine.start]
  split
  · rfl
  · rfl

end StepScript
