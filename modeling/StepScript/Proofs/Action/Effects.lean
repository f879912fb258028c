import StepScript.Proofs.Action.Keeps
import StepScript.Proofs.Json.Values
import StepScript.Rehearsal.Browser

/-!
# What actions leave behind

A built-in action that fails leaves the context as it was, but for the world of the backend. Only
when a session cannot be closed is something lost: then the handles of that session are gone
already. An action that succeeds changes what its type says, and nothing else.
-/

namespace StepScript

variable {B : Backend} {α β : Type}

/-! ## Parameters -/

theorem Parameters.get?_set (params : Parameters) (key : String) (value : Json) (name : String) :
    (params.set key value).get? name = if key = name then some value else params.get? name :=
  Dictionary.get?_insert params.entries key value name

/-! ## The end of an activity -/

namespace Act

/-- An activity that begins in a context ends as `Q` says, if it has a value, and as `E` says, if it
has an error. -/
def Ends (act : Act B α) (context : Context B) (Q : α → Context B → Prop)
    (E : ActionError → Context B → Prop) : Prop :=
  match (act.run.run context).value with
  | .ok value => Q value (act.run.run context).state
  | .error cause => E cause (act.run.run context).state

variable {act : Act B α} {context : Context B} {Q : α → Context B → Prop}
  {E : ActionError → Context B → Prop}

theorem Ends.of_ok (h : act.Ends context Q E) {value : α}
    (hvalue : (act.run.run context).value = .ok value) : Q value (act.run.run context).state := by
  rw [Ends, hvalue] at h
  exact h

theorem Ends.of_error (h : act.Ends context Q E) {cause : ActionError}
    (hvalue : (act.run.run context).value = .error cause) :
    E cause (act.run.run context).state := by
  rw [Ends, hvalue] at h
  exact h

theorem Ends.pure {value : α} (h : Q value context) : (Pure.pure value : Act B α).Ends context Q E :=
  h

theorem Ends.throw {cause : ActionError} (h : E cause context) :
    (throw cause : Act B α).Ends context Q E :=
  h

theorem Ends.bind {next : α → Act B β} {R : β → Context B → Prop} (h : act.Ends context Q E)
    (hnext : ∀ value after, Q value after → (next value).Ends after R E) :
    (act >>= next).Ends context R E := by
  change match (Activity.bind act (ExceptT.bindCont next) context).value with
    | .ok value => R value (Activity.bind act (ExceptT.bindCont next) context).state
    | .error cause => E cause (Activity.bind act (ExceptT.bindCont next) context).state
  cases hvalue : (act context).value with
  | ok value =>
    have hlater := hnext value _ (h.of_ok hvalue)
    simp only [Activity.bind, hvalue, ExceptT.bindCont]
    exact hlater
  | error cause =>
    have hend := h.of_error hvalue
    simp only [Activity.bind, hvalue, ExceptT.bindCont]
    exact hend

theorem Ends.bind_update {f : Context B → Context B} {next : Unit → Act B α}
    (h : (next ()).Ends (f context) Q E) : (Act.update f >>= next).Ends context Q E :=
  h

theorem Ends.bind_context {next : Context B → Act B α} (h : (next context).Ends context Q E) :
    (Act.context >>= next).Ends context Q E :=
  h

/-- There is a browser to go on with, or its lack is the error. -/
theorem Ends.browser (hnone : context.browser = none → E (.missingResource "browser") context) :
    (Act.browser : Act B B.Browser).Ends context
      (fun browser after => context.browser = some browser ∧ context = after) E := by
  refine .bind_context ?_
  cases hbrowser : context.browser with
  | none => exact .throw (hnone hbrowser)
  | some browser => exact .pure ⟨rfl, rfl⟩

/-- An operation of the backend sees the world only, and changes nothing else. -/
theorem Ends.onWorld {operation : Activity B.World (Except ActionError α)}
    (hok : ∀ value, (operation context.world).value = .ok value →
      Q value { context with world := (operation context.world).state })
    (herror : ∀ cause, (operation context.world).value = .error cause →
      E cause { context with world := (operation context.world).state }) :
    (Act.onWorld operation).Ends context Q E := by
  change match (operation context.world).value with
    | .ok value => Q value { context with world := (operation context.world).state }
    | .error cause => E cause { context with world := (operation context.world).state }
  split
  · next value hvalue => exact hok value hvalue
  · next cause hvalue => exact herror cause hvalue

/-- A property that an activity ensures for all contexts, at one of them. -/
theorem Ensures.ends {I P : Context B → Prop} (h : Ensures I P act Q) (hcontext : P context) :
    act.Ends context Q fun _ => I := by
  have hend := (h context hcontext).2
  rw [Ends]
  cases hvalue : (act.run.run context).value with
  | ok value =>
    rw [hvalue] at hend
    exact hend
  | error cause =>
    rw [hvalue] at hend
    exact hend

theorem Ends.mono {R : α → Context B → Prop} {F : ActionError → Context B → Prop}
    (h : act.Ends context Q E) (hvalues : ∀ value after, Q value after → R value after)
    (herrors : ∀ cause after, E cause after → F cause after) : act.Ends context R F := by
  rw [Ends] at h ⊢
  split at h
  · exact hvalues _ _ h
  · exact herrors _ _ h

end Act

/-! ## Contexts before and after -/

namespace Context

/-- Nothing but the world of the backend is different. -/
def UpToWorld (before after : Context B) : Prop := ∃ world, after = { before with world }

theorem UpToWorld.refl (context : Context B) : context.UpToWorld context := ⟨context.world, rfl⟩

/-- The step gets an action of the type as far as closing a session, and that fails with the error.
The browser is the one that the context is left with. -/
inductive FailsToClose (before : Context B) (step : Step) (cause : ActionError) :
    StepType → Option B.Browser → Prop where
  | openBrowser {previous launched : B.Browser} (hprevious : before.browser = some previous)
      (hlaunch : (B.launch step.options before.world).value = .ok launched)
      (hclose : (B.close previous (B.launch step.options before.world).state).value = .error cause) :
      FailsToClose before step cause .openBrowser (some launched)
  | closeBrowser {browser : B.Browser} (hbrowser : before.browser = some browser)
      (hclose : (B.close browser before.world).value = .error cause) :
      FailsToClose before step cause .closeBrowser none

/-- The context after a failure. Where a session cannot be closed, the page is gone and the browser
is another one or none; elsewhere all is as it was. -/
structure FailsInto (before : Context B) (type : StepType) (step : Step) (cause : ActionError)
    (after : Context B) : Prop where
  closing : ∀ held, before.FailsToClose step cause type held →
    after = { before with browser := held, page := none, world := after.world }
  otherwise : (∀ held, ¬ before.FailsToClose step cause type held) →
    after = { before with world := after.world }

/-- The context after a success. Only parameter steps change the parameters, and only at their own
key, to the value that they return; only actions that open or close browsers change the browser, and
only they and those that open pages the page. -/
structure SucceedsInto (before : Context B) (type : StepType) (step : Step) (result : ActionResult)
    (after : Context B) : Prop where
  params : type ≠ .putParam → after.params = before.params
  stored : type = .putParam → ∃ key selector text readFromText isExpression value,
    step.instruction = .putParam key selector text readFromText isExpression ∧
      result.data = some value ∧ after.params = before.params.set key value ∧
      ∀ name, after.params.get? name =
        if key = name then some value else before.params.get? name
  browser : type ≠ .openBrowser → type ≠ .closeBrowser → after.browser = before.browser
  page : type ≠ .openBrowser → type ≠ .closeBrowser → type ≠ .openPage → after.page = before.page

variable {before after : Context B} {type : StepType} {step : Step}

/-- Actions of other types close no session. -/
theorem not_failsToClose (hopen : type ≠ .openBrowser) (hclose : type ≠ .closeBrowser)
    (cause : ActionError) (held : Option B.Browser) : ¬ before.FailsToClose step cause type held := by
  intro h
  cases h with
  | openBrowser => exact hopen rfl
  | closeBrowser => exact hclose rfl

/-- A failure that is not one of closing a session. -/
theorem UpToWorld.failsInto {cause : ActionError} (h : before.UpToWorld after)
    (hclosing : ∀ held, ¬ before.FailsToClose step cause type held) :
    before.FailsInto type step cause after := by
  obtain ⟨world, rfl⟩ := h
  exact ⟨fun held hheld => absurd hheld (hclosing held), fun _ => rfl⟩

theorem UpToWorld.succeedsInto {result : ActionResult} (h : before.UpToWorld after)
    (hparam : type ≠ .putParam) : before.SucceedsInto type step result after := by
  obtain ⟨world, rfl⟩ := h
  exact ⟨fun _ => rfl, fun htype => absurd htype hparam, fun _ _ => rfl, fun _ _ _ => rfl⟩

end Context

/-! ## Built-in actions -/

namespace Action

open Context

/-- Whatever the step and the context, the action changes only what its type says. -/
def HasEffects (action : Action B) : Prop :=
  ∀ step (context : Context B), (action.run step).Ends context
    (context.SucceedsInto action.type step) (context.FailsInto action.type step)

/-- An action that changes nothing but the world of the backend. -/
theorem Carries.hasEffects {action : Action B}
    (h : ∀ context : Context B, action.Carries context.UpToWorld) (hparam : action.type ≠ .putParam)
    (hopen : action.type ≠ .openBrowser) (hclose : action.type ≠ .closeBrowser) :
    action.HasEffects := by
  intro step context
  refine ((h context step).ends (.refl context)).mono ?_ ?_
  · intro result after hend
    exact hend.1.succeedsInto hparam
  · intro cause after hend
    exact hend.failsInto (not_failsToClose hopen hclose cause)

theorem ignoresPages_upToWorld (context : Context B) : Context.IgnoresPages context.UpToWorld := by
  refine Context.ignoresPages_of_world ?_
  rintro _ world ⟨_, rfl⟩
  exact ⟨world, rfl⟩

/-- A parameter is stored after everything that may fail. -/
theorem hasEffects_putParam : (putParam : Action B).HasEffects := by
  intro step context
  change (runPutParam step).Ends _ _ _
  have hclosing : ∀ cause held, ¬ context.FailsToClose step cause .putParam held :=
    not_failsToClose (by decide) (by decide)
  rw [runPutParam]
  split
  · next key selector text readFromText isExpression hinstruction =>
    have hvalue := keeps_parameterValue (ignoresPages_upToWorld context) step selector text
      readFromText isExpression
    refine .bind ((hvalue.ensures.ends (.refl context)).mono (fun _ _ h => h)
      fun cause after h => h.failsInto (hclosing cause)) ?_
    rintro value _ ⟨world, rfl⟩
    refine .bind_update (.pure ⟨absurd rfl, fun _ => ?_, fun _ _ => rfl, fun _ _ _ => rfl⟩)
    exact ⟨key, selector, text, readFromText, isExpression, value, hinstruction, rfl, rfl,
      Parameters.get?_set context.params key value⟩
  · exact .throw ((UpToWorld.refl context).failsInto (hclosing _))

/-- A page is put into the context after it has been navigated. -/
theorem hasEffects_openPage : (openPage : Action B).HasEffects := by
  intro step context
  change (runOpenPage step).Ends _ _ _
  have hfails : ∀ cause after, context.UpToWorld after →
      context.FailsInto .openPage step cause after :=
    fun cause after h => h.failsInto (not_failsToClose (by decide) (by decide) cause)
  rw [runOpenPage]
  split
  · refine .bind (.browser fun _ => hfails _ _ (.refl context)) ?_
    rintro browser _ ⟨-, rfl⟩
    refine .bind (Q := fun _ => context.UpToWorld)
      (.onWorld (fun _ _ => ⟨_, rfl⟩) fun cause _ => hfails cause _ ⟨_, rfl⟩) ?_
    rintro page _ ⟨world, rfl⟩
    refine .bind (Q := fun _ => context.UpToWorld)
      (.onWorld (fun _ _ => ⟨_, rfl⟩) fun cause _ => hfails cause _ ⟨_, rfl⟩) ?_
    rintro ⟨⟩ _ ⟨world, rfl⟩
    exact .bind_update (.pure ⟨fun _ => rfl, fun htype => (by cases htype), fun _ _ => rfl, fun _ _ h => absurd rfl h⟩)
  · exact .throw (hfails _ _ (.refl context))

/-- The new browser is held before the old one is closed. -/
theorem hasEffects_openBrowser : (openBrowser : Action B).HasEffects := by
  intro step context
  change (runOpenBrowser step).Ends _ _ _
  rw [runOpenBrowser]
  refine .bind (Q := fun launched after =>
    (B.launch step.options context.world).value = .ok launched ∧
      after = { context with world := (B.launch step.options context.world).state })
    (.onWorld (fun _ hlaunch => ⟨hlaunch, rfl⟩) fun cause hlaunch => ?_) ?_
  · -- without a new browser nothing is closed
    refine UpToWorld.failsInto ⟨_, rfl⟩ fun held hclosing => ?_
    cases hclosing with
    | openBrowser _ hlaunched _ => cases hlaunch.symm.trans hlaunched
  rintro launched _ ⟨hlaunch, rfl⟩
  refine .bind_context (.bind_update ?_)
  split
  · next previous hprevious =>
    refine .bind_update (.bind (Q := fun _ => context.SucceedsInto .openBrowser step (.succeeded step))
      (.onWorld ?_ ?_) fun _ _ => .pure)
    · intro _ _
      exact ⟨fun _ => rfl, fun htype => (by cases htype), fun h => absurd rfl h, fun h => absurd rfl h⟩
    · intro cause hclose
      refine ⟨?_, fun hnone => absurd (.openBrowser hprevious hlaunch hclose) (hnone _)⟩
      intro held hclosing
      cases hclosing with
      | openBrowser _ hlaunched _ =>
        cases hlaunch.symm.trans hlaunched
        rfl
  · exact .pure ⟨fun _ => rfl, fun htype => (by cases htype), fun h => absurd rfl h, fun h => absurd rfl h⟩

/-- The browser and its page are given up before the browser is closed. -/
theorem hasEffects_closeBrowser : (closeBrowser : Action B).HasEffects := by
  intro step context
  change (runCloseBrowser step).Ends _ _ _
  refine .bind (.browser ?_) ?_
  · -- there is no browser that could be closed
    intro hnone
    refine (UpToWorld.refl context).failsInto fun held hclosing => ?_
    cases hclosing with
    | closeBrowser hbrowser _ => cases hnone.symm.trans hbrowser
  · rintro browser _ ⟨hbrowser, rfl⟩
    refine .bind_update (.bind
      (Q := fun _ => context.SucceedsInto .closeBrowser step (.succeeded step))
      (.onWorld ?_ ?_) fun _ _ => .pure)
    · intro _ _
      exact ⟨fun _ => rfl, fun htype => (by cases htype), fun _ h => absurd rfl h, fun _ h => absurd rfl h⟩
    · intro cause hclose
      refine ⟨?_, fun hnone => absurd (.closeBrowser hbrowser hclose) (hnone _)⟩
      intro held hclosing
      cases hclosing
      rfl

/-- After a failure a built-in action leaves the context as it was, unless it is one of closing a
session; a success changes what the type of the action says. -/
theorem ends_of_mem_builtins {action : Action B} (haction : action ∈ Registry.builtins)
    (step : Step) (context : Context B) :
    (action.run step).Ends context (context.SucceedsInto action.type step)
      (context.FailsInto action.type step) := by
  have hpages : ∀ context : Context B, Context.IgnoresPages context.UpToWorld :=
    ignoresPages_upToWorld
  have hguard : ∀ type, type ≠ .putParam → type ≠ .openBrowser → type ≠ .closeBrowser →
      (guard type : Action B).HasEffects :=
    fun type => Carries.hasEffects fun _ => carries_guard type
  have hall : ∀ action ∈ Registry.builtins, (action : Action B).HasEffects :=
    Registry.forall_mem_builtins hasEffects_openBrowser
      (Carries.hasEffects (fun context => carries_wait (hpages context)) nofun nofun nofun)
      hasEffects_openPage hasEffects_putParam (hguard _ nofun nofun nofun)
      (hguard _ nofun nofun nofun)
      (Carries.hasEffects (fun context => carries_inputText (hpages context)) nofun nofun nofun)
      hasEffects_closeBrowser
  exact hall action haction step context

end Action

/-- A context of a rehearsal with a browser that cannot be closed. -/
def Rehearsal.stuck : Context Rehearsal.backend where
  params := .empty
  policy := .lenient
  cancelled := false
  browser := some (⟨7, some (.object [("failClose", .string "stuck")])⟩ : Rehearsal.Browser)
  page := some (⟨3⟩ : Rehearsal.Page)
  world := ({} : Rehearsal.World)

/-- The new browser is held although the old one is still open, and the old page is gone. -/
theorem Action.ends_of_mem_builtins_stuck :
    let step : Step := ⟨"open", none, .openBrowser⟩
    let trace := ((openBrowser : Action Rehearsal.backend).run step).run.run Rehearsal.stuck
    (openBrowser : Action Rehearsal.backend) ∈ Registry.builtins ∧
      trace.value = .error (.backend "stuck") ∧
      trace.state = { Rehearsal.stuck with
        browser := some (⟨1, none⟩ : Rehearsal.Browser), page := none
        world := trace.state.world } := by
  intro step trace
  have hmem : (openBrowser : Action Rehearsal.backend) ∈ Registry.builtins := .head _
  have hvalue : trace.value = .error (.backend "stuck") := rfl
  have hend := (ends_of_mem_builtins hmem step Rehearsal.stuck).of_error hvalue
  exact ⟨hmem, hvalue, hend.closing _ (.openBrowser rfl rfl rfl)⟩

end StepScript
