import StepScript.Proofs.Action.Keeps

/-!
# Corresponding actions

An action reaches browsers through a backend only, and looks at nothing of a browser. If the states
of one backend stand for those of another one, and each operation does there what it does here, the
built-in actions do the same with both. They do not look at the policy of the run either.
-/

namespace StepScript

variable {σ τ α β α' β' : Type}

/-! ## Traces -/

def Activity.Trace.map (f : σ → τ) (g : α → β) (trace : Activity.Trace σ α) : Activity.Trace τ β :=
  ⟨trace.pauses.map fun pause => ⟨pause.millis, f pause.state⟩, g trace.value, f trace.state⟩

/-- An activity does on other states what another one does on states that stand for them. -/
def Activity.Mirrors (f : σ → τ) (g : α → α') (act : Activity σ α) (act' : Activity τ α') : Prop :=
  ∀ state, act'.run (f state) = (act.run state).map f g

namespace Activity.Mirrors

variable {f : σ → τ}

theorem pure {g : α → α'} (value : α) : Mirrors f g (Pure.pure value) (Pure.pure (g value)) :=
  fun _ => rfl

theorem bind {g : α → α'} {k : β → β'} {act : Activity σ α} {act' : Activity τ α'}
    {next : α → Activity σ β} {next' : α' → Activity τ β'} (h : Mirrors f g act act')
    (hnext : ∀ value, Mirrors f k (next value) (next' (g value))) :
    Mirrors f k (act >>= next) (act' >>= next') := by
  intro state
  have hact : act' (f state) = (act state).map f g := h state
  have hlater : next' (g (act state).value) (f (act state).state) =
      (next (act state).value (act state).state).map f k := hnext _ _
  change Activity.bind act' next' (f state) = (Activity.bind act next state).map f k
  simp only [Activity.bind, hact, Trace.map] at hlater ⊢
  simp only [hlater, List.map_append]

theorem getState : Mirrors f f Activity.getState Activity.getState := fun _ => rfl

theorem update {change : σ → σ} {change' : τ → τ}
    (h : ∀ state, change' (f state) = f (change state)) :
    Mirrors f id (Activity.update change) (Activity.update change') := by
  intro state
  simp only [Activity.run, Activity.update, Trace.map, h, List.map_nil, id]

theorem sleep (millis : Nat) : Mirrors f id (Activity.sleep millis) (Activity.sleep millis) :=
  fun _ => rfl

theorem onPart {S T : Type} {F : S → T} {g : α → α'} {get : S → σ} {get' : T → τ}
    {set : S → σ → S} {set' : T → τ → T} {act : Activity σ α} {act' : Activity τ α'}
    (hget : ∀ whole, get' (F whole) = f (get whole))
    (hset : ∀ whole part, set' (F whole) (f part) = F (set whole part))
    (h : Mirrors f g act act') :
    Mirrors F g (act.onPart get set) (act'.onPart get' set') := by
  intro whole
  have hact : act' (f (get whole)) = (act (get whole)).map f g := h (get whole)
  simp only [Activity.run, Activity.onPart, hget, hact, Trace.map, hset, List.map_map,
    Function.comp_def]

/-- Every activity that may fail mirrors itself. -/
theorem self (operation : Activity σ (Except ActionError α)) :
    Mirrors id (Except.map id) operation operation := by
  intro state
  have hvalue : Except.map id (operation.run state).value = (operation.run state).value :=
    congrFun Except.map_id _
  simp only [Trace.map, hvalue, id, List.map_id']

end Activity.Mirrors

/-- The states of a backend stand for those of another one, and so do its browsers and pages. -/
structure Backend.View (B B' : Backend) where
  world : B.World → B'.World
  browser : B.Browser → B'.Browser
  page : B.Page → B'.Page
  launch : ∀ options, Activity.Mirrors world (Except.map browser) (B.launch options) (B'.launch options)
  newPage : ∀ b, Activity.Mirrors world (Except.map page) (B.newPage b) (B'.newPage (browser b))
  close : ∀ b, Activity.Mirrors world (Except.map id) (B.close b) (B'.close (browser b))
  goto : ∀ p url options,
    Activity.Mirrors world (Except.map id) (B.goto p url options) (B'.goto (page p) url options)
  typeText : ∀ p selector text,
    Activity.Mirrors world (Except.map id) (B.typeText p selector text) (B'.typeText (page p) selector text)
  setValue : ∀ p selector text,
    Activity.Mirrors world (Except.map id) (B.setValue p selector text) (B'.setValue (page p) selector text)
  readText : ∀ p selector,
    Activity.Mirrors world (Except.map id) (B.readText p selector) (B'.readText (page p) selector)
  readValue : ∀ p selector,
    Activity.Mirrors world (Except.map id) (B.readValue p selector) (B'.readValue (page p) selector)
  waitForSelector : ∀ p text,
    Activity.Mirrors world (Except.map id) (B.waitForSelector p text) (B'.waitForSelector (page p) text)
  waitForXPath : ∀ p text,
    Activity.Mirrors world (Except.map id) (B.waitForXPath p text) (B'.waitForXPath (page p) text)

def Backend.View.refl (B : Backend) : Backend.View B B where
  world := id
  browser := id
  page := id
  launch _ := .self _
  newPage _ := .self _
  close _ := .self _
  goto _ _ _ := .self _
  typeText _ _ _ := .self _
  setValue _ _ _ := .self _
  readText _ _ := .self _
  readValue _ _ := .self _
  waitForSelector _ _ := .self _
  waitForXPath _ _ := .self _

variable {B B' : Backend}

def Context.through (view : Backend.View B B') (policy : MissingPolicy → MissingPolicy)
    (context : Context B) : Context B' where
  params := context.params
  policy := policy context.policy
  cancelled := context.cancelled
  browser := context.browser.map view.browser
  page := context.page.map view.page
  world := view.world context.world

/-! ## Activities -/

namespace Act

variable {f : Context B → Context B'}

def Mirrors (f : Context B → Context B') (g : α → α') (act : Act B α) (act' : Act B' α') : Prop :=
  Activity.Mirrors f (Except.map g) act.run act'.run

theorem Mirrors.pure {g : α → α'} (value : α) :
    Mirrors f g (Pure.pure value) (Pure.pure (g value)) :=
  Activity.Mirrors.pure (Except.ok value)

theorem Mirrors.throw {g : α → α'} (cause : ActionError) :
    Mirrors f g (throw cause) (throw cause) :=
  Activity.Mirrors.pure (Except.error cause)

theorem Mirrors.bind {g : α → α'} {k : β → β'} {act : Act B α} {act' : Act B' α'}
    {next : α → Act B β} {next' : α' → Act B' β'} (h : Mirrors f g act act')
    (hnext : ∀ value, Mirrors f k (next value) (next' (g value))) :
    Mirrors f k (act >>= next) (act' >>= next') := by
  refine Activity.Mirrors.bind h fun result => ?_
  cases result with
  | ok value => exact hnext value
  | error cause => exact .pure (Except.error cause)

/-- What cannot fail mirrors as it does without the failures. -/
theorem Mirrors.lift {g : α → α'} {act : Activity (Context B) α} {act' : Activity (Context B') α'}
    (h : Activity.Mirrors f g act act') : Mirrors f g (ExceptT.lift act) (ExceptT.lift act') :=
  Activity.Mirrors.bind h fun value => .pure (Except.ok value)

theorem Mirrors.context : Mirrors f f Act.context Act.context :=
  .lift .getState

theorem Mirrors.update {change : Context B → Context B} {change' : Context B' → Context B'}
    (h : ∀ context, change' (f context) = f (change context)) :
    Mirrors f id (Act.update change) (Act.update change') :=
  .lift (.update h)

theorem Mirrors.sleep (millis : Nat) : Mirrors f id (Act.sleep millis) (Act.sleep millis) :=
  .lift (.sleep millis)

theorem Mirrors.onWorld {view : Backend.View B B'} {policy : MissingPolicy → MissingPolicy}
    {g : α → α'} {operation : Activity B.World (Except ActionError α)}
    {operation' : Activity B'.World (Except ActionError α')}
    (h : Activity.Mirrors view.world (Except.map g) operation operation') :
    Mirrors (Context.through view policy) g (Act.onWorld operation) (Act.onWorld operation') :=
  Activity.Mirrors.onPart (fun _ => rfl) (fun _ _ => rfl) h

theorem Mirrors.browser {view : Backend.View B B'} {policy : MissingPolicy → MissingPolicy} :
    Mirrors (Context.through view policy) view.browser Act.browser Act.browser := by
  refine .bind .context fun context => ?_
  cases hbrowser : context.browser with
  | none => simpa only [Context.through, hbrowser] using .throw _
  | some browser => simpa only [Context.through, hbrowser] using .pure browser

theorem Mirrors.page {view : Backend.View B B'} {policy : MissingPolicy → MissingPolicy} :
    Mirrors (Context.through view policy) view.page Act.page Act.page := by
  refine .bind .context fun context => ?_
  cases hpage : context.page with
  | none => simpa only [Context.through, hpage] using .throw _
  | some page => simpa only [Context.through, hpage] using .pure page

end Act

/-! ## Built-in actions -/

namespace Action

variable {view : Backend.View B B'} {policy : MissingPolicy → MissingPolicy}

def Mirrors (view : Backend.View B B') (policy : MissingPolicy → MissingPolicy) (action : Action B)
    (action' : Action B') : Prop :=
  ∀ step, Act.Mirrors (Context.through view policy) id (action.run step) (action'.run step)

theorem mirrors_evaluated (value : Except ExpressionError α) :
    Act.Mirrors (Context.through view policy) id (evaluated value) (evaluated value) := by
  cases value with
  | ok value => exact .pure value
  | error cause => exact .throw _

theorem mirrors_guard (type : StepType) : Mirrors view policy (guard type) (guard type) := by
  intro step
  change Act.Mirrors _ _ (runGuard step) (runGuard step)
  rw [runGuard, runGuard]
  split
  · exact .throw _
  · exact .bind (mirrors_evaluated _) fun holds => .pure _

theorem mirrors_parameterValue (step : Step) (selector value : Option String)
    (readFromText isExpression : Bool) :
    Act.Mirrors (Context.through view policy) (id : Json → Json)
      (parameterValue step selector value readFromText isExpression)
      (parameterValue step selector value readFromText isExpression) := by
  unfold parameterValue
  split
  · next selector =>
    refine .bind .page fun page => .bind (.onWorld ?_) fun text => .pure _
    cases readFromText with
    | true => exact view.readText page selector
    | false => exact view.readValue page selector
  · split
    · exact .bind (mirrors_evaluated _) fun value => .pure _
    · exact .pure _
  · exact .throw _

theorem mirrors_putParam : Mirrors view policy putParam putParam := by
  intro step
  change Act.Mirrors _ _ (runPutParam step) (runPutParam step)
  rw [runPutParam, runPutParam]
  split
  · exact .bind (mirrors_parameterValue _ _ _ _ _) fun stored => .bind (.update fun _ => rfl) fun _ =>
      .pure _
  · exact .throw _

theorem mirrors_waitOnPage {operation : B.Page → Activity B.World (Except ActionError Unit)}
    {operation' : B'.Page → Activity B'.World (Except ActionError Unit)}
    (h : ∀ page, Activity.Mirrors view.world (Except.map id) (operation page) (operation' (view.page page))) :
    Act.Mirrors (Context.through view policy) id (waitOnPage operation) (waitOnPage operation') := by
  refine .bind .context fun context => ?_
  cases hpage : context.page with
  | none => simpa only [Context.through, hpage] using .pure ()
  | some page => simpa only [Context.through, hpage] using .onWorld (h page)

theorem mirrors_wait : Mirrors view policy wait wait := by
  intro step
  change Act.Mirrors _ _ (runWait step) (runWait step)
  rw [runWait, runWait]
  split
  · split
    · exact .pure _
    · exact .bind (.bind .context fun _ => .sleep _) fun _ => .pure _
    · exact .bind (mirrors_waitOnPage fun page => view.waitForSelector page _) fun _ => .pure _
    · exact .bind (mirrors_waitOnPage fun page => view.waitForXPath page _) fun _ => .pure _
  · exact .throw _

theorem mirrors_openBrowser : Mirrors view policy openBrowser openBrowser := by
  intro step
  change Act.Mirrors _ _ (runOpenBrowser step) (runOpenBrowser step)
  rw [runOpenBrowser, runOpenBrowser]
  refine .bind (.onWorld (view.launch _)) fun browser => .bind .context fun context =>
    .bind (.update fun _ => rfl) fun _ => ?_
  cases hprevious : context.browser with
  | none =>
    simp only [Context.through, hprevious]
    exact .pure _
  | some previous =>
    simp only [Context.through, hprevious]
    exact .bind (.update fun _ => rfl) fun _ => .bind (.onWorld (view.close previous)) fun _ =>
      .pure _

theorem mirrors_closeBrowser : Mirrors view policy closeBrowser closeBrowser := by
  intro step
  change Act.Mirrors _ _ (runCloseBrowser step) (runCloseBrowser step)
  exact .bind .browser fun browser => .bind (.update fun _ => rfl) fun _ =>
    .bind (.onWorld (view.close browser)) fun _ => .pure _

theorem mirrors_openPage : Mirrors view policy openPage openPage := by
  intro step
  change Act.Mirrors _ _ (runOpenPage step) (runOpenPage step)
  rw [runOpenPage, runOpenPage]
  split
  · exact .bind .browser fun browser => .bind (.onWorld (view.newPage browser)) fun page =>
      .bind (.onWorld (view.goto page _ _)) fun _ => .bind (.update fun _ => rfl) fun _ => .pure _
  · exact .throw _

theorem mirrors_inputText : Mirrors view policy inputText inputText := by
  intro step
  change Act.Mirrors _ _ (runInputText step) (runInputText step)
  rw [runInputText, runInputText]
  split
  · next selector text append _ =>
    have hoperation : ∀ page, Activity.Mirrors view.world (Except.map id)
        (if append then B.typeText page selector text else B.setValue page selector text)
        (if append then B'.typeText (view.page page) selector text
          else B'.setValue (view.page page) selector text) := by
      intro page
      cases append with
      | true => exact view.typeText page selector text
      | false => exact view.setValue page selector text
    exact .bind .page fun page => .bind (.onWorld (hoperation page)) fun _ => .pure _
  · exact .throw _

end Action

end StepScript
