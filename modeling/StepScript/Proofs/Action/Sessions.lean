import StepScript.Proofs.Action.Correspondence

/-!
# Browser sessions

The driver of a backend may keep a ledger: it numbers the sessions that it launches and notes every
call that closes one. A context then holds the number of its browser, and its page the number of the
session that opened it. The actions know nothing of the ledger and do the same without it.

Every session is either held or has been closed once, however the operations of the backend end: the
sessions that are held and the calls to close one add up to the sessions that were launched.
-/

namespace StepScript

/-! ## Ledgers -/

/-- The sessions of a driver. They are numbered in the order in which they were launched. -/
structure Ledger where
  launched : Nat
  /-- The sessions that were to be closed, one entry for each call. -/
  closed : List Nat
deriving DecidableEq

namespace Ledger

def empty : Ledger := ⟨0, []⟩

def launch (ledger : Ledger) : Ledger := { ledger with launched := ledger.launched + 1 }

def close (session : Nat) (ledger : Ledger) : Ledger :=
  { ledger with closed := session :: ledger.closed }

/-- Each session that was launched is either among the open ones or was closed, once. -/
def Accounts (ledger : Ledger) (opened : List Nat) : Prop :=
  ∀ n, ledger.closed.count n + opened.count n = if n < ledger.launched then 1 else 0

theorem accounts_empty : empty.Accounts [] := fun _ => rfl

variable {ledger : Ledger} {opened : List Nat}

theorem Accounts.launch (h : ledger.Accounts opened) :
    ledger.launch.Accounts (ledger.launched :: opened) := by
  intro n
  have hn := h n
  show ledger.closed.count n + (ledger.launched :: opened).count n =
    if n < ledger.launched + 1 then 1 else 0
  by_cases hnew : n = ledger.launched
  · subst hnew
    rw [if_neg (Nat.lt_irrefl _)] at hn
    rw [List.count_cons_self, if_pos (Nat.lt_succ_self _)]
    omega
  · have hlt : n < ledger.launched + 1 ↔ n < ledger.launched := by omega
    rw [List.count_cons_of_ne (Ne.symm hnew), hn, if_congr hlt rfl rfl]

theorem Accounts.close {session : Nat} (h : ledger.Accounts (session :: opened)) :
    (ledger.close session).Accounts opened := by
  intro n
  have hn := h n
  show (session :: ledger.closed).count n + opened.count n =
    if n < ledger.launched then 1 else 0
  rw [List.count_cons] at hn ⊢
  omega

/-- The order of the open sessions does not matter. -/
theorem Accounts.perm {other : List Nat} (h : ledger.Accounts opened) (hperm : opened.Perm other) :
    ledger.Accounts other := by
  intro n
  rw [← hperm.count_eq n]
  exact h n

end Ledger

/-! ## Backends with a ledger -/

/-- An operation with an entry in the ledger when it is called and another one when it succeeds. -/
def Activity.recorded {W α β : Type} (before : Ledger → Ledger) (after : Ledger → Ledger)
    (value : Ledger → α → β) (operation : Activity W (Except ActionError α)) :
    Activity (W × Ledger) (Except ActionError β) := fun state =>
  let trace := operation state.1
  let called := before state.2
  { pauses := trace.pauses.map fun pause => ⟨pause.millis, (pause.state, called)⟩
    value := trace.value.map (value called)
    state := (trace.state, match trace.value with
      | .ok _ => after called
      | .error _ => called) }

def Activity.unrecorded {W α : Type} (operation : Activity W (Except ActionError α)) :
    Activity (W × Ledger) (Except ActionError α) :=
  .recorded id id (fun _ value => value) operation

/-- The backend with a ledger. Browsers come with the number of their session, and so do pages. -/
def Backend.tracked (B : Backend) : Backend where
  World := B.World × Ledger
  Browser := Nat × B.Browser
  Page := Nat × B.Page
  launch options := .recorded id .launch (fun ledger browser => (ledger.launched, browser))
    (B.launch options)
  newPage browser := .recorded id id (fun _ page => (browser.1, page)) (B.newPage browser.2)
  close browser := .recorded (.close browser.1) id (fun _ value => value) (B.close browser.2)
  goto page url options := .unrecorded (B.goto page.2 url options)
  typeText page selector text := .unrecorded (B.typeText page.2 selector text)
  setValue page selector text := .unrecorded (B.setValue page.2 selector text)
  readText page selector := .unrecorded (B.readText page.2 selector)
  readValue page selector := .unrecorded (B.readValue page.2 selector)
  waitForSelector page text := .unrecorded (B.waitForSelector page.2 text)
  waitForXPath page text := .unrecorded (B.waitForXPath page.2 text)

theorem Activity.mirrors_recorded {W α β : Type} {before after : Ledger → Ledger}
    {value : Ledger → α → β} {operation : Activity W (Except ActionError α)} {g : β → α}
    (h : ∀ ledger a, g (value ledger a) = a) :
    Activity.Mirrors Prod.fst (Except.map g) (Activity.recorded before after value operation) operation := by
  intro state
  have hvalue : ((operation state.1).value.map (value (before state.2))).map g =
      (operation state.1).value := by
    cases (operation state.1).value with
    | ok a => exact congrArg Except.ok (h _ a)
    | error cause => rfl
  have hpauses : ((operation state.1).pauses.map fun pause =>
      (⟨pause.millis, pause.state⟩ : Activity.Pause W)) = (operation state.1).pauses :=
    List.map_id' _
  simp only [Activity.run, Activity.recorded, Activity.Trace.map, List.map_map, Function.comp_def,
    hvalue, hpauses]

def Backend.untracked (B : Backend) : Backend.View B.tracked B where
  world := Prod.fst
  browser := Prod.snd
  page := Prod.snd
  launch _ := Activity.mirrors_recorded fun _ _ => rfl
  newPage _ := Activity.mirrors_recorded fun _ _ => rfl
  close _ := Activity.mirrors_recorded fun _ _ => rfl
  goto _ _ _ := Activity.mirrors_recorded fun _ _ => rfl
  typeText _ _ _ := Activity.mirrors_recorded fun _ _ => rfl
  setValue _ _ _ := Activity.mirrors_recorded fun _ _ => rfl
  readText _ _ := Activity.mirrors_recorded fun _ _ => rfl
  readValue _ _ := Activity.mirrors_recorded fun _ _ => rfl
  waitForSelector _ _ := Activity.mirrors_recorded fun _ _ => rfl
  waitForXPath _ _ := Activity.mirrors_recorded fun _ _ => rfl

variable {B : Backend}

namespace Context

def ledger (context : Context B.tracked) : Ledger := context.world.2

def session? (context : Context B.tracked) : Option Nat := context.browser.map Prod.fst

/-- The browser of a context is the only session that has not been closed, every other one was
closed once, and the page was opened by this browser. -/
structure IsSettled (context : Context B.tracked) : Prop where
  sessions : context.ledger.Accounts context.session?.toList
  page : ∀ page, context.page = some page → context.session? = some page.1

theorem isSettled_fresh (policy : MissingPolicy) (cancelled : Bool) (world : B.World) :
    IsSettled (fresh policy cancelled (world, Ledger.empty) : Context B.tracked) :=
  ⟨Ledger.accounts_empty, nofun⟩

/-- What happens to the rest of the world does not matter. -/
theorem IsSettled.world {context : Context B.tracked} (h : context.IsSettled) (world : B.World) :
    IsSettled ({ context with world := (world, context.ledger) } : Context B.tracked) :=
  ⟨h.sessions, h.page⟩

end Context

/-! ## Operations -/

namespace Act

variable {α β : Type} {I P : Context B.tracked → Prop} {Q : β → Context B.tracked → Prop}

/-- What holds while an operation with entries in the ledger is under way, and after it. -/
theorem Ensures.recorded {before after : Ledger → Ledger} {value : Ledger → α → β}
    {operation : Activity B.World (Except ActionError α)}
    (hcalled : ∀ context world, P context →
      I { context with world := (world, before context.ledger) })
    (hvalue : ∀ context world a, P context → Q (value (before context.ledger) a)
      { context with world := (world, after (before context.ledger)) }) :
    Ensures I P (Act.onWorld (Activity.recorded before after value operation)) Q := by
  intro context hcontext
  let trace := operation context.world.1
  refine ⟨fun pause hpause => ?_, ?_⟩
  · obtain ⟨noted, hnoted, rfl⟩ := List.mem_map.1 hpause
    obtain ⟨inner, -, rfl⟩ := List.mem_map.1 hnoted
    exact hcalled context inner.state hcontext
  · change match trace.value.map (value (before context.ledger)) with
      | .ok result => Q result { context with world := (trace.state, match trace.value with
          | .ok _ => after (before context.ledger)
          | .error _ => before context.ledger) }
      | .error _ => I { context with world := (trace.state, match trace.value with
          | .ok _ => after (before context.ledger)
          | .error _ => before context.ledger) }
    cases trace.value with
    | ok a => exact hvalue context trace.state a hcontext
    | error cause => exact hcalled context trace.state hcontext

/-- An operation without an entry leaves the ledger as it is. -/
theorem Keeps.unrecorded
    (hP : ∀ context world, P context → P { context with world := (world, context.ledger) })
    (operation : Activity B.World (Except ActionError α)) :
    Keeps P (Act.onWorld (Activity.unrecorded operation) : Act B.tracked α) :=
  Ensures.keeps (.recorded hP fun context world _ h => hP context world h) fun _ _ h => h

end Act

/-! ## Built-in actions -/

namespace Context

theorem ignoresPages_isSettled : IgnoresPages (IsSettled : Context B.tracked → Prop) :=
  ⟨fun _ _ _ => .unrecorded (fun _ world h => h.world world) _,
    fun _ _ _ => .unrecorded (fun _ world h => h.world world) _,
    fun _ _ => .unrecorded (fun _ world h => h.world world) _,
    fun _ _ => .unrecorded (fun _ world h => h.world world) _,
    fun _ _ => .unrecorded (fun _ world h => h.world world) _,
    fun _ _ => .unrecorded (fun _ world h => h.world world) _⟩

/-- Closing a session that was given up settles what is left. -/
theorem closes {P : Context B.tracked → Prop} (browser : B.tracked.Browser)
    (hsessions : ∀ context, P context →
      context.ledger.Accounts (browser.1 :: context.session?.toList))
    (hpage : ∀ context page, P context → context.page = some page →
      context.session? = some page.1) :
    Act.Ensures IsSettled P (Act.onWorld (B.tracked.close browser)) fun _ => IsSettled := by
  have hclosed : ∀ context world, P context → IsSettled
      { context with world := (world, context.ledger.close browser.1) } :=
    fun context world h => ⟨(hsessions context h).close, fun page => hpage context page h⟩
  exact .recorded hclosed fun context world _ h => hclosed context world h

theorem settled_openBrowser (step : Step) :
    Act.Ensures IsSettled IsSettled ((Action.openBrowser : Action B.tracked).run step)
      fun _ => IsSettled := by
  change Act.Ensures _ _ (Action.runOpenBrowser step) _
  rw [Action.runOpenBrowser]
  -- a new session is open beside the one that the context holds
  have hlaunch : Act.Ensures IsSettled IsSettled (Act.onWorld (B.tracked.launch step.options))
      fun browser context => context.ledger.Accounts (browser.1 :: context.session?.toList) ∧
        ∀ page, context.page = some page → context.session? = some page.1 :=
    .recorded (fun _ world h => h.world world) fun _ _ _ h => ⟨h.sessions.launch, h.page⟩
  refine .bind hlaunch fun browser => .bind .context fun before => ?_
  cases hprevious : before.browser with
  | none =>
    refine .bind (Q := fun _ => IsSettled) (.update ?_) fun _ => .pure fun _ h => h
    rintro context ⟨⟨hsessions, hpage⟩, rfl⟩
    rw [session?, hprevious] at hsessions
    refine ⟨hsessions, fun page hopen => ?_⟩
    have hsession := hpage page hopen
    rw [session?, hprevious] at hsession
    cases hsession
  | some previous =>
    refine .bind (Q := fun _ context => context.ledger.Accounts [browser.1, previous.1] ∧
      context.browser = some browser) (.update ?_) fun _ => ?_
    · rintro context ⟨⟨hsessions, -⟩, rfl⟩
      rw [session?, hprevious] at hsessions
      exact ⟨hsessions, rfl⟩
    -- the page goes before its browser is closed
    refine .bind (Q := fun _ context => context.ledger.Accounts [browser.1, previous.1] ∧
      context.browser = some browser ∧ context.page = none) (.update ?_) fun _ =>
        .bind (closes previous ?_ ?_) fun _ => .pure fun _ h => h
    · rintro context ⟨hsessions, hbrowser⟩
      exact ⟨hsessions, hbrowser, rfl⟩
    · rintro context ⟨hsessions, hbrowser, -⟩
      rw [session?, hbrowser]
      exact hsessions.perm (.swap ..)
    · rintro context page ⟨-, -, hnone⟩ hpage
      cases hnone.symm.trans hpage

theorem settled_closeBrowser (step : Step) :
    Act.Ensures IsSettled IsSettled ((Action.closeBrowser : Action B.tracked).run step)
      fun _ => IsSettled := by
  change Act.Ensures _ _ (Action.runCloseBrowser step) _
  refine .bind (.browser fun _ h => h) fun browser => ?_
  refine .bind (Q := fun _ context => context.ledger.Accounts [browser.1] ∧
    context.browser = none ∧ context.page = none) (.update ?_) fun _ => .bind (closes browser ?_ ?_)
      fun _ => .pure fun _ h => h
  · rintro context ⟨h, hbrowser⟩
    have hsessions := h.sessions
    rw [session?, hbrowser] at hsessions
    exact ⟨hsessions, rfl, rfl⟩
  · rintro context ⟨hsessions, hbrowser, -⟩
    rw [session?, hbrowser]
    exact hsessions
  · rintro context page ⟨-, -, hnone⟩ hpage
    cases hnone.symm.trans hpage

theorem settled_openPage (step : Step) :
    Act.Ensures IsSettled IsSettled ((Action.openPage : Action B.tracked).run step)
      fun _ => IsSettled := by
  change Act.Ensures _ _ (Action.runOpenPage step) _
  rw [Action.runOpenPage]
  split
  · next url _ =>
    refine .bind (.browser fun _ h => h) fun browser => ?_
    have hnewPage : Act.Ensures IsSettled
        (fun context => IsSettled context ∧ context.browser = some browser)
        (Act.onWorld (B.tracked.newPage browser)) fun page context =>
          IsSettled context ∧ context.session? = some page.1 := by
      refine .recorded (fun _ world h => h.1.world world) fun context world _ h => ?_
      exact ⟨h.1.world world, congrArg (Option.map Prod.fst) h.2⟩
    have hgoto : ∀ page : B.tracked.Page, Act.Ensures IsSettled
        (fun context => IsSettled context ∧ context.session? = some page.1)
        (Act.onWorld (B.tracked.goto page url step.options)) fun _ context =>
          IsSettled context ∧ context.session? = some page.1 :=
      fun page => .recorded (fun _ world h => h.1.world world)
        fun context world _ h => ⟨h.1.world world, h.2⟩
    refine .bind hnewPage fun page => .bind (hgoto page) fun _ => .bind (.update ?_) fun _ =>
      .pure fun _ h => h
    rintro context ⟨h, hsession⟩
    refine ⟨h.sessions, ?_⟩
    rintro _ ⟨⟩
    exact hsession
  · exact .throw

/-- A built-in action leaves a settled context settled, also while it sleeps and when it fails. -/
theorem settled_of_mem_builtins {action : Action B.tracked} (h : action ∈ Registry.builtins)
    (step : Step) : Act.Keeps IsSettled (action.run step) := by
  have hsettled : ∀ act : Act B.tracked ActionResult,
      Act.Ensures IsSettled IsSettled act (fun _ => IsSettled) → Act.Keeps IsSettled act :=
    fun act hact => hact.keeps fun _ _ hend => hend
  have hcarries : ∀ action : Action B.tracked, action.Carries IsSettled →
      Act.Keeps IsSettled (action.run step) :=
    fun action haction => (haction step).keeps fun _ _ hend => hend.1
  refine Registry.forall_mem_builtins (motive := fun action => Act.Keeps IsSettled (action.run step))
    ?_ ?_ ?_ ?_ ?_ ?_ ?_ ?_ action h
  · exact hsettled _ (settled_openBrowser step)
  · exact hcarries _ (Action.carries_wait ignoresPages_isSettled)
  · exact hsettled _ (settled_openPage step)
  · exact Action.keeps_putParam ignoresPages_isSettled (fun _ _ h => ⟨h.sessions, h.page⟩) step
  · exact hcarries _ (Action.carries_guard _)
  · exact hcarries _ (Action.carries_guard _)
  · exact hcarries _ (Action.carries_inputText ignoresPages_isSettled)
  · exact hsettled _ (settled_closeBrowser step)

/-! ## Sequences of actions -/

/-- The context after the built-in action of a type. Where there is none, nothing happens. -/
def afterBuiltin (context : Context B) (type : StepType) (step : Step) : Context B :=
  match (Registry.standard.candidates type).head? with
  | some action => ((action.run step).run.run context).state
  | none => context

/-- The context after some built-in actions, one after the other, however they end. -/
def afterBuiltins (context : Context B) (calls : List (StepType × Step)) : Context B :=
  calls.foldl (fun context call => context.afterBuiltin call.1 call.2) context

theorem settled_afterBuiltin {context : Context B.tracked} (h : context.IsSettled)
    (type : StepType) (step : Step) : (context.afterBuiltin type step).IsSettled := by
  unfold afterBuiltin
  split
  · next action haction =>
    have hmem : action ∈ Registry.builtins :=
      Registry.mem_of_candidates_ofList (List.mem_of_mem_head? haction)
    exact (settled_of_mem_builtins hmem step context h).2
  · exact h

theorem settled_afterBuiltins {context : Context B.tracked} (h : context.IsSettled)
    (calls : List (StepType × Step)) : (context.afterBuiltins calls).IsSettled := by
  induction calls generalizing context with
  | nil => exact h
  | cons call calls ih => exact ih (settled_afterBuiltin h call.1 call.2)

/-- The ledger changes nothing. -/
theorem untracked_afterBuiltin (context : Context B.tracked) (type : StepType) (step : Step) :
    (context.through B.untracked id).afterBuiltin type step =
      (context.afterBuiltin type step).through B.untracked id := by
  have hstate : ∀ (action : Action B.tracked) (action' : Action B),
      action.Mirrors B.untracked id action' →
        ((action'.run step).run.run (context.through B.untracked id)).state =
          ((action.run step).run.run context).state.through B.untracked id := by
    intro action action' hmirrors
    rw [hmirrors step context]
    rfl
  cases type with
  | openBrowser => exact hstate _ _ Action.mirrors_openBrowser
  | wait => exact hstate _ _ Action.mirrors_wait
  | openPage => exact hstate _ _ Action.mirrors_openPage
  | putParam => exact hstate _ _ Action.mirrors_putParam
  | ifGuard | whileGuard => exact hstate _ _ (Action.mirrors_guard _)
  | inputText => exact hstate _ _ Action.mirrors_inputText
  | closeBrowser => exact hstate _ _ Action.mirrors_closeBrowser
  | elseMarker | endIf | endWhile => rfl

theorem untracked_afterBuiltins (context : Context B.tracked) (calls : List (StepType × Step)) :
    (context.through B.untracked id).afterBuiltins calls =
      (context.afterBuiltins calls).through B.untracked id := by
  induction calls generalizing context with
  | nil => rfl
  | cons call calls ih =>
    have hfirst := untracked_afterBuiltin context call.1 call.2
    have hrest := ih (context.afterBuiltin call.1 call.2)
    rw [← hfirst] at hrest
    exact hrest

/-- What the ledger of a settled context says of a session. -/
theorem IsSettled.count {context : Context B.tracked} (h : context.IsSettled) (n : Nat) :
    context.ledger.closed.count n + (if context.session? = some n then 1 else 0) =
      if n < context.ledger.launched then 1 else 0 := by
  have hsessions := h.sessions n
  cases hsession : context.session? with
  | none =>
    rw [hsession] at hsessions
    rw [if_neg (Option.some_ne_none n).symm]
    exact hsessions
  | some session =>
    rw [hsession, Option.toList_some, List.count_cons, List.count_nil] at hsessions
    simpa only [beq_iff_eq, Option.some.injEq, Nat.zero_add] using hsessions

/-- After any built-in actions, in any order and however they end: every session that the driver has
returned is either the one that the context holds, and has not been closed, or it was closed, once. A
page is open only if a browser is held, and then that session opened it. The ledger that shows it
changes nothing. -/
theorem sessions_accounted (policy : MissingPolicy) (cancelled : Bool) (world : B.World)
    (calls : List (StepType × Step)) :
    let context :=
      (fresh policy cancelled (world, Ledger.empty) : Context B.tracked).afterBuiltins calls
    (∀ n < context.ledger.launched,
      context.session? = some n ∧ context.ledger.closed.count n = 0 ∨
        context.session? ≠ some n ∧ context.ledger.closed.count n = 1) ∧
    (∀ n, context.session? = some n →
      n < context.ledger.launched ∧ context.ledger.closed.count n = 0) ∧
    (∀ page, context.page = some page →
      ∃ browser, context.browser = some browser ∧ browser.1 = page.1) ∧
    (fresh policy cancelled world : Context B).afterBuiltins calls =
      context.through B.untracked id := by
  intro context
  have hsettled : context.IsSettled :=
    settled_afterBuiltins (isSettled_fresh policy cancelled world) calls
  refine ⟨fun n hn => ?_, fun n hheld => ?_, fun page hpage => ?_, ?_⟩
  · have hcount := hsettled.count n
    rw [if_pos hn] at hcount
    by_cases hheld : context.session? = some n
    · rw [if_pos hheld] at hcount
      exact .inl ⟨hheld, by omega⟩
    · rw [if_neg hheld] at hcount
      exact .inr ⟨hheld, hcount⟩
  · have hcount := hsettled.count n
    rw [if_pos hheld] at hcount
    split at hcount
    · next hn => exact ⟨hn, by omega⟩
    · omega
  · exact Option.map_eq_some_iff.1 (hsettled.page page hpage)
  · have hstart : (fresh policy cancelled world : Context B) =
        (fresh policy cancelled (world, Ledger.empty) : Context B.tracked).through B.untracked id :=
      rfl
    rw [hstart]
    exact untracked_afterBuiltins _ calls

end Context

end StepScript
