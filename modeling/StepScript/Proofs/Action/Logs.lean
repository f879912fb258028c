import StepScript.Proofs.Action.Correspondence
import StepScript.Rehearsal.Layers

/-!
# Logs

A world may hold a log to which activities append. What already stands there does not matter for
them: behind a longer log they do the same. This is so for the built-in actions if it is for the
operations of the backend, and a rehearsal has such a log.
-/

namespace StepScript

variable {B : Backend} {α β E : Type}

/-- A log in the world of a backend. -/
structure EventLog (B : Backend) (E : Type) where
  events : B.World → List E
  replace : B.World → List E → B.World
  events_replace : ∀ world log, events (replace world log) = log
  replace_events : ∀ world, replace world (events world) = world
  replace_replace : ∀ world first second, replace (replace world first) second = replace world second

namespace EventLog

variable (log : EventLog B E)

def read (context : Context B) : List E := log.events context.world

def write (context : Context B) (events : List E) : Context B :=
  { context with world := log.replace context.world events }

def erase (context : Context B) : Context B := log.write context []

/-- The context with a log to which something is prepended. -/
def behind (front : List E) (context : Context B) : Context B :=
  log.write context (front ++ log.read context)

@[simp] theorem read_write (context : Context B) (events : List E) :
    log.read (log.write context events) = events :=
  log.events_replace _ _

@[simp] theorem write_write (context : Context B) (first second : List E) :
    log.write (log.write context first) second = log.write context second := by
  simp only [write, log.replace_replace]

@[simp] theorem write_read (context : Context B) : log.write context (log.read context) = context := by
  simp only [write, read, log.replace_events]

@[simp] theorem erase_write (context : Context B) (events : List E) :
    log.erase (log.write context events) = log.erase context :=
  log.write_write _ _ _

@[simp] theorem erase_behind (front : List E) (context : Context B) :
    log.erase (log.behind front context) = log.erase context :=
  log.write_write _ _ _

/-- Every context comes from one with an empty log. -/
theorem behind_erase (context : Context B) (events : List E) :
    log.behind events (log.erase context) = log.write context events := by
  simp only [behind, erase, read_write, write_write, List.append_nil]

/-! ## Appending -/

/-- What already stands in the log does not matter for an activity, which only appends to it. -/
def OnlyAppends (act : Act B α) : Prop := ∀ front, Act.Mirrors (log.behind front) id act act

/-- What already stands in the log does not matter for the operations of the backend. -/
def OperationsAppend : Prop :=
  ∀ front, ∃ view : Backend.View B B, ∀ context, log.behind front context = context.through view id

end EventLog

def Registry.OnlyAppends (registry : Registry B) (log : EventLog B E) : Prop :=
  ∀ step action, registry.resolve step = some action →
    ∀ expanded, log.OnlyAppends (action.run expanded)

/-- The built-in actions append to a log only through the operations of the backend. -/
theorem Action.onlyAppends_of_mem_builtins {log : EventLog B E} (hlog : log.OperationsAppend)
    {action : Action B} (h : action ∈ Registry.builtins) (step : Step) :
    log.OnlyAppends (action.run step) := by
  intro front
  obtain ⟨view, hview⟩ := hlog front
  rw [funext hview]
  refine Registry.forall_mem_builtins (motive := fun action => action.Mirrors view id action)
    ?_ ?_ ?_ ?_ ?_ ?_ ?_ ?_ action h step
  · exact mirrors_openBrowser
  · exact mirrors_wait
  · exact mirrors_openPage
  · exact mirrors_putParam
  · exact mirrors_guard _
  · exact mirrors_guard _
  · exact mirrors_inputText
  · exact mirrors_closeBrowser

/-- Carrying out a step only appends to the log if the actions do. -/
theorem Registry.OnlyAppends.carryOut {registry : Registry B} {log : EventLog B E}
    (h : registry.OnlyAppends log) (step : Step) :
    log.OnlyAppends (carryOut registry step) := by
  intro front
  refine .bind .context fun context => ?_
  have hexpand : step.expand (log.behind front context).params (log.behind front context).policy =
      step.expand context.params context.policy := rfl
  rw [hexpand]
  cases step.expand context.params context.policy with
  | error cause => exact .throw _
  | ok expanded =>
    dsimp only
    cases hresolve : registry.resolve expanded with
    | none => exact .throw _
    | some action => exact h expanded action hresolve expanded front

/-! ## Rehearsals -/

namespace Rehearsal

open Activity

def eventLog : EventLog backend String where
  events world := World.events world |>.toList
  replace world events := { world with events := events.toArray }
  events_replace _ _ := rfl
  replace_events _ := rfl
  replace_replace _ _ _ := rfl

def World.behind (front : List String) (world : World) : World :=
  { world with events := (front ++ world.events.toList).toArray }

section

variable (front : List String)

theorem World.behind_log (world : World) (event : String) :
    (world.behind front).log event = (world.log event).behind front := by
  simp [World.behind, World.log]

theorem mirrors_logged (event : String) :
    Mirrors (World.behind front) id (logged event) (logged event) :=
  .update fun world => world.behind_log front event

theorem mirrors_failing {g : α → β} (options : Option Json) (key : String)
    {act : Activity World (Except ActionError α)} {act' : Activity World (Except ActionError β)}
    (h : Mirrors (World.behind front) (Except.map g) act act') :
    Mirrors (World.behind front) (Except.map g) (failing options key act)
      (failing options key act') := by
  unfold failing
  cases optionText? options key with
  | some message => exact .pure _
  | none => exact h

theorem mirrors_withElement (selector : String) {use : Element → Activity World α}
    (h : ∀ element, Mirrors (World.behind front) id (use element) (use element)) :
    Mirrors (World.behind front) (Except.map id) (withElement selector use)
      (withElement selector use) := by
  refine .bind .getState fun world => ?_
  have helements : (world.behind front).elements = world.elements := rfl
  simp only [helements]
  cases world.elements.get? selector with
  | none => exact .pure _
  | some element => exact .bind (h element) fun result => .pure _

theorem mirrors_putElement (selector : String) (element : Element) :
    Mirrors (World.behind front) id (putElement selector element) (putElement selector element) :=
  .update fun _ => rfl

/-- A rehearsal does the same behind a longer log. -/
def behind : Backend.View backend backend where
  world := World.behind front
  browser := id
  page := id
  launch options := mirrors_failing front options _ <|
    .bind (.update fun _ => rfl) fun _ => .bind .getState fun _ =>
      .bind (mirrors_logged front _) fun _ => .pure _
  newPage browser := mirrors_failing front browser.options _ <|
    .bind (.update fun _ => rfl) fun _ => .bind .getState fun _ =>
      .bind (mirrors_logged front _) fun _ => .pure _
  close browser := mirrors_failing front browser.options _ <|
    .bind (mirrors_logged front _) fun _ => .pure _
  goto page url options := by
    change Mirrors _ _ (goto page url options) (goto page url options)
    unfold goto
    split
    · exact .pure _
    · exact .bind (mirrors_logged front _) fun _ => .pure _
  typeText _ selector _ := mirrors_withElement front selector fun _ =>
    .bind (mirrors_putElement front _ _) fun _ => mirrors_logged front _
  setValue _ selector _ := mirrors_withElement front selector fun _ =>
    .bind (mirrors_putElement front _ _) fun _ => mirrors_logged front _
  readText _ selector := mirrors_withElement front selector fun _ => .pure _
  readValue _ selector := mirrors_withElement front selector fun _ => .pure _
  waitForSelector _ selector := mirrors_withElement front selector fun _ =>
    .bind (.sleep _) fun _ => mirrors_logged front _
  waitForXPath _ _ := Mirrors.bind (mirrors_logged front _) fun _ => .pure _

end

/-- The operations of a rehearsal only append to its log. -/
theorem operationsAppend : eventLog.OperationsAppend := by
  intro front
  refine ⟨behind front, fun context => ?_⟩
  simp only [Context.through, behind, Option.map_id_fun, id]
  rfl

/-- An action that leaves a mark only appends to the log. -/
theorem onlyAppends_mark (mark : Mark) (step : Step) : eventLog.OnlyAppends (mark.action.run step) := by
  intro front
  have hevent : Act.Mirrors (eventLog.behind front) id (logEvent ("mark " ++ step.name))
      (logEvent ("mark " ++ step.name)) := by
    refine .update fun context => ?_
    exact congrArg (fun world => { context with world }) (World.behind_log front context.world _)
  refine .bind hevent fun _ => ?_
  split
  · exact .throw _
  · exact .pure _
  · exact .pure _

/-- The registries of rehearsals hold built-in actions and marks, which only append to the log. -/
theorem onlyAppends_of_resolve {registry : Registry backend}
    (h : ∀ step action, registry.resolve step = some action →
      action ∈ Registry.builtins ∨ ∃ mark : Mark, action = mark.action) :
    registry.OnlyAppends eventLog := by
  intro step action haction expanded
  rcases h step action haction with hbuiltin | ⟨mark, rfl⟩
  · exact Action.onlyAppends_of_mem_builtins operationsAppend hbuiltin expanded
  · exact onlyAppends_mark mark expanded

end Rehearsal

end StepScript
