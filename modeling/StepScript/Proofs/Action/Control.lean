import StepScript.Proofs.Action.Keeps
import Mathlib.Algebra.GroupWithZero.Nat

/-!
# The control actions

Waits, parameters and guards, for runs without a browser. A wait takes the time of the duration that
it names, and the other steps take no time. No step opens a page.
-/

namespace StepScript

variable {B : Backend}

/-! ## Waits -/

/-- The duration that a wait names: a number, or a text that is one apart from the blanks around
it. -/
def WaitTarget.duration? : WaitTarget → Option Nat
  | .duration millis => some millis.toNat
  | .element text =>
    (Numeral.natOfWholeText? (Text.trimChars text.toList)).filter (· < wordLimit)

/-- How many milliseconds a step asks to wait in a context, if it can be expanded there and is a wait
for a duration. -/
def Step.wantedMillis (step : Step) (context : Context B) : Nat :=
  match step.expand context.params context.policy with
  | .ok ⟨_, _, .wait (some target)⟩ => target.duration?.getD 0
  | _ => 0

/-- A wait sleeps if and only if it names a duration. -/
theorem ofTarget_eq_sleep_iff (target : WaitTarget) (millis : Nat) :
    Action.WaitPlan.ofTarget (some target) = .sleep millis ↔ target.duration? = some millis := by
  cases target with
  | duration millis => simp [Action.WaitPlan.ofTarget, WaitTarget.duration?]
  | element text =>
    simp only [Action.WaitPlan.ofTarget, WaitTarget.duration?]
    cases hempty : (Text.trimChars text.toList).isEmpty with
    | true =>
      rw [List.isEmpty_iff.1 hempty]
      simp [Numeral.natOfWholeText?]
    | false =>
      simp only [Bool.false_eq_true, if_false]
      cases (Numeral.natOfWholeText? (Text.trimChars text.toList)).filter (· < wordLimit) with
      | some found => simp
      | none =>
        simp only [reduceCtorEq, iff_false]
        split <;> exact nofun

/-! ## Control actions -/

/-- A context without a page, of a run that nobody cancels. The control actions open no page. -/
def Context.IsBare (context : Context B) : Prop := context.cancelled = false ∧ context.page = none

theorem Context.ignoresPages_isBare : Context.IgnoresPages (Context.IsBare : Context B → Prop) :=
  Context.ignoresPages_of_world fun _ _ h => h

theorem Registry.resolve_control (step : Step) :
    (control : Registry B).resolve step =
      match step.instruction with
      | .wait _ => some .wait
      | .putParam .. => some .putParam
      | .ifGuard _ => some (.guard .ifGuard)
      | .whileGuard _ => some (.guard .whileGuard)
      | _ => none := by
  obtain ⟨name, options, instruction⟩ := step
  cases instruction <;> rfl

/-- The control actions keep what does not depend on the world behind a page. -/
theorem keeps_control {P : Context B → Prop} (hP : Context.IgnoresPages P)
    (hparams : ∀ context params, P context → P { context with params }) (step : Step) :
    Act.Keeps P (carryOut .control step : Act B ActionResult) := by
  refine .bind .context fun context => ?_
  split
  · exact .throw _
  · next expanded _ =>
    rw [Registry.resolve_control]
    obtain ⟨name, options, instruction⟩ := expanded
    cases instruction with
    | wait target => exact (Action.carries_wait hP _).keeps fun _ _ hend => hend.1
    | putParam => exact Action.keeps_putParam hP hparams _
    | ifGuard | whileGuard => exact (Action.carries_guard _ _).keeps fun _ _ hend => hend.1
    | _ => exact .throw _

theorem keeps_control_isBare (step : Step) :
    Act.Keeps Context.IsBare (carryOut .control step : Act B ActionResult) :=
  keeps_control Context.ignoresPages_isBare (fun _ _ h => h) step

def Act.sleptMillis {α : Type} (act : Act B α) (context : Context B) : Nat :=
  ((act.run.run context).pauses.map (·.millis)).sum

section

variable {context : Context B}

theorem sleptMillis_of_pauses {α : Type} {act : Act B α} (h : (act.run.run context).pauses = []) :
    act.sleptMillis context = 0 := by
  rw [Act.sleptMillis, h]
  rfl

/-- A wait for an element waits for nothing, as there is no page. -/
theorem sleptMillis_wait (h : context.IsBare) (name : String) (options : Option Json)
    (target : WaitTarget) :
    (Action.runWait ⟨name, options, .wait (some target)⟩).sleptMillis context =
      sleepSpan (target.duration?.getD 0) := by
  obtain ⟨params, policy, cancelled, browser, page, world⟩ := context
  obtain ⟨rfl, rfl⟩ : cancelled = false ∧ page = none := h
  cases hplan : Action.WaitPlan.ofTarget (some target) with
  | sleep millis =>
    rw [(ofTarget_eq_sleep_iff target millis).1 hplan]
    simp only [Action.runWait, hplan]
    exact Nat.add_zero _
  | nothing | selector | xpath =>
    have hduration : target.duration? = none := by
      cases hduration : target.duration? with
      | none => rfl
      | some millis =>
        cases hplan.symm.trans ((ofTarget_eq_sleep_iff target millis).2 hduration)
    rw [hduration]
    refine sleptMillis_of_pauses ?_
    simp only [Action.runWait, hplan]
    rfl

theorem sleptMillis_putParam (h : context.IsBare) (step : Step) :
    (Action.runPutParam step).sleptMillis context = 0 := by
  obtain ⟨params, policy, cancelled, browser, page, world⟩ := context
  obtain rfl : page = none := h.2
  obtain ⟨name, options, instruction⟩ := step
  refine sleptMillis_of_pauses ?_
  cases instruction with
  | putParam key selector value readFromText isExpression =>
    simp only [Action.runPutParam]
    rcases selector with _ | selector
    · rcases value with _ | text
      · rfl
      · cases isExpression with
        | true =>
          simp only [Action.parameterValue, if_true]
          cases Expr.evaluate text <;> rfl
        | false => rfl
    · rfl
  | _ => rfl

theorem sleptMillis_guard (step : Step) : (Action.runGuard step).sleptMillis context = 0 := by
  refine sleptMillis_of_pauses ?_
  rw [Action.runGuard]
  split
  · rfl
  · next text _ => cases hholds : Expr.holds text <;> rfl

/-- A step is carried out in the time for which it asks to wait. -/
theorem sleptMillis_carryOut_control (h : context.IsBare) (step : Step) :
    (carryOut .control step).sleptMillis context = sleepSpan (step.wantedMillis context) := by
  cases hexpand : step.expand context.params context.policy with
  | error cause =>
    have hwanted : step.wantedMillis context = 0 := by rw [Step.wantedMillis, hexpand]
    rw [Act.sleptMillis, carryOut_of_error hexpand, hwanted]
    rfl
  | ok expanded =>
    rw [Act.sleptMillis, carryOut_of_ok hexpand, Step.wantedMillis, hexpand]
    obtain ⟨name, options, instruction⟩ := expanded
    change (perform .control ⟨name, options, instruction⟩).sleptMillis context = _
    rw [perform, Registry.resolve_control]
    cases instruction with
    | wait target =>
      cases target with
      | none => exact sleptMillis_of_pauses rfl
      | some target => exact sleptMillis_wait h name options target
    | putParam => exact sleptMillis_putParam h _
    | ifGuard | whileGuard => exact sleptMillis_guard _
    | _ => rfl

end

/-! ## Steps that do not wait -/

section

variable (name : String) (context : Context B)

def Act.EndsWith {α : Type} (act : Act B α) (context : Context B) (value : α)
    (after : Context B) : Prop :=
  act.run.run context = ⟨[], .ok value, after⟩

theorem perform_putText (key value : String) :
    (perform .control (.putText name key value)).EndsWith context
      (.succeeded (.putText name key value) (some (.string value)))
      { context with params := context.params.set key (.string value) } := by
  rw [Act.EndsWith, perform, Registry.resolve_control]
  rfl

theorem perform_putExpression {expression : String} {value : Value}
    (h : Expr.evaluate expression = .ok value) (key : String) :
    (perform .control (.putExpression name key expression)).EndsWith context
      (.succeeded (.putExpression name key expression) (some value.toJson))
      { context with params := context.params.set key value.toJson } := by
  rw [Act.EndsWith, perform, Registry.resolve_control]
  change (Action.runPutParam (.putExpression name key expression)).run.run context = _
  simp only [Action.runPutParam, Step.putExpression, Action.parameterValue, h, if_true]
  rfl

theorem perform_whileGuard {expression : String} {holds : Bool}
    (h : Expr.holds expression = .ok holds) :
    (perform .control ⟨name, none, .whileGuard expression⟩).EndsWith context
      (.succeeded ⟨name, none, .whileGuard expression⟩ (some (.bool holds))) context := by
  rw [Act.EndsWith, perform, Registry.resolve_control]
  change (Action.runGuard ⟨name, none, .whileGuard expression⟩).run.run context = _
  simp only [Action.runGuard, Step.guardText?, h]
  rfl

end

/-! ## Setups -/

structure Setup.IsPlain (setup : Setup B) : Prop where
  registry : setup.registry = .control
  interceptors : setup.interceptors = []

variable {setup : Setup B} {context : Context B}

theorem Setup.IsPlain.trip_eq (hsetup : setup.IsPlain) (step : Step) (context : Context B) :
    trip setup step context = (carryOut .control step).run.run context := by
  rw [trip, hsetup.registry, hsetup.interceptors]
  rfl

/-- A context stays bare on the way of a step. -/
theorem Setup.IsPlain.isBare_afterTrip (hsetup : setup.IsPlain) (h : context.IsBare) (step : Step) :
    (afterTrip setup step context).IsBare := by
  obtain ⟨hpauses, hstate⟩ := keeps_control_isBare step context h
  rw [← hsetup.trip_eq] at hpauses hstate
  have hrunning := (seePauses_isRunning h.1 (fun pause hpause => (hpauses pause hpause).1) hstate.1).2
  obtain ⟨cancelled, hafter⟩ := seePauses_after context (trip setup step context).state
    (trip setup step context).pauses
  refine ⟨hrunning, ?_⟩
  rw [afterTrip, hafter]
  exact hstate.2

end StepScript
