import StepScript.Proofs.Action.Control
import StepScript.Proofs.Run.Uncut
import StepScript.Proofs.Run.Walks
import StepScript.Rehearsal.Browser

/-!
# The time that a run takes

A run with the control actions spends its time on two things: the waits that it dispatches and the
pauses after the rounds of its loops. Guards, branches and parameters take no time, and neither does
a step that fails before it waits.
-/

namespace StepScript

variable {B : Backend}

/-! ## Waits -/

/-- How long a dispatch waits. No sleep lasts longer than thirty years. -/
def Moment.waitedMillis (moment : Moment B) : Nat :=
  match moment.signal with
  | .dispatch step => sleepSpan (step.wantedMillis moment.context)
  | _ => 0

/-- How long the dispatches among some moments wait. -/
def waitedMillis (moments : List (Moment B)) : Nat := (moments.map Moment.waitedMillis).sum

theorem waitedMillis_append (first second : List (Moment B)) :
    waitedMillis (first ++ second) = waitedMillis first + waitedMillis second := by
  simp only [waitedMillis, List.map_append, List.sum_append]

theorem waitedMillis_cons (moment : Moment B) (moments : List (Moment B)) :
    waitedMillis (moment :: moments) = moment.waitedMillis + waitedMillis moments := by
  simp only [waitedMillis, List.map_cons, List.sum_cons]

/-! ## Dispatches -/

/-- The pauses on the way of a step last as long as it sleeps. -/
theorem idleMillis_seePauses (before last : Context B)
    (pauses : List (Activity.Pause (Context B))) :
    idleMillis (seePauses before pauses last).1 = (pauses.map (·.millis)).sum := by
  induction pauses generalizing before with
  | nil => rfl
  | cons pause pauses ih =>
    rw [seePauses, idleMillis_cons, ih, List.map_cons, List.sum_cons]
    rfl

theorem idleMillis_eq_zero {moments : List (Moment B)}
    (h : ∀ moment ∈ moments, moment.signal.pauseMillis = 0) : idleMillis moments = 0 := by
  refine List.sum_eq_zero_iff_forall_eq_nat.2 fun millis hmillis => ?_
  obtain ⟨moment, hmoment, rfl⟩ := List.mem_map.1 hmillis
  exact h moment hmoment

/-- Only dispatches wait. -/
theorem waitedMillis_eq_zero {moments : List (Moment B)}
    (h : ∀ moment ∈ moments, moment.signal.dispatched? = none) : waitedMillis moments = 0 := by
  refine List.sum_eq_zero_iff_forall_eq_nat.2 fun millis hmillis => ?_
  obtain ⟨⟨signal, context⟩, hmoment, rfl⟩ := List.mem_map.1 hmillis
  cases signal with
  | dispatch step => cases h _ hmoment
  | sleep | stepAside | emit => rfl

variable {setup : Setup B} {context : Context B}

/-- Some moments take the time of their waits and one interval between rounds for each of some
rounds. -/
def Setup.Spends (setup : Setup B) (moments : List (Moment B)) (rounds : Nat) : Prop :=
  idleMillis moments = waitedMillis moments + rounds * sleepSpan setup.pollMillis

theorem Setup.Spends.nil : setup.Spends [] 0 := by
  rw [Setup.Spends, Nat.zero_mul]
  rfl

theorem Setup.Spends.append {first second : List (Moment B)} {m n : Nat}
    (h : setup.Spends first m) (h' : setup.Spends second n) :
    setup.Spends (first ++ second) (m + n) := by
  unfold Setup.Spends at h h' ⊢
  rw [idleMillis_append, waitedMillis_append, h, h', Nat.add_mul]
  omega

/-- Moments without a round in front of others. -/
theorem Setup.Spends.before {first second : List (Moment B)} {n : Nat} (h : setup.Spends first 0)
    (h' : setup.Spends second n) : setup.Spends (first ++ second) n := by
  have hboth := h.append h'
  rwa [Nat.zero_add] at hboth

theorem Setup.spends_shown (context : Context B) (results : List ActionResult) :
    setup.Spends (shown context results) 0 := by
  have hidle : ∀ moment ∈ shown context results, moment.signal.pauseMillis = 0 := by
    intro moment hmoment
    obtain ⟨result, -, rfl⟩ := List.mem_map.1 hmoment
    rfl
  have hwaited : ∀ moment ∈ shown context results, moment.signal.dispatched? = none := by
    intro moment hmoment
    obtain ⟨result, -, rfl⟩ := List.mem_map.1 hmoment
    rfl
  rw [Setup.Spends, idleMillis_eq_zero hidle, waitedMillis_eq_zero hwaited, Nat.zero_mul]

/-- The pause after a round lasts as long as the interval between rounds. -/
theorem Setup.spends_pauseBetween (h : context.cancelled = false) :
    setup.Spends (Machine.pauseBetween setup context) 1 := by
  have hwaited : waitedMillis (Machine.pauseBetween setup context) = 0 :=
    waitedMillis_eq_zero fun _ hmoment =>
      Collect.dispatched?_of_isPause (Machine.isPause_pauseBetween hmoment).1
  rw [Setup.Spends, hwaited, Nat.zero_add, Nat.one_mul, Machine.pauseBetween]
  split
  · next hnone =>
    rw [hnone]
    rfl
  · rw [h]
    exact Nat.add_zero _

/-- A dispatch takes the time for which its step asks to wait, and leaves the context bare. -/
theorem Setup.IsPlain.dispatch (hsetup : setup.IsPlain) (h : context.IsBare) (step : Step) :
    setup.Spends (dispatch setup step context).moments 0 ∧
      (dispatch setup step context).context.IsBare := by
  rcases dispatch_cases setup step context with hnone | ⟨failures, hmoments, hcontext, -⟩
  · rw [hnone]
    exact ⟨.nil, h⟩
  have htrip : setup.Spends (⟨.dispatch step, context⟩ :: tripPauses setup step context) 0 := by
    have hwaited : waitedMillis (tripPauses setup step context) = 0 :=
      waitedMillis_eq_zero fun _ hmoment =>
        Collect.dispatched?_of_isPause (isPause_of_mem_tripPauses hmoment)
    have hidle : idleMillis (tripPauses setup step context) =
        sleepSpan (step.wantedMillis context) := by
      rw [tripPauses, idleMillis_seePauses, hsetup.trip_eq]
      exact sleptMillis_carryOut_control h step
    rw [Setup.Spends, idleMillis_cons, waitedMillis_cons, hidle, hwaited, Nat.zero_mul]
    exact Nat.zero_add _
  rw [hmoments, hcontext]
  exact ⟨htrip.append (Setup.spends_shown _ failures), hsetup.isBare_afterTrip h step⟩

/-! ## Walks -/

/-- A walk takes the time of its waits and one interval for every round that was completed. -/
theorem Walks.spends (hsetup : setup.IsPlain) {nodes : List Node} {last : Context B}
    {moments : List (Moment B)} {rounds : Nat} {error : Option RunError}
    (hwalks : Walks setup nodes context moments rounds error last) (h : context.IsBare) :
    setup.Spends moments rounds ∧ last.IsBare := by
  have hdispatch : ∀ {step : Step} {context after : Context B} {moments : List (Moment B)}
      {outcome : Except RunError ActionResult}, context.IsBare →
      StepScript.dispatch setup step context = ⟨moments, outcome, after⟩ →
        setup.Spends moments 0 ∧ after.IsBare := by
    intro step context after moments outcome hbare hstep
    have hboth := hsetup.dispatch hbare step
    rw [hstep] at hboth
    exact hboth
  have hemit : ∀ (context : Context B) (result : ActionResult),
      setup.Spends [⟨.emit result, context⟩] 0 :=
    fun context result => Setup.spends_shown context [result]
  induction hwalks with
  | done => exact ⟨.nil, h⟩
  | fails _ hstep => exact hdispatch h hstep
  | sequential _ hstep _ ih =>
    obtain ⟨hbefore, hafter⟩ := hdispatch h hstep
    obtain ⟨hlater, hlast⟩ := ih hafter
    exact ⟨(hbefore.before (hemit _ _)).before hlater, hlast⟩
  | branchFails _ hguard _ ih =>
    obtain ⟨hbefore, hafter⟩ := hdispatch h hguard
    obtain ⟨hwithin, hlast⟩ := ih hafter
    exact ⟨(hbefore.before (hemit _ _)).before hwithin, hlast⟩
  | conditional _ hguard _ _ ih ih' =>
    obtain ⟨hbefore, hafter⟩ := hdispatch h hguard
    obtain ⟨hwithin, hmiddle⟩ := ih hafter
    obtain ⟨hlater, hlast⟩ := ih' hmiddle
    exact ⟨(hbefore.before (hemit _ _)).before (hwithin.append hlater), hlast⟩
  | loopEnds _ hguard _ _ ih =>
    obtain ⟨hbefore, hafter⟩ := hdispatch h hguard
    obtain ⟨hlater, hlast⟩ := ih hafter
    exact ⟨hbefore.before hlater, hlast⟩
  | bodyFails _ hguard _ _ ih =>
    obtain ⟨hbefore, hafter⟩ := hdispatch h hguard
    obtain ⟨hwithin, hlast⟩ := ih hafter
    exact ⟨hbefore.before hwithin, hlast⟩
  | round _ hguard _ _ _ ih ih' =>
    obtain ⟨hbefore, hafter⟩ := hdispatch h hguard
    obtain ⟨hwithin, hmiddle⟩ := ih hafter
    obtain ⟨hlater, hlast⟩ := ih' hmiddle
    have hround := (hwithin.append (Setup.spends_pauseBetween hmiddle.1)).append hlater
    exact ⟨hbefore.before hround, hlast⟩

/-! ## Runs -/

namespace Run

variable {run : Run B} {fuel turn : Nat} {cancelled : Bool} {world : B.World} {outcome : Outcome B}

/-- A run that ends by itself has its script rejected, or it goes through a walk of its plan, and then
its outcome consists of what is seen of any such walk. -/
theorem collect_walks (h : run.collect fuel cancelled world turn = some outcome)
    (huncut : outcome.IsUncut) :
    (∃ cause, Plan.resolve run.script.steps = .error cause ∧
      outcome.Shows [] (some (.plan cause)) (.fresh run.settings.policy cancelled world) ∧
      outcome.elapsed = 0) ∨
    ∃ nodes, Plan.resolve run.script.steps = .ok nodes ∧
      (∃ moments rounds, Walks run.setup nodes (.fresh run.settings.policy false world) moments
        rounds outcome.error outcome.context) ∧
      ∀ moments rounds error last,
        Walks run.setup nodes (.fresh run.settings.policy false world) moments rounds error last →
          outcome.Shows moments error last ∧ outcome.elapsed = idleMillis moments := by
  obtain ⟨n, moments, htrace, hshows, -, helapsed⟩ := collect_uncut h huncut
  have hcalm : outcome.error ≠ some .cancelled := by
    intro herror
    exact absurd (huncut _ herror) (by decide)
  cases hplan : Plan.resolve run.script.steps with
  | error cause =>
    rw [start_rejected hplan, Machine.trace_ended] at htrace
    simp only [Prod.mk.injEq, Machine.Next.ended.injEq] at htrace
    obtain ⟨rfl, herror, hcontext⟩ := htrace
    rw [← herror, ← hcontext] at hshows
    exact .inl ⟨cause, rfl, hshows, helapsed⟩
  | ok nodes =>
    cases cancelled with
    | true =>
      rw [start_cancelled hplan, Machine.trace_ended] at htrace
      simp only [Prod.mk.injEq, Machine.Next.ended.injEq] at htrace
      exact absurd htrace.2.1.symm hcalm
    | false =>
      rw [start_running hplan] at htrace
      have hends : EndsIn run.setup n
          (.resume ⟨[.visit nodes], .fresh run.settings.policy false world⟩) outcome.error
            outcome.context :=
        congrArg Prod.snd htrace
      refine .inr ⟨nodes, rfl, exists_walks hcalm hends, ?_⟩
      intro walked rounds error last hwalks
      obtain ⟨m, hm⟩ := hwalks.exists_trace
      obtain ⟨rfl, rfl, rfl⟩ := trace_ended_unique hm htrace
      exact ⟨hshows, helapsed⟩

/-- The time that a run with the control actions takes, however it ends, unless it is cut short: the
durations of the waits that were dispatched, and one interval, of whole milliseconds, for each round
of a loop that was completed. -/
theorem elapsed_control (hregistry : run.registry = .control) (hinterceptors : run.interceptors = [])
    (h : run.collect fuel cancelled world turn = some outcome) (huncut : outcome.IsUncut) :
    (∃ cause, Plan.resolve run.script.steps = .error cause ∧ outcome.error = some (.plan cause) ∧
      outcome.dispatches = #[] ∧ outcome.elapsed = 0) ∨
    ∃ nodes, Plan.resolve run.script.steps = .ok nodes ∧
      (∃ moments rounds, Walks run.setup nodes (.fresh run.settings.policy false world) moments
        rounds outcome.error outcome.context) ∧
      ∀ moments rounds error last,
        Walks run.setup nodes (.fresh run.settings.policy false world) moments rounds error last →
          outcome.dispatches.toList.map Prod.snd = dispatchedSteps moments ∧
          outcome.elapsed =
            waitedMillis moments + rounds * sleepSpan run.settings.pollMillis := by
  have hplain : run.setup.IsPlain := ⟨hregistry, hinterceptors⟩
  have hbare : (Context.fresh run.settings.policy false world : Context B).IsBare := ⟨rfl, rfl⟩
  rcases collect_walks h huncut with ⟨cause, hplan, ⟨hsteps, -, herror, -⟩, helapsed⟩ |
    ⟨nodes, hplan, hwalks, hall⟩
  · have hnone := Array.toList_eq_nil_iff.1 (List.map_eq_nil_iff.1 hsteps)
    exact .inl ⟨cause, hplan, herror, hnone, helapsed⟩
  · refine .inr ⟨nodes, hplan, hwalks, fun moments rounds error last hwalk => ?_⟩
    obtain ⟨⟨hsteps, -⟩, helapsed⟩ := hall moments rounds error last hwalk
    exact ⟨hsteps, helapsed.trans (hwalk.spends hplain hbare).1⟩

/-- A run that waits in each of two rounds, and once more behind them. -/
def patience : Run Rehearsal.backend :=
  { script :=
      { name := "patience"
        steps :=
          [.putText "start" "n" "0", { name := "again", instruction := .whileGuard "$\x7bn\x7d<2" },
            .waitFor "rest" " 7 ", .putExpression "count" "n" "$\x7bn\x7d+1",
            { name := "done", instruction := .endWhile }, .waitMillis "last" 5] }
    registry := .control
    settings := { pollMillis := 10 } }

/-- Two waits of seven milliseconds, one of five, and two intervals of ten. -/
theorem elapsed_patience : ∃ outcome, patience.collect 40 false {} = some outcome ∧
    outcome.IsUncut ∧ ∃ nodes moments rounds, Plan.resolve patience.script.steps = .ok nodes ∧
      Walks patience.setup nodes (.fresh .lenient false {}) moments rounds none outcome.context ∧
      outcome.elapsed = waitedMillis moments + rounds * sleepSpan 10 ∧ outcome.elapsed = 39 := by
  have hrun : (patience.collect 40 false {}).map (fun outcome => (outcome.error, outcome.elapsed)) =
      some (none, 39) := by
    decide +kernel
  obtain ⟨outcome, hcollect, hends⟩ := Option.map_eq_some_iff.1 hrun
  obtain ⟨herror, helapsed⟩ := Prod.mk.inj hends
  have huncut : outcome.IsUncut := by
    intro error h
    rw [herror] at h
    cases h
  refine ⟨outcome, hcollect, huncut, ?_⟩
  rcases elapsed_control rfl rfl hcollect huncut with ⟨cause, -, hplan, -⟩ |
    ⟨nodes, hplan, ⟨moments, rounds, hwalks⟩, hall⟩
  · rw [herror] at hplan
    cases hplan
  · obtain ⟨-, htime⟩ := hall _ _ _ _ hwalks
    rw [herror] at hwalks
    exact ⟨nodes, moments, rounds, hplan, hwalks, htime, helapsed⟩

/-- A wait for more than thirty years, and one that cannot be expanded. -/
def longWaits : Run Rehearsal.backend :=
  { script :=
      { name := "long waits"
        steps := [.waitMillis "a" 946080000001, .waitMillis "$\x7bx\x7d" 5] }
    registry := .control
    settings := { policy := .strict } }

/-- Both waits are dispatched and the run fails in the second one. It takes less time than the two
durations: the first wait is over after thirty years, and the second does not begin. -/
theorem elapsed_longWaits : ∃ outcome, longWaits.collect 8 false {} = some outcome ∧
    outcome.error = some (.actionExecution "$\x7bx\x7d" "parameter 'x' is not set") ∧
    outcome.dispatches.toList.map (·.2.name) = ["a", "$\x7bx\x7d"] ∧
    outcome.elapsed ≠ 946080000001 + 5 ∧ outcome.elapsed ≠ 946080000001 := by
  have hrun : (longWaits.collect 8 false {}).map (fun outcome =>
      (outcome.error, outcome.dispatches.toList.map (·.2.name), outcome.elapsed)) =
        some (some (.actionExecution "$\x7bx\x7d" "parameter 'x' is not set"),
          ["a", "$\x7bx\x7d"], 946080000000) := by
    decide +kernel
  obtain ⟨outcome, hcollect, hends⟩ := Option.map_eq_some_iff.1 hrun
  simp only [Prod.mk.injEq] at hends
  obtain ⟨herror, hsteps, helapsed⟩ := hends
  refine ⟨outcome, hcollect, herror, hsteps, ?_, ?_⟩
  all_goals
    rw [helapsed]
    decide

end Run

end StepScript
