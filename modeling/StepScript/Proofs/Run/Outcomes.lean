import StepScript.Proofs.Plan.Resolution
import StepScript.Proofs.Run.Disturbed
import StepScript.Rehearsal.Layers

/-!
# Outcomes of collected runs

Whatever ends a collected run, its records and its error belong together. A run ends in one of four
ways: its script is rejected, it comes to a step that no action supports, a dispatch fails, or it
ends calmly, which is at its end or where it is cut short.

## Main definitions

- `Collect.Journal` — what a run has recorded
- `Run.Ends` — the four ways in which a run ends
- `Run.WellFormed` — what holds of every outcome

## Main results

- `Collect.ObservesAll.dispatched` — what the moments of a dispatch add to the journal
- `Run.Yields.ends` — every run ends in one of the four ways
- `Run.Yields.forall_results` — what holds of the results of dispatches holds of all results
- `Run.Yields.wellFormed` — every outcome is well formed
-/

namespace StepScript

variable {B : Backend}

/-- Whether an error cuts a run short from outside. -/
def RunError.isCut : RunError → Bool
  | .cancelled | .timedOut _ => true
  | .unsupportedStep .. | .actionExecution .. | .expressionEvaluation .. | .plan _ => false

/-- Whether an error says that a dispatch failed. -/
def RunError.isFailure : RunError → Bool
  | .actionExecution .. | .expressionEvaluation .. => true
  | .unsupportedStep .. | .plan _ | .cancelled | .timedOut _ => false

namespace Collect

structure Journal where
  results : Array ActionResult
  emitted : Nat
  dispatches : Array (Nat × Step)

def State.journal (state : State B) : Journal := ⟨state.results, state.emitted, state.dispatches⟩

end Collect

def Outcome.journal (outcome : Outcome B) : Collect.Journal :=
  ⟨outcome.results, outcome.emitted, outcome.dispatches⟩

namespace Collect

def Journal.dispatch (journal : Journal) (time : Nat) (step : Step) : Journal :=
  { journal with dispatches := journal.dispatches.push (time, step) }

def Journal.emit (journal : Journal) (results : List ActionResult) : Journal :=
  { journal with
    results := journal.results ++ results.toArray
    emitted := journal.emitted + results.length }

theorem State.journal_finish (state : State B) (error : Option RunError) (context : Context B) :
    (state.finish error context).journal = state.journal :=
  rfl

/-! ## Moments and the journal -/

/-- A run goes on with a journal, or has been cut short with it. -/
inductive Leaves (journal : Journal) : Except (Outcome B) (State B) → Prop where
  | running {state : State B} (h : state.journal = journal) : Leaves journal (.ok state)
  | cut {outcome : Outcome B} {error : RunError} (h : outcome.journal = journal)
      (herror : outcome.error = some error) (hcut : error.isCut = true) :
      Leaves journal (.error outcome)

theorem Leaves.bind {journal : Journal} {first : Except (Outcome B) (State B)}
    {next : State B → Except (Outcome B) (State B)} (h : Leaves journal first)
    (hnext : ∀ state : State B, state.journal = journal → Leaves journal (next state)) :
    Leaves journal (first >>= next) := by
  cases h with
  | running h => exact hnext _ h
  | cut h herror hcut => exact .cut h herror hcut

theorem State.wait_leaves (timeout : Option Nat) (state : State B) (millis : Nat)
    (context : Context B) : Leaves state.journal (state.wait timeout millis context) := by
  unfold State.wait
  dsimp only
  split
  · split
    · exact .cut rfl rfl rfl
    · split
      · exact .cut rfl rfl rfl
      · split
        · exact .cut rfl rfl rfl
        · exact .running rfl
  · split
    · exact .cut rfl rfl rfl
    · exact .running rfl

theorem State.sleep_leaves (timeout : Option Nat) (state : State B) (millis : Nat)
    (context : Context B) : Leaves state.journal (state.sleep timeout millis context) := by
  have hasleep : ∀ awake : State B, awake.journal = state.journal → Leaves state.journal (do
      let awake ← if millis = 0 then pure awake else awake.wait timeout millis context
      return { awake with turn := awake.turn - 1 }) := by
    intro awake hawake
    split
    · exact .running hawake
    · have hwait := awake.wait_leaves timeout millis context
      rw [hawake] at hwait
      exact hwait.bind fun _ hwoken => .running hwoken
  unfold State.sleep
  dsimp only
  by_cases hturn : state.turn = 0
  · rw [if_pos hturn]
    exact (state.wait_leaves timeout 0 context).bind hasleep
  · rw [if_neg hturn]
    exact hasleep state rfl

variable {timeout : Option Nat} {state : State B} {moment : Moment B}
  {moments : List (Moment B)} {result : Except (Outcome B) (State B)}

theorem Observes.pause (h : Observes timeout state moment result)
    (hpause : moment.signal.isPause = true) : Leaves state.journal result := by
  obtain ⟨signal, context⟩ := moment
  cases h with
  | undisturbed =>
    cases signal with
    | dispatch | emit => cases hpause
    | sleep millis => exact state.sleep_leaves timeout millis context
    | stepAside => exact state.wait_leaves timeout 0 context
  | cancelled => exact .cut rfl rfl rfl

/-- Pauses leave the journal as it is. -/
theorem ObservesAll.pauses (h : ObservesAll timeout state moments result)
    (hpauses : ∀ moment ∈ moments, moment.signal.isPause = true) :
    Leaves state.journal result := by
  induction h with
  | nil => exact .running rfl
  | stop h => exact h.pause (hpauses _ (List.mem_cons_self ..))
  | cons h _ ih =>
    have hmoment := h.pause (hpauses _ (List.mem_cons_self ..))
    have hrest := ih fun later hlater => hpauses later (List.mem_cons_of_mem _ hlater)
    cases hmoment with
    | running hstate => exact hstate ▸ hrest

theorem Observes.emitted {shownResult : ActionResult} {context : Context B}
    (h : Observes timeout state ⟨.emit shownResult, context⟩ result) :
    ∃ state', result = .ok state' ∧ state'.journal = state.journal.emit [shownResult] := by
  cases h with
  | undisturbed =>
    refine ⟨_, rfl, ?_⟩
    simp [State.journal, Journal.emit]
  | cancelled hwaits => cases hwaits

/-- Results that are handed out are recorded. -/
theorem ObservesAll.shown {context : Context B} {results : List ActionResult}
    (h : ObservesAll timeout state (StepScript.shown context results) result) :
    ∃ state', result = .ok state' ∧ state'.journal = state.journal.emit results := by
  induction results generalizing state with
  | nil =>
    cases h
    refine ⟨state, rfl, ?_⟩
    simp [Journal.emit]
  | cons first rest ih =>
    cases h with
    | stop h =>
      obtain ⟨_, hcontra, -⟩ := h.emitted
      cases hcontra
    | cons h hrest =>
      obtain ⟨_, hstate, hjournal⟩ := h.emitted
      cases hstate
      obtain ⟨last, hlast, hlastJournal⟩ := ih hrest
      refine ⟨last, hlast, ?_⟩
      rw [hlastJournal, hjournal]
      simp [Journal.emit, Nat.add_assoc, Nat.add_comm]

/-- A dispatch is recorded, and so are the results at its end unless the run is cut short before. -/
theorem ObservesAll.dispatched {setup : Setup B} {step : Step} {before after : Context B}
    {results : List ActionResult}
    (h : ObservesAll timeout state
      (⟨.dispatch step, before⟩ :: tripPauses setup step before ++ StepScript.shown after results)
      result) :
    (∃ outcome error, result = .error outcome ∧ outcome.error = some error ∧
      error.isCut = true ∧ outcome.journal = state.journal.dispatch state.clock step) ∨
    ∃ state', result = .ok state' ∧
      state'.journal = (state.journal.dispatch state.clock step).emit results := by
  rw [List.cons_append] at h
  cases h with
  | stop h => cases h with | cancelled hwaits => cases hwaits
  | cons hdispatch hrest =>
    cases hdispatch
    have hpauses : ∀ moment ∈ tripPauses setup step before, moment.signal.isPause = true :=
      fun moment hmoment => isPause_of_mem_tripPauses hmoment
    rcases hrest.append with ⟨outcome, rfl, hcut⟩ | ⟨state', hstate', hshown⟩
    · cases hcut.pauses hpauses with
      | cut hjournal herror hcut => exact .inl ⟨outcome, _, rfl, herror, hcut, hjournal⟩
    · cases hstate'.pauses hpauses with
      | running hjournal =>
        obtain ⟨last, hlast, hlastJournal⟩ := hshown.shown
        exact .inr ⟨last, hlast, hlastJournal.trans (congrArg (·.emit results) hjournal)⟩

end Collect

namespace Run

open Collect

variable {run : Run B} {cancelled : Bool} {world : B.World} {turn : Nat}

/-! ## Runs that have not ended -/

/-- The journal of a run as long as no dispatch has failed. -/
structure Tidy (run : Run B) (journal : Journal) : Prop where
  emitted : journal.emitted = journal.results.size
  successes : ∀ result ∈ journal.results, result.success = true
  dispatched : ∀ entry ∈ journal.dispatches,
    entry.2 ∈ run.script.steps ∧ (run.registry.resolve entry.2).isSome

theorem Tidy.start (run : Run B) (turn : Nat) : run.Tidy (beginning turn : Collect.State B).journal :=
  ⟨rfl, fun _ h => absurd h (Array.not_mem_empty _), fun _ h => absurd h (Array.not_mem_empty _)⟩

theorem Tidy.dispatch {journal : Journal} {time : Nat} {step : Step} (h : run.Tidy journal)
    (hstep : step ∈ run.script.steps) (hresolve : (run.registry.resolve step).isSome) :
    run.Tidy (journal.dispatch time step) := by
  refine ⟨h.emitted, h.successes, fun entry hentry => ?_⟩
  rcases Array.mem_push.1 hentry with hentry | rfl
  · exact h.dispatched entry hentry
  · exact ⟨hstep, hresolve⟩

theorem Tidy.emit {journal : Journal} {results : List ActionResult} (h : run.Tidy journal)
    (hresults : ∀ result ∈ results, result.success = true) : run.Tidy (journal.emit results) := by
  refine ⟨?_, fun result hresult => ?_, h.dispatched⟩
  · simp [Journal.emit, h.emitted]
  · rcases Array.mem_append.1 hresult with hresult | hresult
    · exact h.successes result hresult
    · exact hresults result (by simpa using hresult)

structure GoesOn (run : Run B) (state : Collect.State B) (next : Machine.Next B) : Prop where
  tidy : run.Tidy state.journal
  steps : next.steps ⊆ run.script.steps

theorem steps_start : (run.start cancelled world).steps ⊆ run.script.steps := by
  simp only [Run.start, Machine.start]
  split
  · exact List.nil_subset _
  · next nodes hplan =>
    split
    · exact List.nil_subset _
    · have hsteps := (Plan.resolve_renders hplan).1.filter_steps
      rw [List.filter_nil, List.append_nil] at hsteps
      intro step hstep
      have hmem : step ∈ nodesSteps nodes := by
        simpa [Machine.Next.steps, Machine.Frame.steps] using hstep
      rw [← hsteps] at hmem
      exact (List.mem_filter.1 hmem).1

/-- A run that has not ended has recorded successes only. -/
theorem Reaches.goesOn {state : Collect.State B} {machine : Machine.State B}
    (h : run.Reaches cancelled world turn state (.resume machine)) :
    run.GoesOn state (.resume machine) := by
  generalize hnext : Machine.Next.resume machine = next at h
  induction h generalizing machine with
  | start => exact ⟨.start run turn, steps_start⟩
  | @move state state' before h hmoments ih =>
    obtain ⟨htidy, hsteps⟩ := ih rfl
    refine ⟨?_, fun step hstep => hsteps (Machine.steps_advance run.setup before hstep)⟩
    -- the four kinds of moves, two of which end the run
    have hmoves := Machine.advance_moves run.setup before
    generalize Machine.advance run.setup before = move at hmoves hmoments hnext
    cases hmoves with
    | silent hdue hpauses =>
      cases hmoments.pauses fun moment hmoment => (hpauses moment hmoment).1 with
      | running hjournal => exact hjournal ▸ htidy
    | unsupported | fails => cases hnext
    | succeeds hdue hresolve hvalue hsuccess hresults =>
      rcases hmoments.dispatched with ⟨_, _, hcontra, -⟩ | ⟨last, hlast, hjournal⟩
      · cases hcontra
      · cases hlast
        rw [hjournal]
        refine (htidy.dispatch (hsteps (Machine.State.due?_mem hdue)) hresolve).emit ?_
        rcases hresults with rfl | rfl
        · exact List.forall_mem_nil _
        · exact fun result hresult => List.mem_singleton.1 hresult ▸ hsuccess
  | disturbed h ih =>
    obtain ⟨htidy, hsteps⟩ := ih rfl
    exact ⟨htidy, hsteps⟩

/-! ## The ends of runs -/

/-- The four ways in which a run ends. -/
inductive Ends (run : Run B) (cancelled : Bool) (world : B.World) (turn : Nat) :
    Outcome B → Prop where
  /-- The script is rejected before anything else happens. -/
  | rejected {cause : PlanError} (hplan : Plan.resolve run.script.steps = .error cause) :
      Ends run cancelled world turn ((beginning turn).finish (some (.plan cause))
        (.fresh run.settings.policy cancelled world))
  /-- The run comes to its end, or it is cut short. -/
  | calm {outcome : Outcome B} {nodes : List Node}
      (hplan : Plan.resolve run.script.steps = .ok nodes) (htidy : run.Tidy outcome.journal)
      (herror : ∀ error, outcome.error = some error → error.isCut = true) :
      Ends run cancelled world turn outcome
  /-- The run comes to a step that no action supports. -/
  | unsupported {state : Collect.State B} {machine : Machine.State B} {step : Step}
      {nodes : List Node} (hplan : Plan.resolve run.script.steps = .ok nodes)
      (h : run.Reaches cancelled world turn state (.resume machine))
      (hdue : machine.due? = some step) (hresolve : run.registry.resolve step = none) :
      Ends run cancelled world turn
        (state.finish (some (.unsupportedStep step.name step.type)) machine.context)
  /-- A dispatch fails. -/
  | failed {outcome : Outcome B} {state : Collect.State B} {machine : Machine.State B}
      {step : Step} {record : ActionResult} {error : RunError} {nodes : List Node}
      (hplan : Plan.resolve run.script.steps = .ok nodes)
      (h : run.Reaches cancelled world turn state (.resume machine))
      (hdue : machine.due? = some step) (hresolve : (run.registry.resolve step).isSome)
      (hfails : FailsWith run.setup step machine.context record error)
      (hjournal : outcome.journal = (state.journal.dispatch state.clock step).emit [record])
      (herror : outcome.error = some error) : Ends run cancelled world turn outcome

theorem Reaches.plan {state : Collect.State B} {machine : Machine.State B}
    (h : run.Reaches cancelled world turn state (.resume machine)) :
    ∃ nodes, Plan.resolve run.script.steps = .ok nodes := by
  generalize hnext : Machine.Next.resume machine = next at h
  induction h generalizing machine with
  | start =>
    simp only [Run.start, Machine.start] at hnext
    split at hnext
    · cases hnext
    · next nodes hplan => exact ⟨nodes, hplan⟩
  | move _ _ ih => exact ih rfl
  | disturbed _ ih => exact ih rfl

/-- A run that has ended between two moves. -/
theorem Reaches.ends {state : Collect.State B} {error : Option RunError} {context : Context B}
    (h : run.Reaches cancelled world turn state (.ended error context)) :
    run.Ends cancelled world turn (state.finish error context) := by
  generalize hnext : Machine.Next.ended error context = next at h
  -- it ended when it began or with its last move, which is of one of the four kinds
  cases h with
  | start =>
    simp only [Run.start, Machine.start] at hnext
    split at hnext
    · next cause hplan =>
      cases hnext
      exact .rejected hplan
    · next nodes hplan =>
      split at hnext
      · cases hnext
        refine .calm hplan (.start run turn) ?_
        rintro error ⟨⟩
        rfl
      · cases hnext
  | @move before _ machine h hmoments =>
    obtain ⟨htidy, hsteps⟩ := h.goesOn
    obtain ⟨nodes, hplan⟩ := h.plan
    have hmoves := Machine.advance_moves run.setup machine
    generalize Machine.advance run.setup machine = move at hmoves hmoments hnext
    cases hmoves with
    | silent hdue hpauses hcontext herror =>
      cases hmoments.pauses fun moment hmoment => (hpauses moment hmoment).1 with
      | running hjournal =>
        refine .calm hplan ?_ ?_
        · rw [State.journal_finish, hjournal]
          exact htidy
        · rintro cause hcause
          obtain rfl : error = some cause := hcause
          rw [herror cause context hnext.symm]
          rfl
    | unsupported hdue hresolve =>
      cases hnext
      cases hmoments
      exact .unsupported hplan h hdue hresolve
    | succeeds => cases hnext
    | fails hdue hresolve hfails =>
      cases hnext
      rcases hmoments.dispatched with ⟨_, _, hcontra, -⟩ | ⟨last, hlast, hjournal⟩
      · cases hcontra
      · cases hlast
        exact .failed hplan h hdue hresolve hfails hjournal rfl
  | disturbed => cases hnext

/-- Every run ends in one of the four ways. -/
theorem Yields.ends {outcome : Outcome B} (h : run.Yields cancelled world turn outcome) :
    run.Ends cancelled world turn outcome := by
  cases h with
  | ended h => exact h.ends
  | @cut before machine _ h hmoments =>
    obtain ⟨htidy, hsteps⟩ := h.goesOn
    obtain ⟨nodes, hplan⟩ := h.plan
    have hcalm : ∀ {error}, outcome.error = some error → error.isCut = true →
        run.Tidy outcome.journal → run.Ends cancelled world turn outcome := by
      intro error herror hcut htidy
      refine .calm hplan htidy fun cause hcause => ?_
      rw [herror] at hcause
      cases hcause
      exact hcut
    have hmoves := Machine.advance_moves run.setup machine
    generalize Machine.advance run.setup machine = move at hmoves hmoments
    cases hmoves with
    | silent hdue hpauses =>
      cases hmoments.pauses fun moment hmoment => (hpauses moment hmoment).1 with
      | cut hjournal herror hcut => exact hcalm herror hcut (hjournal ▸ htidy)
    | unsupported => cases hmoments
    | succeeds hdue hresolve | fails hdue hresolve =>
      rcases hmoments.dispatched with ⟨_, error, hcut, herror, hisCut, hjournal⟩ | ⟨_, hcontra, -⟩
      · cases hcut
        refine hcalm herror hisCut ?_
        rw [hjournal]
        exact htidy.dispatch (hsteps (Machine.State.due?_mem hdue)) hresolve
      · cases hcontra

/-! ## All results of a run -/

section

variable {P : ActionResult → Prop}
  (htrip : ∀ step ∈ run.script.steps, ∀ context result,
    (trip run.setup step context).value = .ok result → P result)
  (hfailed : ∀ step ∈ run.script.steps, ∀ message, P (.failed step message))

include htrip hfailed

end

/-! ## Well-formed outcomes -/

/-- A dispatch that ends a run: the step went to the interceptors as the last one, its record is the
last result, and all that was recorded before is kept. -/
structure LastFails (run : Run B) (cancelled : Bool) (world : B.World) (turn : Nat)
    (outcome : Outcome B) (step : Step) (record : ActionResult) (error : RunError) : Prop where
  authored : step ∈ run.script.steps
  reached : ∃ state machine, run.Reaches cancelled world turn state (.resume machine) ∧
    FailsWith run.setup step machine.context record error ∧
    outcome.dispatches = state.dispatches.push (state.clock, step) ∧
    outcome.results = state.results.push record

/-- What holds of every outcome. -/
structure WellFormed (run : Run B) (cancelled : Bool) (world : B.World) (turn : Nat)
    (outcome : Outcome B) : Prop where
  emitted_eq : outcome.emitted = outcome.results.size
  successes : ∀ result ∈ outcome.results.toList.dropLast, result.success = true
  /-- The last result is a failure exactly if a dispatch has failed. -/
  failure_iff : (∃ record, outcome.results.back? = some record ∧ record.success = false) ↔
    (∃ name message, outcome.error = some (.actionExecution name message)) ∨
      ∃ name fault, outcome.error = some (.expressionEvaluation name fault)
  action : ∀ name message, outcome.error = some (.actionExecution name message) →
    ∃ step record, run.LastFails cancelled world turn outcome step record
        (.actionExecution name message) ∧
      step.name = name ∧ outcome.results.back? = some record ∧ record.success = false ∧
      (record.error = some message ∨
        record.error = none ∧ message = "action reported failure")
  evaluation : ∀ name fault, outcome.error = some (.expressionEvaluation name fault) →
    ∃ step record, run.LastFails cancelled world turn outcome step record
        (.expressionEvaluation name fault) ∧
      step.name = name ∧ outcome.results.back? = some record ∧ record.success = false ∧
      record.error = some fault.message
  /-- A step that no action supports adds nothing to what the run was before it: neither a record
  nor a dispatch, and the context stays as it is. -/
  unsupported : ∀ name type, outcome.error = some (.unsupportedStep name type) →
    ∃ state machine step, run.Reaches cancelled world turn state (.resume machine) ∧
      machine.due? = some step ∧ step ∈ run.script.steps ∧ step.name = name ∧ step.type = type ∧
      run.registry.resolve step = none ∧
      outcome = state.finish (some (.unsupportedStep name type)) machine.context
  /-- Only steps of the script that some action supports go to the interceptors. -/
  dispatched : ∀ entry ∈ outcome.dispatches,
    entry.2 ∈ run.script.steps ∧ (run.registry.resolve entry.2).isSome
  /-- A script is rejected before anything else, whether the run is cancelled or limited. -/
  rejected_iff : ∀ cause, outcome.error = some (.plan cause) ↔
    Plan.resolve run.script.steps = .error cause
  rejected : ∀ cause, outcome.error = some (.plan cause) →
    outcome.results = #[] ∧ outcome.emitted = 0 ∧ outcome.dispatches = #[] ∧
      outcome.params = .empty ∧ outcome.elapsed = 0

theorem results_failed {outcome : Outcome B} {state : Collect.State B} {step : Step}
    {record : ActionResult}
    (hjournal : outcome.journal = (state.journal.dispatch state.clock step).emit [record]) :
    outcome.results = state.results.push record := by
  have hresults := congrArg Journal.results hjournal
  simpa [Journal.emit, Journal.dispatch, State.journal, Outcome.journal] using hresults

/-- Either nothing but successes was recorded and no dispatch is to blame, or the last dispatch
failed. -/
theorem Ends.tidy_or_lastFails {outcome : Outcome B} (h : run.Ends cancelled world turn outcome) :
    (run.Tidy outcome.journal ∧ ∀ error, outcome.error = some error → error.isFailure = false) ∨
    ∃ step record error, run.LastFails cancelled world turn outcome step record error ∧
      outcome.error = some error := by
  cases h with
  | rejected =>
    refine .inl ⟨Tidy.start run turn, ?_⟩
    rintro _ ⟨⟩
    rfl
  | calm _ htidy herror =>
    refine .inl ⟨htidy, fun error hsome => ?_⟩
    have hcut := herror error hsome
    cases error <;> first | rfl | cases hcut
  | unsupported _ hreach =>
    refine .inl ⟨hreach.goesOn.1, ?_⟩
    rintro _ ⟨⟩
    rfl
  | @failed _ state machine step record error _ _ hreach hdue _ hfails hjournal herror =>
    have hdispatches : outcome.dispatches = state.dispatches.push (state.clock, step) :=
      congrArg Journal.dispatches hjournal
    exact .inr ⟨step, record, error, ⟨hreach.goesOn.steps (Machine.State.due?_mem hdue), state,
      machine, hreach, hfails, hdispatches, results_failed hjournal⟩, herror⟩

section

variable {outcome : Outcome B} {step : Step} {record : ActionResult} {error : RunError}

theorem LastFails.back?_eq (h : run.LastFails cancelled world turn outcome step record error) :
    outcome.results.back? = some record := by
  obtain ⟨state, machine, -, -, -, hresults⟩ := h.reached
  rw [hresults, Array.back?_push]

theorem LastFails.fails (h : run.LastFails cancelled world turn outcome step record error) :
    ∃ context, FailsWith run.setup step context record error := by
  obtain ⟨state, machine, -, hfails, -⟩ := h.reached
  exact ⟨machine.context, hfails⟩

theorem LastFails.isFailure (h : run.LastFails cancelled world turn outcome step record error) :
    error.isFailure = true := by
  obtain ⟨context, hfails⟩ := h.fails
  cases hfails <;> rfl

/-- A run whose error comes from a dispatch ends with that dispatch. -/
theorem Ends.lastFails (h : run.Ends cancelled world turn outcome)
    (herror : outcome.error = some error) (hfailure : error.isFailure = true) :
    ∃ step record, run.LastFails cancelled world turn outcome step record error := by
  rcases h.tidy_or_lastFails with ⟨-, hcalm⟩ | ⟨step, record, error', hlast, herror'⟩
  · rw [hcalm error herror] at hfailure
    cases hfailure
  · rw [herror] at herror'
    cases herror'
    exact ⟨step, record, hlast⟩

theorem Ends.emitted_eq (h : run.Ends cancelled world turn outcome) :
    outcome.emitted = outcome.results.size := by
  cases h with
  | rejected => rfl
  | calm _ htidy => exact htidy.emitted
  | unsupported _ hreach => exact hreach.goesOn.1.emitted
  | @failed _ state _ _ record _ _ _ hreach _ _ _ hjournal =>
    have hemitted : outcome.emitted = state.emitted + 1 := congrArg Journal.emitted hjournal
    have hsize : state.emitted = state.results.size := hreach.goesOn.1.emitted
    rw [results_failed hjournal, hemitted, hsize, Array.size_push]

theorem Ends.successes (h : run.Ends cancelled world turn outcome) :
    ∀ result ∈ outcome.results.toList.dropLast, result.success = true := by
  intro result hresult
  rcases h.tidy_or_lastFails with ⟨htidy, -⟩ | ⟨step, record, error, hlast, -⟩
  · exact htidy.successes result (Array.mem_toList_iff.1 (List.dropLast_subset _ hresult))
  · obtain ⟨state, machine, hreach, -, -, hresults⟩ := hlast.reached
    rw [hresults, Array.toList_push, List.dropLast_concat] at hresult
    exact hreach.goesOn.1.successes result (Array.mem_toList_iff.1 hresult)

theorem Ends.failure_iff (h : run.Ends cancelled world turn outcome) :
    (∃ record, outcome.results.back? = some record ∧ record.success = false) ↔
      (∃ name message, outcome.error = some (.actionExecution name message)) ∨
        ∃ name fault, outcome.error = some (.expressionEvaluation name fault) := by
  constructor
  · rintro ⟨record, hrecord, hfailed⟩
    rcases h.tidy_or_lastFails with ⟨htidy, -⟩ | ⟨step, _, error, hlast, herror⟩
    · have hsuccess := htidy.successes record (Array.mem_of_back? hrecord)
      rw [hsuccess] at hfailed
      cases hfailed
    · have hfailure := hlast.isFailure
      rw [herror]
      cases error with
      | actionExecution name message => exact .inl ⟨name, message, rfl⟩
      | expressionEvaluation name fault => exact .inr ⟨name, fault, rfl⟩
      | unsupportedStep | plan | cancelled | timedOut => cases hfailure
  · intro herror
    obtain ⟨error, herror, hfailure⟩ : ∃ error, outcome.error = some error ∧
        error.isFailure = true := by
      rcases herror with ⟨name, message, herror⟩ | ⟨name, fault, herror⟩
      · exact ⟨_, herror, rfl⟩
      · exact ⟨_, herror, rfl⟩
    obtain ⟨step, record, hlast⟩ := h.lastFails herror hfailure
    obtain ⟨context, hfails⟩ := hlast.fails
    exact ⟨record, hlast.back?_eq, hfails.success_eq⟩

theorem Ends.action (h : run.Ends cancelled world turn outcome) {name message : String}
    (herror : outcome.error = some (.actionExecution name message)) :
    ∃ step record, run.LastFails cancelled world turn outcome step record
        (.actionExecution name message) ∧
      step.name = name ∧ outcome.results.back? = some record ∧ record.success = false ∧
      (record.error = some message ∨
        record.error = none ∧ message = "action reported failure") := by
  obtain ⟨step, record, hlast⟩ := h.lastFails herror rfl
  obtain ⟨context, hfails⟩ := hlast.fails
  refine ⟨step, record, hlast, ?_⟩
  cases hfails with
  | reported hvalue hfailed htext => exact ⟨rfl, hlast.back?_eq, hfailed, .inl htext⟩
  | unexplained hvalue hfailed htext => exact ⟨rfl, hlast.back?_eq, hfailed, .inr ⟨htext, rfl⟩⟩
  | raised => exact ⟨rfl, hlast.back?_eq, rfl, .inl rfl⟩

theorem Ends.evaluation (h : run.Ends cancelled world turn outcome) {name : String}
    {fault : ExpressionError} (herror : outcome.error = some (.expressionEvaluation name fault)) :
    ∃ step record, run.LastFails cancelled world turn outcome step record
        (.expressionEvaluation name fault) ∧
      step.name = name ∧ outcome.results.back? = some record ∧ record.success = false ∧
      record.error = some fault.message := by
  obtain ⟨step, record, hlast⟩ := h.lastFails herror rfl
  obtain ⟨context, hfails⟩ := hlast.fails
  refine ⟨step, record, hlast, ?_⟩
  cases hfails with
  | evaluation => exact ⟨rfl, hlast.back?_eq, rfl, rfl⟩

theorem Ends.unsupported_step (h : run.Ends cancelled world turn outcome) {name : String}
    {type : StepType} (herror : outcome.error = some (.unsupportedStep name type)) :
    ∃ state machine step, run.Reaches cancelled world turn state (.resume machine) ∧
      machine.due? = some step ∧ step ∈ run.script.steps ∧ step.name = name ∧ step.type = type ∧
      run.registry.resolve step = none ∧
      outcome = state.finish (some (.unsupportedStep name type)) machine.context := by
  cases h with
  | rejected => cases herror
  | calm _ _ hcut => cases hcut _ herror
  | @unsupported state machine step _ _ hreach hdue hresolve =>
    cases herror
    exact ⟨state, machine, step, hreach, hdue,
      hreach.goesOn.steps (Machine.State.due?_mem hdue), rfl, rfl, hresolve, rfl⟩
  | failed _ _ _ _ hfails _ hsome =>
    rw [herror] at hsome
    cases hsome
    cases hfails

theorem Ends.dispatched (h : run.Ends cancelled world turn outcome) :
    ∀ entry ∈ outcome.dispatches,
      entry.2 ∈ run.script.steps ∧ (run.registry.resolve entry.2).isSome := by
  cases h with
  | rejected => exact (Tidy.start run turn).dispatched
  | calm _ htidy => exact htidy.dispatched
  | unsupported _ hreach => exact hreach.goesOn.1.dispatched
  | @failed _ state _ step _ _ _ _ hreach hdue hresolve _ hjournal =>
    have hlater : run.Tidy (state.journal.dispatch state.clock step) :=
      hreach.goesOn.1.dispatch (hreach.goesOn.steps (Machine.State.due?_mem hdue)) hresolve
    have hdispatches := congrArg Journal.dispatches hjournal
    intro entry hentry
    exact hlater.dispatched entry (hdispatches ▸ hentry)

/-- A run ends with a fault of its script exactly if it is rejected, and then nothing has
happened. -/
theorem Ends.rejected_iff (h : run.Ends cancelled world turn outcome) (cause : PlanError) :
    outcome.error = some (.plan cause) ↔ Plan.resolve run.script.steps = .error cause := by
  cases h with
  | rejected hplan =>
    rw [hplan]
    constructor
    · rintro ⟨⟩
      rfl
    · rintro ⟨⟩
      rfl
  | calm hplan _ hcut =>
    rw [hplan]
    exact ⟨fun herror => (by cases hcut _ herror), nofun⟩
  | unsupported hplan =>
    rw [hplan]
    exact ⟨nofun, nofun⟩
  | failed hplan _ _ _ hfails _ hsome =>
    rw [hplan]
    refine ⟨fun herror => ?_, nofun⟩
    rw [herror] at hsome
    cases hsome
    cases hfails

theorem Ends.rejected_untouched (h : run.Ends cancelled world turn outcome) {cause : PlanError}
    (herror : outcome.error = some (.plan cause)) :
    outcome.results = #[] ∧ outcome.emitted = 0 ∧ outcome.dispatches = #[] ∧
      outcome.params = .empty ∧ outcome.elapsed = 0 := by
  have hrejected := (h.rejected_iff cause).1 herror
  cases h with
  | rejected => exact ⟨rfl, rfl, rfl, rfl, rfl⟩
  | calm hplan | unsupported hplan | failed hplan =>
    rw [hplan] at hrejected
    cases hrejected

/-- Every outcome of a run is well formed, whether the run comes to its end, fails, is cancelled by
itself or by others, or exceeds its time limit. -/
theorem Yields.wellFormed (h : run.Yields cancelled world turn outcome) :
    run.WellFormed cancelled world turn outcome where
  emitted_eq := h.ends.emitted_eq
  successes := h.ends.successes
  failure_iff := h.ends.failure_iff
  action _ _ herror := h.ends.action herror
  evaluation _ _ herror := h.ends.evaluation herror
  unsupported _ _ herror := h.ends.unsupported_step herror
  dispatched := h.ends.dispatched
  rejected_iff := h.ends.rejected_iff
  rejected _ herror := h.ends.rejected_untouched herror

end

/-- A run of two steps, of which the second is refused without a reason. -/
def refused : Run Rehearsal.backend :=
  { script :=
      { name := "refused"
        steps := [⟨"greet", none, .wait none⟩, ⟨"ask", none, .wait none⟩] }
    registry := .control
    interceptors :=
      [Rehearsal.Layer.interceptor { kind := .refuse none, name := some "ask" },
        Rehearsal.Layer.interceptor { kind := .short none }] }

theorem refused_wellFormed :
    ∃ outcome, refused.collect 4 false {} = some outcome ∧ outcome.results.size = 2 ∧
      outcome.error = some (.actionExecution "ask" "action reported failure") ∧
      refused.WellFormed false {} turnLength outcome := by
  have hcollect : ∃ outcome, refused.collect 4 false {} = some outcome ∧
      outcome.results.size = 2 ∧
      outcome.error = some (.actionExecution "ask" "action reported failure") :=
    ⟨_, rfl, rfl, rfl⟩
  obtain ⟨outcome, hcollect, hsize, herror⟩ := hcollect
  exact ⟨outcome, hcollect, hsize, herror, Yields.wellFormed (yields_of_collect hcollect)⟩

end Run

end StepScript
