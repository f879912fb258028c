import StepScript.Proofs.Run.Trace
import StepScript.Run.Collect

/-!
# Collected runs and traces

A run that is neither cancelled nor limited in time is followed to the end of its trace, and its
outcome consists of what the trace shows.
-/

namespace StepScript

variable {B : Backend}

namespace Collect

/-- What a run with its clock has recorded, without times. -/
def State.Records (state : State B) (dispatched : List Step) (results : List ActionResult) : Prop :=
  state.dispatches.toList.map Prod.snd = dispatched ∧ state.results.toList = results

/-- Nothing but the turn and the clock changes while an undisturbed run waits. -/
theorem State.wait_undisturbed (state : State B) (millis : Nat) {context : Context B}
    (h : context.cancelled = false) :
    state.wait none millis context =
      .ok { state with clock := state.clock + millis, turn := turnLength } := by
  simp only [State.wait, h]
  rfl

theorem State.sleep_undisturbed (state : State B) (millis : Nat) {context : Context B}
    (h : context.cancelled = false) :
    ∃ clock turn, state.sleep none millis context = .ok { state with clock, turn } := by
  by_cases hturn : state.turn = 0 <;> by_cases hmillis : millis = 0
  all_goals
    simp only [State.sleep, State.wait_undisturbed _ _ h, hturn, hmillis, if_true, if_false,
      bind, Except.bind, pure, Except.pure]
    exact ⟨_, _, rfl⟩

/-- A moment of an undisturbed run adds what it shows to the records. -/
theorem State.observe_undisturbed {state : State B} {moment : Moment B} {dispatched : List Step}
    {results : List ActionResult} (h : moment.context.cancelled = false)
    (hrecords : state.Records dispatched results) :
    ∃ state', state.observe none moment = .ok state' ∧
      state'.Records (dispatched ++ dispatchedSteps [moment])
        (results ++ emittedResults [moment]) := by
  obtain ⟨rfl, rfl⟩ := hrecords
  obtain ⟨signal, context⟩ := moment
  cases signal with
  | dispatch step =>
    refine ⟨_, rfl, ?_, ?_⟩
    · simp [dispatchedSteps, Signal.dispatched?]
    · simp [emittedResults, Signal.emitted?]
  | emit result =>
    refine ⟨_, rfl, ?_, ?_⟩
    · simp [dispatchedSteps, Signal.dispatched?]
    · simp [emittedResults, Signal.emitted?]
  | sleep millis =>
    obtain ⟨clock, turn, hsleep⟩ := state.sleep_undisturbed millis h
    refine ⟨_, hsleep, ?_, ?_⟩
    · simp [dispatchedSteps, Signal.dispatched?]
    · simp [emittedResults, Signal.emitted?]
  | stepAside =>
    refine ⟨_, state.wait_undisturbed 0 h, ?_, ?_⟩
    · simp [dispatchedSteps, Signal.dispatched?]
    · simp [emittedResults, Signal.emitted?]

theorem State.observeAll_undisturbed {state : State B} {moments : List (Moment B)}
    {dispatched : List Step} {results : List ActionResult}
    (h : ∀ moment ∈ moments, moment.context.cancelled = false)
    (hrecords : state.Records dispatched results) :
    ∃ state', moments.foldlM (State.observe none) state = .ok state' ∧
      state'.Records (dispatched ++ dispatchedSteps moments)
        (results ++ emittedResults moments) := by
  induction moments generalizing state dispatched results with
  | nil => exact ⟨state, rfl, by simpa [dispatchedSteps, emittedResults] using hrecords⟩
  | cons moment moments ih =>
    obtain ⟨state', hobserve, hrecords'⟩ :=
      State.observe_undisturbed (h moment (List.mem_cons_self ..)) hrecords
    obtain ⟨state'', hrest, hrecords''⟩ :=
      ih (fun later hlater => h later (List.mem_cons_of_mem _ hlater)) hrecords'
    refine ⟨state'', ?_, ?_⟩
    · rw [List.foldlM_cons, hobserve]
      exact hrest
    · rw [List.append_assoc, List.append_assoc, ← dispatchedSteps_append,
        ← emittedResults_append] at hrecords''
      exact hrecords''

theorem follow_ended (setup : Setup B) (timeout : Option Nat) (fuel : Nat) (state : State B)
    (error : Option RunError) (context : Context B) :
    follow setup timeout fuel state (.ended error context) = some (state.finish error context) := by
  cases fuel <;> rfl

theorem follow_resume (setup : Setup B) (timeout : Option Nat) (fuel : Nat) (state : State B)
    (machine : Machine.State B) :
    follow setup timeout (fuel + 1) state (.resume machine) =
      match (Machine.advance setup machine).moments.foldlM (State.observe timeout) state with
      | .error outcome => some outcome
      | .ok state => follow setup timeout fuel state (Machine.advance setup machine).next :=
  rfl

/-- An undisturbed run is followed to the end of its trace. -/
theorem follow_undisturbed {setup : Setup B} (fuel : Nat) {state : State B}
    {next : Machine.Next B} {dispatched : List Step} {results : List ActionResult}
    (h : Machine.NeverCancelled setup next)
    (hrecords : state.Records dispatched results) :
    ∃ state' : State B, state'.Records
        (dispatched ++ dispatchedSteps (trace (Machine.proceed setup) fuel next).1)
        (results ++ emittedResults (trace (Machine.proceed setup) fuel next).1) ∧
      follow setup none fuel state next =
        match (trace (Machine.proceed setup) fuel next).2 with
        | .ended error context => some (state'.finish error context)
        | .resume _ => none := by
  induction fuel generalizing state next dispatched results with
  | zero =>
    refine ⟨state, by simpa [trace_zero, dispatchedSteps, emittedResults] using hrecords, ?_⟩
    cases next <;> rfl
  | succ fuel ih =>
    cases next with
    | ended error context =>
      rw [Machine.trace_ended]
      exact ⟨state, by simpa [dispatchedSteps, emittedResults] using hrecords, rfl⟩
    | resume machine =>
      obtain ⟨state', hobserve, hrecords'⟩ := State.observeAll_undisturbed h.moments hrecords
      -- the first move is observed as a whole, then the run is followed from its end
      obtain ⟨state'', hrecords'', hfollow⟩ := ih h.proceed hrecords'
      refine ⟨state'', ?_, ?_⟩
      · rw [List.append_assoc, List.append_assoc, ← dispatchedSteps_append,
          ← emittedResults_append] at hrecords''
        exact hrecords''
      · change (Machine.advance setup machine).moments.foldlM _ _ = _ at hobserve
        rw [follow_resume, hobserve]
        exact hfollow

end Collect

/-- What can be said of an outcome apart from times. -/
def Outcome.Shows (outcome : Outcome B) (moments : List (Moment B)) (error : Option RunError)
    (context : Context B) : Prop :=
  outcome.dispatches.toList.map Prod.snd = dispatchedSteps moments ∧
  outcome.results.toList = emittedResults moments ∧ outcome.error = error ∧
  outcome.context = context

/-- A run without a time limit that nobody cancels has an outcome if its trace ends, and the outcome
consists of what the trace shows. -/
theorem Run.collect_shows {run : Run B} {world : B.World}
    (htimeout : run.settings.timeoutMillis = none) (hquiet : run.NeverCancelled world)
    (turn fuel : Nat) :
    match (trace (Machine.proceed run.setup) fuel (run.start false world)).2 with
    | .ended error context => ∃ outcome, run.collect fuel false world turn = some outcome ∧
        outcome.Shows (trace (Machine.proceed run.setup) fuel (run.start false world)).1 error
          context
    | .resume _ => run.collect fuel false world turn = none := by
  let start : Collect.State B := { turn := if turn = 0 then turnLength else turn }
  have hrecords : start.Records [] [] := ⟨rfl, rfl⟩
  obtain ⟨state, ⟨hdispatched, hresults⟩, hfollow⟩ :=
    Collect.follow_undisturbed fuel hquiet hrecords
  rw [List.nil_append] at hdispatched hresults
  split
  · next error context hend =>
    refine ⟨state.finish error context, ?_, hdispatched, hresults, rfl, rfl⟩
    rw [Run.collect, htimeout]
    rw [hend] at hfollow
    exact hfollow
  · next machine hend =>
    rw [Run.collect, htimeout]
    rw [hend] at hfollow
    exact hfollow

end StepScript
