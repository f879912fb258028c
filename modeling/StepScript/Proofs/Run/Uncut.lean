import StepScript.Proofs.Basic
import StepScript.Proofs.Run.Collected
import StepScript.Proofs.Run.Outcomes
import StepScript.Proofs.Run.Pauses
import Mathlib.Algebra.GroupWithZero.Nat

/-!
# Runs that are not cut short

A collected run that neither a cancellation nor a time limit cuts short makes all the moves of its
trace. What it has recorded is what the trace shows, and its clock shows the sum of the pauses.
-/

namespace StepScript

variable {B : Backend}

/-- How long the pauses among some moments last. -/
def idleMillis (moments : List (Moment B)) : Nat :=
  (moments.map (·.signal.pauseMillis)).sum

theorem idleMillis_append (first second : List (Moment B)) :
    idleMillis (first ++ second) = idleMillis first + idleMillis second := by
  simp only [idleMillis, List.map_append, List.sum_append]

theorem idleMillis_cons (moment : Moment B) (moments : List (Moment B)) :
    idleMillis (moment :: moments) = moment.signal.pauseMillis + idleMillis moments := by
  simp only [idleMillis, List.map_cons, List.sum_cons]

/-- The run ended by itself. -/
def Outcome.IsUncut (outcome : Outcome B) : Prop :=
  ∀ error, outcome.error = some error → error.isCut = false

namespace Collect

/-! ## Moments -/

section

variable {timeout : Option Nat} {state later : State B} {context : Context B} {millis : Nat}

theorem clock_wait (h : state.wait timeout millis context = .ok later) :
    later.clock = state.clock + millis := by
  unfold State.wait at h
  dsimp only at h
  repeat' split at h
  all_goals
    cases h
    try rfl

theorem clock_sleep (h : state.sleep timeout millis context = .ok later) :
    later.clock = state.clock + millis := by
  rw [sleep_eq] at h
  obtain ⟨rested, hrested, h⟩ := exists_of_bind_eq_ok h
  obtain ⟨awake, hawake, h⟩ := exists_of_bind_eq_ok h
  have hrest : rested.clock = state.clock := by
    split at hrested
    · rw [clock_wait hrested, Nat.add_zero]
    · cases hrested
      rfl
  have hsleep : awake.clock = rested.clock + millis := by
    split at hawake
    · next hmillis =>
      cases hawake
      rw [hmillis, Nat.add_zero]
    · exact clock_wait hawake
  cases h
  exact hsleep.trans (congrArg (· + millis) hrest)

end

/-- What a run has recorded after some moments, compared to what it had before. -/
structure Tallies (state : State B) (moments : List (Moment B)) (later : State B) : Prop where
  clock : later.clock = state.clock + idleMillis moments
  results : later.results.toList = state.results.toList ++ emittedResults moments
  emitted : later.emitted = state.emitted + (emittedResults moments).length
  steps : later.dispatches.toList.map Prod.snd =
    state.dispatches.toList.map Prod.snd ++ dispatchedSteps moments

theorem Tallies.nil (state : State B) : Tallies state [] state :=
  ⟨rfl, (List.append_nil _).symm, rfl, (List.append_nil _).symm⟩

theorem Tallies.trans {first second third : State B} {moments later : List (Moment B)}
    (h : Tallies first moments second) (h' : Tallies second later third) :
    Tallies first (moments ++ later) third where
  clock := by rw [h'.clock, h.clock, idleMillis_append, Nat.add_assoc]
  results := by rw [h'.results, h.results, emittedResults_append, List.append_assoc]
  emitted := by
    rw [h'.emitted, h.emitted, emittedResults_append, List.length_append, Nat.add_assoc]
  steps := by rw [h'.steps, h.steps, dispatchedSteps_append, List.append_assoc]

variable {timeout : Option Nat} {state later : State B} {moment : Moment B}

/-- A pause is only seen on the clock. -/
theorem Tallies.pause (hpause : moment.signal.isPause = true)
    (hclock : later.clock = state.clock + moment.signal.pauseMillis)
    (hjournal : later.journal = state.journal) : Tallies state [moment] later := by
  have hresults : emittedResults [moment] = [] := by
    simp [emittedResults, emitted?_of_isPause hpause]
  have hsteps : dispatchedSteps [moment] = [] := by
    simp [dispatchedSteps, dispatched?_of_isPause hpause]
  refine ⟨?_, ?_, ?_, ?_⟩
  · rw [hclock, idleMillis_cons]
    rfl
  · rw [hresults, List.append_nil]
    exact congrArg (·.results.toList) hjournal
  · rw [hresults]
    exact congrArg Journal.emitted hjournal
  · rw [hsteps, List.append_nil]
    exact congrArg (·.dispatches.toList.map Prod.snd) hjournal

/-- One moment after which the run goes on. -/
theorem tallies_observe (h : state.observe timeout moment = .ok later) :
    Tallies state [moment] later := by
  obtain ⟨signal, context⟩ := moment
  cases signal with
  | dispatch step =>
    cases h
    exact ⟨rfl, (List.append_nil _).symm, rfl, by simp [dispatchedSteps, Signal.dispatched?]⟩
  | emit result =>
    cases h
    exact ⟨rfl, Array.toList_push, rfl, (List.append_nil _).symm⟩
  | sleep millis =>
    have hleaves := state.sleep_leaves timeout millis context
    rw [show state.sleep timeout millis context = .ok later from h] at hleaves
    cases hleaves with
    | running hjournal => exact .pause rfl (clock_sleep h) hjournal
  | stepAside =>
    have hleaves := state.wait_leaves timeout 0 context
    rw [show state.wait timeout 0 context = .ok later from h] at hleaves
    cases hleaves with
    | running hjournal => exact .pause rfl (clock_wait h) hjournal

/-- A moment at which a run ends cuts it short. -/
theorem isCut_of_observe_error {outcome : Outcome B}
    (h : state.observe timeout moment = .error outcome) : ¬ outcome.IsUncut := by
  have hmoment : Observes timeout state moment (state.observe timeout moment) := .undisturbed
  have hleaves := hmoment.pause (isPause_of_observe_error h)
  rw [h] at hleaves
  cases hleaves with
  | cut _ herror hcut =>
    intro huncut
    exact absurd (huncut _ herror) (by rw [hcut]; exact Bool.false_ne_true.symm)

/-- Some moments in a row are seen as a whole, or they cut the run short. -/
theorem tallies_observeAll {moments : List (Moment B)} {result : Except (Outcome B) (State B)}
    (h : moments.foldlM (State.observe timeout) state = result) :
    (∃ outcome, result = .error outcome ∧ ¬ outcome.IsUncut) ∨
    ∃ later, result = .ok later ∧ Tallies state moments later := by
  subst h
  induction moments generalizing state with
  | nil => exact .inr ⟨state, rfl, .nil state⟩
  | cons moment moments ih =>
    rw [List.foldlM_cons]
    cases hobserve : state.observe timeout moment with
    | error outcome => exact .inl ⟨outcome, rfl, isCut_of_observe_error hobserve⟩
    | ok middle =>
      rcases @ih middle with ⟨outcome, hcut⟩ | ⟨later, hlater, htallies⟩
      · exact .inl ⟨outcome, hcut⟩
      · exact .inr ⟨later, hlater, (tallies_observe hobserve).trans htallies⟩

/-! ## Runs -/

/-- A run that is not cut short is followed to the end of its trace. -/
theorem follow_uncut {setup : Setup B} {fuel : Nat} {next : Machine.Next B} {outcome : Outcome B}
    (h : follow setup timeout fuel state next = some outcome) (huncut : outcome.IsUncut) :
    ∃ n last, Tallies state (trace (Machine.proceed setup) n next).1 last ∧
      (trace (Machine.proceed setup) n next).2 = .ended outcome.error outcome.context ∧
      outcome = last.finish outcome.error outcome.context := by
  induction fuel generalizing state next with
  | zero =>
    cases next with
    | ended error context =>
      cases (follow_ended ..).symm.trans h
      exact ⟨0, state, .nil state, rfl, rfl⟩
    | resume machine => cases h
  | succ fuel ih =>
    cases next with
    | ended error context =>
      cases (follow_ended ..).symm.trans h
      exact ⟨0, state, .nil state, rfl, rfl⟩
    | resume machine =>
      rw [follow_resume] at h
      rcases tallies_observeAll rfl with ⟨cut, hcut, hisCut⟩ | ⟨middle, hmiddle, htallies⟩
      · rw [hcut] at h
        cases h
        exact absurd huncut hisCut
      · rw [hmiddle] at h
        obtain ⟨n, last, hlater, hend, houtcome⟩ := ih h
        refine ⟨n + 1, last, ?_, ?_, houtcome⟩
        · rw [trace_succ]
          exact htallies.trans hlater
        · rw [trace_succ]
          exact hend

end Collect

/-- The outcome of a run that is not cut short consists of what the trace of the run shows. -/
theorem Run.collect_uncut {run : Run B} {fuel : Nat} {cancelled : Bool} {world : B.World}
    {turn : Nat} {outcome : Outcome B}
    (h : run.collect fuel cancelled world turn = some outcome) (huncut : outcome.IsUncut) :
    ∃ n moments, trace (Machine.proceed run.setup) n (run.start cancelled world) =
        (moments, .ended outcome.error outcome.context) ∧
      outcome.Shows moments outcome.error outcome.context ∧
      outcome.emitted = (emittedResults moments).length ∧ outcome.elapsed = idleMillis moments := by
  obtain ⟨n, last, htallies, hend, houtcome⟩ := Collect.follow_uncut h huncut
  refine ⟨n, _, Prod.ext rfl hend, ⟨?_, ?_, rfl, rfl⟩, ?_, ?_⟩
  · rw [houtcome]
    exact htallies.steps
  · rw [houtcome]
    exact htallies.results
  · rw [houtcome]
    exact htallies.emitted.trans (Nat.zero_add _)
  · rw [houtcome]
    exact htallies.clock.trans (Nat.zero_add _)

end StepScript
