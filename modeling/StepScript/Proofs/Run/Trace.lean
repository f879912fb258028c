import StepScript.Run.Basic
import Mathlib.Tactic.Common

/-!
# Traces

What an observer sees of a machine, move by move, and when two machines show the same although one
of them makes moves of which nothing is seen. The machine of a run is looked at in this way.
-/

namespace StepScript

/-! ## Machines that show something -/

section

variable {ω σ τ : Type}

/-- What `n` moves of a machine show from a state on, and the state after them. -/
def trace (move : σ → List ω × σ) : Nat → σ → List ω × σ
  | 0, state => ([], state)
  | n + 1, state =>
    let (shown, state) := move state
    let (later, state) := trace move n state
    (shown ++ later, state)

theorem trace_zero (move : σ → List ω × σ) (state : σ) : trace move 0 state = ([], state) := rfl

theorem trace_succ (move : σ → List ω × σ) (n : Nat) (state : σ) :
    trace move (n + 1) state =
      ((move state).1 ++ (trace move n (move state).2).1, (trace move n (move state).2).2) :=
  rfl

theorem trace_one (move : σ → List ω × σ) (state : σ) : trace move 1 state = move state := by
  rw [trace_succ, trace_zero, List.append_nil]

/-- A longer trace continues a shorter one. -/
theorem trace_add (move : σ → List ω × σ) (m n : Nat) (state : σ) :
    trace move (m + n) state =
      ((trace move m state).1 ++ (trace move n (trace move m state).2).1,
        (trace move n (trace move m state).2).2) := by
  induction m generalizing state with
  | zero => rw [Nat.zero_add, trace_zero, List.nil_append]
  | succ m ih => rw [Nat.succ_add, trace_succ, ih, trace_succ, List.append_assoc]

/-- Nothing is seen of a machine that stands still. -/
theorem trace_of_fixed {move : σ → List ω × σ} {state : σ} (h : move state = ([], state))
    (n : Nat) : trace move n state = ([], state) := by
  induction n with
  | zero => rfl
  | succ n ih => rw [trace_succ, h, ih, List.nil_append]

/-- From related states the first machine makes a silent move that lowers the rank and keeps the
states related, or both machines show the same and come to related states. -/
structure Simulation (first : σ → List ω × σ) (second : τ → List ω × τ) (R : σ → τ → Prop)
    (rank : σ → Nat) : Prop where
  step : ∀ a b, R a b →
    ((first a).1 = [] ∧ R (first a).2 b ∧ rank (first a).2 < rank a) ∨
    ((first a).1 = (second b).1 ∧ R (first a).2 (second b).2)

variable {first : σ → List ω × σ} {second : τ → List ω × τ} {R : σ → τ → Prop} {rank : σ → Nat}

/-- Whatever the first machine shows, the second shows too. -/
theorem Simulation.forward (h : Simulation first second R rank) {a : σ} {b : τ} (related : R a b)
    (n : Nat) :
    ∃ m, (trace first n a).1 = (trace second m b).1 ∧
      R (trace first n a).2 (trace second m b).2 := by
  induction n generalizing a b with
  | zero => exact ⟨0, rfl, related⟩
  | succ n ih =>
    rw [trace_succ]
    rcases h.step a b related with ⟨hsilent, related, -⟩ | ⟨hshown, related⟩
    · rw [hsilent, List.nil_append]
      exact ih related
    · obtain ⟨m, hlater, hend⟩ := ih related
      refine ⟨m + 1, ?_, ?_⟩
      · rw [trace_succ, hshown, hlater]
      · rw [trace_succ]
        exact hend

/-- A move of the second machine is made by the first one after some silent moves. -/
theorem Simulation.exists_move (h : Simulation first second R rank) {a : σ} {b : τ}
    (related : R a b) :
    ∃ n, (trace first n a).1 = (second b).1 ∧ R (trace first n a).2 (second b).2 := by
  -- only finitely many silent moves can follow each other
  induction hrank : rank a using Nat.strongRecOn generalizing a with
  | ind r ih =>
    rcases h.step a b related with ⟨hsilent, related, hlower⟩ | ⟨hshown, related⟩
    · obtain ⟨n, hmoves, hend⟩ := ih _ (hrank ▸ hlower) related rfl
      refine ⟨n + 1, ?_, ?_⟩
      · rw [trace_succ, hsilent, List.nil_append, hmoves]
      · rw [trace_succ]
        exact hend
    · refine ⟨1, ?_, ?_⟩
      · rw [trace_one, hshown]
      · rw [trace_one]
        exact related

/-- Whatever the second machine shows, the first shows too. -/
theorem Simulation.backward (h : Simulation first second R rank) {a : σ} {b : τ}
    (related : R a b) (m : Nat) :
    ∃ n, (trace first n a).1 = (trace second m b).1 ∧
      R (trace first n a).2 (trace second m b).2 := by
  induction m generalizing a b with
  | zero => exact ⟨0, rfl, related⟩
  | succ m ih =>
    obtain ⟨n, hshown, related⟩ := h.exists_move related
    obtain ⟨n', hlater, hend⟩ := ih related
    refine ⟨n + n', ?_, ?_⟩
    · rw [trace_add, trace_succ, hshown, hlater]
    · rw [trace_add, trace_succ]
      exact hend

end

/-! ## The machine of a run -/

variable {B : Backend}

namespace Machine

/-- A move of a run; a run that has ended stands still. -/
def proceed (setup : Setup B) : Next B → List (Moment B) × Next B
  | .ended error context => ([], .ended error context)
  | .resume state =>
    let move := advance setup state
    (move.moments, move.next)

def Next.context : Next B → Context B
  | .ended _ context => context
  | .resume state => state.context

theorem trace_ended (setup : Setup B) (n : Nat) (error : Option RunError) (context : Context B) :
    trace (proceed setup) n (.ended error context) = ([], .ended error context) :=
  trace_of_fixed (show proceed setup (.ended error context) = _ from rfl) n

end Machine

/-- The contexts of what is shown, and the context after it, belong to a run that is not
cancelled. -/
def Undisturbed (seen : List (Moment B) × Machine.Next B) : Prop :=
  (∀ moment ∈ seen.1, moment.context.cancelled = false) ∧ seen.2.context.cancelled = false

namespace Machine

/-- Nobody cancels the run from some state on. -/
def NeverCancelled (setup : Setup B) (next : Next B) : Prop :=
  ∀ n, Undisturbed (trace (proceed setup) n next)

variable {setup : Setup B} {next : Next B}

theorem NeverCancelled.running {frames : List Frame} {context : Context B}
    (h : NeverCancelled setup (.resume ⟨frames, context⟩)) : context.cancelled = false :=
  (h 0).2

theorem NeverCancelled.moments (h : NeverCancelled setup next) :
    ∀ moment ∈ (Machine.proceed setup next).1, moment.context.cancelled = false := by
  have hmove := h 1
  rw [trace_one] at hmove
  exact hmove.1

/-- Neither is it cancelled after the next move. -/
theorem NeverCancelled.proceed (h : NeverCancelled setup next) :
    NeverCancelled setup (Machine.proceed setup next).2 := by
  intro n
  have hlonger := h (n + 1)
  rw [trace_succ] at hlonger
  exact ⟨fun moment hmoment => hlonger.1 moment (List.mem_append_right _ hmoment), hlonger.2⟩

end Machine

def Run.NeverCancelled (run : Run B) (world : B.World) : Prop :=
  ∀ n, Undisturbed (trace (Machine.proceed run.setup) n (run.start false world))

/-! ## Dispatches -/

/-- The way of a step through the interceptors. -/
def trip (setup : Setup B) (step : Step) (context : Context B) :
    Activity.Trace (Context B) (Except ActionError ActionResult) :=
  (intercepted (carryOut setup.registry) setup.interceptors step).run.run context

def tripPauses (setup : Setup B) (step : Step) (context : Context B) : List (Moment B) :=
  (seePauses context (trip setup step context).pauses (trip setup step context).state).1

def afterTrip (setup : Setup B) (step : Step) (context : Context B) : Context B :=
  (seePauses context (trip setup step context).pauses (trip setup step context).state).2

/-- What is seen of a pause is the pause, but for a cancellation. -/
theorem mem_seePauses {before last : Context B} {pauses : List (Activity.Pause (Context B))}
    {moment : Moment B} (h : moment ∈ (seePauses before pauses last).1) :
    ∃ pause ∈ pauses, ∃ cancelled,
      moment = ⟨.sleep pause.millis, { pause.state with cancelled }⟩ := by
  induction pauses generalizing before with
  | nil => cases h
  | cons pause pauses ih =>
    rcases List.mem_cons.1 h with rfl | h
    · exact ⟨pause, List.mem_cons_self .., _, rfl⟩
    · obtain ⟨other, hother, hmoment⟩ := ih h
      exact ⟨other, List.mem_cons_of_mem _ hother, hmoment⟩

theorem seePauses_after (before last : Context B) (pauses : List (Activity.Pause (Context B))) :
    ∃ cancelled, (seePauses before pauses last).2 = { last with cancelled } := by
  induction pauses generalizing before with
  | nil => exact ⟨_, rfl⟩
  | cons pause pauses ih => exact ih _

/-- Nothing is seen of a step that no action supports. Otherwise the step is seen, then the pauses on
its way and, if it fails, a record of the failure. -/
theorem dispatch_cases (setup : Setup B) (step : Step) (context : Context B) :
    dispatch setup step context =
      ⟨[], .error (.unsupportedStep step.name step.type), context⟩ ∨
    ∃ failures : List ActionResult,
      (dispatch setup step context).moments = ⟨.dispatch step, context⟩ ::
        (tripPauses setup step context ++
          failures.map fun result => ⟨.emit result, afterTrip setup step context⟩) ∧
      (dispatch setup step context).context = afterTrip setup step context ∧
      (failures = [] ↔ ∃ result, (dispatch setup step context).outcome = .ok result) := by
  unfold dispatch
  split
  · exact .inl rfl
  · refine .inr ?_
    dsimp only [tripPauses, afterTrip, trip]
    split
    · split
      · exact ⟨[], by rw [List.map_nil, List.append_nil], rfl, fun _ => ⟨_, rfl⟩, fun _ => rfl⟩
      · refine ⟨[_], rfl, rfl, fun h => absurd h (List.cons_ne_nil _ _), ?_⟩
        rintro ⟨_, hok⟩
        cases hok
    · refine ⟨[_], rfl, rfl, fun h => absurd h (List.cons_ne_nil _ _), ?_⟩
      rintro ⟨_, hok⟩
      cases hok

/-! ## What is seen of a run -/

def Signal.dispatched? : Signal → Option Step
  | .dispatch step => some step
  | _ => none

def Signal.emitted? : Signal → Option ActionResult
  | .emit result => some result
  | _ => none

def dispatchedSteps (moments : List (Moment B)) : List Step :=
  moments.filterMap (·.signal.dispatched?)

def emittedResults (moments : List (Moment B)) : List ActionResult :=
  moments.filterMap (·.signal.emitted?)

/-- A dispatch sends at most its own step to the interceptors. -/
theorem dispatchedSteps_dispatch {setup : Setup B} {step sent : Step} {context : Context B}
    (h : sent ∈ dispatchedSteps (dispatch setup step context).moments) : sent = step := by
  rcases dispatch_cases setup step context with hnone | ⟨failures, hmoments, -, -⟩
  · rw [hnone] at h
    cases h
  · rw [hmoments] at h
    obtain ⟨moment, hmoment, hsent⟩ := List.mem_filterMap.1 h
    rcases List.mem_cons.1 hmoment with rfl | hmoment
    · exact (Option.some.inj hsent).symm
    · rcases List.mem_append.1 hmoment with hmoment | hmoment
      · obtain ⟨pause, -, cancelled, rfl⟩ := mem_seePauses hmoment
        cases hsent
      · obtain ⟨result, -, rfl⟩ := List.mem_map.1 hmoment
        cases hsent

theorem dispatchedSteps_append (first second : List (Moment B)) :
    dispatchedSteps (first ++ second) = dispatchedSteps first ++ dispatchedSteps second :=
  List.filterMap_append

theorem emittedResults_append (first second : List (Moment B)) :
    emittedResults (first ++ second) = emittedResults first ++ emittedResults second :=
  List.filterMap_append

end StepScript
