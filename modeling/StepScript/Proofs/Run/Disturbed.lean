import StepScript.Proofs.Run.Moves
import StepScript.Run.Collect

/-!
# Collected runs that others disturb

A collected run on its clock, as a relation: while it waits, and between two moves, another party
may cancel it. A run that nobody disturbs is one of the possibilities.
-/

namespace StepScript

variable {B : Backend}

def Signal.pauseMillis : Signal → Nat
  | .sleep millis => millis
  | _ => 0

namespace Collect

/-- Whether a run waits at a signal. At the end of a turn it does even if a sleep has no
milliseconds. -/
def State.waits (state : State B) : Signal → Bool
  | .sleep millis => state.turn = 0 || millis ≠ 0
  | .stepAside => true
  | .dispatch _ | .emit _ => false

inductive Observes (timeout : Option Nat) (state : State B) (moment : Moment B) :
    Except (Outcome B) (State B) → Prop where
  | undisturbed : Observes timeout state moment (state.observe timeout moment)
  /-- Another party cancels the run while it waits, not after the time limit. -/
  | cancelled {clock : Nat} (hwaits : state.waits moment.signal = true)
      (hfrom : state.clock ≤ clock) (hto : clock ≤ state.clock + moment.signal.pauseMillis)
      (hlimit : ∀ limit, timeout = some limit → state.clock < limit ∧ clock ≤ limit) :
      Observes timeout state moment
        (.error ({ state with clock }.finish (some .cancelled) moment.context))

inductive ObservesAll (timeout : Option Nat) :
    State B → List (Moment B) → Except (Outcome B) (State B) → Prop where
  | nil {state : State B} : ObservesAll timeout state [] (.ok state)
  | stop {state : State B} {moment : Moment B} {moments : List (Moment B)} {outcome : Outcome B}
      (h : Observes timeout state moment (.error outcome)) :
      ObservesAll timeout state (moment :: moments) (.error outcome)
  | cons {state state' : State B} {moment : Moment B} {moments : List (Moment B)}
      {result : Except (Outcome B) (State B)} (h : Observes timeout state moment (.ok state'))
      (hrest : ObservesAll timeout state' moments result) :
      ObservesAll timeout state (moment :: moments) result

theorem observesAll_foldlM (timeout : Option Nat) (state : State B) (moments : List (Moment B)) :
    ObservesAll timeout state moments (moments.foldlM (State.observe timeout) state) := by
  induction moments generalizing state with
  | nil => exact .nil
  | cons moment moments ih =>
    rw [List.foldlM_cons]
    have hmoment : Observes timeout state moment (state.observe timeout moment) := .undisturbed
    cases hobserve : state.observe timeout moment with
    | error outcome =>
      rw [hobserve] at hmoment
      exact .stop hmoment
    | ok state' =>
      rw [hobserve] at hmoment
      exact .cons hmoment (ih state')

/-- The first of some moments in a row end the run, or the rest follows. -/
theorem ObservesAll.append {timeout : Option Nat} {state : State B}
    {before after : List (Moment B)} {result : Except (Outcome B) (State B)}
    (h : ObservesAll timeout state (before ++ after) result) :
    (∃ outcome, result = .error outcome ∧ ObservesAll timeout state before (.error outcome)) ∨
    ∃ state', ObservesAll timeout state before (.ok state') ∧
      ObservesAll timeout state' after result := by
  induction before generalizing state with
  | nil => exact .inr ⟨state, .nil, h⟩
  | cons moment before ih =>
    cases h with
    | stop h => exact .inl ⟨_, rfl, .stop h⟩
    | cons h hrest =>
      rcases ih hrest with ⟨outcome, hresult, hbefore⟩ | ⟨state', hbefore, hafter⟩
      · exact .inl ⟨outcome, hresult, .cons h hbefore⟩
      · exact .inr ⟨state', .cons h hbefore, hafter⟩

end Collect

namespace Run

open Collect

/-- The clock and the turn of a run that begins when `turn` is left of a turn. -/
def beginning (turn : Nat) : Collect.State B := { turn := if turn = 0 then turnLength else turn }

/-- What a run may have come to between two moves. -/
inductive Reaches (run : Run B) (cancelled : Bool) (world : B.World) (turn : Nat) :
    Collect.State B → Machine.Next B → Prop where
  | start : Reaches run cancelled world turn (beginning turn) (run.start cancelled world)
  | move {state state' : Collect.State B} {machine : Machine.State B}
      (h : Reaches run cancelled world turn state (.resume machine))
      (hmoments : ObservesAll run.settings.timeoutMillis state
        (Machine.advance run.setup machine).moments (.ok state')) :
      Reaches run cancelled world turn state' (Machine.advance run.setup machine).next
  /-- Another party cancels the run between two moves. -/
  | disturbed {state : Collect.State B} {frames : List Machine.Frame} {context : Context B}
      (h : Reaches run cancelled world turn state (.resume ⟨frames, context⟩)) :
      Reaches run cancelled world turn state
        (.resume ⟨frames, { context with cancelled := true }⟩)

/-- The outcomes that a run may have. -/
inductive Yields (run : Run B) (cancelled : Bool) (world : B.World) (turn : Nat) :
    Outcome B → Prop where
  | ended {state : Collect.State B} {error : Option RunError} {context : Context B}
      (h : run.Reaches cancelled world turn state (.ended error context)) :
      Yields run cancelled world turn (state.finish error context)
  /-- A move is cut short. -/
  | cut {state : Collect.State B} {machine : Machine.State B} {outcome : Outcome B}
      (h : run.Reaches cancelled world turn state (.resume machine))
      (hmoments : ObservesAll run.settings.timeoutMillis state
        (Machine.advance run.setup machine).moments (.error outcome)) :
      Yields run cancelled world turn outcome

variable {run : Run B} {cancelled : Bool} {world : B.World} {turn : Nat}

theorem Reaches.yields_follow {fuel : Nat} {state : Collect.State B} {next : Machine.Next B}
    {outcome : Outcome B} (h : run.Reaches cancelled world turn state next)
    (hfollow : Collect.follow run.setup run.settings.timeoutMillis fuel state next = some outcome) :
    run.Yields cancelled world turn outcome := by
  induction fuel generalizing state next with
  | zero =>
    cases next with
    | ended error context =>
      cases hfollow
      exact .ended h
    | resume machine => cases hfollow
  | succ fuel ih =>
    cases next with
    | ended error context =>
      cases hfollow
      exact .ended h
    | resume machine =>
      simp only [Collect.follow] at hfollow
      have hmoments := observesAll_foldlM run.settings.timeoutMillis state
        (Machine.advance run.setup machine).moments
      split at hfollow
      · next cut hcut =>
        cases hfollow
        exact .cut h (hcut ▸ hmoments)
      · next state' hstate' => exact ih (.move h (hstate' ▸ hmoments)) hfollow

/-- A run that nobody disturbs has one of the outcomes that it may have. -/
theorem yields_of_collect {fuel : Nat} {outcome : Outcome B}
    (h : run.collect fuel cancelled world turn = some outcome) :
    run.Yields cancelled world turn outcome :=
  Reaches.yields_follow .start h

end Run

end StepScript
