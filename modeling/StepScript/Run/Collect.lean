import StepScript.Run.Basic

/-!
# Collected runs

A run on a virtual clock that nobody disturbs: the clock stands still while the run works and jumps
to the end of each sleep. All results are kept.
-/

namespace StepScript

variable {B : Backend}

structure Outcome (B : Backend) where
  results : Array ActionResult
  emitted : Nat
  /-- The steps that went to the interceptors, each with its time. -/
  dispatches : Array (Nat × Step)
  error : Option RunError
  context : Context B
  elapsed : Nat
  /-- What is left of the turn. -/
  turn : Nat

def Outcome.params (outcome : Outcome B) : Parameters := outcome.context.params

namespace Collect

/-- A run with its clock and what is left of its turn. -/
structure State (B : Backend) where
  turn : Nat
  results : Array ActionResult := #[]
  /-- How many results the run has handed out. -/
  emitted : Nat := 0
  dispatches : Array (Nat × Step) := #[]
  clock : Nat := 0

def State.finish (state : State B) (error : Option RunError) (context : Context B) : Outcome B :=
  { results := state.results
    emitted := state.emitted
    dispatches := state.dispatches
    error
    context
    elapsed := state.clock
    turn := state.turn }

/-- The run waits for some milliseconds, and a new turn begins. The time limit is looked at when the
run begins to wait and while it does, and it is exceeded only if it is reached before the end. -/
def State.wait (timeout : Option Nat) (state : State B) (millis : Nat) (context : Context B) :
    Except (Outcome B) (State B) :=
  let wake := state.clock + millis
  let woken := { state with clock := wake, turn := turnLength }
  match timeout with
  | some limit =>
    if limit ≤ state.clock then .error (state.finish (some (.timedOut limit)) context)
    else if context.cancelled then .error (state.finish (some .cancelled) context)
    else if limit < wake then
      .error ({ state with clock := limit }.finish (some (.timedOut limit)) context)
    else .ok woken
  | none =>
    if context.cancelled then .error (state.finish (some .cancelled) context) else .ok woken

/-- The run sleeps. At the end of a turn it steps aside first. -/
def State.sleep (timeout : Option Nat) (state : State B) (millis : Nat) (context : Context B) :
    Except (Outcome B) (State B) := do
  let state ← if state.turn = 0 then state.wait timeout 0 context else pure state
  let state ← if millis = 0 then pure state else state.wait timeout millis context
  return { state with turn := state.turn - 1 }

def State.observe (timeout : Option Nat) (state : State B) (moment : Moment B) :
    Except (Outcome B) (State B) :=
  match moment.signal with
  | .dispatch step =>
    .ok { state with dispatches := state.dispatches.push (state.clock, step) }
  | .emit result =>
    .ok { state with results := state.results.push result, emitted := state.emitted + 1 }
  | .sleep millis => state.sleep timeout millis moment.context
  | .stepAside => state.wait timeout 0 moment.context

/-- Follows a run for at most `fuel` moves. -/
def follow (setup : Setup B) (timeout : Option Nat) :
    Nat → State B → Machine.Next B → Option (Outcome B)
  | _, state, .ended error context => some (state.finish error context)
  | 0, _, .resume _ => none
  | fuel + 1, state, .resume machine =>
    let move := Machine.advance setup machine
    match move.moments.foldlM (State.observe timeout) state with
    | .error outcome => some outcome
    | .ok state => follow setup timeout fuel state move.next

end Collect

/-- The outcome of a run that begins when `turn` is left of a turn, if it ends within `fuel` moves.
At the end of a turn it steps aside before it begins. -/
def Run.collect (run : Run B) (fuel : Nat) (cancelled : Bool) (world : B.World)
    (turn : Nat := turnLength) : Option (Outcome B) :=
  let start : Collect.State B := { turn := if turn = 0 then turnLength else turn }
  Collect.follow run.setup run.settings.timeoutMillis fuel start (run.start cancelled world)

end StepScript
