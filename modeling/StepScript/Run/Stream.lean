import StepScript.Run.Basic

/-!
# Streamed runs

A streamed run hands its results to a consumer through a queue. It waits while the queue is full,
and it works only while the consumer waits. Both share a virtual clock that jumps to the next time
at which one of them can go on; if both can, the consumer goes first. The consumer, too, works for
at most a turn before it steps aside.
-/

namespace StepScript

variable {B : Backend}

namespace Stream

/-- How many results may be unread before the run has to wait. -/
def capacity : Nat := 64

/-- What a run is about to do: the rest of a move. -/
structure Course (B : Backend) where
  moments : List (Moment B)
  next : Machine.Next B

inductive Phase (B : Backend) where
  /-- It has not begun. -/
  | idle (world : B.World)
  /-- It works. -/
  | working (course : Course B)
  /-- It sleeps or stands aside until some time. -/
  | pausing (wake : Nat) (context : Context B) (course : Course B)
  /-- It waits until there is room for a result. -/
  | blocked (result : ActionResult) (context : Context B) (course : Course B)
  /-- It has ended. -/
  | ended (error : Option RunError) (context : Context B)

/-- A run with its queue and the clock. -/
structure State (B : Backend) where
  phase : Phase B
  /-- Whether the consumer has cancelled the run. -/
  cancelled : Bool := false
  /-- The results that have not been read. -/
  queue : List ActionResult := []
  /-- The results that have been read. -/
  delivered : Array ActionResult := #[]
  /-- All results of the run so far, also one that waits for room. -/
  emitted : Array ActionResult := #[]
  clock : Nat := 0
  /-- The time limit, once the run has begun. -/
  deadline : Option Nat := none
  /-- What is left of the turn of the run. -/
  turn : Nat := turnLength
  /-- What is left of the turn of the consumer. -/
  consumerTurn : Nat := turnLength

/-- What a consumer is told at the end of a run. The results are not among it: they were handed over
one by one. -/
structure Joined where
  results : List ActionResult
  emitted : Nat
  params : Parameters
  error : Option RunError

namespace State

/-- A run that has not begun. -/
def start (cancelled : Bool) (world : B.World) : State B := { phase := .idle world, cancelled }

/-- What the consumer is told once the run has ended. -/
def joined? (state : State B) : Option Joined :=
  match state.phase with
  | .ended error context =>
    some { results := [], emitted := state.emitted.size, params := context.params, error }
  | _ => none

def hasEnded (state : State B) : Bool :=
  match state.phase with
  | .ended .. => true
  | _ => false

def isCancelled (state : State B) (context : Context B) : Bool :=
  state.cancelled || context.cancelled

/-! ## Single events -/

def begin (run : Run B) (world : B.World) (state : State B) : State B :=
  { state with
    phase := .working ⟨[], run.start state.cancelled world⟩
    deadline := run.settings.timeoutMillis.map (state.clock + ·) }

/-- A result enters the queue if there is room and the turn is not over; otherwise the run is
blocked. -/
def offer (state : State B) (result : ActionResult) (context : Context B) (course : Course B) :
    State B :=
  if state.turn ≠ 0 ∧ state.queue.length < capacity then
    { state with
      phase := .working course
      queue := state.queue ++ [result]
      turn := state.turn - 1 }
  else { state with phase := .blocked result context course }

/-- The run sleeps. At the end of a turn it steps aside first, and a sleep that has lasted is over
at once when the run looks at it again. -/
def sleep (state : State B) (millis : Nat) (context : Context B) (course : Course B) : State B :=
  let again (millis : Nat) : Course B :=
    { course with moments := ⟨.sleep millis, context⟩ :: course.moments }
  if state.turn = 0 then { state with phase := .pausing state.clock context (again millis) }
  else if millis = 0 then { state with phase := .working course, turn := state.turn - 1 }
  else { state with phase := .pausing (state.clock + millis) context (again 0) }

/-- A run that works does the next thing. -/
def step (setup : Setup B) (state : State B) : State B :=
  match state.phase with
  | .working ⟨[], .ended error context⟩ => { state with phase := .ended error context }
  | .working ⟨[], .resume machine⟩ =>
    let move := Machine.advance setup machine
    { state with phase := .working ⟨move.moments, move.next⟩ }
  | .working ⟨moment :: moments, next⟩ =>
    match moment.signal with
    | .dispatch _ => { state with phase := .working ⟨moments, next⟩ }
    | .sleep millis => state.sleep millis moment.context ⟨moments, next⟩
    | .stepAside =>
      { state with phase := .pausing state.clock moment.context ⟨moments, next⟩ }
    | .emit result =>
      { state with emitted := state.emitted.push result }.offer result moment.context
        ⟨moments, next⟩
  | _ => state

/-- A run whose pause is over, or for whose result there is room, goes on. -/
def wake (state : State B) : State B :=
  match state.phase with
  | .pausing time _ course =>
    if time ≤ state.clock then { state with phase := .working course } else state
  | .blocked result context course => state.offer result context course
  | _ => state

/-- A run that does not work is stopped with an error. A result that waits for room is lost. -/
def stop (state : State B) (error : RunError) : State B :=
  match state.phase with
  | .pausing _ context _ | .blocked _ context _ =>
    { state with phase := .ended (some error) context }
  | _ => state

/-- The consumer takes the oldest unread result. -/
def read (state : State B) : Option ActionResult × State B :=
  match state.queue with
  | [] => (none, state)
  | result :: rest =>
    (some result, { state with queue := rest, delivered := state.delivered.push result })

def cancel (state : State B) : State B := { state with cancelled := true }

/-! ## Polling -/

/-- Lets the run work until it stops working, for at most `fuel` steps. -/
def work (setup : Setup B) : Nat → State B → State B
  | 0, state => state
  | fuel + 1, state =>
    match state.phase with
    | .working _ => work setup fuel (state.step setup)
    | _ => state

def isOverdue (state : State B) : Bool :=
  match state.deadline with
  | some time => time ≤ state.clock
  | none => false

def expire (run : Run B) (state : State B) : State B :=
  if state.isOverdue then state.stop (.timedOut (run.settings.timeoutMillis.getD 0)) else state

/-- The run is looked at, and a new turn begins: if it is cancelled it stops; otherwise it goes on
if it can. When it does not work any more, its time limit is looked at. -/
def poll (run : Run B) (fuel : Nat) (state : State B) : State B :=
  let state := { state with turn := turnLength }
  let resumed :=
    match state.phase with
    | .idle world => state.begin run world
    | .pausing _ context _ | .blocked _ context _ =>
      if state.isCancelled context then state.stop .cancelled else state.wake
    | _ => state
  (resumed.work run.setup fuel).expire run

/-- Whether looking at the run would change anything. -/
def isReady (state : State B) : Bool :=
  match state.phase with
  | .idle _ | .working _ => true
  | .pausing time context _ =>
    state.isCancelled context || time ≤ state.clock || state.isOverdue
  | .blocked _ context _ =>
    state.isCancelled context || state.queue.length < capacity || state.isOverdue
  | .ended .. => false

/-! ## Waiting -/

inductive Goal where
  /-- A result, or the end of the run. -/
  | result
  /-- A point in time. -/
  | time (clock : Nat)
  /-- The end of the run. -/
  | finish
deriving DecidableEq

/-- Whether the consumer can go on. -/
def reaches (state : State B) : Goal → Bool
  | .result => !state.queue.isEmpty || state.hasEnded
  | .time clock => clock ≤ state.clock
  | .finish => state.hasEnded

/-- The earlier of two times, of which either may be missing. -/
def earlier : Option Nat → Option Nat → Option Nat
  | some a, some b => some (min a b)
  | some a, none => some a
  | none, b => b

/-- The next time at which something can go on. -/
def nextTime (state : State B) (goal : Goal) : Option Nat :=
  let wake :=
    match state.phase with
    | .pausing time _ _ => some time
    | _ => none
  let deadline := if state.hasEnded then none else state.deadline
  let awaited :=
    match goal with
    | .time clock => some clock
    | _ => none
  earlier (earlier wake deadline) awaited

/-- The consumer waits: the run is looked at whenever it can go on, and otherwise the clock jumps.
At most `fuel` times. -/
def await (run : Run B) (work : Nat) (goal : Goal) : Nat → State B → State B
  | 0, state => state
  | fuel + 1, state =>
    if state.reaches goal then state
    else if state.isReady then await run work goal fuel (state.poll run work)
    else
      match state.nextTime goal with
      | some time => await run work goal fuel { state with clock := time }
      | none => state

/-- The consumer steps aside, and a new turn of it begins. -/
def stepAside (run : Run B) (work : Nat) (state : State B) : State B :=
  let state := if state.isReady then state.poll run work else state
  { state with consumerTurn := turnLength }

/-- The consumer waits for something unless it is there already. At the end of a turn it steps aside
first, and a new turn begins when it has waited. -/
def attend (run : Run B) (fuel : Nat) (goal : Goal) (state : State B) : State B :=
  let state := if state.consumerTurn = 0 then state.stepAside run fuel else state
  if state.reaches goal then { state with consumerTurn := state.consumerTurn - 1 }
  else { state.await run fuel goal fuel with consumerTurn := turnLength - 1 }

end State

/-! ## Consumers -/

inductive Op where
  /-- Reads a number of times. -/
  | next (count : Nat)
  /-- Reads to the end. -/
  | drain
  /-- Sleeps for some milliseconds. -/
  | sleep (millis : Nat)
  /-- Cancels the run. -/
  | cancel
deriving DecidableEq, Repr

variable (run : Run B) (fuel : Nat)

/-- Waits for a result and reads it; there is none once the run has ended and everything has been
read. -/
def receive (state : State B) : Option ActionResult × State B :=
  (state.attend run fuel .result).read

def receiveMany : Nat → State B → List (Option ActionResult) × State B
  | 0, state => ([], state)
  | count + 1, state =>
    let (result, state) := receive run fuel state
    let (results, state) := receiveMany count state
    (result :: results, state)

/-- Reads to the end, at most `count` results. -/
def receiveAll : Nat → State B → List (Option ActionResult) × State B
  | 0, state => ([], state)
  | count + 1, state =>
    match receive run fuel state with
    | (none, state) => ([], state)
    | (some result, state) =>
      let (results, state) := receiveAll count state
      (some result :: results, state)

def perform (state : State B) : Op → List (Option ActionResult) × State B
  | .next count => receiveMany run fuel count state
  | .drain => receiveAll run fuel fuel state
  | .sleep millis =>
    ([], state.attend run fuel (.time (state.clock + sleepSpan millis)))
  | .cancel => ([], state.cancel)

def performAll : List Op → State B → List (Option ActionResult) × State B
  | [], state => ([], state)
  | op :: ops, state =>
    let (read, state) := perform run fuel state op
    let (reads, state) := performAll ops state
    (read ++ reads, state)

/-- The consumer waits for the end of the run. -/
def join (state : State B) : State B := state.attend run fuel .finish

end Stream

end StepScript
