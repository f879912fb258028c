/-!
# Activities

An activity works on a state, sleeps now and then, and ends with a value. What it does is determined
by the state in which it begins; whoever runs it may stop it while it sleeps. No sleep lasts longer
than thirty years.
-/

namespace StepScript

/-- The milliseconds of thirty years of 365 days. -/
def sleepLimit : Nat := 946080000000

/-- How many milliseconds a sleep lasts that is meant to last some milliseconds. -/
def sleepSpan (millis : Nat) : Nat := min millis sleepLimit

/-- A sleep of an activity. One without milliseconds is over at once. -/
structure Activity.Pause (σ : Type) where
  millis : Nat
  state : σ

structure Activity.Trace (σ α : Type) where
  pauses : List (Activity.Pause σ)
  value : α
  state : σ

def Activity (σ α : Type) : Type := σ → Activity.Trace σ α

namespace Activity

variable {σ τ α β : Type}

def run (activity : Activity σ α) (state : σ) : Trace σ α := activity state

protected def pure (value : α) : Activity σ α := fun state => ⟨[], value, state⟩

protected def bind (first : Activity σ α) (second : α → Activity σ β) : Activity σ β := fun state =>
  let start := first state
  let rest := second start.value start.state
  ⟨start.pauses ++ rest.pauses, rest.value, rest.state⟩

instance : Monad (Activity σ) where
  pure := Activity.pure
  bind := Activity.bind

def getState : Activity σ σ := fun state => ⟨[], state, state⟩

def update (f : σ → σ) : Activity σ Unit := fun state => ⟨[], (), f state⟩

def sleep (millis : Nat) : Activity σ Unit := fun state => ⟨[⟨sleepSpan millis, state⟩], (), state⟩

/-- An activity on the part of the state that `get` and `set` give access to. -/
def onPart (get : τ → σ) (set : τ → σ → τ) (activity : Activity σ α) : Activity τ α := fun state =>
  let trace := activity (get state)
  { pauses := trace.pauses.map fun pause => ⟨pause.millis, set state pause.state⟩
    value := trace.value
    state := set state trace.state }

end Activity

end StepScript
