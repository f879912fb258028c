import StepScript.Proofs.Run.Replay

/-!
# Positions of collected runs

A collected run that nobody disturbs, seen between two moments: what it has recorded, and what is
left of its move. It goes from one position to the next until it ends, and there is only one way.
-/

namespace StepScript

variable {B : Backend}

open Collect

/-- The context of a run before some moments of a move: that of the next moment, or the one after the
move. -/
def currentContext (moments : List (Moment B)) (next : Machine.Next B) : Context B :=
  match moments with
  | [] => next.context
  | moment :: _ => moment.context

/-- A run between two moments. -/
structure Position (B : Backend) where
  state : Collect.State B
  /-- What is left of the move. -/
  moments : List (Moment B)
  next : Machine.Next B

namespace Position

def context (position : Position B) : Context B := currentContext position.moments position.next

/-- Whether a run is about to hand out a result. -/
def emits (position : Position B) : Bool :=
  match position.moments with
  | ⟨.emit _, _⟩ :: _ => true
  | _ => false

/-- One moment further. After the last moment of a move the next move is made. -/
def step (setup : Setup B) (timeout : Option Nat) (position : Position B) :
    Except (Outcome B) (Position B) :=
  match position.moments with
  | moment :: moments =>
    (position.state.observe timeout moment).map fun state => ⟨state, moments, position.next⟩
  | [] =>
    match position.next with
    | .ended error context => .error (position.state.finish error context)
    | .resume machine =>
      let move := Machine.advance setup machine
      .ok ⟨position.state, move.moments, move.next⟩

theorem step_moment (setup : Setup B) (timeout : Option Nat) (state : Collect.State B)
    (moment : Moment B) (moments : List (Moment B)) (next : Machine.Next B) :
    step setup timeout ⟨state, moment :: moments, next⟩ =
      (state.observe timeout moment).map fun later => ⟨later, moments, next⟩ :=
  rfl

/-- From some position on a run ends with an outcome. -/
inductive Finishes (setup : Setup B) (timeout : Option Nat) : Position B → Outcome B → Prop where
  | last {position : Position B} {outcome : Outcome B}
      (hstep : position.step setup timeout = .error outcome) :
      Finishes setup timeout position outcome
  | step {position position' : Position B} {outcome : Outcome B}
      (hstep : position.step setup timeout = .ok position')
      (h : Finishes setup timeout position' outcome) : Finishes setup timeout position outcome

variable {setup : Setup B} {timeout : Option Nat} {position position' : Position B}
  {outcome outcome' : Outcome B}

/-- There is only one end. -/
theorem Finishes.unique (h : position.Finishes setup timeout outcome)
    (h' : position.Finishes setup timeout outcome') : outcome = outcome' := by
  induction h with
  | last hstep =>
    cases h' with
    | last hstep' => exact Except.error.inj (hstep.symm.trans hstep')
    | step hstep' => cases hstep.symm.trans hstep'
  | step hstep _ ih =>
    cases h' with
    | last hstep' => cases hstep.symm.trans hstep'
    | step hstep' h' =>
      cases hstep.symm.trans hstep'
      exact ih h'

/-! ## Following a run -/

/-- Follows a run from some position on, for at most `fuel` moves. -/
def follow (setup : Setup B) (timeout : Option Nat) (fuel : Nat) (position : Position B) :
    Option (Outcome B) :=
  match position.moments.foldlM (State.observe timeout) position.state with
  | .error outcome => some outcome
  | .ok state => Collect.follow setup timeout fuel state position.next

theorem follow_of_step_ok (hstep : position.step setup timeout = .ok position') (fuel : Nat) :
    ∃ more, position.follow setup timeout more = position'.follow setup timeout fuel := by
  obtain ⟨state, moments, next⟩ := position
  cases moments with
  | nil =>
    cases next with
    | ended error context => cases hstep
    | resume machine =>
      cases hstep
      exact ⟨fuel + 1, rfl⟩
  | cons moment moments =>
    rw [step_moment] at hstep
    simp only [follow, List.foldlM_cons]
    cases hobserve : state.observe timeout moment with
    | error cut =>
      rw [hobserve] at hstep
      cases hstep
    | ok state' =>
      rw [hobserve] at hstep
      cases hstep
      exact ⟨fuel, rfl⟩

theorem follow_of_step_error (hstep : position.step setup timeout = .error outcome) (fuel : Nat) :
    position.follow setup timeout fuel = some outcome := by
  obtain ⟨state, moments, next⟩ := position
  cases moments with
  | nil =>
    cases next with
    | ended error context =>
      cases hstep
      cases fuel <;> rfl
    | resume machine => cases hstep
  | cons moment moments =>
    rw [step_moment] at hstep
    simp only [follow, List.foldlM_cons]
    cases hobserve : state.observe timeout moment with
    | error cut =>
      rw [hobserve] at hstep
      cases hstep
      rfl
    | ok state' =>
      rw [hobserve] at hstep
      cases hstep

theorem Finishes.follow (h : position.Finishes setup timeout outcome) :
    ∃ fuel, position.follow setup timeout fuel = some outcome := by
  induction h with
  | last hstep => exact ⟨0, follow_of_step_error hstep 0⟩
  | step hstep _ ih =>
    obtain ⟨fuel, hfuel⟩ := ih
    obtain ⟨more, hmore⟩ := follow_of_step_ok hstep fuel
    exact ⟨more, hmore.trans hfuel⟩

/-- Moments lead to the end if the moves after them do. -/
theorem finishes_of_moments {state : Collect.State B} {moments : List (Moment B)}
    {next : Machine.Next B} {fuel : Nat}
    (hmoves : ∀ state, Collect.follow setup timeout fuel state next = some outcome →
      Finishes setup timeout ⟨state, [], next⟩ outcome)
    (h : follow setup timeout fuel ⟨state, moments, next⟩ = some outcome) :
    Finishes setup timeout ⟨state, moments, next⟩ outcome := by
  induction moments generalizing state with
  | nil => exact hmoves state h
  | cons moment moments ih =>
    simp only [follow, List.foldlM_cons] at h
    cases hobserve : state.observe timeout moment with
    | error cut =>
      rw [hobserve] at h
      cases h
      exact .last (by rw [step_moment, hobserve]; rfl)
    | ok state' =>
      rw [hobserve] at h
      exact .step (by rw [step_moment, hobserve]; rfl) (ih h)

theorem finishes_of_follow {fuel : Nat} {state : Collect.State B} {next : Machine.Next B}
    (h : Collect.follow setup timeout fuel state next = some outcome) :
    Finishes setup timeout ⟨state, [], next⟩ outcome := by
  induction fuel generalizing state next with
  | zero =>
    cases next with
    | ended error context =>
      cases h
      exact .last rfl
    | resume machine => cases h
  | succ fuel ih =>
    cases next with
    | ended error context =>
      cases h
      exact .last rfl
    | resume machine => exact .step rfl (finishes_of_moments (fun _ hmove => ih hmove) h)

end Position

namespace Run

variable {run : Run B} {cancelled : Bool} {world : B.World} {turn : Nat}

def origin (run : Run B) (cancelled : Bool) (world : B.World) (turn : Nat) : Position B :=
  ⟨beginning turn, [], run.start cancelled world⟩

/-- A run ends with an outcome if and only if the outcome is collected. -/
theorem collect_eq_some_iff {outcome : Outcome B} :
    (∃ fuel, run.collect fuel cancelled world turn = some outcome) ↔
      (run.origin cancelled world turn).Finishes run.setup run.settings.timeoutMillis outcome :=
  ⟨fun ⟨_, h⟩ => Position.finishes_of_follow h, fun h => h.follow⟩

/-- The outcome of a run does not depend on how long it is followed. -/
theorem collect_unique {fuel fuel' : Nat} {outcome outcome' : Outcome B}
    (h : run.collect fuel cancelled world turn = some outcome)
    (h' : run.collect fuel' cancelled world turn = some outcome') : outcome = outcome' :=
  (collect_eq_some_iff.1 ⟨fuel, h⟩).unique (collect_eq_some_iff.1 ⟨fuel', h'⟩)

/-- The positions to which a run comes. -/
inductive Passes (run : Run B) (cancelled : Bool) (world : B.World) (turn : Nat) :
    Position B → Prop where
  | start : Passes run cancelled world turn (run.origin cancelled world turn)
  | step {position position' : Position B} (h : Passes run cancelled world turn position)
      (hstep : position.step run.setup run.settings.timeoutMillis = .ok position') :
      Passes run cancelled world turn position'

variable {position position' : Position B} {outcome : Outcome B}

/-- What comes after one of the positions of a run is what the run comes to. -/
theorem Passes.finishes (h : run.Passes cancelled world turn position)
    (hfinishes : position.Finishes run.setup run.settings.timeoutMillis outcome) :
    ∃ fuel, run.collect fuel cancelled world turn = some outcome := by
  rw [collect_eq_some_iff]
  induction h with
  | start => exact hfinishes
  | step _ hstep ih => exact ih (.step hstep hfinishes)

theorem Passes.exists_last (h : run.Passes cancelled world turn position)
    (hfinishes : position.Finishes run.setup run.settings.timeoutMillis outcome) :
    ∃ last, run.Passes cancelled world turn last ∧
      last.step run.setup run.settings.timeoutMillis = .error outcome := by
  induction hfinishes with
  | last hstep => exact ⟨_, h, hstep⟩
  | step hstep _ ih => exact ih (h.step hstep)

/-- Every outcome is that of a last position. -/
theorem exists_last_of_collect {fuel : Nat}
    (h : run.collect fuel cancelled world turn = some outcome) :
    ∃ last, run.Passes cancelled world turn last ∧
      last.step run.setup run.settings.timeoutMillis = .error outcome :=
  Passes.start.exists_last (collect_eq_some_iff.1 ⟨fuel, h⟩)

/-- If a run has ended with an outcome, it ends with it from each of its positions on. -/
theorem Passes.finishes_of_collect {fuel : Nat} (h : run.Passes cancelled world turn position)
    (hcollect : run.collect fuel cancelled world turn = some outcome) :
    position.Finishes run.setup run.settings.timeoutMillis outcome := by
  induction h with
  | start => exact collect_eq_some_iff.1 ⟨fuel, hcollect⟩
  | step _ hstep ih =>
    cases ih with
    | last hstep' => cases hstep.symm.trans hstep'
    | step hstep' hrest =>
      cases hstep.symm.trans hstep'
      exact hrest

end Run

/-! ## Invariants -/

/-- What moments and moves preserve holds at every position. -/
theorem Run.Passes.invariant {run : Run B} {cancelled : Bool} {world : B.World} {turn : Nat}
    {P : Collect.State B → List (Moment B) → Machine.Next B → Prop}
    (start : P (beginning turn) [] (run.start cancelled world))
    (moment : ∀ {state later moment moments next}, P state (moment :: moments) next →
      state.observe run.settings.timeoutMillis moment = .ok later → P later moments next)
    (move : ∀ {state machine}, P state [] (.resume machine) →
      P state (Machine.advance run.setup machine).moments (Machine.advance run.setup machine).next)
    {position : Position B} (h : run.Passes cancelled world turn position) :
    P position.state position.moments position.next := by
  induction h with
  | start => exact start
  | @step before after _ hstep ih =>
    obtain ⟨state, moments, next⟩ := before
    cases moments with
    | nil =>
      cases next with
      | ended error context => cases hstep
      | resume machine =>
        cases hstep
        exact move ih
    | cons first moments =>
      rw [Position.step_moment] at hstep
      cases hobserve : state.observe run.settings.timeoutMillis first with
      | error cut =>
        rw [hobserve] at hstep
        cases hstep
      | ok later =>
        rw [hobserve] at hstep
        cases hstep
        exact moment ih hobserve

/-- The two ways in which a position is the last one. -/
theorem Position.step_eq_error {setup : Setup B} {timeout : Option Nat} {position : Position B}
    {outcome : Outcome B} (h : position.step setup timeout = .error outcome) :
    (∃ error context, position.moments = [] ∧ position.next = .ended error context ∧
      outcome = position.state.finish error context) ∨
    ∃ moment moments, position.moments = moment :: moments ∧
      position.state.observe timeout moment = .error outcome := by
  obtain ⟨state, moments, next⟩ := position
  cases moments with
  | nil =>
    cases next with
    | ended error context =>
      cases h
      exact .inl ⟨error, context, rfl, rfl, rfl⟩
    | resume machine => cases h
  | cons moment moments =>
    refine .inr ⟨moment, moments, rfl, ?_⟩
    rw [step_moment] at h
    cases hobserve : state.observe timeout moment with
    | error cut =>
      rw [hobserve] at h
      cases h
      rfl
    | ok later =>
      rw [hobserve] at h
      cases h

/-- The clock of a run has not passed its limit, nor had it at any dispatch. -/
structure Collect.State.IsPaced (timeout : Option Nat) (state : Collect.State B) : Prop where
  timely : state.IsTimely timeout
  dispatches : ∀ entry ∈ state.dispatches, entry.1 ≤ state.clock

theorem Run.Passes.paced {run : Run B} {cancelled : Bool} {world : B.World} {turn : Nat}
    {position : Position B} (h : run.Passes cancelled world turn position) :
    position.state.IsPaced run.settings.timeoutMillis := by
  refine h.invariant (P := fun state _ _ => state.IsPaced run.settings.timeoutMillis) ?_ ?_ ?_
  · exact ⟨fun _ _ => Nat.zero_le _, fun _ hentry => absurd hentry (Array.not_mem_empty _)⟩
  · intro state later moment moments next hpaced hobserve
    obtain ⟨htimely, hclock, -, hdispatches⟩ := observe_ok hpaced.timely hobserve
    refine ⟨htimely, fun entry hentry => Nat.le_trans ?_ hclock⟩
    rw [← Array.mem_toList_iff, hdispatches, List.mem_append] at hentry
    rcases hentry with hentry | hentry
    · exact hpaced.dispatches entry (Array.mem_toList_iff.1 hentry)
    · -- the entry of this moment has the time of now
      cases hstep : moment.signal.dispatched? with
      | none => simp [hstep] at hentry
      | some step =>
        obtain rfl : entry = (state.clock, step) := by simpa [hstep] using hentry
        exact Nat.le_refl _
  · exact fun hpaced => hpaced

end StepScript
