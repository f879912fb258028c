import StepScript.Proofs.Run.Outcomes
import StepScript.Proofs.Run.Positions

/-!
# Cancelled runs

A run may be cancelled before it begins, by another party while it waits, or by those who take part
in one of its dispatches. In no case does it send another step to the interceptors. In the last case
it unwinds: it hands out at most the result of that dispatch, and it ends without doing anything that
is left to do.
-/

namespace StepScript

open Collect

variable {B : Backend}

/-! ## Between two moves -/

namespace Machine

/-- Whether the guard of a loop comes next. -/
def Frame.checks : Frame → Bool
  | .check .. => true
  | .visit _ | .rest .. => false

/-- Whether a frame contains nothing to do: no node to visit and no pause of a loop. -/
def Frame.isDone : Frame → Bool
  | .visit [] => true
  | .visit (_ :: _) | .check .. | .rest .. => false

/-- A guard is checked as soon as the run comes to it, so that the run cannot be cancelled yet. -/
structure State.Heeds (state : State B) : Prop where
  first : ∀ frame ∈ state.frames.head?, frame.checks = true → state.context.cancelled = false
  below : ∀ frame ∈ state.frames.tail, frame.checks = false

/-- A cancelled run is not about to check a guard, and it has not ended with an error that has
nothing to do with the cancellation or a dispatch. -/
def Next.Heeds : Next B → Prop
  | .resume state => state.Heeds
  | .ended error context => context.cancelled = true → ∀ cause, error = some cause →
      cause = .cancelled ∨ cause.isFailure = true

end Machine

/-! ## Moves -/

/-- What is left of a move of a run that has been cancelled or not. Once the run is cancelled it
stays cancelled, and a step is sent to the interceptors only before. A result is the last thing that
is seen of a move. -/
inductive Heeds : Bool → List (Moment B) → Machine.Next B → Prop where
  | last {cancelled : Bool} {next : Machine.Next B}
      (hlasting : cancelled = true → next.context.cancelled = true) (hnext : next.Heeds) :
      Heeds cancelled [] next
  | sends {step : Step} {context : Context B} {moments : List (Moment B)} {next : Machine.Next B}
      (hrunning : context.cancelled = false) (hrest : Heeds false moments next) :
      Heeds false (⟨.dispatch step, context⟩ :: moments) next
  | pauses {cancelled : Bool} {moment : Moment B} {moments : List (Moment B)}
      {next : Machine.Next B} (hpause : moment.signal.isPause = true)
      (hlasting : cancelled = true → moment.context.cancelled = true)
      (hrest : Heeds moment.context.cancelled moments next) :
      Heeds cancelled (moment :: moments) next
  | emits {cancelled : Bool} {result : ActionResult} {context : Context B}
      {next : Machine.Next B} (hlasting : cancelled = true → context.cancelled = true)
      (hrest : Heeds context.cancelled [] next) :
      Heeds cancelled [⟨.emit result, context⟩] next

section

variable {cancelled cancelled' : Bool} {moment : Moment B} {moments : List (Moment B)}
  {next : Machine.Next B} {setup : Setup B}

theorem Heeds.weaken (h : Heeds cancelled moments next)
    (hless : cancelled' = true → cancelled = true) : Heeds cancelled' moments next := by
  cases h with
  | last hlasting hnext => exact .last (fun hcancelled => hlasting (hless hcancelled)) hnext
  | sends hrunning hrest =>
    obtain rfl : cancelled' = false := by simpa using hless
    exact .sends hrunning hrest
  | pauses hpause hlasting hrest =>
    exact .pauses hpause (fun hcancelled => hlasting (hless hcancelled)) hrest
  | emits hlasting hrest => exact .emits (fun hcancelled => hlasting (hless hcancelled)) hrest

/-- Nothing is known to have been cancelled before. -/
theorem Heeds.running (h : Heeds cancelled moments next) : Heeds false moments next :=
  h.weaken nofun

theorem Heeds.tail (h : Heeds cancelled (moment :: moments) next) :
    Heeds moment.context.cancelled moments next := by
  cases h with
  | sends hrunning hrest => exact hrunning ▸ hrest
  | pauses _ _ hrest => exact hrest
  | emits _ hrest => exact hrest

theorem Heeds.sent {step : Step} {context : Context B}
    (h : Heeds cancelled (⟨.dispatch step, context⟩ :: moments) next) :
    context.cancelled = false := by
  cases h with
  | sends hrunning => exact hrunning
  | pauses hpause => cases hpause

/-- The pauses of a dispatch, and what follows it. -/
theorem heeds_seePauses {before last : Context B} {pauses : List (Activity.Pause (Context B))}
    (h : Heeds (seePauses before pauses last).2.cancelled moments next) :
    Heeds before.cancelled ((seePauses before pauses last).1 ++ moments) next := by
  induction pauses generalizing before with
  | nil =>
    refine h.weaken fun hcancelled => ?_
    simp [seePauses, Context.stayCancelled, hcancelled]
  | cons pause pauses ih =>
    refine .pauses rfl (fun hcancelled => ?_) (ih h)
    simp [Context.stayCancelled, hcancelled]

theorem FailsWith.isFailure {step : Step} {context : Context B} {record : ActionResult}
    {error : RunError} (h : FailsWith setup step context record error) : error.isFailure = true := by
  cases h <;> rfl

namespace Machine

variable {step : Step} {context : Context B} {frames : ActionResult → List Frame}

theorem State.Heeds.ofFrames {frames : List Frame} (context : Context B)
    (h : ∀ frame ∈ frames, frame.checks = false) : State.Heeds ⟨frames, context⟩ := by
  refine ⟨fun frame hframe hchecks => ?_, fun frame hframe => h frame (List.mem_of_mem_tail hframe)⟩
  rw [h frame (List.mem_of_mem_head? hframe)] at hchecks
  cases hchecks

/-- A dispatch that succeeds, and what follows it. -/
theorem heeds_trip (hrunning : context.cancelled = false)
    (h : Heeds (afterTrip setup step context).cancelled moments next) :
    Heeds false (⟨.dispatch step, context⟩ :: tripPauses setup step context ++ moments) next :=
  .sends hrunning (hrunning ▸ heeds_seePauses h)

theorem heeds_failed (hrunning : context.cancelled = false) {record : ActionResult}
    {error : RunError} (hfails : FailsWith setup step context record error) :
    Heeds false (⟨.dispatch step, context⟩ :: tripPauses setup step context ++
        shown (afterTrip setup step context) [record])
      (.ended (some error) (afterTrip setup step context)) := by
  refine heeds_trip hrunning (.emits id (.last id fun _ cause hcause => ?_))
  cases hcause
  exact .inr hfails.isFailure

theorem heeds_unsupported (hrunning : context.cancelled = false) (error : RunError) :
    Heeds false [] (.ended (some error) context : Next B) := by
  refine .last nofun fun hcancelled => ?_
  rw [hrunning] at hcancelled
  cases hcancelled

theorem afterDispatch_emitting_heeds (hrunning : context.cancelled = false)
    (hframes : ∀ result, ∀ frame ∈ frames result, frame.checks = false) :
    let move := afterDispatch setup step context (emitting frames)
    Heeds false move.moments move.next := by
  rcases dispatch_shape setup step context with ⟨-, hdispatch⟩ |
    ⟨-, ⟨result, -, -, hdispatch⟩ | ⟨record, error, hfails, hdispatch⟩⟩
  · simp only [afterDispatch, hdispatch]
    exact heeds_unsupported hrunning _
  · simp only [afterDispatch, hdispatch]
    exact heeds_trip hrunning (.emits id (.last id (.ofFrames _ (hframes result))))
  · simp only [afterDispatch, hdispatch]
    exact heeds_failed hrunning hfails

theorem afterDispatch_silent_heeds (hrunning : context.cancelled = false)
    (hframes : ∀ result, ∀ frame ∈ frames result, frame.checks = false) :
    let move := afterDispatch setup step context (silent frames)
    Heeds false move.moments move.next := by
  rcases dispatch_shape setup step context with ⟨-, hdispatch⟩ |
    ⟨-, ⟨result, -, -, hdispatch⟩ | ⟨record, error, hfails, hdispatch⟩⟩
  · simp only [afterDispatch, hdispatch]
    exact heeds_unsupported hrunning _
  · simp only [afterDispatch, hdispatch, silent]
    rw [← List.append_nil (_ :: tripPauses setup step context)]
    exact heeds_trip hrunning (.last id (.ofFrames _ (hframes result)))
  · simp only [afterDispatch, hdispatch]
    exact heeds_failed hrunning hfails

theorem heeds_pauseBetween {context : Context B}
    (h : Heeds context.cancelled [] next) :
    Heeds context.cancelled (pauseBetween setup context) next := by
  unfold pauseBetween
  split
  · exact .pauses rfl id h
  · exact .pauses rfl id h

theorem advance_heeds (setup : Setup B) {state : State B} (h : state.Heeds) :
    Heeds state.context.cancelled (advance setup state).moments (advance setup state).next := by
  obtain ⟨frames, context⟩ := state
  obtain ⟨hfirst, hbelow⟩ := h
  match frames with
  | [] => exact .last id fun _ _ hended => absurd hended (Option.some_ne_none _).symm
  | .visit [] :: rest => exact .last id (.ofFrames context hbelow)
  | .visit (node :: nodes) :: rest =>
    have hlater : ∀ frame ∈ Frame.visit nodes :: rest, frame.checks = false :=
      List.forall_mem_cons.2 ⟨rfl, hbelow⟩
    cases hcancelled : context.cancelled with
    | true =>
      simp only [advance, hcancelled]
      refine .last (fun _ => hcancelled) ?_
      rintro - cause ⟨⟩
      exact .inl rfl
    | false =>
      simp only [advance, hcancelled]
      cases node with
      | sequential step => exact afterDispatch_emitting_heeds hcancelled fun _ => hlater
      | conditional guard thenBranch elseBranch =>
        exact afterDispatch_emitting_heeds hcancelled fun _ => List.forall_mem_cons.2 ⟨rfl, hlater⟩
      | loop guard body => exact .last (absurd · Bool.false_ne_true) ⟨fun _ _ _ => hcancelled, hlater⟩
  | .check guard body :: rest =>
    have hrunning : context.cancelled = false := hfirst _ rfl rfl
    rw [hrunning]
    refine afterDispatch_silent_heeds hrunning fun result => ?_
    split
    · exact List.forall_mem_cons.2 ⟨rfl, List.forall_mem_cons.2 ⟨rfl, hbelow⟩⟩
    · exact hbelow
  | .rest guard body :: rest =>
    simp only [advance]
    split
    · next hcancelled =>
      refine heeds_pauseBetween (.last id ?_)
      rintro - cause ⟨⟩
      exact .inl rfl
    · next hcancelled =>
      exact heeds_pauseBetween (.last id ⟨fun _ _ _ => by simpa using hcancelled, hbelow⟩)

end Machine

/-! ## Unwinding -/

/-- What a cancelled run still does: it pauses, it hands out some results, and it ends. -/
inductive Unwinds (setup : Setup B) :
    List (Moment B) → Machine.Next B → List ActionResult → Option RunError → Prop where
  | ended {error : Option RunError} {context : Context B} :
      Unwinds setup [] (.ended error context) [] error
  | moves {machine : Machine.State B} {results : List ActionResult} {error : Option RunError}
      (h : Unwinds setup (Machine.advance setup machine).moments
        (Machine.advance setup machine).next results error) :
      Unwinds setup [] (.resume machine) results error
  | pauses {moment : Moment B} {moments : List (Moment B)} {next : Machine.Next B}
      {results : List ActionResult} {error : Option RunError}
      (hpause : moment.signal.isPause = true) (hcancelled : moment.context.cancelled = true)
      (h : Unwinds setup moments next results error) :
      Unwinds setup (moment :: moments) next results error
  | emits {result : ActionResult} {context : Context B} {moments : List (Moment B)}
      {next : Machine.Next B} {results : List ActionResult} {error : Option RunError}
      (hcancelled : context.cancelled = true) (h : Unwinds setup moments next results error) :
      Unwinds setup (⟨.emit result, context⟩ :: moments) next (result :: results) error

namespace Machine

/-- The error with which a cancelled run ends by itself: it is that of a dispatch that failed, and
there is none if nothing is left to do. -/
def Next.verdict : Next B → Option RunError
  | .ended error _ => error
  | .resume state => if state.frames.all Frame.isDone then none else some .cancelled

def Next.isOver : Next B → Bool
  | .ended error _ => error.isNone
  | .resume state => state.frames.all Frame.isDone

/-- A cancelled run ends as cancelled, unless a dispatch failed or nothing is left to do. -/
inductive Next.Decides (next : Next B) : Option RunError → Prop where
  | cancelled : Decides next (some .cancelled)
  | failed {cause : RunError} {context : Context B} (hnext : next = .ended (some cause) context)
      (hfailure : cause.isFailure = true) : Decides next (some cause)
  | over (hover : next.isOver = true) : Decides next none

theorem Next.Heeds.decides (h : next.Heeds) (hcancelled : next.context.cancelled = true) :
    next.Decides next.verdict := by
  cases next with
  | ended error context =>
    cases error with
    | none => exact .over rfl
    | some cause =>
      rcases h hcancelled cause rfl with rfl | hfailure
      · exact .cancelled
      · exact .failed rfl hfailure
  | resume state =>
    simp only [Next.verdict]
    split
    · next hover => exact .over hover
    · exact .cancelled

theorem unwinds_pauseBetween {context : Context B} (hcancelled : context.cancelled = true)
    {results : List ActionResult} {error : Option RunError} (h : Unwinds setup [] next results error) :
    Unwinds setup (pauseBetween setup context) next results error := by
  unfold pauseBetween
  split
  · exact .pauses rfl hcancelled h
  · exact .pauses rfl hcancelled h

/-- A cancelled run that is not about to check a guard does nothing of what is left to do. -/
theorem unwinds_frames {frames : List Frame} {context : Context B}
    (hcancelled : context.cancelled = true) (h : ∀ frame ∈ frames, frame.checks = false) :
    Unwinds setup [] (.resume ⟨frames, context⟩) []
      (Next.resume ⟨frames, context⟩ : Next B).verdict := by
  induction frames with
  | nil => exact .moves .ended
  | cons frame frames ih =>
    obtain ⟨hframe, hframes⟩ := List.forall_mem_cons.1 h
    match frame with
    | .visit [] => exact .moves (ih hframes)
    | .visit (node :: nodes) =>
      refine .moves ?_
      simp only [advance, hcancelled]
      exact .ended
    | .check guard body => cases hframe
    | .rest guard body =>
      refine .moves ?_
      simp only [advance, hcancelled]
      exact unwinds_pauseBetween hcancelled .ended

theorem Next.Heeds.unwinds (h : next.Heeds) (hcancelled : next.context.cancelled = true) :
    Unwinds setup [] next [] next.verdict := by
  cases next with
  | ended error context => exact .ended
  | resume state =>
    obtain ⟨frames, context⟩ := state
    refine unwinds_frames hcancelled fun frame hframe => ?_
    cases frames with
    | nil => cases hframe
    | cons first below =>
      rcases List.mem_cons.1 hframe with rfl | hframe
      · by_contra hchecks
        have hrunning : context.cancelled = false := h.first frame rfl (by simpa using hchecks)
        cases hrunning.symm.trans hcancelled
      · exact h.below frame hframe

end Machine

/-- A run that heeds cancellations unwinds when it is cancelled, and hands out at most one result. -/
theorem Heeds.unwinds (setup : Setup B) (h : Heeds true moments next) :
    Unwinds setup moments next (emittedResults moments) next.verdict ∧
      (emittedResults moments).length ≤ 1 ∧ next.Decides next.verdict := by
  generalize hcancelled : true = cancelled at h
  induction h with
  | last hlasting hnext =>
    have hend := hlasting hcancelled.symm
    exact ⟨hnext.unwinds hend, Nat.zero_le 1, hnext.decides hend⟩
  | sends => cases hcancelled
  | @pauses _ moment moments next hpause hlasting _ ih =>
    have hmoment := hlasting hcancelled.symm
    obtain ⟨hunwinds, hone, hdecides⟩ := ih hmoment.symm
    have hnothing : emittedResults (moment :: moments) = emittedResults moments :=
      List.filterMap_cons_none (emitted?_of_isPause hpause)
    rw [hnothing]
    exact ⟨.pauses hpause hmoment hunwinds, hone, hdecides⟩
  | emits hlasting _ ih =>
    have hmoment := hlasting hcancelled.symm
    obtain ⟨hunwinds, -, hdecides⟩ := ih hmoment.symm
    exact ⟨.emits hmoment hunwinds, Nat.le_refl 1, hdecides⟩

/-! ## Collected runs -/

/-- How a cancelled run ends. It records what unwinding shows, or the beginning of it if the run waits
before: then it ends at once, and only a limit that is due at that very time comes before the
cancellation. -/
structure Collect.State.EndsCancelled (timeout : Option Nat) (state : Collect.State B)
    (results : List ActionResult) (error : Option RunError) (outcome : Outcome B) : Prop where
  dispatches : outcome.dispatches = state.dispatches
  elapsed : outcome.elapsed = state.clock
  results : ∃ shown, shown <+: results ∧
    outcome.results.toList = state.results.toList ++ shown
  error : outcome.error = error ∨ outcome.error = some .cancelled ∨
    (timeout = some state.clock ∧ outcome.error = some (.timedOut state.clock))

theorem Collect.State.EndsCancelled.now {timeout : Option Nat} {state : Collect.State B}
    {results : List ActionResult} {error error' : Option RunError} {context : Context B} {turn : Nat}
    (h : error' = error ∨ error' = some .cancelled ∨
      (timeout = some state.clock ∧ error' = some (.timedOut state.clock))) :
    state.EndsCancelled timeout results error
      (({ state with turn } : Collect.State B).finish error' context) :=
  ⟨rfl, rfl, ⟨[], List.nil_prefix, (List.append_nil _).symm⟩, h⟩

theorem Unwinds.finishes {timeout : Option Nat} {results : List ActionResult}
    {error : Option RunError} (h : Unwinds setup moments next results error)
    {state : Collect.State B} (htimely : state.IsTimely timeout) :
    ∃ outcome, Position.Finishes setup timeout ⟨state, moments, next⟩ outcome ∧
      state.EndsCancelled timeout results error outcome := by
  induction h generalizing state with
  | ended => exact ⟨_, .last rfl, .now (.inl rfl)⟩
  | moves _ ih =>
    obtain ⟨outcome, hfinishes, hends⟩ := ih htimely
    exact ⟨outcome, .step rfl hfinishes, hends⟩
  | @pauses moment moments next results error hpause hcancelled _ ih =>
    have hpauses := observe_pauses htimely hpause
    have hstep := Position.step_moment setup timeout state moment moments next
    generalize state.observe timeout moment = observed at hpauses hstep
    cases hpauses with
    | @wakes clock turn _ hlimit hnow =>
      -- nobody waits for a cancelled run, so that the clock stands still
      obtain rfl : clock = state.clock := hnow hcancelled
      have hwoken : ({ state with turn } : Collect.State B).IsTimely timeout := hlimit
      obtain ⟨outcome, hfinishes, hdispatches, helapsed, hresults, herror⟩ := ih hwoken
      exact ⟨outcome, .step hstep hfinishes, hdispatches, helapsed, hresults, herror⟩
    | cancelled => exact ⟨_, .last hstep, .now (.inr (.inl rfl))⟩
    | @expires limit turn htimeout hdue =>
      obtain rfl : state.clock = limit := hdue hcancelled
      exact ⟨_, .last hstep, .now (.inr (.inr ⟨htimeout, rfl⟩))⟩
  | @emits result context moments next results error hcancelled _ ih =>
    let told : Collect.State B :=
      { state with results := state.results.push result, emitted := state.emitted + 1 }
    have htold : told.IsTimely timeout := htimely
    obtain ⟨outcome, hfinishes, hdispatches, helapsed, ⟨shown, hshown, hresults⟩, herror⟩ := ih htold
    refine ⟨outcome, .step rfl hfinishes, hdispatches, helapsed, ⟨result :: shown, ?_, ?_⟩, herror⟩
    · exact (List.cons_prefix_cons).2 ⟨rfl, hshown⟩
    · rw [hresults, Array.toList_push, List.append_assoc]
      rfl

end

namespace Run

variable {run : Run B} {cancelled : Bool} {world : B.World} {turn : Nat} {nodes : List Node}
  {position : Position B}

theorem start_heeds (hplan : Plan.resolve run.script.steps = .ok nodes) :
    (run.start cancelled world).Heeds := by
  simp only [Run.start, Machine.start, hplan]
  split
  · rintro - cause ⟨⟩
    exact .inl rfl
  · exact .ofFrames _ (List.forall_mem_singleton.2 rfl)

/-- At every position what is left of the move heeds cancellations. -/
theorem Passes.heeds (hplan : Plan.resolve run.script.steps = .ok nodes)
    (h : run.Passes cancelled world turn position) :
    Heeds false position.moments position.next := by
  refine h.invariant (P := fun _ moments next => Heeds false moments next) ?_ ?_ ?_
  · exact .last nofun (start_heeds hplan)
  · exact fun hheeds _ => hheeds.tail.running
  · intro state machine hheeds
    cases hheeds with
    | last _ hnext => exact (Machine.advance_heeds run.setup hnext).running

end Run

end StepScript
