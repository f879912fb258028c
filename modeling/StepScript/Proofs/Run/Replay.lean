import StepScript.Proofs.Action.Books
import StepScript.Proofs.Plan.Resolution
import StepScript.Proofs.Run.Disturbed
import StepScript.Proofs.Run.Pauses

/-!
# Replaying the results of a run

If the results of the dispatches tell what happens to the parameters, so do the results of a run.
All of them are handed out except those of the guards of loops, which store nothing.
-/

namespace StepScript

variable {B : Backend}

/-! ## The guards of loops -/

mutual

/-- The guards of the loops in a node are of their type. -/
def nodeGuarded : Node → Prop
  | .sequential _ => True
  | .conditional _ thenBranch elseBranch => nodesGuarded thenBranch ∧ nodesGuarded elseBranch
  | .loop guard body => guard.type = .whileGuard ∧ nodesGuarded body

def nodesGuarded : List Node → Prop
  | [] => True
  | node :: rest => nodeGuarded node ∧ nodesGuarded rest

end

theorem Plan.Renders.guarded {steps rest : List Step} {nodes : List Node}
    (h : Renders steps nodes rest) : nodesGuarded nodes := by
  induction h with
  | nil => exact trivial
  | sequential _ _ ih => exact ⟨trivial, ih⟩
  | conditional _ _ _ _ ihInside ih => exact ⟨⟨ihInside, trivial⟩, ih⟩
  | alternative _ _ _ _ _ _ ihInside ihOther ih => exact ⟨⟨ihInside, ihOther⟩, ih⟩
  | loop guarded _ _ _ ihInside ih => exact ⟨⟨guarded, ihInside⟩, ih⟩

namespace Machine

def Frame.IsGuarded : Frame → Prop
  | .visit nodes => nodesGuarded nodes
  | .check guard body | .rest guard body => guard.type = .whileGuard ∧ nodesGuarded body

def Next.IsGuarded : Next B → Prop
  | .ended .. => True
  | .resume state => ∀ frame ∈ state.frames, frame.IsGuarded

theorem guarded_afterDispatch {setup : Setup B} {step : Step} {context : Context B}
    {frames : ActionResult → List Frame} {proceed : List (Moment B) → ActionResult → Context B → Move B}
    (hproceed : proceed = emitting frames ∨ proceed = silent frames)
    (hframes : ∀ result, ∀ frame ∈ frames result, frame.IsGuarded) :
    (afterDispatch setup step context proceed).next.IsGuarded := by
  simp only [afterDispatch]
  split
  · next result _ => rcases hproceed with rfl | rfl <;> exact hframes result
  · exact trivial

theorem guarded_advance {setup : Setup B} {state : State B} (h : (Next.resume state).IsGuarded) :
    (advance setup state).next.IsGuarded := by
  obtain ⟨frames, context⟩ := state
  match frames with
  | [] => exact trivial
  | .visit [] :: rest => exact (List.forall_mem_cons.1 h).2
  | .visit (node :: nodes) :: rest =>
    obtain ⟨⟨hnode, hnodes⟩, hrest⟩ := List.forall_mem_cons.1 h
    have hlater : ∀ frame ∈ Frame.visit nodes :: rest, frame.IsGuarded :=
      List.forall_mem_cons.2 ⟨hnodes, hrest⟩
    simp only [advance]
    split
    · exact trivial
    · cases node with
      | sequential step => exact guarded_afterDispatch (.inl rfl) fun _ => hlater
      | conditional guard thenBranch elseBranch =>
        refine guarded_afterDispatch (.inl rfl) fun result => List.forall_mem_cons.2 ⟨?_, hlater⟩
        change nodesGuarded _
        split
        · exact hnode.1
        · exact hnode.2
      | loop guard body => exact List.forall_mem_cons.2 ⟨hnode, hlater⟩
  | .check guard body :: rest =>
    obtain ⟨hloop, hrest⟩ := List.forall_mem_cons.1 h
    refine guarded_afterDispatch (.inr rfl) fun result => ?_
    split
    · exact List.forall_mem_cons.2 ⟨hloop.2, List.forall_mem_cons.2 ⟨hloop, hrest⟩⟩
    · exact hrest
  | .rest guard body :: rest =>
    obtain ⟨hloop, hrest⟩ := List.forall_mem_cons.1 h
    simp only [advance]
    split
    · exact trivial
    · exact List.forall_mem_cons.2 ⟨hloop, hrest⟩

end Machine

/-! ## Moments -/

/-- The parameters after a signal: a result that is handed out tells of them. -/
def Parameters.see (params : Parameters) : Signal → Parameters
  | .emit result => params.enter result
  | .dispatch _ | .sleep _ | .stepAside => params

/-- At every moment, and after the last one, the parameters are those that the results so far
tell. -/
def Tells (params : Parameters) : List (Moment B) → Machine.Next B → Prop
  | [], next => next.context.params = params
  | moment :: moments, next =>
    moment.context.params = params.see moment.signal ∧
      Tells (params.see moment.signal) moments next

theorem Parameters.see_of_isPause {params : Parameters} {signal : Signal}
    (h : signal.isPause = true) : params.see signal = params := by
  cases signal with
  | sleep | stepAside => rfl
  | dispatch | emit => cases h

/-- Pauses tell nothing. -/
theorem tells_pauses {params : Parameters} {pauses moments : List (Moment B)}
    {next : Machine.Next B}
    (hpauses : ∀ moment ∈ pauses, moment.signal.isPause = true ∧ moment.context.params = params)
    (h : Tells params moments next) : Tells params (pauses ++ moments) next := by
  induction pauses with
  | nil => exact h
  | cons pause pauses ih =>
    obtain ⟨⟨hpause, hparams⟩, hrest⟩ := List.forall_mem_cons.1 hpauses
    rw [List.cons_append, Tells, Parameters.see_of_isPause hpause]
    exact ⟨hparams, ih hrest⟩

section

variable {setup : Setup B} {step : Step} {context : Context B}

/-- On its way a step changes no parameters that are seen. -/
theorem Setup.KeepsBooks.tells_trip (h : setup.KeepsBooks) {moments : List (Moment B)}
    {next : Machine.Next B} (hrest : Tells context.params moments next) :
    Tells context.params (⟨.dispatch step, context⟩ :: tripPauses setup step context ++ moments)
      next := by
  refine ⟨rfl, tells_pauses (fun moment hmoment => ⟨?_, ?_⟩) hrest⟩
  · exact isPause_of_mem_tripPauses hmoment
  · exact h.pauses step context moment hmoment

/-- A dispatch that fails stores nothing. -/
theorem Setup.KeepsBooks.params_of_failed (h : setup.KeepsBooks) {record : ActionResult}
    {error : RunError} (hfails : FailsWith setup step context record error) :
    (afterTrip setup step context).params = context.params := by
  cases hfails with
  | reported hvalue hfailed | unexplained hvalue hfailed =>
    rw [(h.result _ _ _ hvalue).1, Parameters.enter_of_failed hfailed]
  | raised hvalue | evaluation hvalue => exact h.cause _ _ _ hvalue

theorem Setup.KeepsBooks.tells_failed (h : setup.KeepsBooks) {record : ActionResult}
    {error : RunError} (hfails : FailsWith setup step context record error) :
    Tells context.params
      (⟨.dispatch step, context⟩ :: tripPauses setup step context ++
        shown (afterTrip setup step context) [record])
      (.ended (some error) (afterTrip setup step context)) := by
  refine h.tells_trip ⟨?_, ?_⟩
  all_goals
    rw [Parameters.see, Parameters.enter_of_failed hfails.success_eq]
    exact h.params_of_failed hfails

namespace Machine

theorem afterDispatch_emitting_tells (h : setup.KeepsBooks) (frames : ActionResult → List Frame) :
    let move := afterDispatch setup step context (emitting frames)
    Tells context.params move.moments move.next := by
  rcases dispatch_shape setup step context with ⟨-, hdispatch⟩ |
    ⟨-, ⟨result, hvalue, -, hdispatch⟩ | ⟨record, error, hfails, hdispatch⟩⟩
  · simp only [afterDispatch, hdispatch]
    rfl
  · simp only [afterDispatch, hdispatch]
    have hparams := (h.result step context result hvalue).1
    exact h.tells_trip ⟨hparams, hparams⟩
  · simp only [afterDispatch, hdispatch]
    exact h.tells_failed hfails

/-- A result that is not handed out must not have stored anything. -/
theorem afterDispatch_silent_tells (h : setup.KeepsBooks) (htype : step.type ≠ .putParam)
    (frames : ActionResult → List Frame) :
    let move := afterDispatch setup step context (silent frames)
    Tells context.params move.moments move.next := by
  rcases dispatch_shape setup step context with ⟨-, hdispatch⟩ |
    ⟨-, ⟨result, hvalue, -, hdispatch⟩ | ⟨record, error, hfails, hdispatch⟩⟩
  · simp only [afterDispatch, hdispatch]
    rfl
  · simp only [afterDispatch, hdispatch, silent]
    rw [← List.append_nil (_ :: tripPauses setup step context)]
    obtain ⟨hparams, hsame⟩ := h.result step context result hvalue
    rw [Parameters.enter_of_type (hsame ▸ htype)] at hparams
    exact h.tells_trip hparams
  · simp only [afterDispatch, hdispatch]
    exact h.tells_failed hfails

/-- What a move hands out tells what it does to the parameters. -/
theorem advance_tells (h : setup.KeepsBooks) {state : State B}
    (hguarded : (Next.resume state).IsGuarded) :
    Tells state.context.params (advance setup state).moments (advance setup state).next := by
  obtain ⟨frames, context⟩ := state
  match frames with
  | [] | .visit [] :: rest => rfl
  | .visit (node :: nodes) :: rest =>
    simp only [advance]
    split
    · rfl
    · cases node with
      | sequential | conditional => exact afterDispatch_emitting_tells h _
      | loop => rfl
  | .check guard body :: rest =>
    obtain ⟨⟨htype, -⟩, -⟩ := List.forall_mem_cons.1 hguarded
    exact afterDispatch_silent_tells h (by simp [htype]) _
  | .rest guard body :: rest =>
    have hpauses : ∀ moment ∈ pauseBetween setup context,
        moment.signal.isPause = true ∧ moment.context.params = context.params := by
      intro moment hmoment
      obtain ⟨hpause, rfl⟩ := isPause_pauseBetween hmoment
      exact ⟨hpause, rfl⟩
    simp only [advance]
    rw [← List.append_nil (pauseBetween setup context)]
    split <;> exact tells_pauses hpauses rfl

end Machine

end

/-! ## Collected runs -/

namespace Collect

variable {timeout : Option Nat} {state : State B}

/-- The records of a run tell its parameters, now or when it was cut short. -/
def Told (timeout : Option Nat) (params : Parameters) : Except (Outcome B) (State B) → Prop
  | .ok state => state.IsTimely timeout ∧ replay state.results.toList = params
  | .error outcome => outcome.params = replay outcome.results.toList

theorem isPause_of_waits {signal : Signal} (h : state.waits signal = true) :
    signal.isPause = true := by
  cases signal with
  | sleep | stepAside => rfl
  | dispatch | emit => cases h

theorem Observes.told {moment : Moment B} {result : Except (Outcome B) (State B)}
    (h : Observes timeout state moment result) (htimely : state.IsTimely timeout)
    (hparams : moment.context.params = (replay state.results.toList).see moment.signal) :
    Told timeout ((replay state.results.toList).see moment.signal) result := by
  cases h with
  | cancelled hwaits =>
    rw [Parameters.see_of_isPause (isPause_of_waits hwaits)] at hparams ⊢
    exact hparams
  | undisturbed =>
    cases hpause : moment.signal.isPause with
    | true =>
      rw [Parameters.see_of_isPause hpause] at hparams ⊢
      have hpauses := observe_pauses htimely hpause
      generalize state.observe timeout moment = observed at hpauses ⊢
      cases hpauses with
      | wakes _ hlimit => exact ⟨hlimit, rfl⟩
      | cancelled | expires => exact hparams
    | false =>
      obtain ⟨signal, context⟩ := moment
      cases signal with
      | sleep | stepAside => cases hpause
      | dispatch step => exact ⟨htimely, rfl⟩
      | emit result =>
        refine ⟨htimely, ?_⟩
        rw [Array.toList_push, replay_concat]
        rfl

theorem ObservesAll.told {moments : List (Moment B)} {result : Except (Outcome B) (State B)}
    {next : Machine.Next B} (h : ObservesAll timeout state moments result)
    (htimely : state.IsTimely timeout) (htells : Tells (replay state.results.toList) moments next) :
    Told timeout next.context.params result := by
  induction h with
  | nil => exact ⟨htimely, htells.symm⟩
  | stop h => exact h.told htimely htells.1
  | cons h _ ih =>
    obtain ⟨htimely', hreplay⟩ := h.told htimely htells.1
    exact ih htimely' (hreplay ▸ htells.2)

end Collect

namespace Run

open Collect

variable {run : Run B} {cancelled : Bool} {world : B.World} {turn : Nat}

/-- Between two moves the records of a run tell its parameters. -/
structure Replays (run : Run B) (state : Collect.State B) (next : Machine.Next B) : Prop where
  timely : state.IsTimely run.settings.timeoutMillis
  guarded : next.IsGuarded
  params : next.context.params = replay state.results.toList

theorem start_isGuarded (run : Run B) (cancelled : Bool) (world : B.World) :
    (run.start cancelled world).IsGuarded := by
  simp only [Run.start, Machine.start]
  split
  · exact trivial
  · next nodes hplan =>
    split
    · exact trivial
    · exact List.forall_mem_singleton.2 (Plan.resolve_renders hplan).1.guarded

theorem start_params (run : Run B) (cancelled : Bool) (world : B.World) :
    (run.start cancelled world).context.params = .empty := by
  simp only [Run.start, Machine.start]
  split
  · rfl
  · split <;> rfl

theorem Reaches.replays (hbooks : run.setup.KeepsBooks) {state : Collect.State B}
    {next : Machine.Next B} (h : run.Reaches cancelled world turn state next) :
    run.Replays state next := by
  induction h with
  | start =>
    exact ⟨fun _ _ => Nat.zero_le _, start_isGuarded run cancelled world,
      start_params run cancelled world⟩
  | move _ hmoments ih =>
    have htells := Machine.advance_tells hbooks ih.guarded
    obtain ⟨htimely, hreplay⟩ := hmoments.told ih.timely (ih.params ▸ htells)
    exact ⟨htimely, Machine.guarded_advance ih.guarded, hreplay.symm⟩
  | disturbed _ ih => exact ⟨ih.timely, ih.guarded, ih.params⟩

/-- However a run ends, its results tell its parameters. -/
theorem Yields.params_eq_replay (hbooks : run.setup.KeepsBooks) {outcome : Outcome B}
    (h : run.Yields cancelled world turn outcome) :
    outcome.params = replay outcome.results.toList := by
  cases h with
  | ended h => exact (h.replays hbooks).params
  | cut h hmoments =>
    obtain ⟨htimely, hguarded, hparams⟩ := h.replays hbooks
    exact hmoments.told htimely (hparams ▸ Machine.advance_tells hbooks hguarded)

end Run

end StepScript
