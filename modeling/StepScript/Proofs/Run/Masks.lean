import StepScript.Proofs.Action.Correspondence
import StepScript.Proofs.Run.Collected
import StepScript.Proofs.Run.Pauses

/-!
# Runs behind a mask

A mask hides a part of the context of a run, but not whether the run is cancelled. If behind a mask
the dispatches of two setups look the same, then so do whole runs: what is hidden does not come out.
-/

namespace StepScript

variable {B : Backend}

/-! ## Masks -/

/-- A function on contexts that leaves visible whether the run is cancelled. -/
structure Context.IsMask (mask : Context B → Context B) : Prop where
  cancelled : ∀ context, (mask context).cancelled = context.cancelled
  stayCancelled : ∀ before after,
    mask (before.stayCancelled after) = (mask before).stayCancelled (mask after)

section

variable (mask : Context B → Context B)

def Moment.masked (moment : Moment B) : Moment B := ⟨moment.signal, mask moment.context⟩

def Dispatched.masked (dispatched : Dispatched B) : Dispatched B :=
  ⟨dispatched.moments.map (Moment.masked mask), dispatched.outcome, mask dispatched.context⟩

def Machine.State.masked (state : State B) : State B := ⟨state.frames, mask state.context⟩

def Machine.Next.masked : Next B → Next B
  | .resume state => .resume (state.masked mask)
  | .ended error context => .ended error (mask context)

def Machine.Move.masked (move : Move B) : Move B :=
  ⟨move.moments.map (Moment.masked mask), move.next.masked mask⟩

def Outcome.masked (outcome : Outcome B) : Outcome B :=
  { outcome with context := mask outcome.context }

end

section

variable {α β ε ε' : Type} {change : ε → ε'}

theorem mapError_bind {first : Except ε α} {first' : Except ε' α} {next : α → Except ε β}
    {next' : α → Except ε' β} (h : first' = first.mapError change)
    (hnext : ∀ value, next' value = (next value).mapError change) :
    first' >>= next' = (first >>= next).mapError change := by
  cases first with
  | ok value => rw [h]; exact hnext value
  | error cause => rw [h]; rfl

/-- What is the same but for the error has the same value, or fails on both sides. -/
theorem cases_of_mapError_eq {first second : Except ε α}
    (h : first.mapError change = second.mapError change) :
    (∃ value, first = .ok value ∧ second = .ok value) ∨
    ∃ cause cause', first = .error cause ∧ second = .error cause' ∧ change cause = change cause' := by
  cases first with
  | ok value =>
    cases second with
    | ok value' =>
      obtain rfl := Except.ok.inj h
      exact .inl ⟨value, rfl, rfl⟩
    | error => cases h
  | error cause =>
    cases second with
    | ok => cases h
    | error cause' => exact .inr ⟨cause, cause', rfl, rfl, Except.error.inj h⟩

end

variable {mask : Context B → Context B} (hmask : Context.IsMask mask)

include hmask

/-! ## Pauses -/

/-- What is seen of pauses, behind a mask. -/
theorem seePauses_masked (before last : Context B) (pauses : List (Activity.Pause (Context B))) :
    seePauses (mask before) (pauses.map fun pause => ⟨pause.millis, mask pause.state⟩)
        (mask last) =
      ((seePauses before pauses last).1.map (Moment.masked mask),
        mask (seePauses before pauses last).2) := by
  induction pauses generalizing before with
  | nil =>
    rw [List.map_nil, seePauses, seePauses, hmask.stayCancelled]
    rfl
  | cons pause pauses ih =>
    have hlater := ih (before.stayCancelled pause.state)
    rw [hmask.stayCancelled] at hlater
    simp only [List.map_cons, seePauses, hlater, Moment.masked, hmask.stayCancelled]

/-! ## Moments -/

namespace Collect.State

variable (timeout : Option Nat) (state : Collect.State B) (context : Context B)

theorem wait_masked (millis : Nat) :
    state.wait timeout millis (mask context) =
      (state.wait timeout millis context).mapError (Outcome.masked mask) := by
  simp only [wait, hmask.cancelled]
  repeat' split
  all_goals rfl

theorem sleep_masked (millis : Nat) :
    state.sleep timeout millis (mask context) =
      (state.sleep timeout millis context).mapError (Outcome.masked mask) := by
  rw [sleep_eq, sleep_eq]
  refine mapError_bind ?_ fun rested => mapError_bind ?_ fun awake => rfl
  · split
    · exact wait_masked hmask timeout state context 0
    · rfl
  · split
    · rfl
    · exact wait_masked hmask timeout rested context millis

/-- A moment is observed in the same way behind a mask. -/
theorem observe_masked (moment : Moment B) :
    state.observe timeout (moment.masked mask) =
      (state.observe timeout moment).mapError (Outcome.masked mask) := by
  obtain ⟨signal, context⟩ := moment
  cases signal with
  | dispatch | emit => rfl
  | sleep millis => exact sleep_masked hmask timeout state context millis
  | stepAside => exact wait_masked hmask timeout state context 0

theorem observeAll_masked (moments : List (Moment B)) :
    (moments.map (Moment.masked mask)).foldlM (State.observe timeout) state =
      (moments.foldlM (State.observe timeout) state).mapError (Outcome.masked mask) := by
  induction moments generalizing state with
  | nil => rfl
  | cons moment moments ih =>
    rw [List.map_cons, List.foldlM_cons, List.foldlM_cons]
    exact mapError_bind (observe_masked hmask timeout state moment) fun later => ih later

end Collect.State

omit hmask

/-! ## Dispatches -/

/-- A dispatch in terms of the way of the step through the interceptors. -/
theorem dispatch_of_resolve {setup : Setup B} {step : Step} {context : Context B}
    {action : Action B} (h : setup.registry.resolve step = some action) :
    dispatch setup step context =
      match (trip setup step context).value with
      | .ok result =>
        if result.success then
          ⟨⟨.dispatch step, context⟩ :: tripPauses setup step context, .ok result,
            afterTrip setup step context⟩
        else
          ⟨⟨.dispatch step, context⟩ :: tripPauses setup step context ++
              [⟨.emit result, afterTrip setup step context⟩],
            .error (.actionExecution step.name (result.error.getD "action reported failure")),
            afterTrip setup step context⟩
      | .error cause =>
        ⟨⟨.dispatch step, context⟩ :: tripPauses setup step context ++
            [⟨.emit (.failed step cause.message), afterTrip setup step context⟩],
          .error (cause.toRunError step.name), afterTrip setup step context⟩ := by
  simp only [dispatch, h]
  rfl

/-- Two setups whose dispatches look the same behind a mask. -/
structure Setup.LooksLike (mask : Context B → Context B) (setup setup' : Setup B) : Prop where
  registry : setup.registry = setup'.registry
  pollMillis : setup.pollMillis = setup'.pollMillis
  trip : ∀ step context context', mask context = mask context' →
    (trip setup step context).map mask id = (StepScript.trip setup' step context').map mask id

variable {setup setup' : Setup B} {context context' : Context B}

theorem dispatch_alike (hmask : Context.IsMask mask) (h : Setup.LooksLike mask setup setup')
    (hcontext : mask context = mask context') (step : Step) :
    (dispatch setup step context).masked mask = (dispatch setup' step context').masked mask := by
  cases hresolve : setup.registry.resolve step with
  | none =>
    have hresolve' : setup'.registry.resolve step = none := h.registry ▸ hresolve
    simp only [dispatch, hresolve, hresolve', Dispatched.masked, hcontext, List.map_nil]
  | some action =>
    have hresolve' : setup'.registry.resolve step = some action := h.registry ▸ hresolve
    have htrip := h.trip step context context' hcontext
    have hvalue : (trip setup step context).value = (trip setup' step context').value := by
      simpa only [Activity.Trace.map, id] using congrArg Activity.Trace.value htrip
    have hseen : ((tripPauses setup step context).map (Moment.masked mask),
          mask (afterTrip setup step context)) =
        ((tripPauses setup' step context').map (Moment.masked mask),
          mask (afterTrip setup' step context')) := by
      refine (seePauses_masked hmask _ _ _).symm.trans (Eq.trans ?_ (seePauses_masked hmask _ _ _))
      rw [hcontext]
      exact congrArg (fun trace => seePauses (mask context') trace.pauses trace.state) htrip
    obtain ⟨hpauses, hafter⟩ := Prod.mk.inj hseen
    rw [dispatch_of_resolve hresolve, dispatch_of_resolve hresolve', hvalue]
    split
    · split
      · simp only [Dispatched.masked, List.map_cons, Moment.masked, hcontext, hpauses, hafter]
      · simp only [Dispatched.masked, List.map_cons, List.map_append, List.cons_append,
          List.map_nil, Moment.masked, hcontext, hpauses, hafter]
    · simp only [Dispatched.masked, List.map_cons, List.map_append, List.cons_append,
        List.map_nil, Moment.masked, hcontext, hpauses, hafter]

/-! ## Moves -/

namespace Machine

/-- What looks the same has ended with the same error, or has the same left to do. -/
theorem Next.eq_of_masked {next next' : Next B} (h : next.masked mask = next'.masked mask) :
    (∃ error context context', next = .ended error context ∧ next' = .ended error context' ∧
      mask context = mask context') ∨
    ∃ frames context context', next = .resume ⟨frames, context⟩ ∧
      next' = .resume ⟨frames, context'⟩ ∧ mask context = mask context' := by
  rcases next with ⟨frames, context⟩ | ⟨error, context⟩ <;>
    rcases next' with ⟨frames', context'⟩ | ⟨error', context'⟩
  · simp only [masked, State.masked, resume.injEq, State.mk.injEq] at h
    obtain ⟨rfl, hcontext⟩ := h
    exact .inr ⟨frames, context, context', rfl, rfl, hcontext⟩
  · cases h
  · cases h
  · simp only [masked, ended.injEq] at h
    obtain ⟨rfl, hcontext⟩ := h
    exact .inl ⟨error, context, context', rfl, rfl, hcontext⟩

/-- What follows a dispatch looks the same if the dispatch does. -/
def ProceedsAlike (mask : Context B → Context B)
    (proceed : List (Moment B) → ActionResult → Context B → Move B) : Prop :=
  ∀ {moments moments' context context'} result,
    moments.map (Moment.masked mask) = moments'.map (Moment.masked mask) →
    mask context = mask context' →
    (proceed moments result context).masked mask = (proceed moments' result context').masked mask

theorem proceedsAlike_emitting (frames : ActionResult → List Frame) :
    ProceedsAlike mask (emitting frames) := by
  intro moments moments' context context' result hmoments hcontext
  simp only [emitting, Move.masked, Next.masked, State.masked, List.map_append, List.map_cons,
    List.map_nil, Moment.masked, hmoments, hcontext]

theorem proceedsAlike_silent (frames : ActionResult → List Frame) :
    ProceedsAlike mask (silent frames) := by
  intro moments moments' context context' result hmoments hcontext
  simp only [silent, Move.masked, Next.masked, State.masked, hmoments, hcontext]

variable (hmask : Context.IsMask mask) (h : Setup.LooksLike mask setup setup')

include hmask h

theorem afterDispatch_alike {proceed : List (Moment B) → ActionResult → Context B → Move B}
    (hproceed : ProceedsAlike mask proceed) (hcontext : mask context = mask context')
    (step : Step) :
    (afterDispatch setup step context proceed).masked mask =
      (afterDispatch setup' step context' proceed).masked mask := by
  have hdispatch := dispatch_alike hmask h hcontext step
  simp only [afterDispatch]
  generalize dispatch setup step context = dispatched at hdispatch ⊢
  generalize dispatch setup' step context' = dispatched' at hdispatch ⊢
  obtain ⟨moments, outcome, after⟩ := dispatched
  obtain ⟨moments', outcome', after'⟩ := dispatched'
  simp only [Dispatched.masked, Dispatched.mk.injEq] at hdispatch
  obtain ⟨hmoments, rfl, hafter⟩ := hdispatch
  cases outcome with
  | ok result => exact hproceed result hmoments hafter
  | error cause => simp only [Move.masked, Next.masked, hmoments, hafter]

omit hmask in
theorem pauseBetween_alike (hcancelled : context.cancelled = context'.cancelled)
    (hcontext : mask context = mask context') :
    (pauseBetween setup context).map (Moment.masked mask) =
      (pauseBetween setup' context').map (Moment.masked mask) := by
  unfold pauseBetween
  rw [h.pollMillis, hcancelled]
  split
  · simp only [List.map_cons, List.map_nil, Moment.masked, hcontext]
  · simp only [List.map_cons, List.map_nil, Moment.masked, hcontext]

theorem visitNode_alike (hcontext : mask context = mask context') (rest : List Frame)
    (node : Node) :
    (visitNode setup context rest node).masked mask =
      (visitNode setup' context' rest node).masked mask := by
  cases node with
  | sequential step =>
    exact afterDispatch_alike hmask h (proceedsAlike_emitting _) hcontext step
  | conditional guard _ _ =>
    exact afterDispatch_alike hmask h (proceedsAlike_emitting _) hcontext guard
  | loop guard body =>
    simp only [visitNode, Move.masked, Next.masked, State.masked, List.map_nil, hcontext]

/-- The next moves look the same. -/
theorem advance_alike (hcontext : mask context = mask context') (frames : List Frame) :
    (advance setup ⟨frames, context⟩).masked mask =
      (advance setup' ⟨frames, context'⟩).masked mask := by
  have hcancelled : context.cancelled = context'.cancelled := by
    rw [← hmask.cancelled context, hcontext, hmask.cancelled]
  match frames with
  | [] => simp only [advance, Move.masked, Next.masked, List.map_nil, hcontext]
  | .visit [] :: rest =>
    simp only [advance, Move.masked, Next.masked, State.masked, List.map_nil, hcontext]
  | .visit (node :: nodes) :: rest =>
    simp only [advance, hcancelled]
    split
    · simp only [Move.masked, Next.masked, List.map_nil, hcontext]
    · exact visitNode_alike hmask h hcontext _ node
  | .check guard body :: rest =>
    exact afterDispatch_alike hmask h (proceedsAlike_silent _) hcontext guard
  | .rest guard body :: rest =>
    have hpause := pauseBetween_alike h hcancelled hcontext
    simp only [advance, hcancelled]
    split
    · simp only [Move.masked, Next.masked, hpause, hcontext]
    · simp only [Move.masked, Next.masked, State.masked, hpause, hcontext]

variable {next next' : Next B}

theorem proceed_alike (hnext : next.masked mask = next'.masked mask) :
    (proceed setup next).1.map (Moment.masked mask) =
        (proceed setup' next').1.map (Moment.masked mask) ∧
      (proceed setup next).2.masked mask = (proceed setup' next').2.masked mask := by
  rcases Next.eq_of_masked hnext with ⟨error, context, context', rfl, rfl, hcontext⟩ |
    ⟨frames, context, context', rfl, rfl, hcontext⟩
  · exact ⟨rfl, hnext⟩
  · have hmove := advance_alike hmask h hcontext frames
    exact ⟨congrArg Move.moments hmove, congrArg Move.next hmove⟩

/-- What is seen of two runs looks the same behind the mask. -/
theorem trace_alike (hnext : next.masked mask = next'.masked mask) (n : Nat) :
    (trace (proceed setup) n next).1.map (Moment.masked mask) =
        (trace (proceed setup') n next').1.map (Moment.masked mask) ∧
      (trace (proceed setup) n next).2.masked mask =
        (trace (proceed setup') n next').2.masked mask := by
  induction n generalizing next next' with
  | zero => exact ⟨rfl, hnext⟩
  | succ n ih =>
    obtain ⟨hmoments, hmove⟩ := proceed_alike hmask h hnext
    obtain ⟨hlater, hend⟩ := ih hmove
    rw [trace_succ, trace_succ, List.map_append, List.map_append, hmoments, hlater]
    exact ⟨rfl, hend⟩

/-- If one of the runs has ended, so has the other one. -/
theorem trace_ended_alike (hnext : next.masked mask = next'.masked mask) {n : Nat}
    {moments : List (Moment B)} {error : Option RunError} {last : Context B}
    (hended : trace (proceed setup) n next = (moments, .ended error last)) :
    ∃ moments' last', trace (proceed setup') n next' = (moments', .ended error last') ∧
      moments.map (Moment.masked mask) = moments'.map (Moment.masked mask) := by
  obtain ⟨hmoments, hend⟩ := trace_alike hmask h hnext n
  rw [hended] at hmoments hend
  rcases htrace : trace (proceed setup') n next' with ⟨moments', state | ⟨error', last'⟩⟩
  · rw [htrace] at hend
    cases hend
  · rw [htrace] at hmoments hend
    obtain ⟨rfl, -⟩ := Next.ended.inj hend
    exact ⟨moments', last', rfl, hmoments⟩

end Machine

/-! ## Runs -/

namespace Collect

/-- Moments that look the same are observed in the same way. -/
theorem State.observeAll_alike (hmask : Context.IsMask mask) (timeout : Option Nat) (state : State B)
    {moments moments' : List (Moment B)}
    (hmoments : moments.map (Moment.masked mask) = moments'.map (Moment.masked mask)) :
    (moments.foldlM (State.observe timeout) state).mapError (Outcome.masked mask) =
      (moments'.foldlM (State.observe timeout) state).mapError (Outcome.masked mask) := by
  rw [← observeAll_masked hmask, hmoments, observeAll_masked hmask]

theorem follow_alike (hmask : Context.IsMask mask) (h : Setup.LooksLike mask setup setup')
    (timeout : Option Nat) (fuel : Nat) (state : State B) {next next' : Machine.Next B}
    (hnext : next.masked mask = next'.masked mask) :
    (follow setup timeout fuel state next).map (Outcome.masked mask) =
      (follow setup' timeout fuel state next').map (Outcome.masked mask) := by
  induction fuel generalizing state next next' with
  | zero =>
    rcases Machine.Next.eq_of_masked hnext with ⟨error, context, context', rfl, rfl, hcontext⟩ |
      ⟨frames, context, context', rfl, rfl, -⟩
    · simp only [follow_ended, Option.map_some, State.finish, Outcome.masked, hcontext]
    · rfl
  | succ fuel ih =>
    rcases Machine.Next.eq_of_masked hnext with ⟨error, context, context', rfl, rfl, hcontext⟩ |
      ⟨frames, context, context', rfl, rfl, hcontext⟩
    · simp only [follow_ended, Option.map_some, State.finish, Outcome.masked, hcontext]
    · obtain ⟨hmoments, hlater⟩ := Machine.proceed_alike hmask h hnext
      have hobserve : ((Machine.advance setup ⟨frames, context⟩).moments.foldlM
            (State.observe timeout) state).mapError (Outcome.masked mask) =
          ((Machine.advance setup' ⟨frames, context'⟩).moments.foldlM
            (State.observe timeout) state).mapError (Outcome.masked mask) :=
        State.observeAll_alike hmask timeout state hmoments
      rw [follow_resume, follow_resume]
      rcases cases_of_mapError_eq hobserve with ⟨later, hseen, hseen'⟩ |
        ⟨cut, cut', hseen, hseen', hcut⟩
      · rw [hseen, hseen']
        exact ih later hlater
      · rw [hseen, hseen']
        exact congrArg some hcut

end Collect

/-- Two runs of a script with such setups have outcomes that look the same. -/
theorem Run.collect_alike {run run' : Run B} (hmask : Context.IsMask mask)
    (h : Setup.LooksLike mask run.setup run'.setup) (hscript : run.script = run'.script)
    (hsettings : run.settings = run'.settings) (fuel : Nat) (cancelled : Bool) (world : B.World)
    (turn : Nat) :
    (run.collect fuel cancelled world turn).map (Outcome.masked mask) =
      (run'.collect fuel cancelled world turn).map (Outcome.masked mask) := by
  have hstart : run.start cancelled world = run'.start cancelled world := by
    rw [start, start, hscript, hsettings]
  rw [collect, collect, hsettings]
  exact Collect.follow_alike hmask h _ fuel _ (congrArg (Machine.Next.masked mask) hstart)

end StepScript
