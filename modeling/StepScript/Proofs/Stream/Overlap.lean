import StepScript.Proofs.Run.Overlap
import StepScript.Proofs.Stream.Events

/-!
# Streamed runs whose consumers act while they work

On several threads a consumer need not wait for its run: it reads and cancels while the run works,
and the run does not notice before it looks at its token. The time limit is looked at whenever the run
stops working. Turns that are taken one after the other are a special case.
-/

namespace StepScript

variable {B : Backend}

namespace Stream

/-! ## What happens -/

def Phase.isWorking : Phase B → Bool
  | .working _ => true
  | .idle _ | .pausing .. | .blocked .. | .ended .. => false

/-- The step that a run sends when it does the next thing. -/
def State.sent (state : State B) : List Step :=
  match state.phase with
  | .working ⟨moment :: _, _⟩ => moment.signal.dispatched?.toList
  | _ => []

/-- A run that is about to make a move looks at its token. -/
def State.look (state : State B) : State B :=
  match state.phase with
  | .working ⟨[], .resume machine⟩ =>
    { state with phase := .working ⟨[], .resume (machine.look state.cancelled)⟩ }
  | _ => state

/-- What can happen to a run and its consumer, with the steps that are sent. What a dispatch comes to
may depend on when exactly the run is cancelled; so the interceptors of a move are arbitrary. -/
inductive Happens (run : Run B) (state : State B) : List Step → State B → Prop where
  /-- A run that does not work is looked at. -/
  | resumes (hrests : state.phase.isWorking = false) :
      Happens run state [] ((State.resumed run { state with turn := turnLength }).expire run)
  | works {interceptors : List (Interceptor B)} (hworks : state.phase.isWorking = true) :
      Happens run state state.sent
        ((state.look.step { run.setup with interceptors }).expire run)
  /-- After the pause of a loop the run looks at its token once more. -/
  | looks {guard : Step} {body : List Node} {frames : List Machine.Frame} {context : Context B}
      (hphase : state.phase = .working ⟨[], .resume ⟨.check guard body :: frames, context⟩⟩)
      (hcancelled : state.cancelled = true) :
      Happens run state [] { state with phase := .ended (some .cancelled) context }
  | reads : Happens run state [] state.read.2
  | cancels : Happens run state [] state.cancel
  | passes {clock : Nat} (hclock : state.clock ≤ clock) : Happens run state [] { state with clock }
  | attends {consumerTurn : Nat} : Happens run state [] { state with consumerTurn }

section

variable {run : Run B} {state : State B} {setup : Setup B}

/-! ## Single moments -/

/-- What a run may be doing after a moment. A run that sleeps looks at its sleep again. -/
inductive Moment.Leaves (moment : Moment B) (moments : List (Moment B)) (next : Machine.Next B) :
    Phase B → Prop where
  | working : Leaves moment moments next (.working ⟨moments, next⟩)
  | pausing {wake : Nat} (hpause : moment.signal.isPause = true) :
      Leaves moment moments next (.pausing wake moment.context ⟨moments, next⟩)
  | sleeping {wake millis : Nat} (hpause : moment.signal.isPause = true) :
      Leaves moment moments next
        (.pausing wake moment.context ⟨⟨.sleep millis, moment.context⟩ :: moments, next⟩)
  | blocked {result : ActionResult} (hemit : moment.signal = .emit result) :
      Leaves moment moments next (.blocked result moment.context ⟨moments, next⟩)

theorem sleep_leaves (state : State B) (millis : Nat) (context : Context B)
    (moments : List (Moment B)) (next : Machine.Next B) :
    Moment.Leaves ⟨.sleep millis, context⟩ moments next
      (state.sleep millis context ⟨moments, next⟩).phase := by
  rcases sleep_cases state millis context ⟨moments, next⟩ with
    ⟨-, hsleep⟩ | ⟨-, -, hsleep⟩ | ⟨-, -, hsleep⟩ <;> rw [hsleep]
  · exact .sleeping rfl
  · exact .working
  · exact .sleeping rfl

theorem offer_leaves (state : State B) (result : ActionResult) (context : Context B)
    (moments : List (Moment B)) (next : Machine.Next B) :
    Moment.Leaves ⟨.emit result, context⟩ moments next
      (state.offer result context ⟨moments, next⟩).phase := by
  rcases offer_cases state result context ⟨moments, next⟩ with ⟨-, -, hoffer⟩ | ⟨-, hoffer⟩ <;>
    rw [hoffer]
  · exact .working
  · exact .blocked rfl

theorem step_leaves {moment : Moment B} {moments : List (Moment B)} {next : Machine.Next B}
    (hphase : state.phase = .working ⟨moment :: moments, next⟩) :
    Moment.Leaves moment moments next (state.step setup).phase ∧
      (state.step setup).emitted.toList =
        state.emitted.toList ++ moment.signal.emitted?.toList := by
  obtain ⟨signal, context⟩ := moment
  simp only [State.step, hphase]
  cases signal with
  | dispatch step => exact ⟨.working, (List.append_nil _).symm⟩
  | stepAside => exact ⟨.pausing rfl, (List.append_nil _).symm⟩
  | sleep millis =>
    exact ⟨sleep_leaves .., (congrArg Array.toList (emitted_sleep ..)).trans (List.append_nil _).symm⟩
  | emit result =>
    exact ⟨offer_leaves .., (congrArg Array.toList (emitted_offer ..)).trans Array.toList_push⟩

theorem look_of_moment {moment : Moment B} {moments : List (Moment B)} {next : Machine.Next B}
    (hphase : state.phase = .working ⟨moment :: moments, next⟩) : state.look = state := by
  simp only [State.look, hphase]

theorem look_of_ended {error : Option RunError} {context : Context B}
    (hphase : state.phase = .working ⟨[], .ended error context⟩) : state.look = state := by
  simp only [State.look, hphase]

theorem look_of_cancelled {machine : Machine.State B}
    (hphase : state.phase = .working ⟨[], .resume machine⟩)
    (h : state.cancelled = true → machine.context.cancelled = true) : state.look = state := by
  simp only [State.look, hphase, Machine.State.look_of_cancelled h]
  rw [← hphase]

/-- What a run does that looks at its token and makes a move. -/
theorem phase_step_look {machine : Machine.State B}
    (hphase : state.phase = .working ⟨[], .resume machine⟩) :
    (state.look.step setup).phase = .working
      ⟨(Machine.advance setup (machine.look state.cancelled)).moments,
        (Machine.advance setup (machine.look state.cancelled)).next⟩ := by
  simp only [State.look, hphase, State.step]

/-! ## Time limits -/

/-- A run that works is not stopped. -/
theorem expire_of_working (hworks : state.phase.isWorking = true) : state.expire run = state := by
  cases hphase : state.phase with
  | working =>
    simp only [State.expire, State.stop, hphase]
    split <;> rfl
  | idle | pausing | blocked | ended =>
    rw [hphase] at hworks
    cases hworks

theorem expire_of_ended {error : Option RunError} {context : Context B}
    (hphase : state.phase = .ended error context) : state.expire run = state := by
  simp only [State.expire, State.stop, hphase]
  split <;> rfl

theorem expire_of_waiting (run : Run B) {context : Context B}
    (hwaiting : state.phase.waiting? = some context) :
    state.expire run = state ∨ state.isOverdue = true ∧ state.expire run =
      { state with
        phase := .ended (some (.timedOut (run.settings.timeoutMillis.getD 0))) context } := by
  unfold State.expire
  split
  · next hoverdue => exact .inr ⟨hoverdue, stop_of_waiting hwaiting _⟩
  · exact .inl rfl

/-! ## Safe runs -/

/-- What is left of a move heeds cancellations, and at most one step is due. -/
structure Course.IsSafe (cancelled : Bool) (course : Course B) : Prop where
  heeds : Heeds cancelled course.moments course.next
  due : pending course.moments course.next ≤ 1

/-- What a run is doing, or will do when it is looked at, is safe. -/
inductive Phase.IsSafe : Phase B → Prop where
  | idle {world : B.World} : IsSafe (.idle world)
  | working {course : Course B} (hcourse : course.IsSafe false) : IsSafe (.working course)
  | pausing {wake : Nat} {context : Context B} {course : Course B}
      (hcourse : course.IsSafe context.cancelled) : IsSafe (.pausing wake context course)
  | blocked {result : ActionResult} {context : Context B} {course : Course B}
      (hcourse : course.IsSafe context.cancelled) : IsSafe (.blocked result context course)
  | ended {error : Option RunError} {context : Context B} : IsSafe (.ended error context)

theorem Course.IsSafe.running {cancelled : Bool} {course : Course B} (h : course.IsSafe cancelled) :
    course.IsSafe false :=
  ⟨h.heeds.running, h.due⟩

theorem stop_isSafe (error : RunError) (h : state.phase.IsSafe) :
    (state.stop error).phase.IsSafe := by
  unfold State.stop
  split
  · exact .ended
  · exact .ended
  · exact h

theorem expire_isSafe (h : state.phase.IsSafe) : (state.expire run).phase.IsSafe := by
  unfold State.expire
  split
  · exact stop_isSafe _ h
  · exact h

theorem wake_isSafe (h : state.phase.IsSafe) : state.wake.phase.IsSafe := by
  cases hphase : state.phase with
  | pausing time context course =>
    simp only [State.wake, hphase]
    split
    · rw [hphase] at h
      cases h with
      | pausing hcourse => exact .working hcourse.running
    · exact h
  | blocked result context course =>
    rw [hphase] at h
    cases h with
    | blocked hcourse =>
      simp only [State.wake, hphase]
      rcases offer_cases state result context course with ⟨-, -, hoffer⟩ | ⟨-, hoffer⟩ <;> rw [hoffer]
      · exact .working hcourse.running
      · exact .blocked hcourse
  | idle | working | ended =>
    simp only [State.wake, hphase]
    rw [← hphase]
    exact h

theorem begin_isSafe {nodes : List Node} (hplan : Plan.resolve run.script.steps = .ok nodes)
    (world : B.World) : (state.begin run world).phase.IsSafe :=
  .working ⟨.last nofun (Run.start_heeds hplan),
    Nat.le_trans (Nat.le_of_eq (Run.pending_start hplan)) (Nat.zero_le 1)⟩

theorem resumed_isSafe {nodes : List Node} (hplan : Plan.resolve run.script.steps = .ok nodes)
    (h : state.phase.IsSafe) : (state.resumed run).phase.IsSafe := by
  unfold State.resumed
  split
  · exact begin_isSafe hplan _
  · split
    · exact stop_isSafe _ h
    · exact wake_isSafe h
  · split
    · exact stop_isSafe _ h
    · exact wake_isSafe h
  · exact h

theorem Moment.Leaves.isSafe {moment : Moment B} {moments : List (Moment B)} {next : Machine.Next B}
    {phase : Phase B} (h : Moment.Leaves moment moments next phase)
    (hcourse : Course.IsSafe false ⟨moment :: moments, next⟩) : phase.IsSafe := by
  have hdue : pending moments next ≤ 1 := by
    have hdue := hcourse.due
    rw [pending_cons] at hdue
    exact Nat.le_trans (Nat.le_add_left _ _) hdue
  have hrest : Course.IsSafe moment.context.cancelled ⟨moments, next⟩ :=
    ⟨hcourse.heeds.tail, hdue⟩
  cases h with
  | working => exact .working hrest.running
  | pausing => exact .pausing hrest
  | sleeping =>
    refine .pausing ⟨.pauses rfl id hrest.heeds, ?_⟩
    rw [pending_cons]
    exact Nat.le_trans (Nat.le_of_eq (Nat.zero_add _)) hdue
  | blocked => exact .blocked hrest

theorem step_look_isSafe (h : state.phase.IsSafe) : (state.look.step setup).phase.IsSafe := by
  cases hphase : state.phase with
  | working course =>
    rw [hphase] at h
    cases h with
    | working hcourse =>
      obtain ⟨moments, next⟩ := course
      cases moments with
      | cons moment moments =>
        rw [look_of_moment hphase]
        exact (step_leaves hphase).1.isSafe hcourse
      | nil =>
        cases next with
        | ended error context =>
          rw [look_of_ended hphase]
          simp only [State.step, hphase]
          exact .ended
        | resume machine =>
          rw [phase_step_look hphase]
          cases hcourse.heeds with
          | last _ hnext =>
            have hlook := Machine.State.Heeds.look hnext state.cancelled
            exact .working ⟨(Machine.advance_heeds setup hlook).running,
              Machine.pending_advance setup hlook⟩
  | idle | pausing | blocked | ended =>
    simp only [State.look, State.step, hphase]
    rw [← hphase]
    exact h

variable {sent : List Step} {later : State B}

theorem Happens.isSafe {nodes : List Node} (hplan : Plan.resolve run.script.steps = .ok nodes)
    (h : Happens run state sent later) (hsafe : state.phase.IsSafe) : later.phase.IsSafe := by
  cases h with
  | resumes => exact expire_isSafe (resumed_isSafe hplan hsafe)
  | works => exact expire_isSafe (step_look_isSafe hsafe)
  | looks => exact .ended
  | reads =>
    unfold State.read
    split <;> exact hsafe
  | cancels | passes | attends => exact hsafe

/-! ## Late dispatches -/

/-- How many steps are sent before the run looks at its token or stops working. -/
def Phase.pending : Phase B → Nat
  | .working course => StepScript.pending course.moments course.next
  | .idle _ | .pausing .. | .blocked .. | .ended .. => 0

theorem Phase.IsSafe.pending_le {phase : Phase B} (h : phase.IsSafe) : phase.pending ≤ 1 := by
  cases h with
  | working hcourse => exact hcourse.due
  | idle | pausing | blocked | ended => exact Nat.zero_le 1

theorem pending_expire (run : Run B) (state : State B) :
    (state.expire run).phase.pending ≤ state.phase.pending := by
  unfold State.expire State.stop
  split
  · split
    · exact Nat.zero_le _
    · exact Nat.zero_le _
    · exact Nat.le_refl _
  · exact Nat.le_refl _

/-- Nothing is due in a run that is looked at after it has been cancelled. -/
theorem pending_resumed {nodes : List Node} (hplan : Plan.resolve run.script.steps = .ok nodes)
    (hrests : state.phase.isWorking = false) (hcancelled : state.cancelled = true) :
    (state.resumed run).phase.pending = 0 := by
  cases hphase : state.phase with
  | idle world =>
    simp only [State.resumed, hphase, State.begin, Run.start, Machine.start, hplan, hcancelled]
    rfl
  | pausing | blocked =>
    simp only [State.resumed, hphase, State.isCancelled, hcancelled, Bool.true_or, if_true,
      State.stop]
    rfl
  | ended =>
    simp only [State.resumed, hphase]
    rfl
  | working =>
    rw [hphase] at hrests
    cases hrests

theorem Moment.Leaves.pending_le {moment : Moment B} {moments : List (Moment B)}
    {next : Machine.Next B} {phase : Phase B} (h : Moment.Leaves moment moments next phase) :
    phase.pending ≤ StepScript.pending moments next := by
  cases h with
  | working => exact Nat.le_refl _
  | pausing | sleeping | blocked => exact Nat.zero_le _

theorem pending_step_look (hsafe : state.phase.IsSafe) (hworks : state.phase.isWorking = true)
    (hcancelled : state.cancelled = true) :
    state.sent.length + (state.look.step setup).phase.pending ≤ state.phase.pending := by
  cases hphase : state.phase with
  | working course =>
    rw [hphase] at hsafe
    cases hsafe with
    | working hcourse =>
      obtain ⟨moments, next⟩ := course
      cases moments with
      | cons moment moments =>
        have hless : (state.step setup).phase.pending ≤ StepScript.pending moments next :=
          (step_leaves hphase).1.pending_le
        simp only [look_of_moment hphase, State.sent, hphase]
        exact Nat.le_trans (Nat.add_le_add_left hless _) (Nat.le_of_eq (pending_cons ..).symm)
      | nil =>
        cases next with
        | ended error context =>
          rw [look_of_ended hphase]
          simp only [State.sent, State.step, hphase]
          exact Nat.zero_le _
        | resume machine =>
          rw [phase_step_look hphase, hcancelled]
          simp only [State.sent, hphase, List.length_nil, Nat.zero_add]
          cases hcourse.heeds with
          | last _ hnext => exact Machine.pending_advance_look setup hnext
  | idle | pausing | blocked | ended =>
    rw [hphase] at hworks
    cases hworks

/-- Once the run is cancelled, every step that is sent was due. -/
theorem Happens.pending {nodes : List Node} (hplan : Plan.resolve run.script.steps = .ok nodes)
    (h : Happens run state sent later) (hsafe : state.phase.IsSafe)
    (hcancelled : state.cancelled = true) :
    sent.length + later.phase.pending ≤ state.phase.pending := by
  cases h with
  | resumes hrests =>
    have hresumed : (State.resumed run { state with turn := turnLength }).phase.pending = 0 :=
      pending_resumed hplan hrests hcancelled
    rw [List.length_nil, Nat.zero_add]
    exact Nat.le_trans (pending_expire run _) (hresumed ▸ Nat.zero_le _)
  | works hworks =>
    exact Nat.le_trans (Nat.add_le_add_left (pending_expire run _) _)
      (pending_step_look hsafe hworks hcancelled)
  | looks => exact Nat.zero_le _
  | reads =>
    unfold State.read
    split <;> exact Nat.le_of_eq (Nat.zero_add _)
  | cancels | passes | attends => exact Nat.le_of_eq (Nat.zero_add _)

/-- Whoever is cancelled stays cancelled. -/
theorem Happens.cancelled (h : Happens run state sent later) (hcancelled : state.cancelled = true) :
    later.cancelled = true := by
  cases h with
  | resumes =>
    have hresumed := untouched_resumed run { state with turn := turnLength }
    rw [(hresumed.trans (untouched_expire run _)).cancelled]
    exact hcancelled
  | @works interceptors =>
    have hlook : state.look.cancelled = state.cancelled := by
      unfold State.look
      split <;> rfl
    rw [((untouched_step { run.setup with interceptors } state.look).trans
      (untouched_expire run _)).cancelled, hlook, hcancelled]
  | reads =>
    unfold State.read
    split <;> exact hcancelled
  | cancels => rfl
  | looks | passes | attends => exact hcancelled

variable {nodes : List Node} {cancelled : Bool} {world : B.World} {before : List Step}

theorem work_of_rests (h : state.phase.isWorking = false) (fuel : Nat) :
    state.work setup fuel = state := by
  cases fuel with
  | zero => rfl
  | succ fuel =>
    cases hphase : state.phase with
    | working =>
      rw [hphase] at h
      cases h
    | idle | pausing | blocked | ended => simp only [State.work, hphase]

theorem work_succ (hworks : state.phase.isWorking = true) (fuel : Nat) :
    state.work setup (fuel + 1) = (state.step setup).work setup fuel := by
  cases hphase : state.phase with
  | working => simp only [State.work, hphase]
  | idle | pausing | blocked | ended =>
    rw [hphase] at hworks
    cases hworks

/-- A run that has been cancelled works only if it is about to end. -/
def State.IsCalm (state : State B) : Prop :=
  state.cancelled = true → ∃ error context, state.phase = .working ⟨[], .ended error context⟩

theorem look_of_calm (h : state.IsCalm) : state.look = state := by
  cases hphase : state.phase with
  | working course =>
    obtain ⟨moments, next⟩ := course
    cases moments with
    | cons moment moments => exact look_of_moment hphase
    | nil =>
      cases next with
      | ended => exact look_of_ended hphase
      | resume machine =>
        refine look_of_cancelled hphase fun hcancelled => ?_
        obtain ⟨error, context, hended⟩ := h hcancelled
        cases hphase.symm.trans hended
  | idle | pausing | blocked | ended => simp only [State.look, hphase]

/-- Without anybody else, a run does one thing after the other. -/
theorem work_path (hworks : state.phase.isWorking = true) (hcalm : state.IsCalm) (fuel : Nat) :
    ∃ sent, Path (Happens run) state sent ((state.work run.setup fuel).expire run) := by
  induction fuel generalizing state with
  | zero => exact ⟨[], (expire_of_working hworks).symm ▸ .refl⟩
  | succ fuel ih =>
    -- nobody cancels the run meanwhile, so a look at the token changes nothing
    have hnow : Happens run state state.sent ((state.step run.setup).expire run) := by
      have hstep : Happens run state state.sent
          ((state.look.step { run.setup with interceptors := run.interceptors }).expire run) :=
        .works hworks
      rw [look_of_calm hcalm] at hstep
      exact hstep
    rw [work_succ hworks]
    cases hlater : (state.step run.setup).phase.isWorking with
    | false =>
      rw [work_of_rests hlater]
      exact ⟨_, .single hnow⟩
    | true =>
      have hcalmLater : (state.step run.setup).IsCalm := by
        intro hcancelled
        rw [(untouched_step run.setup state).cancelled] at hcancelled
        obtain ⟨error, context, hended⟩ := hcalm hcancelled
        simp [State.step, hended, Phase.isWorking] at hlater
      obtain ⟨sent, hrest⟩ := ih hlater hcalmLater
      rw [expire_of_working hlater] at hnow
      exact ⟨_, (Path.single hnow).trans hrest⟩

theorem resumed_isCalm (hrests : state.phase.isWorking = false)
    (hworks : (state.resumed run).phase.isWorking = true) : (state.resumed run).IsCalm := by
  intro hcancelled
  rw [(untouched_resumed run state).cancelled] at hcancelled
  cases hphase : state.phase with
  | idle world =>
    simp only [State.resumed, hphase, State.begin, Run.start, Machine.start, hcancelled]
    split
    · exact ⟨_, _, rfl⟩
    · exact ⟨_, _, rfl⟩
  | pausing | blocked =>
    simp [State.resumed, hphase, State.isCancelled, hcancelled, State.stop, Phase.isWorking]
      at hworks
  | working =>
    rw [hphase] at hrests
    cases hrests
  | ended => simp [State.resumed, hphase, Phase.isWorking] at hworks

/-- A run that is looked at while its consumer waits is one of the possibilities. -/
theorem poll_path (hrests : state.phase.isWorking = false) (fuel : Nat) :
    ∃ sent, Path (Happens run) state sent (state.poll run fuel) := by
  let fresh : State B := { state with turn := turnLength }
  have hresumes : Happens run state [] ((fresh.resumed run).expire run) := .resumes hrests
  rw [poll_eq]
  cases hworks : (fresh.resumed run).phase.isWorking with
  | false =>
    rw [work_of_rests hworks]
    exact ⟨_, .single hresumes⟩
  | true =>
    obtain ⟨sent, hwork⟩ := work_path hworks (resumed_isCalm hrests hworks) fuel
    rw [expire_of_working hworks] at hresumes
    exact ⟨_, (Path.single hresumes).trans hwork⟩

end

end Stream

end StepScript
