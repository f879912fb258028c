import StepScript.Run.Stream
import Mathlib.Logic.Relation
import Mathlib.Tactic.Common

/-!
# Events of streamed runs

What can happen to a streamed run and its consumer, one event at a time and in any order. The run
and its consumer are not bound to take turns: the consumer may read or cancel between any two steps
of the run, and time passes as it likes. Whatever a consumer does is made of such events.
-/

namespace StepScript

variable {B : Backend}

namespace Stream

/-! ## What the run leaves as it is -/

theorem offer_cases (state : State B) (result : ActionResult) (context : Context B)
    (course : Course B) :
    (state.turn ≠ 0 ∧ state.queue.length < capacity ∧
      state.offer result context course =
        { state with
          phase := .working course
          queue := state.queue ++ [result]
          turn := state.turn - 1 }) ∨
    ((state.turn = 0 ∨ capacity ≤ state.queue.length) ∧
      state.offer result context course =
        { state with phase := .blocked result context course }) := by
  unfold State.offer
  split
  · next hopen => exact .inl ⟨hopen.1, hopen.2, rfl⟩
  · next hclosed => exact .inr ⟨by omega, rfl⟩

theorem sleep_cases (state : State B) (millis : Nat) (context : Context B) (course : Course B) :
    (state.turn = 0 ∧
      state.sleep millis context course =
        { state with
          phase := .pausing state.clock context
            { course with moments := ⟨.sleep millis, context⟩ :: course.moments } }) ∨
    (state.turn ≠ 0 ∧ millis = 0 ∧
      state.sleep millis context course =
        { state with phase := .working course, turn := state.turn - 1 }) ∨
    (state.turn ≠ 0 ∧ millis ≠ 0 ∧
      state.sleep millis context course =
        { state with
          phase := .pausing (state.clock + millis) context
            { course with moments := ⟨.sleep 0, context⟩ :: course.moments } }) := by
  unfold State.sleep
  by_cases hturn : state.turn = 0
  · exact .inl ⟨hturn, if_pos hturn⟩
  · dsimp only
    rw [if_neg hturn]
    by_cases hmillis : millis = 0
    · exact .inr (.inl ⟨hturn, hmillis, if_pos hmillis⟩)
    · exact .inr (.inr ⟨hturn, hmillis, if_neg hmillis⟩)

@[simp]
theorem emitted_offer (state : State B) (result : ActionResult) (context : Context B)
    (course : Course B) : (state.offer result context course).emitted = state.emitted := by
  rcases offer_cases state result context course with ⟨-, -, h⟩ | ⟨-, h⟩ <;> rw [h]

@[simp]
theorem emitted_sleep (state : State B) (millis : Nat) (context : Context B) (course : Course B) :
    (state.sleep millis context course).emitted = state.emitted := by
  rcases sleep_cases state millis context course with ⟨-, h⟩ | ⟨-, -, h⟩ | ⟨-, -, h⟩ <;> rw [h]

@[simp]
theorem emitted_wake (state : State B) : state.wake.emitted = state.emitted := by
  unfold State.wake
  split
  · split <;> rfl
  · exact emitted_offer ..
  · rfl

@[simp]
theorem emitted_stop (state : State B) (error : RunError) :
    (state.stop error).emitted = state.emitted := by
  unfold State.stop
  split <;> rfl

@[simp]
theorem queue_stop (state : State B) (error : RunError) : (state.stop error).queue = state.queue := by
  unfold State.stop
  split <;> rfl

@[simp]
theorem emitted_read (state : State B) : state.read.2.emitted = state.emitted := by
  unfold State.read
  split <;> rfl

/-- What the consumer has done is as it was. -/
structure State.Untouched (state state' : State B) : Prop where
  cancelled : state'.cancelled = state.cancelled
  delivered : state'.delivered = state.delivered

theorem State.Untouched.refl (state : State B) : state.Untouched state := ⟨rfl, rfl⟩

theorem State.Untouched.trans {state state' state'' : State B} (h : state.Untouched state')
    (h' : state'.Untouched state'') : state.Untouched state'' :=
  ⟨h'.cancelled.trans h.cancelled, h'.delivered.trans h.delivered⟩

theorem untouched_offer (state : State B) (result : ActionResult) (context : Context B)
    (course : Course B) : state.Untouched (state.offer result context course) := by
  rcases offer_cases state result context course with ⟨-, -, h⟩ | ⟨-, h⟩ <;> rw [h] <;>
    exact ⟨rfl, rfl⟩

theorem untouched_sleep (state : State B) (millis : Nat) (context : Context B) (course : Course B) :
    state.Untouched (state.sleep millis context course) := by
  rcases sleep_cases state millis context course with ⟨-, h⟩ | ⟨-, -, h⟩ | ⟨-, -, h⟩ <;> rw [h] <;>
    exact ⟨rfl, rfl⟩

theorem untouched_step (setup : Setup B) (state : State B) :
    state.Untouched (state.step setup) := by
  unfold State.step
  split
  · exact ⟨rfl, rfl⟩
  · exact ⟨rfl, rfl⟩
  · split
    · exact ⟨rfl, rfl⟩
    · exact untouched_sleep ..
    · exact ⟨rfl, rfl⟩
    · next result _ =>
      obtain ⟨hcancelled, hdelivered⟩ :=
        untouched_offer { state with emitted := state.emitted.push result } result _ _
      exact ⟨hcancelled, hdelivered⟩
  · exact ⟨rfl, rfl⟩

theorem untouched_stop (state : State B) (error : RunError) :
    state.Untouched (state.stop error) := by
  unfold State.stop
  split <;> exact ⟨rfl, rfl⟩

theorem untouched_wake (state : State B) : state.Untouched state.wake := by
  unfold State.wake
  split
  · split <;> exact ⟨rfl, rfl⟩
  · exact untouched_offer ..
  · exact .refl state

theorem untouched_expire (run : Run B) (state : State B) : state.Untouched (state.expire run) := by
  unfold State.expire
  split
  · exact untouched_stop state _
  · exact .refl state

theorem untouched_work (setup : Setup B) (fuel : Nat) (state : State B) :
    state.Untouched (state.work setup fuel) := by
  induction fuel generalizing state with
  | zero => exact .refl state
  | succ fuel ih =>
    unfold State.work
    split
    · exact (untouched_step setup state).trans (ih _)
    · exact .refl state

/-! ## Events -/

/-- The context of a run that waits for something. -/
def Phase.waiting? : Phase B → Option (Context B)
  | .pausing _ context _ | .blocked _ context _ => some context
  | _ => none

theorem Phase.waiting?_eq_some {phase : Phase B} {context : Context B}
    (h : phase.waiting? = some context) :
    (∃ wake course, phase = .pausing wake context course) ∨
      ∃ result course, phase = .blocked result context course := by
  cases phase with
  | pausing wake _ course =>
    cases h
    exact .inl ⟨wake, course, rfl⟩
  | blocked result _ course =>
    cases h
    exact .inr ⟨result, course, rfl⟩
  | idle | working | ended => cases h

theorem stop_of_waiting {state : State B} {context : Context B}
    (h : state.phase.waiting? = some context) (error : RunError) :
    state.stop error = { state with phase := .ended (some error) context } := by
  rcases Phase.waiting?_eq_some h with ⟨_, _, hphase⟩ | ⟨_, _, hphase⟩ <;>
    simp only [State.stop, hphase]

inductive Event (run : Run B) (state : State B) : State B → Prop where
  | begins {world : B.World} (hphase : state.phase = .idle world) :
      Event run state (state.begin run world)
  | steps : Event run state (state.step run.setup)
  /-- A run that works sees that the consumer has cancelled it. -/
  | notices {frames : List Machine.Frame} {context : Context B}
      (hphase : state.phase = .working ⟨[], .resume ⟨frames, context⟩⟩)
      (hcancelled : state.cancelled = true) :
      Event run state
        { state with phase := .working ⟨[], .resume ⟨frames, { context with cancelled := true }⟩⟩ }
  | wakes {context : Context B} (hphase : state.phase.waiting? = some context)
      (hcalm : state.isCancelled context = false) : Event run state state.wake
  | stops {context : Context B} (hphase : state.phase.waiting? = some context)
      (hcancelled : state.isCancelled context = true) : Event run state (state.stop .cancelled)
  | expires : Event run state (state.expire run)
  | reads : Event run state state.read.2
  | cancels : Event run state state.cancel
  | passes {clock : Nat} (hclock : state.clock ≤ clock) : Event run state { state with clock }
  /-- A new turn of the run begins. -/
  | turns : Event run state { state with turn := turnLength }
  | attends {consumerTurn : Nat} : Event run state { state with consumerTurn }

/-- The first state leads to the second by some events. -/
abbrev Reaches (run : Run B) : State B → State B → Prop := Relation.ReflTransGen (Event run)

section

variable {run : Run B} {state state' : State B}

theorem Event.reaches (h : Event run state state') : Reaches run state state' :=
  Relation.ReflTransGen.single h

/-- Whoever is cancelled stays cancelled. -/
theorem Event.cancelled_of_cancelled (h : Event run state state')
    (hcancelled : state.cancelled = true) : state'.cancelled = true := by
  cases h with
  | steps => rw [(untouched_step run.setup state).cancelled, hcancelled]
  | wakes => rw [(untouched_wake state).cancelled, hcancelled]
  | stops => rw [(untouched_stop state _).cancelled, hcancelled]
  | expires => rw [(untouched_expire run state).cancelled, hcancelled]
  | reads =>
    unfold State.read
    split <;> exact hcancelled
  | cancels => rfl
  | begins | notices | passes | turns | attends => exact hcancelled

/-! ## Polling -/

theorem work_reaches (fuel : Nat) (state : State B) :
    Reaches run state (state.work run.setup fuel) := by
  induction fuel generalizing state with
  | zero => exact .refl
  | succ fuel ih =>
    unfold State.work
    split
    · exact .head .steps (ih _)
    · exact .refl

/-- The run goes on, or it is stopped, when it is looked at. -/
def State.resumed (run : Run B) (state : State B) : State B :=
  match state.phase with
  | .idle world => state.begin run world
  | .pausing _ context _ | .blocked _ context _ =>
    if state.isCancelled context then state.stop .cancelled else state.wake
  | _ => state

theorem resumed_of_waiting {context : Context B} (h : state.phase.waiting? = some context) :
    state.resumed run = if state.isCancelled context then state.stop .cancelled else state.wake := by
  rcases Phase.waiting?_eq_some h with ⟨_, _, hphase⟩ | ⟨_, _, hphase⟩ <;>
    simp only [State.resumed, hphase]

theorem poll_eq (fuel : Nat) :
    state.poll run fuel =
      ((({ state with turn := turnLength } : State B).resumed run).work run.setup fuel).expire run :=
  rfl

theorem resumed_reaches : Reaches run state (state.resumed run) := by
  have hwaiting : ∀ context, state.phase.waiting? = some context →
      Reaches run state
        (if state.isCancelled context then state.stop .cancelled else state.wake) := by
    intro context hphase
    cases hcancelled : state.isCancelled context with
    | true => exact (Event.stops hphase hcancelled).reaches
    | false => exact (Event.wakes hphase hcancelled).reaches
  unfold State.resumed
  split
  · next world hphase => exact (Event.begins hphase).reaches
  · next hphase => exact hwaiting _ (by rw [hphase]; rfl)
  · next hphase => exact hwaiting _ (by rw [hphase]; rfl)
  · exact .refl

theorem untouched_resumed (run : Run B) (state : State B) :
    state.Untouched (state.resumed run) := by
  have hwaiting : ∀ context, state.Untouched
      (if state.isCancelled context then state.stop .cancelled else state.wake) := by
    intro context
    split
    · exact untouched_stop state _
    · exact untouched_wake state
  unfold State.resumed
  split
  · exact ⟨rfl, rfl⟩
  · exact hwaiting _
  · exact hwaiting _
  · exact .refl state

theorem untouched_poll (run : Run B) (fuel : Nat) (state : State B) :
    state.Untouched (state.poll run fuel) := by
  have hresumed : state.Untouched (State.resumed run { state with turn := turnLength }) := by
    obtain ⟨hcancelled, hdelivered⟩ := untouched_resumed run { state with turn := turnLength }
    exact ⟨hcancelled, hdelivered⟩
  rw [poll_eq]
  exact hresumed.trans ((untouched_work _ fuel _).trans (untouched_expire run _))

theorem poll_reaches (fuel : Nat) : Reaches run state (state.poll run fuel) := by
  rw [poll_eq]
  have hwork : Reaches run (State.resumed run { state with turn := turnLength }) _ :=
    work_reaches fuel _
  exact .head .turns (resumed_reaches.trans (hwork.tail .expires))

/-! ## Waiting -/

theorem earlier_eq_some {first second : Option Nat} {time : Nat}
    (h : State.earlier first second = some time) : first = some time ∨ second = some time := by
  cases first with
  | none => exact .inr h
  | some a =>
    cases second with
    | none => exact .inl h
    | some b =>
      simp only [State.earlier, Option.some.injEq] at h ⊢
      omega

/-- A run at which looking is of no use is overtaken neither by time nor by the consumer. -/
theorem clock_lt_nextTime {goal : State.Goal} {time : Nat} (hgoal : state.reaches goal = false)
    (hready : state.isReady = false) (htime : state.nextTime goal = some time) :
    state.clock < time := by
  -- each of the three times that count would have made the run ready or the goal reached
  rcases earlier_eq_some htime with hrun | hgoalTime
  · rcases earlier_eq_some hrun with hwake | hdeadline
    · cases hphase : state.phase with
      | pausing wake context course =>
        simp only [hphase, Option.some.injEq] at hwake
        simp only [State.isReady, hphase, Bool.or_eq_false_iff, decide_eq_false_iff_not] at hready
        omega
      | _ => simp [hphase] at hwake
    · have hended : state.hasEnded = false := by
        by_contra hended
        simp [hended] at hdeadline
      simp only [hended, Bool.false_eq_true, if_false] at hdeadline
      have hoverdue : state.isOverdue = false := by
        unfold State.isReady at hready
        split at hready
        · cases hready
        · cases hready
        · exact (Bool.or_eq_false_iff.1 hready).2
        · exact (Bool.or_eq_false_iff.1 hready).2
        · next hphase => simp [State.hasEnded, hphase] at hended
      simpa [State.isOverdue, hdeadline] using hoverdue
  · cases goal with
    | time clock =>
      simp only [Option.some.injEq] at hgoalTime
      simp only [State.reaches, decide_eq_false_iff_not] at hgoal
      omega
    | result | finish => cases hgoalTime

theorem await_reaches (work : Nat) (goal : State.Goal) (fuel : Nat) (state : State B) :
    Reaches run state (state.await run work goal fuel) := by
  induction fuel generalizing state with
  | zero => exact .refl
  | succ fuel ih =>
    unfold State.await
    split
    · exact .refl
    · next hgoal =>
      split
      · exact (poll_reaches work).trans (ih _)
      · next hready =>
        split
        · next time htime =>
          have hlater : state.clock < time :=
            clock_lt_nextTime (by simpa using hgoal) (by simpa using hready) htime
          exact .head (.passes (Nat.le_of_lt hlater)) (ih _)
        · exact .refl

theorem untouched_await (run : Run B) (work : Nat) (goal : State.Goal) (fuel : Nat)
    (state : State B) : state.Untouched (state.await run work goal fuel) := by
  induction fuel generalizing state with
  | zero => exact .refl state
  | succ fuel ih =>
    unfold State.await
    split
    · exact .refl state
    · split
      · exact (untouched_poll run work state).trans (ih _)
      · split
        · next time _ =>
          obtain ⟨hcancelled, hdelivered⟩ := ih { state with clock := time }
          exact ⟨hcancelled, hdelivered⟩
        · exact .refl state

/-- The consumer steps aside if its turn is over. -/
def State.rested (run : Run B) (fuel : Nat) (state : State B) : State B :=
  if state.consumerTurn = 0 then state.stepAside run fuel else state

theorem attend_eq (fuel : Nat) (goal : State.Goal) :
    state.attend run fuel goal =
      if (state.rested run fuel).reaches goal then
        { state.rested run fuel with consumerTurn := (state.rested run fuel).consumerTurn - 1 }
      else
        { (state.rested run fuel).await run fuel goal fuel with consumerTurn := turnLength - 1 } :=
  rfl

theorem rested_reaches (fuel : Nat) (state : State B) :
    Reaches run state (state.rested run fuel) := by
  unfold State.rested
  split
  · unfold State.stepAside
    dsimp only
    split
    · exact (poll_reaches fuel).tail .attends
    · exact (Event.attends).reaches
  · exact .refl

theorem untouched_rested (run : Run B) (fuel : Nat) (state : State B) :
    state.Untouched (state.rested run fuel) := by
  unfold State.rested
  split
  · unfold State.stepAside
    dsimp only
    split
    · obtain ⟨hcancelled, hdelivered⟩ := untouched_poll run fuel state
      exact ⟨hcancelled, hdelivered⟩
    · exact ⟨rfl, rfl⟩
  · exact .refl state

theorem attend_reaches (fuel : Nat) (goal : State.Goal) :
    Reaches run state (state.attend run fuel goal) := by
  refine (rested_reaches fuel state).trans ?_
  rw [attend_eq]
  split
  · exact (Event.attends).reaches
  · exact (await_reaches fuel goal fuel _).tail .attends

theorem untouched_attend (run : Run B) (fuel : Nat) (goal : State.Goal) (state : State B) :
    state.Untouched (state.attend run fuel goal) := by
  refine (untouched_rested run fuel state).trans ?_
  rw [attend_eq]
  split
  · exact ⟨rfl, rfl⟩
  · obtain ⟨hcancelled, hdelivered⟩ :=
      untouched_await run fuel goal fuel (state.rested run fuel)
    exact ⟨hcancelled, hdelivered⟩

/-! ## Consumers -/

theorem receive_reaches (fuel : Nat) : Reaches run state (receive run fuel state).2 :=
  (attend_reaches fuel .result).tail .reads

theorem receiveMany_reaches (fuel count : Nat) (state : State B) :
    Reaches run state (receiveMany run fuel count state).2 := by
  induction count generalizing state with
  | zero => exact .refl
  | succ count ih => exact (receive_reaches fuel).trans (ih _)

theorem receiveAll_reaches (fuel count : Nat) (state : State B) :
    Reaches run state (receiveAll run fuel count state).2 := by
  induction count generalizing state with
  | zero => exact .refl
  | succ count ih =>
    have hfirst : Reaches run state (receive run fuel state).2 := receive_reaches fuel
    unfold receiveAll
    split
    · next hnone =>
      rw [hnone] at hfirst
      exact hfirst
    · next hsome =>
      rw [hsome] at hfirst
      exact hfirst.trans (ih _)

theorem perform_reaches (fuel : Nat) (op : Op) : Reaches run state (perform run fuel state op).2 := by
  cases op with
  | next count => exact receiveMany_reaches fuel count state
  | drain => exact receiveAll_reaches fuel fuel state
  | sleep millis => exact attend_reaches fuel _
  | cancel => exact (Event.cancels).reaches

/-- Whatever a consumer does, one event follows the other. -/
theorem performAll_reaches (fuel : Nat) (ops : List Op) (state : State B) :
    Reaches run state (performAll run fuel ops state).2 := by
  induction ops generalizing state with
  | nil => exact .refl
  | cons op ops ih => exact (perform_reaches fuel op).trans (ih _)

end

end Stream

end StepScript
