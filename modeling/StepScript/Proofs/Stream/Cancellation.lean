import StepScript.Proofs.Stream.Overlap
import StepScript.Rehearsal.Layers

/-!
# Cancelled streamed runs

A run that has been cancelled while it does not work stops before anything else when it is looked at
next, even if its time is up. A run that is cancelled by one of its own dispatches unwinds until it
waits or ends. A run that is cancelled by another party while it works may send one more step.
-/

namespace StepScript

variable {B : Backend}

namespace Stream

/-! ## Runs that have been cancelled while they do not work -/

/-- Whether a run has been cancelled while it does not work. -/
def State.mustStop (state : State B) : Bool :=
  match state.phase with
  | .idle _ => state.cancelled
  | .pausing _ context _ | .blocked _ context _ => state.isCancelled context
  | .working _ | .ended .. => false

/-- A run has stopped because it was cancelled. -/
def State.hasStopped (state : State B) : Prop :=
  ∃ context, state.phase = .ended (some .cancelled) context

/-- A run does not do anything but stop. -/
inductive State.IsStopping (state : State B) : Prop where
  | waits (hstop : state.mustStop = true)
  | begins {context : Context B} (hphase : state.phase = .working ⟨[], .ended (some .cancelled) context⟩)
  | ended (hstopped : state.hasStopped)

section

variable {run : Run B} {state later : State B} {setup : Setup B} {nodes : List Node} {sent : List Step}

theorem mustStop_of_waiting {context : Context B} (hwaiting : state.phase.waiting? = some context) :
    state.mustStop = state.isCancelled context := by
  rcases Phase.waiting?_eq_some hwaiting with ⟨_, _, hphase⟩ | ⟨_, _, hphase⟩ <;>
    simp only [State.mustStop, hphase]

theorem mustStop_cases (h : state.mustStop = true) :
    (∃ world, state.phase = .idle world ∧ state.cancelled = true) ∨
      ∃ context, state.phase.waiting? = some context ∧ state.isCancelled context = true := by
  cases hphase : state.phase with
  | idle world =>
    simp only [State.mustStop, hphase] at h
    exact .inl ⟨world, rfl, h⟩
  | pausing _ context _ | blocked _ context _ =>
    simp only [State.mustStop, hphase] at h
    exact .inr ⟨context, rfl, h⟩
  | working | ended => simp [State.mustStop, hphase] at h

/-- Only the phase and the token of a run decide whether it has to stop. -/
theorem mustStop_of_same (hphase : later.phase = state.phase)
    (hcancelled : state.cancelled = true → later.cancelled = true) (h : state.mustStop = true) :
    later.mustStop = true := by
  rcases mustStop_cases h with ⟨world, hidle, hstate⟩ | ⟨context, hwaiting, hstate⟩
  · simp only [State.mustStop, hphase, hidle]
    exact hcancelled hstate
  · rw [mustStop_of_waiting (hphase ▸ hwaiting), State.isCancelled, Bool.or_eq_true]
    exact (Bool.or_eq_true _ _ ▸ hstate).imp_left hcancelled

theorem State.IsStopping.of_same (h : state.IsStopping) (hphase : later.phase = state.phase)
    (hcancelled : state.cancelled = true → later.cancelled = true) : later.IsStopping := by
  cases h with
  | waits hstop => exact .waits (mustStop_of_same hphase hcancelled hstop)
  | begins hbegins => exact .begins (hphase.trans hbegins)
  | ended hstopped =>
    obtain ⟨context, hended⟩ := hstopped
    exact .ended ⟨context, hphase.trans hended⟩

/-- A run that has ended stays as it is when it is looked at. -/
theorem resumed_of_ended {error : Option RunError} {context : Context B}
    (hphase : state.phase = .ended error context) : state.resumed run = state := by
  simp only [State.resumed, hphase]

/-- How a run that has been cancelled by one of its dispatches is left when it does not work any
more. It has ended, or it waits and will be stopped; if it waits when its time is up, it is said to
have exceeded its limit. -/
inductive Settles (error : Option RunError) (state : State B) : Prop where
  | ended {context : Context B} (hphase : state.phase = .ended error context)
  | waits {context : Context B} (hwaiting : state.phase.waiting? = some context)
      (hcancelled : state.isCancelled context = true)
  | stopped (hstopped : state.hasStopped)
  | expires {limit : Nat} {context : Context B} (hoverdue : state.isOverdue = true)
      (hphase : state.phase = .ended (some (.timedOut limit)) context)

/-- What a run still hands out after it has been cancelled by one of its dispatches. It may settle
before it is through. -/
inductive State.Unwinds (error : Option RunError) (left : List ActionResult) (state : State B) : Prop where
  | working {course : Course B} (hphase : state.phase = .working course)
      (hcourse : Heeds true course.moments course.next) (herror : course.next.verdict = error)
      (hleft : emittedResults course.moments = left)
  | settles (h : Settles error state)

variable {error : Option RunError} {left : List ActionResult}

/-- A run that has settled, but for its clock and its turn, has settled. -/
theorem Settles.of_same (h : Settles error state) (hphase : later.phase = state.phase)
    (hcancelled : state.cancelled = true → later.cancelled = true)
    (hoverdue : state.isOverdue = true → later.isOverdue = true) : Settles error later := by
  cases h with
  | ended hended => exact .ended (hphase.trans hended)
  | waits hwaiting hstate =>
    refine .waits (hphase ▸ hwaiting) ?_
    rw [State.isCancelled, Bool.or_eq_true]
    exact (Bool.or_eq_true _ _ ▸ hstate).imp_left hcancelled
  | stopped hstopped =>
    obtain ⟨context, hended⟩ := hstopped
    exact .stopped ⟨context, hphase.trans hended⟩
  | expires hdue hended => exact .expires (hoverdue hdue) (hphase.trans hended)

theorem State.Unwinds.of_same (h : state.Unwinds error left) (hphase : later.phase = state.phase)
    (hcancelled : state.cancelled = true → later.cancelled = true)
    (hoverdue : state.isOverdue = true → later.isOverdue = true) : later.Unwinds error left := by
  cases h with
  | working hworking hcourse herror hleft =>
    exact .working (hphase.trans hworking) hcourse herror hleft
  | settles h => exact .settles (h.of_same hphase hcancelled hoverdue)

/-- The time limit is looked at when a cancelled run has begun to wait. -/
theorem expire_settles {context : Context B} (hwaiting : state.phase.waiting? = some context)
    (hcancelled : state.isCancelled context = true) :
    Settles error (state.expire run) ∧ (state.expire run).emitted = state.emitted := by
  rcases expire_of_waiting run hwaiting with hexpire | ⟨hoverdue, hexpire⟩ <;> rw [hexpire]
  · exact ⟨.waits hwaiting hcancelled, rfl⟩
  · exact ⟨.expires hoverdue rfl, rfl⟩

theorem Settles.rests (h : Settles error state) : state.phase.isWorking = false := by
  cases h with
  | ended hphase | expires _ hphase =>
    rw [hphase]
    rfl
  | waits hwaiting =>
    rcases Phase.waiting?_eq_some hwaiting with ⟨_, _, hphase⟩ | ⟨_, _, hphase⟩ <;> rw [hphase] <;> rfl
  | stopped hstopped =>
    obtain ⟨context, hphase⟩ := hstopped
    rw [hphase]
    rfl

/-- A run that has settled is looked at. -/
theorem Settles.resumes (h : Settles error state) :
    Settles error ((state.resumed run).expire run) ∧
      ((state.resumed run).expire run).emitted = state.emitted := by
  have hends : ∀ {error' context}, state.phase = .ended error' context →
      (state.resumed run).expire run = state := by
    intro error' context hphase
    rw [resumed_of_ended hphase, expire_of_ended hphase]
  cases h with
  | ended hphase =>
    rw [hends hphase]
    exact ⟨.ended hphase, rfl⟩
  | stopped hstopped =>
    obtain ⟨context, hphase⟩ := hstopped
    rw [hends hphase]
    exact ⟨.stopped ⟨context, hphase⟩, rfl⟩
  | expires hoverdue hphase =>
    rw [hends hphase]
    exact ⟨.expires hoverdue hphase, rfl⟩
  | waits hwaiting hcancelled =>
    rw [resumed_of_waiting hwaiting, if_pos hcancelled, stop_of_waiting hwaiting, expire_of_ended rfl]
    exact ⟨.stopped ⟨_, rfl⟩, rfl⟩

/-- What a moment leaves of a run that has been cancelled before it. -/
theorem Moment.Leaves.unwinds {moment : Moment B} {moments : List (Moment B)}
    {next : Machine.Next B} (h : Moment.Leaves moment moments next state.phase)
    (hcancelled : moment.context.cancelled = true) (hrest : Heeds true moments next) :
    (state.expire run).Unwinds next.verdict (emittedResults moments) ∧
      (state.expire run).emitted = state.emitted := by
  have hwaits : state.phase.waiting? = some moment.context →
      (state.expire run).Unwinds next.verdict (emittedResults moments) ∧
        (state.expire run).emitted = state.emitted := by
    intro hwaiting
    have hstate : state.isCancelled moment.context = true := by
      rw [State.isCancelled, hcancelled, Bool.or_true]
    obtain ⟨hsettles, hemitted⟩ := expire_settles hwaiting hstate
    exact ⟨.settles hsettles, hemitted⟩
  generalize hphase : state.phase = phase at h
  cases h with
  | working =>
    rw [expire_of_working (by rw [hphase]; rfl)]
    exact ⟨.working hphase hrest rfl rfl, rfl⟩
  | pausing | sleeping | blocked => exact hwaits (by rw [hphase]; rfl)

/-- On the way to a later state, a run that unwinds hands out some of what is left. -/
def State.UnwindsTo (error : Option RunError) (left : List ActionResult) (state later : State B) : Prop :=
  ∃ shown rest, left = shown ++ rest ∧ later.emitted.toList = state.emitted.toList ++ shown ∧
    later.Unwinds error rest

theorem State.UnwindsTo.stays (hemitted : later.emitted = state.emitted)
    (h : later.Unwinds error left) : state.UnwindsTo error left later :=
  ⟨[], left, rfl, by rw [hemitted, List.append_nil], h⟩

theorem State.UnwindsTo.behind {before : State B} {shown rest : List ActionResult}
    (h : state.UnwindsTo error rest later) (hleft : left = shown ++ rest)
    (hemitted : state.emitted.toList = before.emitted.toList ++ shown) :
    before.UnwindsTo error left later := by
  obtain ⟨more, restMore, hrest, hemittedMore, hlater⟩ := h
  refine ⟨shown ++ more, restMore, ?_, ?_, hlater⟩
  · rw [hleft, hrest, List.append_assoc]
  · rw [hemittedMore, hemitted, List.append_assoc]

/-- The next thing is a moment of a run that knows of its cancellation. -/
theorem moment_unwinds {moment : Moment B} {moments : List (Moment B)} {next : Machine.Next B}
    (hphase : state.phase = .working ⟨moment :: moments, next⟩)
    (hcourse : Heeds true (moment :: moments) next) :
    state.sent = [] ∧ state.UnwindsTo next.verdict (emittedResults (moment :: moments))
      ((state.look.step setup).expire run) := by
  obtain ⟨hunsent, hcancelled⟩ :
      moment.signal.dispatched? = none ∧ moment.context.cancelled = true := by
    cases hcourse with
    | pauses hpause hlasting => exact ⟨Collect.dispatched?_of_isPause hpause, hlasting rfl⟩
    | emits hlasting => exact ⟨rfl, hlasting rfl⟩
  obtain ⟨hleaves, hemitted⟩ :
      Moment.Leaves moment moments next (state.step setup).phase ∧ _ := step_leaves hphase
  obtain ⟨hunwinds, hsame⟩ :
      ((state.step setup).expire run).Unwinds next.verdict (emittedResults moments) ∧ _ :=
    hleaves.unwinds hcancelled (hcancelled ▸ hcourse.tail)
  rw [look_of_moment hphase]
  refine ⟨by simp only [State.sent, hphase, hunsent, Option.toList_none],
    emittedResults [moment], _, emittedResults_append [moment] moments, ?_, hunwinds⟩
  rw [hsame, hemitted, emittedResults, List.filterMap_cons, List.filterMap_nil]
  cases moment.signal.emitted? <;> rfl

/-- The next thing is a move of a run that knows of its cancellation, or its end. -/
theorem move_unwinds {next : Machine.Next B} (hphase : state.phase = .working ⟨[], next⟩)
    (hcourse : Heeds true [] next) :
    state.sent = [] ∧ state.UnwindsTo next.verdict [] ((state.look.step setup).expire run) := by
  have hunsent : state.sent = [] := by simp only [State.sent, hphase]
  cases hcourse with
  | last hlasting hnext =>
    cases next with
    | ended error context =>
      have hstep : state.step setup = { state with phase := .ended error context } := by
        simp only [State.step, hphase]
      rw [look_of_ended hphase, hstep, expire_of_ended rfl]
      exact ⟨hunsent, .stays rfl (.settles (.ended rfl))⟩
    | resume machine =>
      have hknown : machine.context.cancelled = true := hlasting rfl
      obtain ⟨hemits, hverdict⟩ := Machine.advance_of_cancelled setup hnext hknown
      have hstep : state.step setup = { state with
          phase := .working
            ⟨(Machine.advance setup machine).moments, (Machine.advance setup machine).next⟩ } := by
        simp only [State.step, hphase]
      have hheeds := Machine.advance_heeds setup hnext
      rw [hknown] at hheeds
      rw [look_of_cancelled hphase fun _ => hknown, hstep, expire_of_working rfl]
      exact ⟨hunsent, .stays rfl (.working rfl hheeds hverdict hemits)⟩

/-- Whatever happens to a run that unwinds, it sends nothing and goes on to unwind. -/
theorem Happens.unwinds (h : Happens run state sent later) (hstate : state.Unwinds error left) :
    sent = [] ∧ state.UnwindsTo error left later := by
  cases h with
  | resumes hrests =>
    cases hstate with
    | working hphase =>
      rw [hphase] at hrests
      cases hrests
    | settles h =>
      have hfresh : Settles error { state with turn := turnLength } := h.of_same rfl id id
      obtain ⟨hsettles, hemitted⟩ := hfresh.resumes
      exact ⟨rfl, .stays hemitted (.settles hsettles)⟩
  | works hworks =>
    cases hstate with
    | @working course hphase hcourse herror hleft =>
      subst herror hleft
      obtain ⟨moments, next⟩ := course
      cases moments with
      | nil => exact move_unwinds hphase hcourse
      | cons => exact moment_unwinds hphase hcourse
    | settles h => cases h.rests.symm.trans hworks
  | looks hphase =>
    cases hstate with
    | working hworking hcourse =>
      -- the guard comes next only as long as the run does not know of a cancellation
      cases hphase.symm.trans hworking
      cases hcourse with
      | last hlasting hnext => cases (hnext.first _ rfl rfl).symm.trans (hlasting rfl)
    | settles h =>
      have hrests := h.rests
      rw [hphase] at hrests
      cases hrests
  | reads =>
    have hsame : state.read.2.phase = state.phase ∧ state.read.2.cancelled = state.cancelled ∧
        state.read.2.isOverdue = state.isOverdue := by
      unfold State.read
      split <;> exact ⟨rfl, rfl, rfl⟩
    obtain ⟨hphase, hcancelled, hoverdue⟩ := hsame
    exact ⟨rfl, .stays (emitted_read state)
      (hstate.of_same hphase (fun h => hcancelled.trans h) fun h => hoverdue.trans h)⟩
  | cancels => exact ⟨rfl, .stays rfl (hstate.of_same rfl (fun _ => rfl) id)⟩
  | @passes clock hclock =>
    have hoverdue : state.isOverdue = true → State.isOverdue { state with clock } = true := by
      unfold State.isOverdue
      cases state.deadline with
      | none => exact id
      | some time =>
        intro htime
        exact decide_eq_true (Nat.le_trans (of_decide_eq_true htime) hclock)
    exact ⟨rfl, .stays rfl (hstate.of_same rfl id hoverdue)⟩
  | attends => exact ⟨rfl, .stays rfl (hstate.of_same rfl id id)⟩

end

/-! ## Safety -/

end Stream

end StepScript
