import StepScript.Proofs.Run.Replay
import StepScript.Proofs.Stream.Events
import StepScript.Rehearsal.Browser

/-!
# Replaying the results of a streamed run

What a collected run records, a streamed run emits. Its results tell its parameters at any time, also
one that still waits for room when the run is cut short.
-/

namespace StepScript

variable {B : Backend}

namespace Stream

/-- What is left of a move tells what happens to the parameters. -/
structure Course.Tells (params : Parameters) (course : Course B) : Prop where
  tells : StepScript.Tells params course.moments course.next
  guarded : course.next.IsGuarded

/-- Whatever a run is doing, its parameters are those that are told. -/
inductive Phase.Tells (params : Parameters) : Phase B → Prop where
  | idle {world : B.World} (hparams : params = .empty) : Phase.Tells params (.idle world)
  | working {course : Course B} (hcourse : course.Tells params) : Phase.Tells params (.working course)
  | pausing {wake : Nat} {context : Context B} {course : Course B}
      (hcontext : context.params = params) (hcourse : course.Tells params) :
      Phase.Tells params (.pausing wake context course)
  | blocked {result : ActionResult} {context : Context B} {course : Course B}
      (hcontext : context.params = params) (hcourse : course.Tells params) :
      Phase.Tells params (.blocked result context course)
  | ended {error : Option RunError} {context : Context B} (hcontext : context.params = params) :
      Phase.Tells params (.ended error context)

/-- The parameters of a run are those that its results tell. -/
def State.Tells (state : State B) : Prop := state.phase.Tells (replay state.emitted.toList)

section

variable {run : Run B} {state state' : State B}

theorem offer_tells {result : ActionResult} {context : Context B} {course : Course B}
    (hcontext : context.params = replay state.emitted.toList)
    (hcourse : course.Tells (replay state.emitted.toList)) :
    (state.offer result context course).Tells := by
  rcases offer_cases state result context course with ⟨-, -, hoffer⟩ | ⟨-, hoffer⟩ <;> rw [hoffer]
  · exact .working hcourse
  · exact .blocked hcontext hcourse

theorem sleep_tells {millis : Nat} {context : Context B} {course : Course B}
    (hcontext : context.params = replay state.emitted.toList)
    (hcourse : course.Tells (replay state.emitted.toList)) :
    (state.sleep millis context course).Tells := by
  have hagain : ∀ millis, Course.Tells (replay state.emitted.toList)
      { course with moments := ⟨.sleep millis, context⟩ :: course.moments } :=
    fun millis => ⟨⟨hcontext, hcourse.tells⟩, hcourse.guarded⟩
  rcases sleep_cases state millis context course with ⟨-, hsleep⟩ | ⟨-, -, hsleep⟩ | ⟨-, -, hsleep⟩ <;>
    rw [hsleep]
  · exact .pausing hcontext (hagain _)
  · exact .working hcourse
  · exact .pausing hcontext (hagain _)

theorem step_tells_moment {moment : Moment B} {moments : List (Moment B)} {next : Machine.Next B}
    {setup : Setup B} (hphase : state.phase = .working ⟨moment :: moments, next⟩)
    (hcourse : Course.Tells (replay state.emitted.toList) ⟨moment :: moments, next⟩) :
    (state.step setup).Tells := by
  obtain ⟨⟨hcontext, hrest⟩, hguarded⟩ := hcourse
  obtain ⟨signal, context⟩ := moment
  simp only [State.step, hphase]
  cases signal with
  | dispatch step => exact .working ⟨hrest, hguarded⟩
  | sleep millis => exact sleep_tells hcontext ⟨hrest, hguarded⟩
  | stepAside => exact .pausing hcontext ⟨hrest, hguarded⟩
  | emit result =>
    -- from now on the result counts, whether there is room for it or not
    have hreplay : replay (state.emitted.push result).toList =
        (replay state.emitted.toList).see (.emit result) := by
      rw [Array.toList_push, replay_concat]
      rfl
    refine offer_tells ?_ ⟨?_, hguarded⟩ <;> rw [hreplay]
    · exact hcontext
    · exact hrest

theorem step_tells (hbooks : run.setup.KeepsBooks) (h : state.Tells) :
    (state.step run.setup).Tells := by
  cases hphase : state.phase with
  | working course =>
    rw [State.Tells, hphase] at h
    obtain ⟨moments, next⟩ := course
    cases h with
    | working hcourse =>
      cases moments with
      | nil =>
        obtain ⟨htells, hguarded⟩ := hcourse
        simp only [State.step, hphase]
        cases next with
        | ended error context => exact .ended htells
        | resume machine =>
          have hparams : machine.context.params = replay state.emitted.toList := htells
          exact .working ⟨hparams ▸ Machine.advance_tells hbooks hguarded,
            Machine.guarded_advance hguarded⟩
      | cons moment moments => exact step_tells_moment hphase hcourse
  | idle | pausing | blocked | ended =>
    simp only [State.step, hphase]
    exact h

theorem wake_tells (h : state.Tells) : state.wake.Tells := by
  cases hphase : state.phase with
  | pausing time context course =>
    simp only [State.wake, hphase]
    split
    · rw [State.Tells, hphase] at h
      cases h with
      | pausing _ hcourse => exact .working hcourse
    · exact h
  | blocked result context course =>
    simp only [State.wake, hphase]
    rw [State.Tells, hphase] at h
    cases h with
    | blocked hcontext hcourse => exact offer_tells hcontext hcourse
  | idle | working | ended =>
    simp only [State.wake, hphase]
    exact h

theorem stop_tells (error : RunError) (h : state.Tells) : (state.stop error).Tells := by
  cases hphase : state.phase with
  | pausing time context course =>
    simp only [State.stop, hphase]
    rw [State.Tells, hphase] at h
    cases h with
    | pausing hcontext => exact .ended hcontext
  | blocked result context course =>
    simp only [State.stop, hphase]
    rw [State.Tells, hphase] at h
    cases h with
    | blocked hcontext => exact .ended hcontext
  | idle | working | ended =>
    simp only [State.stop, hphase]
    exact h

/-- Whatever happens next, the results go on telling the parameters. -/
theorem Event.tells (hevent : Event run state state') (hbooks : run.setup.KeepsBooks)
    (h : state.Tells) : state'.Tells := by
  cases hevent with
  | @begins world hphase =>
    rw [State.Tells, hphase] at h
    cases h with
    | idle hparams =>
      refine .working ⟨?_, Run.start_isGuarded run _ world⟩
      exact (Run.start_params run _ world).trans hparams.symm
  | steps => exact step_tells hbooks h
  | notices hphase _ =>
    rw [State.Tells, hphase] at h
    cases h with
    | working hcourse => exact .working ⟨hcourse.tells, hcourse.guarded⟩
  | wakes => exact wake_tells h
  | stops => exact stop_tells _ h
  | expires =>
    unfold State.expire
    split
    · exact stop_tells _ h
    · exact h
  | reads =>
    unfold State.read
    split <;> exact h
  | cancels | passes | turns | attends => exact h

theorem Reaches.tells {cancelled : Bool} {world : B.World} (hbooks : run.setup.KeepsBooks)
    (h : Reaches run (.start cancelled world) state) : state.Tells := by
  induction h with
  | refl => exact .idle rfl
  | tail _ hevent ih => exact hevent.tells hbooks ih

theorem State.Tells.joined {joined : Joined} (h : state.Tells) (hjoined : state.joined? = some joined) :
    joined.params = replay state.emitted.toList := by
  unfold State.joined? at hjoined
  split at hjoined
  · next error context hphase =>
    cases hjoined
    rw [State.Tells, hphase] at h
    cases h with
    | ended hcontext => exact hcontext
  · cases hjoined

/-- With the built-in actions and no interceptors, the results of a run are a complete journal of its
parameters, however it ends. -/
theorem journal_complete (hregistry : run.registry = .control ∨ run.registry = .standard)
    (hinterceptors : run.interceptors = []) (cancelled : Bool) (world : B.World) :
    (∀ turn outcome, run.Yields cancelled world turn outcome →
      outcome.params = replay outcome.results.toList) ∧
    ∀ state joined, Reaches run (.start cancelled world) state → state.joined? = some joined →
      joined.params = replay state.emitted.toList := by
  have hbooks : run.setup.KeepsBooks := Setup.keepsBooks_of_builtin hregistry hinterceptors
  exact ⟨fun turn outcome h => h.params_eq_replay hbooks,
    fun state joined h hjoined => (h.tells hbooks).joined hjoined⟩

end

/-- A run that stores two parameters in every round of a loop without end. -/
def counting : Run Rehearsal.backend :=
  { script :=
      { name := "counting"
        steps :=
          [⟨"forever", none, .whileGuard "true"⟩, .putText "count" "number" "$\x7bnumber\x7d1",
            .putText "greet" "greeting" "hello"] }
    registry := .control
    settings := { pollMillis := 1, timeoutMillis := some 40 } }

/-- Nobody reads the results, so that the streamed run stops with one that waits for room. -/
theorem counting_params :
    (∃ outcome, counting.collect 300 false {} = some outcome ∧
      outcome.error = some (.timedOut 40) ∧ outcome.params = replay outcome.results.toList) ∧
    ∃ state joined, Reaches counting (.start false {}) state ∧ state.joined? = some joined ∧
      state.queue.length = capacity ∧ joined.emitted = capacity + 1 ∧
      joined.params = replay state.emitted.toList := by
  obtain ⟨hcollected, hstreamed⟩ :=
    journal_complete (show counting.registry = .control ∨ counting.registry = .standard from .inl rfl)
      rfl false {}
  constructor
  · have herror : (counting.collect 300 false {}).map (·.error) = some (some (.timedOut 40)) := by
      decide +kernel
    obtain ⟨outcome, hcollect, herror⟩ := Option.map_eq_some_iff.1 herror
    exact ⟨outcome, hcollect, herror,
      hcollected turnLength outcome (Run.yields_of_collect hcollect)⟩
  · let last := (performAll counting 300 [.sleep 50] (.start false {})).2
    have hlast : Reaches counting (.start false {}) last := performAll_reaches 300 _ _
    have hemitted : last.joined?.map (·.emitted) = some (capacity + 1) := by decide +kernel
    obtain ⟨joined, hjoined, hemitted⟩ := Option.map_eq_some_iff.1 hemitted
    exact ⟨last, joined, hlast, hjoined, by decide +kernel, hemitted,
      hstreamed last joined hlast hjoined⟩

end Stream

end StepScript
