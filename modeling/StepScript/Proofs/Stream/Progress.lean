import StepScript.Proofs.Run.Collected
import StepScript.Proofs.Stream.Accounting

/-!
# Progress of streamed runs

A streamed run that is neither cancelled nor limited in time is on its way to the outcome of the
collected run. Its way has a length: every look at a run that can go on makes it shorter, so that a
consumer who waits for a result gets it or learns that there is none.
-/

namespace StepScript

variable {B : Backend}

/-- How often a run is concerned with a signal. It comes back to a sleep that lasts. -/
def Signal.weight : Signal → Nat
  | .sleep millis => if millis = 0 then 1 else 2
  | .dispatch _ | .stepAside | .emit _ => 1

namespace Stream

/-! ## The way to an outcome -/

/-- A course that nobody cuts short leads to an outcome, on a way of some length and with some
results. -/
inductive Course.Completes (setup : Setup B) (outcome : Outcome B) :
    Course B → Nat → List ActionResult → Prop where
  | ended : Completes setup outcome ⟨[], .ended outcome.error outcome.context⟩ 1 []
  | move {machine : Machine.State B} {length : Nat} {results : List ActionResult}
      (h : Completes setup outcome
        ⟨(Machine.advance setup machine).moments, (Machine.advance setup machine).next⟩ length
        results) :
      Completes setup outcome ⟨[], .resume machine⟩ (length + 1) results
  | moment {signal : Signal} {context : Context B} {moments : List (Moment B)}
      {next : Machine.Next B} {length : Nat} {results : List ActionResult}
      (hcalm : context.cancelled = false)
      (h : Completes setup outcome ⟨moments, next⟩ length results) :
      Completes setup outcome ⟨⟨signal, context⟩ :: moments, next⟩ (length + signal.weight)
        (signal.emitted?.toList ++ results)

theorem Course.Completes.prepend {setup : Setup B} {outcome : Outcome B}
    {next : Machine.Next B} {length : Nat} {results : List ActionResult}
    (h : Course.Completes setup outcome ⟨[], next⟩ length results) {moments : List (Moment B)}
    (hcalm : ∀ moment ∈ moments, moment.context.cancelled = false) :
    ∃ longer, Course.Completes setup outcome ⟨moments, next⟩ longer
      (emittedResults moments ++ results) := by
  induction moments with
  | nil => exact ⟨length, h⟩
  | cons moment moments ih =>
    obtain ⟨longer, hmoments⟩ := ih fun later hlater => hcalm later (List.mem_cons_of_mem _ hlater)
    refine ⟨longer + moment.signal.weight, ?_⟩
    have hmoment : Course.Completes setup outcome ⟨moment :: moments, next⟩
        (longer + moment.signal.weight)
        (moment.signal.emitted?.toList ++ (emittedResults moments ++ results)) :=
      .moment (hcalm moment (List.mem_cons_self ..)) hmoments
    have hresults : emittedResults (moment :: moments) =
        moment.signal.emitted?.toList ++ emittedResults moments := by
      cases hemitted : moment.signal.emitted? <;> simp [emittedResults, hemitted]
    rw [hresults, List.append_assoc]
    exact hmoment

/-- The course of a run whose trace ends. -/
theorem Course.completes_of_trace {setup : Setup B} {outcome : Outcome B} (n : Nat)
    {next : Machine.Next B} (hquiet : Machine.NeverCancelled setup next)
    (hend : (trace (Machine.proceed setup) n next).2 = .ended outcome.error outcome.context) :
    ∃ length, Course.Completes setup outcome ⟨[], next⟩ length
      (emittedResults (trace (Machine.proceed setup) n next).1) := by
  induction n generalizing next with
  | zero =>
    obtain rfl : next = .ended outcome.error outcome.context := hend
    exact ⟨1, .ended⟩
  | succ n ih =>
    cases next with
    | ended error context =>
      rw [Machine.trace_ended] at hend ⊢
      cases hend
      exact ⟨1, .ended⟩
    | resume machine =>
      rw [trace_succ] at hend ⊢
      obtain ⟨length, hlater⟩ := ih hquiet.proceed hend
      obtain ⟨longer, hmove⟩ := hlater.prepend hquiet.moments
      rw [emittedResults_append]
      exact ⟨longer + 1, .move hmove⟩

/-- How far it is to the end for a run that nobody cuts short. -/
inductive Phase.Completes (run : Run B) (outcome : Outcome B) :
    Phase B → Nat → List ActionResult → Prop where
  | idle {world : B.World} {length : Nat} {results : List ActionResult}
      (h : Course.Completes run.setup outcome ⟨[], run.start false world⟩ length results) :
      Completes run outcome (.idle world) length results
  | working {course : Course B} {length : Nat} {results : List ActionResult}
      (h : course.Completes run.setup outcome length results) :
      Completes run outcome (.working course) length results
  | pausing {time : Nat} {context : Context B} {course : Course B} {length : Nat}
      {results : List ActionResult} (hcalm : context.cancelled = false)
      (h : course.Completes run.setup outcome length results) :
      Completes run outcome (.pausing time context course) length results
  | blocked {result : ActionResult} {context : Context B} {course : Course B} {length : Nat}
      {results : List ActionResult} (hcalm : context.cancelled = false)
      (h : course.Completes run.setup outcome length results) :
      Completes run outcome (.blocked result context course) length results
  | ended : Completes run outcome (.ended outcome.error outcome.context) 0 []

/-- A run is on its way to an outcome. -/
structure State.Follows (run : Run B) (outcome : Outcome B) (length : Nat) (state : State B) :
    Prop where
  calm : state.cancelled = false
  unlimited : state.deadline = none
  ledger : state.Ledger state.phase.held
  completes : ∃ later, outcome.results.toList = state.emitted.toList ++ later ∧
    state.phase.Completes run outcome length later

section

variable {run : Run B} {outcome : Outcome B} {length : Nat} {state : State B}

theorem State.Follows.isCancelled_eq (h : state.Follows run outcome length) {context : Context B}
    (hwaiting : state.phase.waiting? = some context) : state.isCancelled context = false := by
  obtain ⟨later, -, hphase⟩ := h.completes
  simp only [State.isCancelled, h.calm, Bool.false_or]
  generalize state.phase = phase at hwaiting hphase
  cases hphase with
  | idle | working | ended => cases hwaiting
  | pausing hcalm | blocked hcalm =>
    cases hwaiting
    exact hcalm

theorem State.Follows.isOverdue_eq (h : state.Follows run outcome length) :
    state.isOverdue = false := by
  simp [State.isOverdue, h.unlimited]

/-- Neither the clock nor the turns matter. -/
theorem State.Follows.elsewhen (h : state.Follows run outcome length)
    (clock turn consumerTurn : Nat) :
    State.Follows run outcome length { state with clock, turn, consumerTurn } :=
  ⟨h.calm, h.unlimited, h.ledger, h.completes⟩

/-- A run that has emitted a result goes on if there is room for it, and waits otherwise. -/
theorem offer_follows {result : ActionResult} {context : Context B} {course : Course B}
    {later : List ActionResult} (hcancelled : state.cancelled = false)
    (hunlimited : state.deadline = none) (hledger : state.Ledger [result])
    (hresults : outcome.results.toList = state.emitted.toList ++ later)
    (hcalm : context.cancelled = false)
    (hcourse : course.Completes run.setup outcome length later) :
    (state.offer result context course).Follows run outcome length := by
  rcases offer_cases state result context course with ⟨-, -, hoffer⟩ | ⟨-, hoffer⟩
  · rw [hoffer]
    refine ⟨hcancelled, hunlimited, ?_, later, hresults, .working hcourse⟩
    simp only [State.Ledger, Phase.held, List.append_nil] at hledger ⊢
    rw [hledger, List.append_assoc]
  · rw [hoffer]
    exact ⟨hcancelled, hunlimited, hledger, later, hresults, .blocked hcalm hcourse⟩

/-- A run that sleeps comes closer to the end, if only its turn is not over. -/
theorem sleep_follows {millis : Nat} {context : Context B} {course : Course B}
    {later : List ActionResult} (hcancelled : state.cancelled = false)
    (hunlimited : state.deadline = none) (hledger : state.Ledger [])
    (hresults : outcome.results.toList = state.emitted.toList ++ later)
    (hcalm : context.cancelled = false)
    (hcourse : course.Completes run.setup outcome length later) :
    ∃ shorter, (state.sleep millis context course).Follows run outcome shorter ∧
      shorter ≤ length + (Signal.sleep millis).weight ∧
      (state.turn ≠ 0 → shorter < length + (Signal.sleep millis).weight) := by
  have hagain : ∀ millis, Course.Completes run.setup outcome
      { course with moments := ⟨.sleep millis, context⟩ :: course.moments }
      (length + (Signal.sleep millis).weight) later :=
    fun millis => .moment hcalm hcourse
  rcases sleep_cases state millis context course with
    ⟨hturn, hsleep⟩ | ⟨-, hmillis, hsleep⟩ | ⟨-, hmillis, hsleep⟩ <;> rw [hsleep]
  · exact ⟨_, ⟨hcancelled, hunlimited, hledger, later, hresults, .pausing hcalm (hagain millis)⟩,
      Nat.le_refl _, fun hrest => absurd hturn hrest⟩
  · exact ⟨length, ⟨hcancelled, hunlimited, hledger, later, hresults, .working hcourse⟩,
      by simp [Signal.weight, hmillis], by simp [Signal.weight, hmillis]⟩
  · -- the run comes back to the sleep when it has lasted
    exact ⟨_, ⟨hcancelled, hunlimited, hledger, later, hresults, .pausing hcalm (hagain 0)⟩,
      by simp [Signal.weight, hmillis], by simp [Signal.weight, hmillis]⟩

/-- A run that works comes closer to the end, if only its turn is not over. -/
theorem step_follows {course : Course B} (h : state.Follows run outcome length)
    (hphase : state.phase = .working course) :
    ∃ shorter, (state.step run.setup).Follows run outcome shorter ∧ shorter ≤ length ∧
      (state.turn ≠ 0 → shorter < length) := by
  obtain ⟨hcalm, hunlimited, hledger, later, hresults, hcompletes⟩ := h
  rw [hphase] at hcompletes hledger
  -- what is next in the course decides what the step does and how much shorter the way becomes
  cases hcompletes with
  | working hcourse =>
    cases hcourse with
    | ended =>
      simp only [State.step, hphase]
      exact ⟨0, ⟨hcalm, hunlimited, hledger, [], hresults, .ended⟩, by omega, by omega⟩
    | @move machine length _ hmove =>
      simp only [State.step, hphase]
      exact ⟨length, ⟨hcalm, hunlimited, hledger, later, hresults, .working hmove⟩, by omega,
        by omega⟩
    | @moment signal context moments next length later hcontext hmoments =>
      cases signal with
      | dispatch step =>
        simp only [State.step, hphase]
        exact ⟨length, ⟨hcalm, hunlimited, hledger, later, hresults, .working hmoments⟩,
          by simp [Signal.weight], by simp [Signal.weight]⟩
      | stepAside =>
        simp only [State.step, hphase]
        exact ⟨length, ⟨hcalm, hunlimited, hledger, later, hresults, .pausing hcontext hmoments⟩,
          by simp [Signal.weight], by simp [Signal.weight]⟩
      | emit result =>
        simp only [State.step, hphase]
        refine ⟨length, ?_, by simp [Signal.weight], by simp [Signal.weight]⟩
        refine offer_follows hcalm hunlimited ?_ ?_ hcontext hmoments
        · simp only [State.Ledger, Phase.held, List.append_nil] at hledger ⊢
          rw [Array.toList_push, hledger]
        · simpa [Signal.emitted?] using hresults
      | sleep millis =>
        simp only [State.step, hphase]
        exact sleep_follows hcalm hunlimited hledger hresults hcontext hmoments

/-! ## Single events -/

theorem wake_follows (h : state.Follows run outcome length) :
    state.wake.Follows run outcome length := by
  obtain ⟨hcalm, hunlimited, hledger, later, hresults, hcompletes⟩ := h
  cases hphase : state.phase with
  | pausing time context course =>
    rw [hphase] at hcompletes hledger
    cases hcompletes with
    | pausing hcontext hcourse =>
      simp only [State.wake, hphase]
      split
      · exact ⟨hcalm, hunlimited, hledger, later, hresults, .working hcourse⟩
      · exact ⟨hcalm, hunlimited, hphase ▸ hledger, later, hresults,
          hphase ▸ .pausing hcontext hcourse⟩
  | blocked result context course =>
    rw [hphase] at hcompletes hledger
    cases hcompletes with
    | blocked hcontext hcourse =>
      simp only [State.wake, hphase]
      exact offer_follows hcalm hunlimited hledger hresults hcontext hcourse
  | idle | working | ended =>
    simp only [State.wake, hphase]
    exact ⟨hcalm, hunlimited, hledger, later, hresults, hcompletes⟩

theorem begin_follows {world : B.World} (htimeout : run.settings.timeoutMillis = none)
    (h : state.Follows run outcome length) (hphase : state.phase = .idle world) :
    (state.begin run world).Follows run outcome length := by
  obtain ⟨hcalm, hunlimited, hledger, later, hresults, hcompletes⟩ := h
  rw [hphase] at hcompletes hledger
  cases hcompletes with
  | idle hcourse =>
    refine ⟨hcalm, ?_, hledger, later, hresults, ?_⟩
    · simp [State.begin, htimeout]
    · simp only [State.begin, hcalm]
      exact .working hcourse

/-- Nothing but a cancellation leads a run off its way. -/
theorem Event.follows {state' : State B} (hevent : Event run state state')
    (htimeout : run.settings.timeoutMillis = none) (h : state.Follows run outcome length)
    (hcalm' : state'.cancelled = false) :
    ∃ shorter ≤ length, state'.Follows run outcome shorter := by
  obtain ⟨hcalm, hunlimited, hledger, later, hresults, hcompletes⟩ := id h
  cases hevent with
  | begins hphase => exact ⟨length, Nat.le_refl _, begin_follows htimeout h hphase⟩
  | steps =>
    cases hphase : state.phase with
    | working course =>
      obtain ⟨shorter, hshorter, hle, -⟩ := step_follows h hphase
      exact ⟨shorter, hle, hshorter⟩
    | idle | pausing | blocked | ended =>
      simp only [State.step, hphase]
      exact ⟨length, Nat.le_refl _, h⟩
  | notices _ hcancelled =>
    rw [hcalm] at hcancelled
    cases hcancelled
  | wakes => exact ⟨length, Nat.le_refl _, wake_follows h⟩
  | stops hwaiting hcancelled =>
    rw [h.isCancelled_eq hwaiting] at hcancelled
    cases hcancelled
  | expires =>
    rw [State.expire, h.isOverdue_eq]
    exact ⟨length, Nat.le_refl _, h⟩
  | reads =>
    refine ⟨length, Nat.le_refl _, ?_⟩
    unfold State.read
    split
    · exact h
    · next result rest hqueue =>
      refine ⟨hcalm, hunlimited, ?_, later, hresults, hcompletes⟩
      simp only [State.Ledger] at hledger ⊢
      simp [hledger, hqueue]
  | cancels => cases hcalm'
  | passes | turns | attends =>
    exact ⟨length, Nat.le_refl _, h.elsewhen _ _ _⟩

theorem Reaches.follows {state' : State B} (hreaches : Reaches run state state')
    (htimeout : run.settings.timeoutMillis = none) (h : state.Follows run outcome length)
    (hcalm' : state'.cancelled = false) :
    ∃ shorter ≤ length, state'.Follows run outcome shorter := by
  induction hreaches with
  | refl => exact ⟨length, Nat.le_refl _, h⟩
  | @tail between last hbefore hevent ih =>
    -- who is not cancelled in the end never was
    have hbetween : between.cancelled = false := by
      by_contra hcancelled
      have hstays := hevent.cancelled_of_cancelled (by simpa using hcancelled)
      rw [hcalm'] at hstays
      cases hstays
    obtain ⟨shorter, hle, hfollows⟩ := ih hbetween
    obtain ⟨shortest, hle', hfollows'⟩ := hevent.follows htimeout hfollows hcalm'
    exact ⟨shortest, Nat.le_trans hle' hle, hfollows'⟩

/-! ## Polling -/

/-- A run that can go on works when it is looked at. -/
theorem resumed_follows (htimeout : run.settings.timeoutMillis = none)
    (h : state.Follows run outcome length) (hready : state.isReady = true)
    (hturn : state.turn = turnLength) :
    (state.resumed run).Follows run outcome length ∧
      (∃ course, (state.resumed run).phase = .working course) ∧
      (state.resumed run).turn ≠ 0 := by
  have hnonzero : turnLength ≠ 0 := by decide
  have hwake := wake_follows h
  cases hphase : state.phase with
  | idle world =>
    simp only [State.resumed, hphase]
    exact ⟨begin_follows htimeout h hphase, ⟨_, rfl⟩, hturn ▸ hnonzero⟩
  | working course =>
    simp only [State.resumed, hphase]
    exact ⟨h, ⟨course, rfl⟩, hturn ▸ hnonzero⟩
  | pausing time context course =>
    have hcalm : state.isCancelled context = false := h.isCancelled_eq (by rw [hphase]; rfl)
    have htime : time ≤ state.clock := by
      simpa [State.isReady, hphase, hcalm, h.isOverdue_eq] using hready
    simp only [State.resumed, hphase, hcalm, Bool.false_eq_true, if_false]
    simp only [State.wake, hphase, if_pos htime] at hwake ⊢
    exact ⟨hwake, ⟨course, rfl⟩, hturn ▸ hnonzero⟩
  | blocked result context course =>
    have hcalm : state.isCancelled context = false := h.isCancelled_eq (by rw [hphase]; rfl)
    have hroom : state.queue.length < capacity := by
      simpa [State.isReady, hphase, hcalm, h.isOverdue_eq] using hready
    simp only [State.resumed, hphase, hcalm, Bool.false_eq_true, if_false]
    simp only [State.wake, hphase] at hwake ⊢
    rcases offer_cases state result context course with ⟨-, -, hoffer⟩ | ⟨hclosed, -⟩
    · rw [hoffer] at hwake ⊢
      refine ⟨hwake, ⟨course, rfl⟩, ?_⟩
      have hleft : turnLength - 1 ≠ 0 := by decide
      exact hturn ▸ hleft
    · omega
  | ended error context =>
    simp [State.isReady, hphase] at hready

/-- Every look at a run that can go on makes its way shorter. -/
theorem poll_follows (htimeout : run.settings.timeoutMillis = none)
    (h : state.Follows run outcome length) (hready : state.isReady = true) (fuel : Nat) :
    ∃ shorter < length, (state.poll run (fuel + 1)).Follows run outcome shorter := by
  have hcalm : (state.poll run (fuel + 1)).cancelled = false :=
    (untouched_poll run _ state).cancelled.trans h.calm
  rw [poll_eq] at hcalm ⊢
  have hfresh : State.Follows run outcome length { state with turn := turnLength } :=
    h.elsewhen _ _ _
  obtain ⟨hresumed, ⟨course, hphase⟩, hturn⟩ := resumed_follows htimeout hfresh hready rfl
  generalize State.resumed run { state with turn := turnLength } = resumed at *
  obtain ⟨shorter, hstep, -, hlt⟩ := step_follows hresumed hphase
  -- the first step already makes the way shorter
  have hrest : Reaches run (resumed.step run.setup)
      ((resumed.work run.setup (fuel + 1)).expire run) := by
    simp only [State.work, hphase]
    exact (work_reaches fuel _).tail .expires
  obtain ⟨shortest, hle, hfollows⟩ := hrest.follows htimeout hstep hcalm
  exact ⟨shortest, Nat.lt_of_le_of_lt hle (hlt hturn), hfollows⟩

/-! ## Waiting -/

theorem await_of_reaches {goal : State.Goal} (hgoal : state.reaches goal = true)
    (work fuel : Nat) : state.await run work goal fuel = state := by
  cases fuel with
  | zero => rfl
  | succ fuel =>
    unfold State.await
    rw [if_pos hgoal]

/-- When neither the run nor the consumer can go on, there is a time at which one of them can. -/
theorem exists_nextTime {goal : State.Goal} (hfinish : goal ≠ .finish)
    (h : state.Follows run outcome length) (hgoal : state.reaches goal = false)
    (hready : state.isReady = false) :
    ∃ time, state.nextTime goal = some time ∧
      (State.isReady { state with clock := time } = true ∨
        State.reaches { state with clock := time } goal = true) := by
  have hunlimited := h.unlimited
  cases hphase : state.phase with
  | idle | working => simp [State.isReady, hphase] at hready
  | pausing wake context course =>
    have hrun : ∀ time, wake ≤ time → State.isReady
        { state with phase := .pausing wake context course, clock := time } = true := by
      intro time htime
      simp [State.isReady, htime]
    cases goal with
    | result =>
      exact ⟨wake, by simp [State.nextTime, hphase, hunlimited, State.earlier],
        .inl (hrun wake (Nat.le_refl _))⟩
    | finish => exact absurd rfl hfinish
    | time clock =>
      refine ⟨min wake clock,
        by simp [State.nextTime, State.hasEnded, hphase, hunlimited, State.earlier], ?_⟩
      by_cases hfirst : wake ≤ clock
      · exact .inl (hrun _ (by omega))
      · refine .inr ?_
        simp only [State.reaches, decide_eq_true_eq]
        omega
  | blocked result context course =>
    have hfull : capacity ≤ state.queue.length := by
      simp only [State.isReady, hphase, Bool.or_eq_false_iff, decide_eq_false_iff_not] at hready
      omega
    cases goal with
    | result =>
      have hempty : state.queue = [] := by simpa [State.reaches, State.hasEnded, hphase] using hgoal
      rw [hempty] at hfull
      cases hfull
    | finish => exact absurd rfl hfinish
    | time clock =>
      exact ⟨clock, by simp [State.nextTime, State.hasEnded, hphase, hunlimited, State.earlier],
        .inr (by simp [State.reaches])⟩
  | ended error context =>
    cases goal with
    | result | finish => simp [State.reaches, State.hasEnded, hphase] at hgoal
    | time clock =>
      exact ⟨clock, by simp [State.nextTime, State.hasEnded, hphase, State.earlier],
        .inr (by simp [State.reaches])⟩

/-- Whoever waits for a result or a point in time waits long enough: each look at the run makes its
way shorter, and the clock never jumps twice in a row. -/
theorem await_follows (htimeout : run.settings.timeoutMillis = none) {goal : State.Goal}
    (hfinish : goal ≠ .finish) (work : Nat) {fuel : Nat} (h : state.Follows run outcome length)
    (hfuel : 2 * length + (if state.isReady then 0 else 1) < fuel) :
    (state.await run (work + 1) goal fuel).reaches goal = true ∧
      ∃ shorter ≤ length, (state.await run (work + 1) goal fuel).Follows run outcome shorter := by
  -- the fuel bounds twice the length of the way, and one more if the clock has to jump first
  induction fuel generalizing state length with
  | zero => cases hfuel
  | succ fuel ih =>
    by_cases hgoal : state.reaches goal = true
    · rw [await_of_reaches hgoal]
      exact ⟨hgoal, length, Nat.le_refl _, h⟩
    · unfold State.await
      rw [if_neg hgoal]
      by_cases hready : state.isReady = true
      · rw [if_pos hready] at hfuel ⊢
        obtain ⟨shorter, hlt, hpoll⟩ := poll_follows htimeout h hready work
        obtain ⟨hreaches, shortest, hle, hfollows⟩ := ih hpoll (by split <;> omega)
        exact ⟨hreaches, shortest, by omega, hfollows⟩
      · rw [if_neg hready] at hfuel ⊢
        obtain ⟨time, htime, hnext⟩ :=
          exists_nextTime hfinish h (by simpa using hgoal) (by simpa using hready)
        have hjump : State.Follows run outcome length { state with clock := time } :=
          h.elsewhen _ _ _
        simp only [htime]
        rcases hnext with hready' | hgoal'
        · exact ih hjump (by rw [if_pos hready']; omega)
        · rw [await_of_reaches hgoal']
          exact ⟨hgoal', length, Nat.le_refl _, hjump⟩

theorem rested_follows (htimeout : run.settings.timeoutMillis = none)
    (h : state.Follows run outcome length) (work : Nat) :
    ∃ shorter ≤ length, (state.rested run (work + 1)).Follows run outcome shorter := by
  unfold State.rested
  split
  · unfold State.stepAside
    by_cases hready : state.isReady = true
    · rw [if_pos hready]
      obtain ⟨shorter, hlt, hpoll⟩ := poll_follows htimeout h hready work
      exact ⟨shorter, Nat.le_of_lt hlt, hpoll.elsewhen _ _ _⟩
    · rw [if_neg hready]
      exact ⟨length, Nat.le_refl _, h.elsewhen _ _ _⟩
  · exact ⟨length, Nat.le_refl _, h⟩

theorem attend_follows (htimeout : run.settings.timeoutMillis = none) {goal : State.Goal}
    (hfinish : goal ≠ .finish) {fuel : Nat} (h : state.Follows run outcome length)
    (hfuel : 2 * length + 1 < fuel) :
    (state.attend run fuel goal).reaches goal = true ∧
      ∃ shorter ≤ length, (state.attend run fuel goal).Follows run outcome shorter := by
  obtain ⟨work, rfl⟩ : ∃ work, fuel = work + 1 := ⟨fuel - 1, by omega⟩
  obtain ⟨shorter, hle, hrested⟩ := rested_follows htimeout h work
  rw [attend_eq]
  by_cases hgoal : (state.rested run (work + 1)).reaches goal = true
  · rw [if_pos hgoal]
    refine ⟨?_, shorter, hle, hrested.elsewhen _ _ _⟩
    cases goal <;> exact hgoal
  · rw [if_neg hgoal]
    have henough : 2 * shorter + (if (state.rested run (work + 1)).isReady then 0 else 1) <
        work + 1 := by
      split <;> omega
    obtain ⟨hreaches, shortest, hle', hwaited⟩ :=
      await_follows htimeout hfinish work hrested henough
    refine ⟨?_, shortest, Nat.le_trans hle' hle, hwaited.elsewhen _ _ _⟩
    cases goal <;> exact hreaches

end

end Stream

end StepScript
