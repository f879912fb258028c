import StepScript.Proofs.Action.Logs
import StepScript.Proofs.Run.Masks
import StepScript.Proofs.Run.Uncut
import StepScript.Proofs.Run.Walks

/-!
# Recording interceptors

An interceptor that notes what goes in and what comes back, and passes on both as they are, changes
nothing but the log. The notes of several such interceptors nest around the events of each dispatch,
the first interceptor outermost.
-/

namespace StepScript

variable {B : Backend} {E : Type}

namespace EventLog

variable (log : EventLog B E)

def note (events : List E) : Act B Unit :=
  Act.update fun context => log.write context (log.read context ++ events)

/-- A log can be hidden. -/
theorem isMask_erase : Context.IsMask log.erase := ⟨fun _ => rfl, fun _ _ => rfl⟩

end EventLog

/-! ## Recorders -/

/-- What an interceptor notes before a step goes on, and when something has come back. -/
structure Recorder (E : Type) where
  before : Step → List E
  after : Step → Except ActionError ActionResult → List E

namespace Recorder

/-- The interceptor that makes the notes. It passes on the step as it is, and hands back what came
back. -/
def interceptor (log : EventLog B E) (recorder : Recorder E) : Interceptor B := fun step next => do
  log.note (recorder.before step)
  let outcome ← ExceptT.lift (next step).run
  log.note (recorder.after step outcome)
  Act.ofExcept outcome

/-- What interceptors note before a step, the outermost first. -/
def allBefore (recorders : List (Recorder E)) (step : Step) : List E :=
  recorders.flatMap (·.before step)

/-- What interceptors note after a step, the innermost first. -/
def allAfter (recorders : List (Recorder E)) (step : Step)
    (outcome : Except ActionError ActionResult) : List E :=
  recorders.reverse.flatMap (·.after step outcome)

theorem allBefore_cons (recorder : Recorder E) (recorders : List (Recorder E)) (step : Step) :
    allBefore (recorder :: recorders) step = recorder.before step ++ allBefore recorders step :=
  List.flatMap_cons

theorem allAfter_cons (recorder : Recorder E) (recorders : List (Recorder E)) (step : Step)
    (outcome : Except ActionError ActionResult) :
    allAfter (recorder :: recorders) step outcome =
      allAfter recorders step outcome ++ recorder.after step outcome := by
  rw [allAfter, List.reverse_cons, List.flatMap_append, List.flatMap_singleton, allAfter]

/-- An interceptor that makes notes is seen in the log only. -/
theorem run_interceptor (log : EventLog B E) (recorder : Recorder E) (step : Step)
    (next : Step → Act B ActionResult) (context : Context B) :
    (recorder.interceptor log step next).run.run context =
      let trace := (next step).run.run
        (log.write context (log.read context ++ recorder.before step))
      ⟨trace.pauses, trace.value,
        log.write trace.state (log.read trace.state ++ recorder.after step trace.value)⟩ := by
  change Activity.Trace.mk ([] ++ (_ ++ [] ++ ([] ++ []))) _ _ = _
  simp only [List.nil_append, List.append_nil]
  rfl

variable {log : EventLog B E} {innermost : Step → Act B ActionResult}

/-- The way of a step through recording interceptors, compared to its way without them and with an
empty log. -/
theorem run_intercepted (recorders : List (Recorder E)) {step : Step}
    (h : log.OnlyAppends (innermost step)) (context : Context B) :
    (intercepted innermost (recorders.map (·.interceptor log)) step).run.run context =
      let trace := (innermost step).run.run (log.erase context)
      ⟨trace.pauses.map fun pause =>
          ⟨pause.millis, log.behind (log.read context ++ allBefore recorders step) pause.state⟩,
        trace.value,
        log.write trace.state (log.read context ++ (allBefore recorders step ++
          (log.read trace.state ++ allAfter recorders step trace.value)))⟩ := by
  induction recorders generalizing context with
  | nil =>
    have hbehind := h (log.read context) (log.erase context)
    rw [log.behind_erase, log.write_read] at hbehind
    have hvalue : Except.map id ((innermost step).run.run (log.erase context)).value =
        ((innermost step).run.run (log.erase context)).value := congrFun Except.map_id _
    change (innermost step).run.run context = _
    rw [hbehind]
    simp only [Activity.Trace.map, hvalue, allBefore, allAfter, List.flatMap_nil, List.reverse_nil,
      List.append_nil, List.nil_append]
    rfl
  | cons recorder recorders ih =>
    have hinner := ih (log.write context (log.read context ++ recorder.before step))
    simp only [log.read_write, log.erase_write] at hinner
    change (recorder.interceptor log step _).run.run context = _
    rw [run_interceptor]
    simp only [hinner, allBefore_cons, allAfter_cons, log.read_write, log.write_write,
      List.append_assoc]

end Recorder

/-! ## Dispatches -/

/-- A dispatch: the step, what came back from the action, and the events in between. -/
structure Passage (E : Type) where
  step : Step
  outcome : Except ActionError ActionResult
  events : List E

/-- The events of a dispatch with the notes of recording interceptors around them. -/
def Passage.recorded (recorders : List (Recorder E)) (passage : Passage E) : List E :=
  Recorder.allBefore recorders passage.step ++
    (passage.events ++ Recorder.allAfter recorders passage.step passage.outcome)

theorem Passage.recorded_nil (passage : Passage E) : passage.recorded [] = passage.events :=
  List.append_nil _

namespace EventLog

variable (log : EventLog B E) (registry : Registry B)

/-- The dispatch of a step in a context, without interceptors. -/
def passage (step : Step) (context : Context B) : Passage E :=
  let trace := (carryOut registry step).run.run (log.erase context)
  ⟨step, trace.value, log.read trace.state⟩

/-- The dispatches among some moments. -/
def passages (moments : List (Moment B)) : List (Passage E) :=
  moments.filterMap fun moment =>
    moment.signal.dispatched?.map (log.passage registry · moment.context)

theorem passages_append (first second : List (Moment B)) :
    log.passages registry (first ++ second) =
      log.passages registry first ++ log.passages registry second :=
  List.filterMap_append

theorem passages_eq_nil {moments : List (Moment B)}
    (h : ∀ moment ∈ moments, moment.signal.dispatched? = none) :
    log.passages registry moments = [] := by
  refine List.filterMap_eq_nil_iff.2 fun moment hmoment => ?_
  rw [h moment hmoment, Option.map_none]

/-- There is one for each step that is dispatched. -/
theorem map_step_passages (moments : List (Moment B)) :
    (log.passages registry moments).map (·.step) = dispatchedSteps moments := by
  rw [passages, List.map_filterMap, dispatchedSteps]
  congr 1
  funext moment
  cases moment.signal.dispatched? <;> rfl

/-- What stands in the log does not matter for them. -/
theorem passages_masked (moments : List (Moment B)) :
    log.passages registry (moments.map (Moment.masked log.erase)) =
      log.passages registry moments := by
  rw [passages, List.filterMap_map, passages]
  congr 1
  funext moment
  simp only [Function.comp, Moment.masked, passage, erase, write_write]

end EventLog

/-- The actions of a setup only append to a log, and its interceptors record. -/
structure Setup.RecordsWith (setup : Setup B) (log : EventLog B E) (recorders : List (Recorder E)) :
    Prop where
  registry : setup.registry.OnlyAppends log
  interceptors : setup.interceptors = recorders.map (·.interceptor log)

namespace Setup.RecordsWith

variable {setup setup' : Setup B} {log : EventLog B E} {recorders recorders' : List (Recorder E)}

theorem trip_eq (h : setup.RecordsWith log recorders) (step : Step) (context : Context B) :
    trip setup step context =
      let trace := (carryOut setup.registry step).run.run (log.erase context)
      ⟨trace.pauses.map fun pause => ⟨pause.millis,
          log.behind (log.read context ++ Recorder.allBefore recorders step) pause.state⟩,
        trace.value,
        log.write trace.state
          (log.read context ++ (log.passage setup.registry step context).recorded recorders)⟩ := by
  rw [trip, h.interceptors, Recorder.run_intercepted recorders (h.registry.carryOut step)]
  rfl

/-- Setups that differ in what they record look the same without the log. -/
theorem looksLike (h : setup.RecordsWith log recorders) (h' : setup'.RecordsWith log recorders')
    (hregistry : setup.registry = setup'.registry) (hpoll : setup.pollMillis = setup'.pollMillis) :
    Setup.LooksLike log.erase setup setup' := by
  refine ⟨hregistry, hpoll, fun step context context' hcontext => ?_⟩
  rw [h.trip_eq, h'.trip_eq, ← hregistry, hcontext]
  simp only [Activity.Trace.map, List.map_map, Function.comp_def, log.erase_behind, log.erase_write]

/-- What a dispatch leaves in the log. -/
theorem read_afterTrip (h : setup.RecordsWith log recorders) (step : Step) (context : Context B) :
    log.read (afterTrip setup step context) =
      log.read context ++ (log.passage setup.registry step context).recorded recorders := by
  obtain ⟨cancelled, hafter⟩ := seePauses_after context (trip setup step context).state
    (trip setup step context).pauses
  have hread : log.read (afterTrip setup step context) =
      log.read (trip setup step context).state := by
    rw [afterTrip, hafter]
    rfl
  rw [hread, h.trip_eq]
  exact log.read_write _ _

/-- The dispatches among some moments, with the notes around their events, are what the log grows
by. -/
def Grows (setup : Setup B) (log : EventLog B E) (recorders : List (Recorder E))
    (before : Context B) (moments : List (Moment B)) (after : Context B) : Prop :=
  log.read after =
    log.read before ++ (log.passages setup.registry moments).flatMap (·.recorded recorders)

theorem grows_nothing {context : Context B} {moments : List (Moment B)}
    (h : ∀ moment ∈ moments, moment.signal.dispatched? = none) :
    Grows setup log recorders context moments context := by
  rw [Grows, log.passages_eq_nil _ h, List.flatMap_nil, List.append_nil]

theorem Grows.trans {first second third : Context B} {moments later : List (Moment B)}
    (h : Grows setup log recorders first moments second)
    (h' : Grows setup log recorders second later third) :
    Grows setup log recorders first (moments ++ later) third := by
  unfold Grows at h h' ⊢
  rw [h', h, log.passages_append, List.flatMap_append, List.append_assoc]

theorem dispatched?_of_mem_shown {context : Context B} {results : List ActionResult}
    {moment : Moment B} (h : moment ∈ shown context results) : moment.signal.dispatched? = none := by
  obtain ⟨result, -, rfl⟩ := List.mem_map.1 h
  rfl

/-- A dispatch with the results that are handed out after it. -/
theorem grows_dispatch (h : setup.RecordsWith log recorders) (step : Step) (context : Context B)
    (results : List ActionResult) :
    Grows setup log recorders context
      (⟨.dispatch step, context⟩ :: tripPauses setup step context ++
        shown (afterTrip setup step context) results)
      (afterTrip setup step context) := by
  have hquiet : ∀ moment ∈ tripPauses setup step context ++
      shown (afterTrip setup step context) results, moment.signal.dispatched? = none := by
    intro moment hmoment
    rcases List.mem_append.1 hmoment with hpause | hshown
    · exact Collect.dispatched?_of_isPause (isPause_of_mem_tripPauses hpause)
    · exact dispatched?_of_mem_shown hshown
  have hpassages : log.passages setup.registry (⟨.dispatch step, context⟩ ::
      (tripPauses setup step context ++ shown (afterTrip setup step context) results)) =
        log.passage setup.registry step context :: [] :=
    congrArg (log.passage setup.registry step context :: ·)
      (log.passages_eq_nil setup.registry hquiet)
  rw [Grows, List.cons_append, hpassages, List.flatMap_singleton, h.read_afterTrip]

/-- Every move is a dispatch, or the log stays as it is. -/
theorem grows_advance (h : setup.RecordsWith log recorders) (state : Machine.State B) :
    Grows setup log recorders state.context (Machine.advance setup state).moments
      (Machine.advance setup state).next.context := by
  have hmove := Machine.advance_moves setup state
  generalize Machine.advance setup state = move at hmove ⊢
  cases hmove with
  | silent _ hpauses hcontext _ =>
    rw [hcontext]
    exact grows_nothing fun moment hmoment =>
      Collect.dispatched?_of_isPause (hpauses moment hmoment).1
  | unsupported => exact grows_nothing (List.forall_mem_nil _)
  | succeeds => exact h.grows_dispatch _ _ _
  | fails => exact h.grows_dispatch _ _ _

/-- The log after some moves. -/
theorem grows_trace (h : setup.RecordsWith log recorders) (n : Nat) (next : Machine.Next B) :
    Grows setup log recorders next.context (trace (Machine.proceed setup) n next).1
      (trace (Machine.proceed setup) n next).2.context := by
  induction n generalizing next with
  | zero => exact grows_nothing (List.forall_mem_nil _)
  | succ n ih =>
    cases next with
    | ended error context =>
      rw [Machine.trace_ended]
      exact grows_nothing (List.forall_mem_nil _)
    | resume state =>
      rw [trace_succ]
      exact (h.grows_advance state).trans (ih _)

end Setup.RecordsWith

/-! ## Rehearsals -/

namespace Rehearsal

def recorder (label : String) : Recorder String where
  before step := [label ++ "-before " ++ step.type.name ++ " " ++ step.name]
  after _ outcome := [afterEvent label outcome]

theorem World.log_eq (world : World) (event : String) :
    world.log event = { world with events := (world.events.toList ++ [event]).toArray } := by
  rw [← Array.toList_push, Array.toArray_toList, World.log]

theorem logEvent_eq_note (event : String) : logEvent event = eventLog.note [event] := by
  refine congrArg Act.update (funext fun context => ?_)
  rw [World.log_eq context.world event]
  rfl

/-- A recording layer of a rehearsal is an interceptor that makes notes. -/
theorem interceptor_record (label : String) :
    ({ kind := .record label } : Layer).interceptor = (recorder label).interceptor eventLog := by
  funext step next
  change LayerKind.run (.record label) step next = _
  simp only [LayerKind.run, logEvent_eq_note]
  rfl

end Rehearsal

/-! ## Runs -/

def Run.bare (run : Run B) : Run B := { run with interceptors := [] }

/-- The run with interceptors that record, and no others. -/
def Run.recorded (run : Run B) (log : EventLog B E) (recorders : List (Recorder E)) : Run B :=
  { run with interceptors := recorders.map (·.interceptor log) }

namespace Run

variable {run : Run B} {log : EventLog B E}

theorem read_start (run : Run B) (log : EventLog B E) (cancelled : Bool) (world : B.World) :
    log.read (run.start cancelled world).context = log.events world := by
  rw [start, Machine.start]
  split
  · rfl
  · split <;> rfl

section

variable (h : run.registry.OnlyAppends log) (recorders : List (Recorder E))

include h

theorem recordsWith_recorded : (run.recorded log recorders).setup.RecordsWith log recorders :=
  ⟨h, rfl⟩

theorem recordsWith_bare : run.bare.setup.RecordsWith log [] := ⟨h, rfl⟩

theorem recorded_looksLike_bare :
    Setup.LooksLike log.erase (run.recorded log recorders).setup run.bare.setup :=
  (recordsWith_recorded h recorders).looksLike (recordsWith_bare h) rfl rfl

variable {recorders} {fuel turn : Nat} {cancelled : Bool} {world : B.World} {outcome : Outcome B}

/-- The log of a run that ends by itself, with the moves that it has made. -/
theorem exists_trace_of_collect
    (hcollect : (run.recorded log recorders).collect fuel cancelled world turn = some outcome)
    (huncut : outcome.IsUncut) :
    ∃ n moments, trace (Machine.proceed (run.recorded log recorders).setup) n
        (run.start cancelled world) = (moments, .ended outcome.error outcome.context) ∧
      outcome.dispatches.toList.map Prod.snd = dispatchedSteps moments ∧
      log.read outcome.context =
        log.events world ++ (log.passages run.registry moments).flatMap (·.recorded recorders) := by
  obtain ⟨n, moments, htrace, ⟨hsteps, -⟩, -, -⟩ := collect_uncut hcollect huncut
  have hgrows := (recordsWith_recorded h recorders).grows_trace n
    ((run.recorded log recorders).start cancelled world)
  rw [htrace] at hgrows
  refine ⟨n, moments, htrace, hsteps, ?_⟩
  rw [← run.read_start log cancelled world]
  exact hgrows

end

/-- Interceptors that record change nothing but the log, if the actions only append to it: with them
and without interceptors a run has the same outcome, whatever stands in the log. If it ends by
itself, the log of the run without interceptors consists of the events of its dispatches. With
interceptors the events of each dispatch stand between the notes that are made before it, the first
interceptor first, and those that are made after it, the first interceptor last. -/
theorem collect_recorded (h : run.registry.OnlyAppends log) (recorders : List (Recorder E))
    (fuel : Nat) (cancelled : Bool) (world : B.World) (turn : Nat) :
    ((run.recorded log recorders).collect fuel cancelled world turn).map (·.masked log.erase) =
        (run.bare.collect fuel cancelled world turn).map (·.masked log.erase) ∧
      ∀ plain outcome, run.bare.collect fuel cancelled world turn = some plain →
        (run.recorded log recorders).collect fuel cancelled world turn = some outcome →
        plain.IsUncut →
          ∃ n moments, trace (Machine.proceed run.bare.setup) n (run.start cancelled world) =
              (moments, .ended plain.error plain.context) ∧
            plain.dispatches.toList.map Prod.snd =
              (log.passages run.registry moments).map (·.step) ∧
            log.read plain.context =
              log.events world ++ (log.passages run.registry moments).flatMap (·.events) ∧
            log.read outcome.context = log.events world ++
              (log.passages run.registry moments).flatMap (·.recorded recorders) := by
  have halike := collect_alike log.isMask_erase (recorded_looksLike_bare h recorders) rfl rfl fuel
    cancelled world turn
  refine ⟨halike, fun plain outcome hplain houtcome huncut => ?_⟩
  obtain ⟨n, moments, htrace, hsteps, hread⟩ :=
    @exists_trace_of_collect _ _ run log h [] _ _ _ _ _ hplain huncut
  -- the run with interceptors ends by itself too, and its moves look the same
  rw [hplain, houtcome, Option.map_some, Option.map_some, Option.some.injEq] at halike
  have herror : outcome.error = plain.error := congrArg (fun masked => masked.error) halike
  have huncut' : outcome.IsUncut := by
    rw [Outcome.IsUncut, herror]
    exact huncut
  obtain ⟨n', moments', htrace', -, hread'⟩ := exists_trace_of_collect h houtcome huncut'
  obtain ⟨moments'', last, htrace'', hmoments⟩ := Machine.trace_ended_alike log.isMask_erase
    (recorded_looksLike_bare h recorders) rfl htrace'
  obtain ⟨rfl, -, -⟩ := trace_ended_unique htrace'' htrace
  have hpassages : log.passages run.registry moments' = log.passages run.registry moments'' := by
    rw [← log.passages_masked, hmoments, log.passages_masked]
  simp only [Passage.recorded_nil] at hread
  rw [hpassages] at hread'
  exact ⟨n, moments'', htrace, hsteps.trans (log.map_step_passages _ _).symm, hread, hread'⟩

section

open Rehearsal

/-- A run with a round of a loop, a guard that holds, and a step that fails. -/
def visit : Run backend :=
  { script :=
      { name := "visit"
        steps :=
          [.putText "start" "n" "0", { name := "again", instruction := .whileGuard "$\x7bn\x7d<1" },
            { name := "browser", instruction := .openBrowser },
            .putExpression "count" "n" "$\x7bn\x7d+1",
            { name := "done", instruction := .endWhile },
            { name := "check", instruction := .ifGuard "$\x7bn\x7d==1" },
            { name := "page", instruction := .openPage "fail:now" }] }
    registry := .standard }

/-- The run with two recording layers. -/
def recordedVisit : Run backend :=
  { visit with
    interceptors := [({ kind := .record "A" } : Layer).interceptor,
      ({ kind := .record "B" } : Layer).interceptor] }

/-- The notes of both layers stand around the events of all seven dispatches, also where the last one
fails. -/
theorem collect_recordedVisit : visit.registry.OnlyAppends eventLog ∧
    ∃ plain outcome, visit.bare.collect 60 false {} = some plain ∧
      recordedVisit.collect 60 false {} = some outcome ∧ plain.IsUncut ∧
      outcome.masked eventLog.erase = plain.masked eventLog.erase ∧
      plain.error = some (.actionExecution "page" "cannot navigate to fail:now") ∧
      ∃ passages : List (Passage String),
        passages.map (·.step.name) =
          ["start", "again", "browser", "count", "again", "check", "page"] ∧
        eventLog.read plain.context = passages.flatMap (·.events) ∧
        eventLog.read outcome.context =
          passages.flatMap (·.recorded [recorder "A", recorder "B"]) := by
  have hregistry : visit.registry.OnlyAppends eventLog :=
    onlyAppends_of_resolve fun _ _ haction => .inl (Registry.mem_builtins_of_standard haction)
  have hlayers : recordedVisit = visit.recorded eventLog [recorder "A", recorder "B"] := by
    simp only [recordedVisit, recorded, List.map_cons, List.map_nil, interceptor_record]
  have hrun : (visit.bare.collect 60 false {}).map (fun plain =>
      (plain.error, plain.dispatches.toList.map (·.2.name))) =
        some (some (.actionExecution "page" "cannot navigate to fail:now"),
          ["start", "again", "browser", "count", "again", "check", "page"]) := by
    decide +kernel
  obtain ⟨plain, hplain, hends⟩ := Option.map_eq_some_iff.1 hrun
  obtain ⟨herror, hnames⟩ := Prod.mk.inj hends
  have huncut : plain.IsUncut := by
    intro cause hcause
    rw [herror] at hcause
    cases hcause
    rfl
  obtain ⟨halike, hlogs⟩ := collect_recorded hregistry [recorder "A", recorder "B"] 60 false {}
    turnLength
  rw [hplain, Option.map_some] at halike
  obtain ⟨outcome, houtcome, hmasked⟩ := Option.map_eq_some_iff.1 halike
  obtain ⟨n, moments, -, hsteps, hread, hread'⟩ := hlogs plain outcome hplain houtcome huncut
  rw [hlayers]
  refine ⟨hregistry, plain, outcome, hplain, houtcome, huncut, hmasked, herror, _, ?_, hread, hread'⟩
  have hpassages := congrArg (List.map Step.name) hsteps
  rw [List.map_map, List.map_map] at hpassages
  exact hpassages.symm.trans hnames

end

end Run

end StepScript
