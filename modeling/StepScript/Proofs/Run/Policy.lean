import StepScript.Proofs.Run.Masks
import StepScript.Proofs.Run.TimeLimit
import StepScript.Proofs.Template.Policies
import StepScript.Rehearsal.Browser

/-!
# Runs under the two policies

A run under the strict policy and the same run under the lenient one go through the same positions
until a step is due with a placeholder for a parameter that is not set. There the strict run ends.
-/

namespace StepScript

variable {B : Backend}

/-! ## Under the lenient policy -/

/-- The context under the lenient policy. -/
def Context.lenient (context : Context B) : Context B := { context with policy := .lenient }

def Moment.lenient (moment : Moment B) : Moment B := ⟨moment.signal, moment.context.lenient⟩

def Dispatched.lenient (dispatched : Dispatched B) : Dispatched B :=
  ⟨dispatched.moments.map Moment.lenient, dispatched.outcome, dispatched.context.lenient⟩

namespace Machine

def State.lenient (state : State B) : State B := ⟨state.frames, state.context.lenient⟩

def Next.lenient : Next B → Next B
  | .resume state => .resume state.lenient
  | .ended error context => .ended error context.lenient

def Move.lenient (move : Move B) : Move B := ⟨move.moments.map Moment.lenient, move.next.lenient⟩

end Machine

def Outcome.lenient (outcome : Outcome B) : Outcome B :=
  { outcome with context := outcome.context.lenient }

def Position.lenient (position : Position B) : Position B :=
  ⟨position.state, position.moments.map Moment.lenient, position.next.lenient⟩

/-! ## Dispatches -/

def Registry.IgnoresPolicy (registry : Registry B) : Prop :=
  ∀ step action, registry.resolve step = some action →
    action.Mirrors (.refl B) (fun _ => .lenient) action

theorem Registry.ignoresPolicy_of_mem_builtins {registry : Registry B}
    (h : ∀ step action, registry.resolve step = some action → action ∈ builtins) :
    registry.IgnoresPolicy := by
  intro step action haction
  refine forall_mem_builtins
    (motive := fun action => action.Mirrors (.refl B) (fun _ => .lenient) action)
    ?_ ?_ ?_ ?_ ?_ ?_ ?_ ?_ action (h step action haction)
  · exact Action.mirrors_openBrowser
  · exact Action.mirrors_wait
  · exact Action.mirrors_openPage
  · exact Action.mirrors_putParam
  · exact Action.mirrors_guard _
  · exact Action.mirrors_guard _
  · exact Action.mirrors_inputText
  · exact Action.mirrors_closeBrowser

theorem Context.through_refl (context : Context B) :
    context.through (.refl B) (fun _ => .lenient) = context.lenient := by
  simp only [through, Backend.View.refl, Option.map_id_fun, id, lenient]

theorem perform_lenient {registry : Registry B} (h : registry.IgnoresPolicy) (expanded : Step)
    (context : Context B) : (perform registry expanded).run.run context.lenient =
      ((perform registry expanded).run.run context).map Context.lenient (Except.map id) := by
  have hlenient : (Context.lenient : Context B → Context B) =
      Context.through (.refl B) fun _ => .lenient :=
    funext fun context => (Context.through_refl context).symm
  rw [hlenient]
  unfold perform
  split
  · next action haction => exact h expanded action haction expanded context
  · rfl

/-- A step that can be expanded is carried out in the same way under the lenient policy. -/
theorem carryOut_lenient {registry : Registry B} (h : registry.IgnoresPolicy) {step expanded : Step}
    {context : Context B} (hexpand : step.expand context.params context.policy = .ok expanded) :
    (carryOut registry step).run.run context.lenient =
      ((carryOut registry step).run.run context).map Context.lenient (Except.map id) := by
  have hlenient : step.expand context.lenient.params context.lenient.policy = .ok expanded :=
    (step.expand_isStricter context.params context.policy).ok hexpand
  rw [carryOut_of_ok hlenient, carryOut_of_ok hexpand, perform_lenient h]

/-- The policy can be hidden. -/
theorem Context.isMask_lenient : Context.IsMask (Context.lenient : Context B → Context B) :=
  ⟨fun _ => rfl, fun _ _ => rfl⟩

/-- What is seen of pauses is the same under the lenient policy. -/
theorem seePauses_lenient (before last : Context B)
    (pauses : List (Activity.Pause (Context B))) :
    seePauses before.lenient (pauses.map fun pause => ⟨pause.millis, pause.state.lenient⟩)
        last.lenient =
      ((seePauses before pauses last).1.map Moment.lenient,
        (seePauses before pauses last).2.lenient) :=
  seePauses_masked Context.isMask_lenient before last pauses

/-- A setup in which the policy matters for nothing but the expansion of steps. -/
structure Setup.IgnoresPolicy (setup : Setup B) : Prop where
  registry : setup.registry.IgnoresPolicy
  interceptors : setup.interceptors = []

/-- The policy of the run lets a step through, if the step is sent at all. -/
def Setup.LetsThrough (setup : Setup B) (context : Context B) (step : Step) : Prop :=
  (setup.registry.resolve step).isSome →
    ∃ expanded, step.expand context.params context.policy = .ok expanded

variable {setup : Setup B}

theorem trip_lenient (h : setup.IgnoresPolicy) {step expanded : Step} {context : Context B}
    (hexpand : step.expand context.params context.policy = .ok expanded) :
    trip setup step context.lenient =
      (trip setup step context).map Context.lenient (Except.map id) := by
  unfold trip
  rw [h.interceptors]
  exact carryOut_lenient h.registry hexpand

/-- A step that is let through is dispatched in the same way under the lenient policy. -/
theorem dispatch_lenient (h : setup.IgnoresPolicy) {step : Step} {context : Context B}
    (hstep : setup.LetsThrough context step) :
    dispatch setup step context.lenient = (dispatch setup step context).lenient := by
  cases hresolve : setup.registry.resolve step with
  | none =>
    simp only [dispatch, hresolve]
    rfl
  | some action =>
    obtain ⟨expanded, hexpand⟩ := hstep (Option.isSome_of_eq_some hresolve)
    have htrip := trip_lenient h hexpand
    have hseen := seePauses_lenient context (trip setup step context).state
      (trip setup step context).pauses
    have hpauses : tripPauses setup step context.lenient =
        (tripPauses setup step context).map Moment.lenient := by
      rw [tripPauses, htrip]
      exact congrArg Prod.fst hseen
    have hafter : afterTrip setup step context.lenient = (afterTrip setup step context).lenient := by
      rw [afterTrip, htrip]
      exact congrArg Prod.snd hseen
    have hvalue : (trip setup step context.lenient).value = (trip setup step context).value := by
      rw [htrip]
      exact congrFun Except.map_id _
    rw [dispatch_of_resolve hresolve, dispatch_of_resolve hresolve, hpauses, hafter, hvalue]
    split
    · split
      · rfl
      · simp [Dispatched.lenient, Moment.lenient]
    · simp [Dispatched.lenient, Moment.lenient]

/-! ## Moves -/

namespace Machine

/-- Going on after a dispatch does not depend on the policy. -/
def Proceeds (proceed : List (Moment B) → ActionResult → Context B → Move B) : Prop :=
  ∀ moments result context, proceed (moments.map Moment.lenient) result context.lenient =
    (proceed moments result context).lenient

theorem proceeds_emitting (frames : ActionResult → List Frame) :
    Proceeds (emitting frames : List (Moment B) → ActionResult → Context B → Move B) := by
  intro moments result context
  simp [emitting, Move.lenient, Moment.lenient, Next.lenient, State.lenient]

theorem proceeds_silent (frames : ActionResult → List Frame) :
    Proceeds (silent frames : List (Moment B) → ActionResult → Context B → Move B) :=
  fun _ _ _ => rfl

theorem afterDispatch_lenient (h : setup.IgnoresPolicy) {step : Step} {context : Context B}
    (hstep : setup.LetsThrough context step)
    {proceed : List (Moment B) → ActionResult → Context B → Move B} (hproceed : Proceeds proceed) :
    afterDispatch setup step context.lenient proceed =
      (afterDispatch setup step context proceed).lenient := by
  simp only [afterDispatch, dispatch_lenient h hstep, Dispatched.lenient]
  split
  · exact hproceed _ _ _
  · rfl

theorem pauseBetween_lenient (context : Context B) :
    pauseBetween setup context.lenient = (pauseBetween setup context).map Moment.lenient := by
  unfold pauseBetween
  split <;> rfl

/-- A move that takes no step which the policy does not let through is the same under the lenient
policy. -/
theorem advance_lenient (h : setup.IgnoresPolicy) {state : State B}
    (hdue : ∀ step, state.due? = some step → setup.LetsThrough state.context step) :
    advance setup state.lenient = (advance setup state).lenient := by
  obtain ⟨frames, context⟩ := state
  match frames with
  | [] => rfl
  | .visit [] :: rest => rfl
  | .visit (node :: nodes) :: rest =>
    cases hcancelled : context.cancelled with
    | true =>
      have hlenient : context.lenient.cancelled = true := hcancelled
      simp only [advance, State.lenient, hcancelled, hlenient]
      rfl
    | false =>
      have hlenient : context.lenient.cancelled = false := hcancelled
      simp only [advance, State.lenient, hcancelled, hlenient]
      cases node with
      | sequential step =>
        exact afterDispatch_lenient h (hdue step (by simp [State.due?, hcancelled]))
          (proceeds_emitting _)
      | conditional guard _ _ =>
        exact afterDispatch_lenient h (hdue guard (by simp [State.due?, hcancelled]))
          (proceeds_emitting _)
      | loop _ _ => rfl
  | .check guard body :: rest => exact afterDispatch_lenient h (hdue guard rfl) (proceeds_silent _)
  | .rest guard body :: rest =>
    have hcancelled : context.lenient.cancelled = context.cancelled := rfl
    simp only [advance, State.lenient, hcancelled, pauseBetween_lenient]
    split <;> rfl

/-- The next move takes a step with a placeholder for a parameter that is not set, and the policy
of the run does not let it through. -/
structure State.Misses (setup : Setup B) (state : State B) (step : Step) (name : String) : Prop where
  due : state.due? = some step
  resolve : (setup.registry.resolve step).isSome
  expand : step.expand state.context.params state.context.policy = .error (.missingParameter name)

theorem State.letsThrough_of_not_misses {state : State B}
    (h : ∀ step name, ¬ state.Misses setup step name) {step : Step}
    (hdue : state.due? = some step) : setup.LetsThrough state.context step := by
  intro hresolve
  cases hexpand : step.expand state.context.params state.context.policy with
  | ok expanded => exact ⟨expanded, rfl⟩
  | error cause =>
    cases cause with
    | missingParameter name => exact absurd ⟨hdue, hresolve, hexpand⟩ (h step name)

/-- A run that misses a parameter ends with a record of the step. Nothing else has happened. -/
theorem State.Misses.advance (hinterceptors : setup.interceptors = []) {state : State B}
    {step : Step} {name : String} (h : state.Misses setup step name) :
    Machine.advance setup state =
      ⟨[⟨.dispatch step, state.context⟩,
          ⟨.emit (.failed step (TemplateError.missingParameter name).message), state.context⟩],
        .ended (some (.actionExecution step.name (TemplateError.missingParameter name).message))
          state.context⟩ := by
  have htrip : trip setup step state.context =
      ⟨[], .error (.template (.missingParameter name)), state.context⟩ := by
    rw [trip, hinterceptors]
    exact carryOut_of_error h.expand
  have hafter : afterTrip setup step state.context = state.context := by
    rw [afterTrip, htrip]
    simp only [seePauses, Context.stayCancelled, Bool.or_self]
  have hpauses : tripPauses setup step state.context = [] := by
    rw [tripPauses, htrip]
    rfl
  have hmove := advance_moves setup state
  generalize Machine.advance setup state = move at hmove ⊢
  cases hmove with
  | silent hdue => cases h.due.symm.trans hdue
  | unsupported hdue hresolve =>
    cases h.due.symm.trans hdue
    have hsome := h.resolve
    rw [hresolve] at hsome
    cases hsome
  | succeeds hdue _ hvalue =>
    cases h.due.symm.trans hdue
    rw [htrip] at hvalue
    cases hvalue
  | fails hdue _ hfails =>
    cases h.due.symm.trans hdue
    rw [hafter, hpauses]
    have hvalue : (trip setup step state.context).value =
        .error (.template (.missingParameter name)) := by rw [htrip]
    cases hfails with
    | reported h | unexplained h | evaluation h => cases hvalue.symm.trans h
    | raised h =>
      cases hvalue.symm.trans h
      rfl

end Machine

/-! ## Positions -/

/-- A moment is observed in the same way under the lenient policy. -/
theorem Collect.State.observe_lenient (timeout : Option Nat) (state : Collect.State B)
    (moment : Moment B) :
    state.observe timeout moment.lenient =
      (state.observe timeout moment).mapError Outcome.lenient :=
  observe_masked Context.isMask_lenient timeout state moment

namespace Position

/-- A step is due that the policy of the run does not let through. -/
structure Misses (setup : Setup B) (position : Position B) (machine : Machine.State B)
    (step : Step) (name : String) : Prop where
  moments : position.moments = []
  next : position.next = .resume machine
  machine : machine.Misses setup step name

variable {position position' : Position B} {timeout : Option Nat} {outcome : Outcome B}

/-- One moment further, a run that misses no parameter is where the lenient run is. -/
theorem step_lenient (timeout : Option Nat) (h : setup.IgnoresPolicy)
    (hfits : ∀ machine step name, ¬ position.Misses setup machine step name) :
    position.lenient.step setup timeout =
      ((position.step setup timeout).mapError Outcome.lenient).map lenient := by
  obtain ⟨state, moments, next⟩ := position
  cases moments with
  | nil =>
    cases next with
    | ended error context => rfl
    | resume machine =>
      have hmachine : ∀ step name, ¬ machine.Misses setup step name :=
        fun step name hmiss => hfits machine step name ⟨rfl, rfl, hmiss⟩
      have hadvance := Machine.advance_lenient h fun step hdue =>
        Machine.State.letsThrough_of_not_misses hmachine hdue
      simp only [lenient, List.map_nil, Machine.Next.lenient, step, hadvance]
      rfl
  | cons moment moments =>
    have hobserve := state.observe_lenient timeout moment
    simp only [lenient, List.map_cons, step_moment, hobserve]
    cases state.observe timeout moment <;> rfl

/-- A run that has made its last move makes no other. -/
theorem next_of_step {error : Option RunError} {context : Context B}
    (hended : position.next = .ended error context)
    (hstep : position.step setup timeout = .ok position') : position'.next = .ended error context := by
  obtain ⟨state, moments, next⟩ := position
  obtain rfl : next = .ended error context := hended
  cases moments with
  | nil => cases hstep
  | cons moment moments =>
    rw [step_moment] at hstep
    cases hobserve : state.observe timeout moment with
    | error cut =>
      rw [hobserve] at hstep
      cases hstep
    | ok later =>
      rw [hobserve] at hstep
      cases hstep
      rfl

/-- The lenient policy lets every step through. -/
theorem not_misses_of_lenient (h : position.lenient = position) (machine : Machine.State B)
    (step : Step) (name : String) : ¬ position.Misses setup machine step name := by
  intro hmiss
  have hnext : position.next.lenient = position.next := congrArg Position.next h
  rw [hmiss.next] at hnext
  have hmachine : machine.lenient = machine := Machine.Next.resume.inj hnext
  have hpolicy : machine.context.policy = .lenient := by rw [← hmachine]; rfl
  have hexpand := hmiss.machine.expand
  rw [hpolicy] at hexpand
  obtain ⟨expanded, hlenient⟩ := (step.expand_isStricter machine.context.params .lenient).exists_ok
  cases hexpand.symm.trans hlenient

/-- From a position at which a parameter is missed, a run ends with a record of the step. -/
theorem Misses.finishes (hinterceptors : setup.interceptors = []) {machine : Machine.State B}
    {step : Step} {name : String} (h : position.Misses setup machine step name) :
    ∃ outcome, position.Finishes setup timeout outcome ∧
      outcome.error =
        some (.actionExecution step.name (TemplateError.missingParameter name).message) ∧
      outcome.results = position.state.results.push
        (.failed step (TemplateError.missingParameter name).message) ∧
      outcome.emitted = position.state.emitted + 1 ∧ outcome.context = machine.context := by
  obtain ⟨state, moments, next⟩ := position
  obtain ⟨rfl, rfl, hmachine⟩ := h
  have hmove : Position.step setup timeout ⟨state, [], .resume machine⟩ =
      .ok ⟨state, (Machine.advance setup machine).moments, (Machine.advance setup machine).next⟩ :=
    rfl
  rw [hmachine.advance hinterceptors] at hmove
  -- the dispatch is noted, the record is handed out, and the run is over
  have hfinishes := Finishes.step hmove (.step rfl (.step rfl (.last rfl)))
  exact ⟨_, hfinishes, rfl, rfl, rfl, rfl⟩

end Position

/-! ## Runs -/

def Run.withPolicy (run : Run B) (policy : MissingPolicy) : Run B :=
  { run with settings := { run.settings with policy } }

namespace Run

/-- A run comes to a step that its policy does not let through, for lack of a parameter. -/
def Misses (run : Run B) (cancelled : Bool) (world : B.World) (turn : Nat) (step : Step)
    (name : String) : Prop :=
  ∃ position machine, run.Passes cancelled world turn position ∧
    position.Misses run.setup machine step name

variable {run : Run B} {cancelled : Bool} {world : B.World} {turn : Nat}

theorem origin_lenient (policy : MissingPolicy) :
    ((run.withPolicy policy).origin cancelled world turn).lenient =
      (run.withPolicy .lenient).origin cancelled world turn := by
  simp only [origin, Position.lenient, List.map_nil, start, withPolicy, Machine.start]
  split
  · rfl
  · cases cancelled <;> rfl

variable {position : Position B} {policy : MissingPolicy}

/-- A run under some policy comes where the lenient run comes, until it misses a parameter. -/
theorem Passes.lenient_or_misses (h : run.setup.IgnoresPolicy)
    (hpasses : (run.withPolicy policy).Passes cancelled world turn position) :
    (run.withPolicy .lenient).Passes cancelled world turn position.lenient ∨
    (∃ error context, position.next = .ended error context) ∧
      ∃ step name, (run.withPolicy policy).Misses cancelled world turn step name := by
  induction hpasses with
  | start =>
    rw [origin_lenient]
    exact .inl .start
  | @step before after hbefore hstep ih =>
    rcases ih with hlenient | ⟨⟨error, context, hended⟩, hmisses⟩
    · by_cases hmiss : ∃ machine step name, before.Misses run.setup machine step name
      · obtain ⟨machine, step, name, hmiss⟩ := hmiss
        refine .inr ⟨?_, step, name, before, machine, hbefore, hmiss⟩
        obtain ⟨state, moments, next⟩ := before
        obtain ⟨rfl, rfl, hmachine⟩ := hmiss
        cases hstep
        have hadvance := hmachine.advance h.interceptors
        exact ⟨_, _, congrArg Machine.Move.next hadvance⟩
      · simp only [not_exists] at hmiss
        have hlater := Position.step_lenient run.settings.timeoutMillis h hmiss
        have hmove : before.step run.setup run.settings.timeoutMillis = .ok after := hstep
        rw [hmove] at hlater
        exact .inl (hlenient.step hlater)
    · exact .inr ⟨⟨error, context, Position.next_of_step hended hstep⟩, hmisses⟩

theorem Passes.lenient_eq (h : run.setup.IgnoresPolicy)
    (hpasses : (run.withPolicy .lenient).Passes cancelled world turn position) :
    position.lenient = position := by
  induction hpasses with
  | start => exact origin_lenient .lenient
  | @step before after _ hstep ih =>
    have hlater := Position.step_lenient run.settings.timeoutMillis h
      (Position.not_misses_of_lenient ih)
    have hmove : before.step run.setup run.settings.timeoutMillis = .ok after := hstep
    rw [ih, hmove] at hlater
    exact (Except.ok.inj hlater).symm

/-- The lenient run misses no parameter. -/
theorem not_misses_lenient (h : run.setup.IgnoresPolicy) (step : Step) (name : String) :
    ¬ (run.withPolicy .lenient).Misses cancelled world turn step name := by
  rintro ⟨position, machine, hpasses, hmiss⟩
  exact Position.not_misses_of_lenient (hpasses.lenient_eq h) machine step name hmiss

theorem collect_lenient_of_not_misses (h : run.setup.IgnoresPolicy) {fuel : Nat} {outcome : Outcome B}
    (hcollect : (run.withPolicy policy).collect fuel cancelled world turn = some outcome)
    (hnone : ∀ step name, ¬ (run.withPolicy policy).Misses cancelled world turn step name) :
    ∃ more, (run.withPolicy .lenient).collect more cancelled world turn = some outcome.lenient := by
  obtain ⟨last, hpasses, hlast⟩ := exists_last_of_collect hcollect
  rcases hpasses.lenient_or_misses h with hlenient | ⟨-, step, name, hmiss⟩
  · refine hlenient.finishes (.last ?_)
    have hend := Position.step_lenient run.settings.timeoutMillis h fun machine step name hmiss =>
      hnone step name ⟨last, machine, hpasses, hmiss⟩
    have hmove : last.step run.setup run.settings.timeoutMillis = .error outcome := hlast
    rw [hmove] at hend
    exact hend
  · exact absurd hmiss (hnone step name)

/-- A run that misses a parameter ends there. Up to the record of the step it is the lenient run. -/
theorem Misses.collect (h : run.setup.IgnoresPolicy) {step : Step} {name : String}
    (hmiss : (run.withPolicy policy).Misses cancelled world turn step name) :
    ∃ outcome position,
      (∃ fuel, (run.withPolicy policy).collect fuel cancelled world turn = some outcome) ∧
      (run.withPolicy .lenient).Passes cancelled world turn position ∧
      outcome.error =
        some (.actionExecution step.name (TemplateError.missingParameter name).message) ∧
      outcome.results = position.state.results.push
        (.failed step (TemplateError.missingParameter name).message) ∧
      outcome.emitted = position.state.emitted + 1 ∧ outcome.context.lenient = position.context := by
  obtain ⟨position, machine, hpasses, hmiss⟩ := hmiss
  obtain ⟨outcome, hfinishes, herror, hresults, hemitted, hcontext⟩ :=
    hmiss.finishes h.interceptors
  refine ⟨outcome, position.lenient, hpasses.finishes hfinishes, ?_, herror, hresults, hemitted, ?_⟩
  · rcases hpasses.lenient_or_misses h with hlenient | ⟨⟨error, context, hended⟩, -⟩
    · exact hlenient
    · cases hmiss.next.symm.trans hended
  · rw [hcontext, Position.context, Position.lenient, hmiss.moments, hmiss.next]
    rfl

/-- The strict policy differs from the lenient one only in that it stops a run. A strict run that
misses no parameter ends as the lenient run does. One that misses a parameter has done nothing else
than the lenient run up to some time, but for the record of the step in which it fails. The lenient
run never misses a parameter. -/
theorem strict_against_lenient (hregistry : run.registry = .control ∨ run.registry = .standard)
    (hinterceptors : run.interceptors = []) (htimeout : run.settings.timeoutMillis = none)
    (cancelled : Bool) (world : B.World) (turn : Nat) :
    (∀ fuel outcome, (run.withPolicy .strict).collect fuel cancelled world turn = some outcome →
      (∀ step name, ¬ (run.withPolicy .strict).Misses cancelled world turn step name) →
      ∃ more, (run.withPolicy .lenient).collect more cancelled world turn =
        some outcome.lenient) ∧
    (∀ step name, (run.withPolicy .strict).Misses cancelled world turn step name →
      ∃ outcome position,
        (∃ fuel, (run.withPolicy .strict).collect fuel cancelled world turn = some outcome) ∧
        (run.withPolicy .lenient).Passes cancelled world turn position ∧
        outcome.error =
          some (.actionExecution step.name (TemplateError.missingParameter name).message) ∧
        outcome.results = position.state.results.push
          (.failed step (TemplateError.missingParameter name).message) ∧
        outcome.emitted = position.state.emitted + 1 ∧
        outcome.context.lenient = position.context ∧
        ∀ more longer,
          (run.withPolicy .lenient).collect more cancelled world turn = some longer →
            position.state.results.toList <+: longer.results.toList) ∧
    ∀ step name, ¬ (run.withPolicy .lenient).Misses cancelled world turn step name := by
  have hbuiltin : run.registry.IgnoresPolicy := by
    rcases hregistry with hregistry | hregistry
    · rw [hregistry]
      exact Registry.ignoresPolicy_of_mem_builtins fun _ _ => Registry.mem_builtins_of_control
    · rw [hregistry]
      exact Registry.ignoresPolicy_of_mem_builtins fun _ _ => Registry.mem_builtins_of_standard
  have hsetup : run.setup.IgnoresPolicy := ⟨hbuiltin, hinterceptors⟩
  refine ⟨fun fuel outcome hcollect hnone => collect_lenient_of_not_misses hsetup hcollect hnone,
    fun step name hmiss => ?_, not_misses_lenient hsetup⟩
  obtain ⟨outcome, position, hcollect, hpasses, herror, hresults, hemitted, hcontext⟩ :=
    hmiss.collect hsetup
  refine ⟨outcome, position, hcollect, hpasses, herror, hresults, hemitted, hcontext, ?_⟩
  intro more longer hlonger
  have hfinishes := hpasses.finishes_of_collect hlonger
  have hunlimited : (run.withPolicy .lenient).settings.timeoutMillis = none := htimeout
  rw [hunlimited] at hfinishes
  exact hfinishes.grows.2

/-- A run that sets one of the two parameters that it needs. -/
def greeting : Run Rehearsal.backend :=
  { script :=
      { name := "greeting"
        steps :=
          [.putText "name" "name" "Ada",
            .putText "greet" "greeting" "hello $\x7bname\x7d and $\x7bnobody\x7d"] }
    registry := .control }

/-- Under the strict policy the second step fails; what is before it is the same. -/
theorem greeting_against_lenient : ∃ strict lenient : Outcome Rehearsal.backend,
    (greeting.withPolicy .strict).collect 8 false {} = some strict ∧
    strict.error = some (.actionExecution "greet" "parameter 'nobody' is not set") ∧
    (greeting.withPolicy .lenient).collect 8 false {} = some lenient ∧ lenient.error = none ∧
    ∃ (front : Array ActionResult) (record : ActionResult), strict.results = front.push record ∧
      front.toList <+: lenient.results.toList := by
  have hstrict : ((greeting.withPolicy .strict).collect 8 false {}).map (·.error) =
      some (some (.actionExecution "greet" "parameter 'nobody' is not set")) := by
    decide +kernel
  have hlenient : ((greeting.withPolicy .lenient).collect 8 false {}).map (·.error) = some none := by
    decide +kernel
  obtain ⟨strict, hstrict, hfails⟩ := Option.map_eq_some_iff.1 hstrict
  obtain ⟨lenient, hlenient, hends⟩ := Option.map_eq_some_iff.1 hlenient
  obtain ⟨hsame, hmisses, -⟩ :=
    @strict_against_lenient _ greeting (.inl rfl) rfl rfl false {} turnLength
  refine ⟨strict, lenient, hstrict, hfails, hlenient, hends, ?_⟩
  have hmiss : ∃ step name, (greeting.withPolicy .strict).Misses false {} turnLength step name := by
    by_contra hnone
    simp only [not_exists] at hnone
    obtain ⟨more, hmore⟩ := hsame 8 strict hstrict hnone
    have herror : strict.error = lenient.error := congrArg (·.error) (collect_unique hmore hlenient)
    rw [hfails, hends] at herror
    cases herror
  obtain ⟨step, name, hmiss⟩ := hmiss
  obtain ⟨outcome, position, ⟨fuel, houtcome⟩, -, -, hresults, -, -, hprefix⟩ := hmisses step name hmiss
  obtain rfl := collect_unique hstrict houtcome
  exact ⟨_, _, hresults, hprefix 8 lenient hlenient⟩

end Run

end StepScript
