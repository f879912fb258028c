import StepScript.Proofs.Action.Books
import StepScript.Proofs.Run.Outcomes
import StepScript.Proofs.Run.Positions
import StepScript.Rehearsal.Browser

/-!
# Time limits

A time limit changes nothing before it is reached: until then a run passes the same positions as the
run without the limit. If it ends in time, its outcome is the same; otherwise it is cut short at one
of those positions.
-/

namespace StepScript

open Collect

variable {B : Backend}

/-! ## Pauses with and without a limit -/

namespace Collect

/-- When a run wakes or ends. -/
def time : Except (Outcome B) (State B) → Nat
  | .ok state => state.clock
  | .error outcome => outcome.elapsed

section

variable {timeout : Option Nat} {state later : State B} {context : Context B} {millis : Nat}

/-- A run that wakes in time wakes without a limit too. -/
theorem wait_unlimited (h : state.wait timeout millis context = .ok later) :
    state.wait none millis context = .ok later := by
  unfold State.wait at h ⊢
  dsimp only at h ⊢
  split at h
  · split at h
    · cases h
    · split at h
      · cases h
      · next hcancelled =>
        split at h
        · cases h
        · rw [if_neg hcancelled]
          exact h
  · exact h

/-- Two pauses in a row after which the run goes on. -/
theorem bind_unlimited {first first' : Except (Outcome B) (State B)}
    {next next' : State B → Except (Outcome B) (State B)}
    (hfirst : ∀ state, first = .ok state → first' = .ok state)
    (hnext : ∀ state later, next state = .ok later → next' state = .ok later)
    (h : first >>= next = .ok later) : first' >>= next' = .ok later := by
  obtain ⟨state, hstate, hlater⟩ := exists_of_bind_eq_ok h
  rw [hfirst state hstate]
  exact hnext state later hlater

theorem sleep_unlimited (h : state.sleep timeout millis context = .ok later) :
    state.sleep none millis context = .ok later := by
  rw [sleep_eq] at h ⊢
  refine bind_unlimited (fun rested hrested => ?_) (fun rested later hlater => ?_) h
  · split at hrested
    · next hturn => rw [if_pos hturn, wait_unlimited hrested]
    · next hturn => rw [if_neg hturn, hrested]
  · refine bind_unlimited (fun awake hawake => ?_) (fun _ _ hturned => hturned) hlater
    split at hawake
    · next hmillis => rw [if_pos hmillis, hawake]
    · next hmillis => rw [if_neg hmillis, wait_unlimited hawake]

/-- A moment after which a run with a limit goes on leads the run without it to the same. -/
theorem observe_unlimited {moment : Moment B} (h : state.observe timeout moment = .ok later) :
    state.observe none moment = .ok later := by
  obtain ⟨signal, context⟩ := moment
  cases signal with
  | dispatch | emit => exact h
  | sleep millis => exact sleep_unlimited h
  | stepAside => exact wait_unlimited h

/-! ## Before the limit -/

theorem isTimely_none (state : State B) : state.IsTimely none := nofun

theorem Pauses.clock_le_time {result : Except (Outcome B) (State B)}
    (h : Pauses none state context result) : state.clock ≤ time result := by
  cases h with
  | wakes hlater => exact hlater
  | cancelled => exact Nat.le_refl _
  | expires htimeout => cases htimeout

variable {limit : Nat}

theorem wait_of_early (hearly : time (state.wait none millis context) < limit) :
    state.wait (some limit) millis context = state.wait none millis context := by
  unfold State.wait at hearly ⊢
  dsimp only at hearly ⊢
  by_cases hcancelled : context.cancelled = true
  · rw [if_pos hcancelled] at hearly ⊢
    have hclock : state.clock < limit := hearly
    rw [if_neg (by omega), if_pos hcancelled]
  · rw [if_neg hcancelled] at hearly ⊢
    have hwake : state.clock + millis < limit := hearly
    rw [if_neg (by omega), if_neg hcancelled, if_neg (by omega)]

/-- Two pauses in a row that are over before the limit. -/
theorem bind_of_early {first first' : Except (Outcome B) (State B)}
    {next next' : State B → Except (Outcome B) (State B)}
    (hfirst : time first < limit → first' = first)
    (hnext : ∀ state, time (next state) < limit → next' state = next state)
    (hlater : ∀ state, state.clock ≤ time (next state)) (hearly : time (first >>= next) < limit) :
    first' >>= next' = first >>= next := by
  cases first with
  | error outcome =>
    rw [hfirst hearly]
    rfl
  | ok state =>
    rw [hfirst (Nat.lt_of_le_of_lt (hlater state) hearly)]
    exact hnext state hearly

theorem sleep_of_early (hearly : time (state.sleep none millis context) < limit) :
    state.sleep (some limit) millis context = state.sleep none millis context := by
  have hasleep : ∀ rested : State B, Pauses none rested context
      ((if millis = 0 then .ok rested else rested.wait none millis context) >>= fun awake =>
        .ok { awake with turn := awake.turn - 1 }) := by
    intro rested
    refine Pauses.bind ?_ fun awake hawake => .here hawake _
    split
    · exact .here (isTimely_none _) _
    · exact wait_pauses (isTimely_none _) millis
  rw [sleep_eq] at hearly ⊢
  rw [sleep_eq]
  refine bind_of_early (fun hrested => ?_) (fun rested hawake => ?_)
    (fun rested => (hasleep rested).clock_le_time) hearly
  · split at hrested
    · next hturn => rw [if_pos hturn, if_pos hturn, wait_of_early hrested]
    · next hturn => rw [if_neg hturn, if_neg hturn]
  · refine bind_of_early (fun hawake => ?_) (fun _ _ => rfl) (fun _ => Nat.le_refl _) hawake
    split at hawake
    · next hmillis => rw [if_pos hmillis, if_pos hmillis]
    · next hmillis => rw [if_neg hmillis, if_neg hmillis, wait_of_early hawake]

/-- A moment that is over before the limit leads to the same with it. -/
theorem observe_of_early {moment : Moment B} (hearly : time (state.observe none moment) < limit) :
    state.observe (some limit) moment = state.observe none moment := by
  obtain ⟨signal, context⟩ := moment
  cases signal with
  | dispatch | emit => rfl
  | sleep millis => exact sleep_of_early hearly
  | stepAside => exact wait_of_early hearly

end

end Collect

/-! ## Positions with and without a limit -/

namespace Position

variable {setup : Setup B} {position position' : Position B} {outcome : Outcome B} {limit : Nat}

theorem step_unlimited {timeout : Option Nat} (h : position.step setup timeout = .ok position') :
    position.step setup none = .ok position' := by
  obtain ⟨state, moments, next⟩ := position
  cases moments with
  | nil => exact h
  | cons moment moments =>
    rw [step_moment] at h ⊢
    cases hobserve : state.observe timeout moment with
    | error cut =>
      rw [hobserve] at h
      cases h
    | ok later =>
      rw [hobserve] at h
      rw [Collect.observe_unlimited hobserve]
      exact h

/-- Neither does the clock go back, nor are results taken back. -/
theorem Finishes.grows (h : position.Finishes setup none outcome) :
    position.state.clock ≤ outcome.elapsed ∧
      position.state.results.toList <+: outcome.results.toList := by
  induction h with
  | @last position outcome hstep =>
    rcases step_eq_error hstep with ⟨error, context, -, -, rfl⟩ | ⟨moment, moments, -, hobserve⟩
    · exact ⟨Nat.le_refl _, List.prefix_rfl⟩
    · have hpauses :=
        observe_pauses (isTimely_none position.state) (isPause_of_observe_error hobserve)
      rw [hobserve] at hpauses
      cases hpauses with
      | cancelled => exact ⟨Nat.le_refl _, List.prefix_rfl⟩
      | expires htimeout => cases htimeout
  | @step before after _ hstep _ ih =>
    obtain ⟨state, moments, next⟩ := before
    cases moments with
    | nil =>
      cases next with
      | ended error context => cases hstep
      | resume machine =>
        cases hstep
        exact ih
    | cons moment moments =>
      rw [step_moment] at hstep
      cases hobserve : state.observe none moment with
      | error cut =>
        rw [hobserve] at hstep
        cases hstep
      | ok later =>
        rw [hobserve] at hstep
        cases hstep
        obtain ⟨-, hclock, hresults, -⟩ := observe_ok (isTimely_none state) hobserve
        refine ⟨Nat.le_trans hclock ih.1, List.IsPrefix.trans ?_ ih.2⟩
        rw [hresults]
        exact List.prefix_append _ _

/-- When the next position, or the end, is reached. -/
def stepTime (setup : Setup B) (timeout : Option Nat) (position : Position B) : Nat :=
  match position.step setup timeout with
  | .ok later => later.state.clock
  | .error outcome => outcome.elapsed

theorem step_of_early (hearly : position.stepTime setup none < limit) :
    position.step setup (some limit) = position.step setup none := by
  obtain ⟨state, moments, next⟩ := position
  cases moments with
  | nil => rfl
  | cons moment moments =>
    rw [stepTime, step_moment] at hearly
    rw [step_moment, step_moment, observe_of_early]
    cases hobserve : state.observe none moment with
    | error cut =>
      rw [hobserve] at hearly
      exact hearly
    | ok later =>
      rw [hobserve] at hearly
      exact hearly

/-- A run that ends before the limit ends in the same way with it. -/
theorem Finishes.of_early (h : position.Finishes setup none outcome)
    (hearly : outcome.elapsed < limit) : position.Finishes setup (some limit) outcome := by
  induction h with
  | last hstep => exact .last ((step_of_early (by rw [stepTime, hstep]; exact hearly)).trans hstep)
  | step hstep hrest ih =>
    refine .step ((step_of_early ?_).trans hstep) (ih hearly)
    rw [stepTime, hstep]
    exact Nat.lt_of_le_of_lt hrest.grows.1 hearly

end Position

namespace Run

variable {run : Run B} {cancelled : Bool} {world : B.World} {turn : Nat} {position : Position B}
  {outcome : Outcome B} {limit : Nat}

def unlimited (run : Run B) : Run B :=
  { run with settings := { run.settings with timeoutMillis := none } }

/-- A run with a limit passes positions of the run without it. -/
theorem Passes.unlimited (h : run.Passes cancelled world turn position) :
    run.unlimited.Passes cancelled world turn position := by
  induction h with
  | start => exact .start
  | step _ hstep ih => exact ih.step (Position.step_unlimited hstep)

/-! ## Runs that are cut short -/

theorem replay_append_see (results : List ActionResult) (signal : Signal) :
    replay (results ++ signal.emitted?.toList) = (replay results).see signal := by
  cases signal with
  | emit result => exact replay_concat results result
  | dispatch | sleep | stepAside => exact congrArg replay (List.append_nil results)

/-- At every position what is left of the move tells what happens to the parameters. -/
theorem Passes.tells (hbooks : run.setup.KeepsBooks) (h : run.Passes cancelled world turn position) :
    Tells (replay position.state.results.toList) position.moments position.next := by
  have hinvariant : position.state.IsTimely run.settings.timeoutMillis ∧
      Tells (replay position.state.results.toList) position.moments position.next ∧
        position.next.IsGuarded := by
    refine h.invariant (P := fun state moments next =>
      state.IsTimely run.settings.timeoutMillis ∧
        Tells (replay state.results.toList) moments next ∧ next.IsGuarded) ?_ ?_ ?_
    · exact ⟨fun _ _ => Nat.zero_le _, start_params run cancelled world,
        start_isGuarded run cancelled world⟩
    · rintro state later moment moments next ⟨htimely, htells, hguarded⟩ hobserve
      obtain ⟨htimely', -, hresults, -⟩ := observe_ok htimely hobserve
      refine ⟨htimely', ?_, hguarded⟩
      rw [hresults, replay_append_see]
      exact htells.2
    · rintro state machine ⟨htimely, htells, hguarded⟩
      have hparams : machine.context.params = replay state.results.toList := htells
      exact ⟨htimely, hparams ▸ Machine.advance_tells hbooks hguarded,
        Machine.guarded_advance hguarded⟩
  exact hinvariant.2.1

/-- The parameters are those that the results so far tell, unless another one is about to be handed
out. -/
theorem Passes.params_eq_replay (hbooks : run.setup.KeepsBooks)
    (h : run.Passes cancelled world turn position) (hemits : position.emits = false) :
    position.context.params = replay position.state.results.toList := by
  have htells := h.tells hbooks
  obtain ⟨state, moments, next⟩ := position
  cases moments with
  | nil => exact htells
  | cons moment moments =>
    obtain ⟨signal, context⟩ := moment
    cases signal with
    | emit => cases hemits
    | dispatch | sleep | stepAside => exact htells.1

/-- A machine knows nothing of time limits. -/
theorem Passes.next_ne_timedOut (h : run.Passes cancelled world turn position) :
    ∀ context, position.next ≠ .ended (some (.timedOut limit)) context := by
  refine h.invariant (P := fun _ _ next =>
    ∀ context, next ≠ .ended (some (.timedOut limit)) context) ?_ ?_ ?_
  · intro context
    simp only [Run.start, Machine.start]
    split
    · rintro ⟨⟩
    · split <;> rintro ⟨⟩
  · exact fun hnext _ => hnext
  · intro state machine _ context hnext
    have hmoves := Machine.advance_moves run.setup machine
    generalize Machine.advance run.setup machine = move at hmoves hnext
    cases hmoves with
    | silent _ _ _ herror => cases herror _ _ hnext
    | unsupported | succeeds => cases hnext
    | fails _ _ hfails =>
      cases hnext
      cases hfails

/-- A run that exceeds its limit does so at a position at which it pauses. -/
theorem exists_cut_of_timedOut {fuel : Nat}
    (h : run.collect fuel cancelled world turn = some outcome)
    (herror : outcome.error = some (.timedOut limit)) :
    ∃ position, run.Passes cancelled world turn position ∧ position.emits = false ∧
      run.settings.timeoutMillis = some limit ∧ outcome.elapsed = limit ∧
      outcome.results = position.state.results ∧
      outcome.dispatches = position.state.dispatches ∧ outcome.context = position.context := by
  obtain ⟨last, hpasses, hstep⟩ := exists_last_of_collect h
  refine ⟨last, hpasses, ?_⟩
  rcases Position.step_eq_error hstep with
    ⟨error, context, -, hnext, rfl⟩ | ⟨moment, moments, hmoments, hobserve⟩
  · obtain rfl : error = some (.timedOut limit) := herror
    exact absurd hnext (hpasses.next_ne_timedOut context)
  · have hpause := isPause_of_observe_error hobserve
    have hpauses := observe_pauses hpasses.paced.timely hpause
    rw [hobserve] at hpauses
    have hemits : last.emits = false := by
      obtain ⟨signal, context⟩ := moment
      rw [Position.emits, hmoments]
      cases signal with
      | emit => cases hpause
      | dispatch | sleep | stepAside => rfl
    have hcontext : last.context = moment.context := by rw [Position.context, hmoments]; rfl
    cases hpauses with
    | cancelled => cases herror
    | expires htimeout =>
      cases herror
      exact ⟨hemits, htimeout, rfl, rfl, rfl, hcontext.symm⟩

/-- How the outcome of a run that has exceeded its limit compares to the run without the limit. -/
structure CutShort (run : Run B) (limit : Nat) (world : B.World) (turn : Nat) (cut : Outcome B) :
    Prop where
  elapsed : cut.elapsed = limit
  successes : ∀ result ∈ cut.results, result.success = true
  dispatched : ∀ entry ∈ cut.dispatches, entry.1 ≤ limit
  /-- The run without the limit comes to hand out just these results in time, and then it has the same
  parameters. -/
  passed : ∃ position, run.unlimited.Passes false world turn position ∧
    position.state.results = cut.results ∧ position.state.clock ≤ limit ∧
    position.emits = false ∧ position.context.params = cut.params
  /-- As long as it has handed out just these results, it has the same parameters, unless it is about
  to hand out another one. -/
  params : ∀ position, run.unlimited.Passes false world turn position →
    position.state.results = cut.results → position.emits = false →
    position.context.params = cut.params
  /-- If it ends, its results begin with them. -/
  isPrefix : ∀ fuel outcome, run.unlimited.collect fuel false world turn = some outcome →
    cut.results.toList <+: outcome.results.toList

theorem cutShort_of_timedOut (hbooks : run.setup.KeepsBooks) {fuel : Nat}
    (h : run.collect fuel false world turn = some outcome)
    (herror : outcome.error = some (.timedOut limit)) : run.CutShort limit world turn outcome := by
  obtain ⟨position, hpasses, hemits, htimeout, helapsed, hresults, hdispatches, hcontext⟩ :=
    exists_cut_of_timedOut h herror
  obtain ⟨htimely, hpaced⟩ := hpasses.paced
  have hclock : position.state.clock ≤ limit := htimely limit htimeout
  constructor
  case elapsed => exact helapsed
  case successes =>
    rcases (yields_of_collect h).ends.tidy_or_lastFails with ⟨htidy, -⟩ | ⟨_, _, error, hlast, hsome⟩
    · exact htidy.successes
    · rw [herror] at hsome
      cases hsome
      cases hlast.isFailure
  case dispatched =>
    intro entry hentry
    rw [hdispatches] at hentry
    exact Nat.le_trans (hpaced entry hentry) hclock
  case passed =>
    have hparams : position.context.params = outcome.params := by rw [Outcome.params, hcontext]
    exact ⟨position, hpasses.unlimited, hresults.symm, hclock, hemits, hparams⟩
  case params =>
    intro other hother hsame hquiet
    have hparams : outcome.params = replay position.state.results.toList := by
      rw [Outcome.params, hcontext]
      exact hpasses.params_eq_replay hbooks hemits
    have hbooks' : run.unlimited.setup.KeepsBooks := hbooks
    rw [hparams, ← hresults, ← hsame]
    exact hother.params_eq_replay hbooks' hquiet
  case isPrefix =>
    intro fuel whole hwhole
    rw [hresults]
    exact (hpasses.unlimited.finishes_of_collect hwhole).grows.2

/-- A time limit of whole milliseconds only cuts a run short: if the run ends before the limit is
reached, it ends in the same way, and if it exceeds the limit, it has come as far as the run without
the limit had. -/
theorem same_or_cutShort (hlimit : run.settings.timeoutMillis = some limit)
    (hregistry : run.registry = .control) (hinterceptors : run.interceptors = [])
    (world : B.World) (turn : Nat) :
    (∀ fuel outcome, run.unlimited.collect fuel false world turn = some outcome →
      outcome.elapsed < limit → ∃ fuel', run.collect fuel' false world turn = some outcome) ∧
    ∀ fuel outcome, run.collect fuel false world turn = some outcome →
      outcome.error = some (.timedOut limit) → run.CutShort limit world turn outcome := by
  constructor
  · intro fuel outcome h hearly
    rw [collect_eq_some_iff, hlimit]
    exact (collect_eq_some_iff.1 ⟨fuel, h⟩).of_early hearly
  · have hbooks : run.setup.KeepsBooks := Setup.keepsBooks_of_builtin (.inl hregistry) hinterceptors
    exact fun fuel outcome h herror => cutShort_of_timedOut hbooks h herror

/-- A run that counts to three and needs ten milliseconds for each number. -/
def ticking (limit : Nat) : Run Rehearsal.backend :=
  { script :=
      { name := "ticking"
        steps :=
          [.putText "init" "n" "0", ⟨"more", none, .whileGuard "$\x7bn\x7d < 3"⟩,
            .putExpression "tick" "n" "$\x7bn\x7d + 1", .waitMillis "pause" 10,
            ⟨"end", none, .endWhile⟩] }
    registry := .control
    settings := { timeoutMillis := some limit } }

theorem ticking_same_or_cutShort :
    (∃ outcome, (ticking 95).unlimited.collect 60 false {} = some outcome ∧
      outcome.elapsed = 30 ∧ outcome.error = none ∧
      ∃ fuel, (ticking 95).collect fuel false {} = some outcome) ∧
    ∃ outcome, (ticking 25).collect 60 false {} = some outcome ∧ outcome.results.size = 6 ∧
      outcome.error = some (.timedOut 25) ∧
      (ticking 25).CutShort 25 {} turnLength outcome := by
  constructor
  · have hends : ((ticking 95).unlimited.collect 60 false {}).map
        (fun outcome => (outcome.elapsed, outcome.error)) = some (30, none) := by
      decide +kernel
    obtain ⟨outcome, hcollect, houtcome⟩ := Option.map_eq_some_iff.1 hends
    obtain ⟨helapsed, herror⟩ := Prod.mk.inj houtcome
    obtain ⟨hsame, -⟩ :=
      same_or_cutShort (show (ticking 95).settings.timeoutMillis = some 95 from rfl) rfl rfl {}
        turnLength
    exact ⟨outcome, hcollect, helapsed, herror, hsame 60 outcome hcollect (by omega)⟩
  · have hends : ((ticking 25).collect 60 false {}).map
        (fun outcome => (outcome.results.size, outcome.error)) = some (6, some (.timedOut 25)) := by
      decide +kernel
    obtain ⟨outcome, hcollect, houtcome⟩ := Option.map_eq_some_iff.1 hends
    obtain ⟨hsize, herror⟩ := Prod.mk.inj houtcome
    obtain ⟨-, hcut⟩ :=
      same_or_cutShort (show (ticking 25).settings.timeoutMillis = some 25 from rfl) rfl rfl {}
        turnLength
    exact ⟨outcome, hcollect, hsize, herror, hcut 60 outcome hcollect herror⟩

end Run

end StepScript
