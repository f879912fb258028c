import StepScript.Proofs.Action.Keeps
import StepScript.Proofs.Run.Outcomes
import StepScript.Proofs.Stream.Progress

/-!
# Streamed and collected runs agree

Whatever a consumer reads of a streamed run, and whenever it reads, the results are those of the
collected run in their order, and so is the end of the run.
-/

namespace StepScript

variable {B : Backend}

namespace Stream

/-- What the consumer is told at the end of a run with an outcome. -/
def told (outcome : Outcome B) : Joined :=
  { results := [], emitted := outcome.emitted, params := outcome.params, error := outcome.error }

section

variable {run : Run B} {outcome : Outcome B} {length fuel : Nat} {state state' state'' : State B}

/-! ## Runs on their way -/

theorem State.Follows.delivered_prefix (h : state.Follows run outcome length) :
    state.delivered.toList <+: outcome.results.toList := by
  obtain ⟨later, hresults, -⟩ := h.completes
  rw [hresults, h.ledger]
  exact ⟨state.queue ++ state.phase.held ++ later, by simp⟩

/-- A run that has ended on its way has handed out everything. -/
theorem State.Follows.ended (h : state.Follows run outcome length) (hended : state.hasEnded = true) :
    state.phase = .ended outcome.error outcome.context ∧ state.emitted = outcome.results ∧
      outcome.results.toList = state.delivered.toList ++ state.queue := by
  obtain ⟨later, hresults, hcompletes⟩ := h.completes
  have hledger := h.ledger
  rw [State.Ledger] at hledger
  simp only [State.hasEnded] at hended
  generalize state.phase = phase at hended hcompletes hledger
  cases hcompletes with
  | idle | working | pausing | blocked => cases hended
  | ended =>
    rw [List.append_nil] at hresults
    refine ⟨rfl, Array.ext' hresults.symm, ?_⟩
    rw [hresults, hledger]
    exact List.append_nil _

theorem State.Follows.delivered_eq (h : state.Follows run outcome length)
    (hended : state.hasEnded = true) (hempty : state.queue = []) :
    state.delivered = outcome.results := by
  obtain ⟨-, -, hresults⟩ := h.ended hended
  rw [hempty, List.append_nil] at hresults
  exact Array.ext' hresults.symm

theorem State.Follows.joined_eq (h : state.Follows run outcome length)
    (hemitted : outcome.emitted = outcome.results.size) (hended : state.hasEnded = true) :
    state.joined? = some (told outcome) := by
  obtain ⟨hphase, hall, -⟩ := h.ended hended
  simp only [State.joined?, hphase, hall, told, hemitted]
  rfl

/-! ## Reads -/

/-- Some reads bring the next results, and nothing once all results have been read. -/
def Reads (outcome : Outcome B) (state : State B) (reads : List (Option ActionResult))
    (state' : State B) : Prop :=
  ∃ fresh missing, reads = fresh.map some ++ List.replicate missing none ∧
    state'.delivered.toList = state.delivered.toList ++ fresh ∧
    (missing ≠ 0 → state'.delivered = outcome.results)

theorem Reads.nil (h : state'.delivered = state.delivered) : Reads outcome state [] state' :=
  ⟨[], 0, rfl, by rw [h, List.append_nil], fun hmissing => absurd rfl hmissing⟩

theorem Reads.append {reads reads' : List (Option ActionResult)}
    (h : Reads outcome state reads state') (h' : Reads outcome state' reads' state'')
    (hwithin : state''.delivered.toList <+: outcome.results.toList) :
    Reads outcome state (reads ++ reads') state'' := by
  obtain ⟨fresh, missing, rfl, hfresh, hall⟩ := h
  obtain ⟨fresh', missing', rfl, hfresh', hall'⟩ := h'
  cases missing with
  | zero =>
    refine ⟨fresh ++ fresh', missing', by simp, ?_, hall'⟩
    rw [hfresh', hfresh, List.append_assoc]
  | succ missing =>
    -- after the last result there is nothing to read
    have hlast : state'.delivered = outcome.results := hall (Nat.succ_ne_zero _)
    rw [hfresh', hlast] at hwithin
    have hshort := hwithin.length_le
    rw [List.length_append] at hshort
    obtain rfl : fresh' = [] := List.eq_nil_of_length_eq_zero (by omega)
    rw [List.append_nil] at hfresh'
    refine ⟨fresh, missing + 1 + missing', ?_, by rw [hfresh', hfresh], fun _ => ?_⟩
    · rw [List.map_nil, List.nil_append, List.append_assoc, List.replicate_append_replicate]
    · exact Array.ext' (by rw [hfresh', hlast])

theorem Reads.result {result : ActionResult} (h : state'.delivered = state.delivered.push result) :
    Reads outcome state [some result] state' :=
  ⟨[result], 0, rfl, by rw [h, Array.toList_push], fun hmissing => absurd rfl hmissing⟩

theorem Reads.missing (h : state'.delivered = state.delivered)
    (hall : state'.delivered = outcome.results) : Reads outcome state [none] state' :=
  ⟨[], 1, rfl, by rw [h, List.append_nil], fun _ => hall⟩

/-- A read brings a result, or the run has ended and nothing is left. -/
theorem receive_follows (htimeout : run.settings.timeoutMillis = none)
    (h : state.Follows run outcome length) (hfuel : 2 * length + 1 < fuel) :
    (∃ shorter ≤ length, (receive run fuel state).2.Follows run outcome shorter) ∧
    ((∃ result, (receive run fuel state).1 = some result ∧
        (receive run fuel state).2.delivered = state.delivered.push result) ∨
      ((receive run fuel state).1 = none ∧
        (receive run fuel state).2.delivered = state.delivered ∧
        (receive run fuel state).2.hasEnded = true ∧ (receive run fuel state).2.queue = [])) := by
  have hgoal : State.Goal.result ≠ .finish := nofun
  obtain ⟨hreaches, shorter, hle, hattend⟩ := attend_follows htimeout hgoal h hfuel
  have hdelivered := (untouched_attend run fuel .result state).delivered
  unfold receive
  generalize state.attend run fuel .result = waited at *
  have hcalm : waited.read.2.cancelled = false := by
    unfold State.read
    split <;> exact hattend.calm
  obtain ⟨shortest, hle', hfollows⟩ := (Event.reads).follows htimeout hattend hcalm
  refine ⟨⟨shortest, Nat.le_trans hle' hle, hfollows⟩, ?_⟩
  cases hqueue : waited.queue with
  | nil =>
    have hended : waited.hasEnded = true := by simpa [State.reaches, hqueue] using hreaches
    have hread : waited.read = (none, waited) := by simp only [State.read, hqueue]
    rw [hread]
    exact .inr ⟨rfl, hdelivered, hended, hqueue⟩
  | cons result rest =>
    refine .inl ⟨result, ?_, ?_⟩
    · simp only [State.read, hqueue]
    · simp only [State.read, hqueue, hdelivered]

theorem receiveMany_reads (htimeout : run.settings.timeoutMillis = none) (count : Nat)
    (h : state.Follows run outcome length) (hfuel : 2 * length + 1 < fuel) :
    (∃ shorter ≤ length, (receiveMany run fuel count state).2.Follows run outcome shorter) ∧
    Reads outcome state (receiveMany run fuel count state).1
      (receiveMany run fuel count state).2 := by
  induction count generalizing state length with
  | zero => exact ⟨⟨length, Nat.le_refl _, h⟩, .nil rfl⟩
  | succ count ih =>
    obtain ⟨⟨shorter, hle, hfirst⟩, hread⟩ := receive_follows htimeout h hfuel
    have hone : Reads outcome state [(receive run fuel state).1] (receive run fuel state).2 := by
      rcases hread with ⟨result, hresult, hdelivered⟩ | ⟨hnone, hdelivered, hended, hempty⟩
      · rw [hresult]
        exact .result hdelivered
      · rw [hnone]
        exact .missing hdelivered (hfirst.delivered_eq hended hempty)
    obtain ⟨⟨shortest, hle', hrest⟩, hmore⟩ := ih hfirst (by omega)
    exact ⟨⟨shortest, Nat.le_trans hle' hle, hrest⟩, hone.append hmore hrest.delivered_prefix⟩

/-- Whoever reads often enough reads to the end. -/
theorem receiveAll_reads (htimeout : run.settings.timeoutMillis = none) {count : Nat}
    (h : state.Follows run outcome length) (hfuel : 2 * length + 1 < fuel)
    (hcount : outcome.results.size < state.delivered.size + count) :
    (∃ shorter ≤ length, (receiveAll run fuel count state).2.Follows run outcome shorter) ∧
    Reads outcome state (receiveAll run fuel count state).1 (receiveAll run fuel count state).2 ∧
    (receiveAll run fuel count state).2.hasEnded = true ∧
    (receiveAll run fuel count state).2.queue = [] := by
  induction count generalizing state length with
  | zero =>
    have hshort := h.delivered_prefix.length_le
    simp only [Array.length_toList] at hshort
    omega
  | succ count ih =>
    obtain ⟨⟨shorter, hle, hfirst⟩, hread⟩ := receive_follows htimeout h hfuel
    unfold receiveAll
    generalize receive run fuel state = received at *
    obtain ⟨read, after⟩ := received
    rcases hread with ⟨result, rfl, hdelivered⟩ | ⟨rfl, hdelivered, hdrained⟩
    -- one result less is missing, so that the other reads suffice
    · have hsize : after.delivered.size = state.delivered.size + 1 := by
        rw [hdelivered, Array.size_push]
      have hone : Reads outcome state [some result] after := .result hdelivered
      obtain ⟨⟨shortest, hle', hrest⟩, hmore, hdrained⟩ :=
        ih hfirst (by omega) (by dsimp only; omega)
      exact ⟨⟨shortest, Nat.le_trans hle' hle, hrest⟩,
        hone.append hmore hrest.delivered_prefix, hdrained⟩
    · exact ⟨⟨shorter, hle, hfirst⟩, .nil hdelivered, hdrained⟩

/-- A consumer who does not cancel the run reads its results in their order. -/
theorem performAll_reads (htimeout : run.settings.timeoutMillis = none) {ops : List Op}
    (hops : Op.cancel ∉ ops) (h : state.Follows run outcome length)
    (hfuel : 2 * length + 1 < fuel) (hcount : outcome.results.size < fuel) :
    (∃ shorter ≤ length, (performAll run fuel ops state).2.Follows run outcome shorter) ∧
    Reads outcome state (performAll run fuel ops state).1 (performAll run fuel ops state).2 := by
  induction ops generalizing state length with
  | nil => exact ⟨⟨length, Nat.le_refl _, h⟩, .nil rfl⟩
  | cons op ops ih =>
    simp only [List.mem_cons, not_or] at hops
    have hop : (∃ shorter ≤ length, (perform run fuel state op).2.Follows run outcome shorter) ∧
        Reads outcome state (perform run fuel state op).1 (perform run fuel state op).2 := by
      cases op with
      | next count => exact receiveMany_reads htimeout count h hfuel
      | drain =>
        obtain ⟨hfollows, hreads, -⟩ :=
          receiveAll_reads htimeout h hfuel (Nat.lt_add_left state.delivered.size hcount)
        exact ⟨hfollows, hreads⟩
      | sleep millis =>
        have hgoal : State.Goal.time (state.clock + sleepSpan millis) ≠ .finish := nofun
        obtain ⟨-, hfollows⟩ := attend_follows htimeout hgoal h hfuel
        exact ⟨hfollows, .nil (untouched_attend run fuel _ state).delivered⟩
      | cancel => exact absurd rfl hops.1
    obtain ⟨⟨shorter, hle, hfirst⟩, hone⟩ := hop
    obtain ⟨⟨shortest, hle', hrest⟩, hmore⟩ := ih hops.2 hfirst (by omega)
    exact ⟨⟨shortest, by omega, hrest⟩, hone.append hmore hrest.delivered_prefix⟩

theorem performAll_concat (ops : List Op) (op : Op) (state : State B) :
    performAll run fuel (ops ++ [op]) state =
      ((performAll run fuel ops state).1 ++
          (perform run fuel (performAll run fuel ops state).2 op).1,
        (perform run fuel (performAll run fuel ops state).2 op).2) := by
  induction ops generalizing state with
  | nil => simp [performAll]
  | cons first ops ih =>
    simp only [List.cons_append, performAll, ih, List.append_assoc]

/-! ## The end of a run -/

theorem join_of_ended (hended : state.hasEnded = true) :
    (join run fuel state).joined? = state.joined? := by
  have hready : state.isReady = false := by
    unfold State.hasEnded at hended
    split at hended
    · next hphase => simp only [State.isReady, hphase]
    · cases hended
  have hrested : ∃ consumerTurn, state.rested run fuel = { state with consumerTurn } := by
    unfold State.rested
    split
    · simp only [State.stepAside, hready, Bool.false_eq_true, if_false]
      exact ⟨turnLength, rfl⟩
    · exact ⟨state.consumerTurn, rfl⟩
  obtain ⟨consumerTurn, hrested⟩ := hrested
  have hgoal : State.reaches { state with consumerTurn } .finish = true := hended
  rw [join, attend_eq, hrested, if_pos hgoal]
  rfl

/-- The run is on its way to the outcome of the collected run when it begins. -/
theorem start_follows {world : B.World} {n turn : Nat}
    (htimeout : run.settings.timeoutMillis = none) (hquiet : run.NeverCancelled world)
    (hcollect : run.collect n false world turn = some outcome) :
    ∃ length, (State.start false world).Follows run outcome length := by
  have hshows := Run.collect_shows htimeout hquiet turn n
  split at hshows
  · next error context hend =>
    obtain ⟨outcome', houtcome', -, hresults, rfl, rfl⟩ := hshows
    rw [hcollect] at houtcome'
    cases houtcome'
    obtain ⟨length, hcourse⟩ := Course.completes_of_trace n hquiet hend
    exact ⟨length, rfl, rfl, rfl, _, hresults, .idle hcourse⟩
  · rw [hcollect] at hshows
    cases hshows

end

/-- What a consumer who read to the end has seen is an outcome. -/
structure SeesAll (run : Run B) (outcome : Outcome B) (fuel : Nat)
    (seen : List (Option ActionResult) × State B) : Prop where
  results : ∃ missing,
    seen.1 = outcome.results.toList.map some ++ List.replicate missing none
  nothing : (receive run fuel seen.2).1 = none
  told : (join run fuel seen.2).joined? = some (told outcome)

/-- A streamed run that nobody cancels brings its consumer an outcome. -/
structure Delivers (run : Run B) (world : B.World) (outcome : Outcome B) : Prop where
  /-- The results come in their order, whatever events follow each other. -/
  delivered : ∀ state, Reaches run (.start false world) state → state.cancelled = false →
    state.delivered.toList <+: outcome.results.toList
  drained : ∀ state, Reaches run (.start false world) state → state.cancelled = false →
    state.hasEnded = true → state.queue = [] → state.delivered = outcome.results
  told : ∀ state, Reaches run (.start false world) state → state.cancelled = false →
    state.hasEnded = true → state.joined? = some (told outcome)
  /-- The run never gets stuck. -/
  completes : ∀ state, Reaches run (.start false world) state → state.cancelled = false →
    ∃ state', Reaches run state state' ∧ state'.cancelled = false ∧ state'.hasEnded = true ∧
      state'.queue = []
  /-- Whoever reads and sleeps in some way and then reads to the end comes to the end. -/
  seen : ∃ enough, ∀ fuel ≥ enough, ∀ ops : List Op, .cancel ∉ ops →
    SeesAll run outcome fuel (performAll run fuel (ops ++ [.drain]) (.start false world))

section

variable {run : Run B} {outcome : Outcome B} {length fuel : Nat} {state : State B}

/-- Whoever has read everything reads nothing more. -/
theorem receive_of_drained (htimeout : run.settings.timeoutMillis = none)
    (h : state.Follows run outcome length) (hended : state.hasEnded = true)
    (hempty : state.queue = []) (hfuel : 2 * length + 1 < fuel) :
    (receive run fuel state).1 = none := by
  obtain ⟨⟨_, -, hfollows⟩, hread⟩ := receive_follows htimeout h hfuel
  rcases hread with ⟨result, -, hdelivered⟩ | ⟨hnone, -⟩
  · have hall := h.delivered_eq hended hempty
    have hshort := hfollows.delivered_prefix.length_le
    rw [hdelivered, hall, Array.toList_push, List.length_append, List.length_singleton] at hshort
    omega
  · exact hnone

/-- Whoever reads to the end after some other reads has seen everything. -/
theorem seesAll_drain {start : State B} {reads : List (Option ActionResult)}
    (htimeout : run.settings.timeoutMillis = none)
    (hemitted : outcome.emitted = outcome.results.size) (hstart : start.delivered = #[])
    (hreads : Reads outcome start reads state) (h : state.Follows run outcome length)
    (hfuel : 2 * length + 1 < fuel) (hcount : outcome.results.size < fuel) :
    SeesAll run outcome fuel
      (reads ++ (perform run fuel state .drain).1, (perform run fuel state .drain).2) := by
  obtain ⟨⟨shorter, hle, hdrained⟩, hrest, hended, hempty⟩ :=
    receiveAll_reads htimeout h hfuel (Nat.lt_add_left state.delivered.size hcount)
  obtain ⟨fresh, missing, hseen, hfresh, -⟩ := hreads.append hrest hdrained.delivered_prefix
  constructor
  case results =>
    rw [hdrained.delivered_eq hended hempty, hstart, List.nil_append] at hfresh
    exact ⟨missing, hfresh ▸ hseen⟩
  case nothing => exact receive_of_drained htimeout hdrained hended hempty (by omega)
  case told => exact (join_of_ended hended).trans (hdrained.joined_eq hemitted hended)

end

/-- If the collected run ends, the streamed run brings the outcome of it. -/
theorem delivers_of_collect {run : Run B} {world : B.World} {n turn : Nat} {outcome : Outcome B}
    (htimeout : run.settings.timeoutMillis = none) (hquiet : run.NeverCancelled world)
    (hcollect : run.collect n false world turn = some outcome) : Delivers run world outcome := by
  obtain ⟨length, hstart⟩ := start_follows htimeout hquiet hcollect
  have hemitted : outcome.emitted = outcome.results.size :=
    (Run.yields_of_collect hcollect).ends.emitted_eq
  constructor
  case delivered =>
    intro state hreaches hcalm
    obtain ⟨_, -, hfollows⟩ := hreaches.follows htimeout hstart hcalm
    exact hfollows.delivered_prefix
  case drained =>
    intro state hreaches hcalm hended hempty
    obtain ⟨_, -, hfollows⟩ := hreaches.follows htimeout hstart hcalm
    exact hfollows.delivered_eq hended hempty
  case told =>
    intro state hreaches hcalm hended
    obtain ⟨_, -, hfollows⟩ := hreaches.follows htimeout hstart hcalm
    exact hfollows.joined_eq hemitted hended
  case completes =>
    intro state hreaches hcalm
    obtain ⟨shorter, -, hfollows⟩ := hreaches.follows htimeout hstart hcalm
    let fuel := 2 * shorter + 2 + outcome.results.size
    obtain ⟨⟨_, -, hdrained⟩, -, hended, hempty⟩ :=
      receiveAll_reads htimeout hfollows (show 2 * shorter + 1 < fuel by omega)
        (show outcome.results.size < state.delivered.size + fuel by omega)
    exact ⟨_, receiveAll_reaches fuel fuel state, hdrained.calm, hended, hempty⟩
  case seen =>
    refine ⟨2 * length + 2 + outcome.results.size, fun fuel hfuel ops hops => ?_⟩
    have hlong : 2 * length + 1 < fuel := by omega
    have hcount : outcome.results.size < fuel := by omega
    obtain ⟨⟨shorter, hle, hfollows⟩, hreads⟩ := performAll_reads htimeout hops hstart hlong hcount
    rw [performAll_concat]
    exact seesAll_drain htimeout hemitted rfl hreads hfollows (by omega) hcount

/-- A run that hands out more results than the queue holds, and that needs no interceptors. -/
def unread : Run Rehearsal.backend :=
  { script :=
      { name := "unread"
        steps := List.replicate 66 (.waitMillis "pause" 1) }
    registry := .control }

theorem unread_delivers :
    ∃ outcome, unread.collect 70 false {} = some outcome ∧ outcome.results.size = 66 ∧
      outcome.error = none ∧ Delivers unread {} outcome := by
  have hquiet : unread.NeverCancelled {} :=
    Run.neverCancelled_of_isQuiet (Setup.isQuiet_control _) _
  have hsummary : (unread.collect 70 false {}).map
      (fun outcome => (outcome.results.size, outcome.error)) = some (66, none) := by
    decide +kernel
  obtain ⟨outcome, hcollect, houtcome⟩ := Option.map_eq_some_iff.1 hsummary
  obtain ⟨hsize, herror⟩ := Prod.mk.inj houtcome
  exact ⟨outcome, hcollect, hsize, herror, delivers_of_collect rfl hquiet hcollect⟩

end Stream

end StepScript
