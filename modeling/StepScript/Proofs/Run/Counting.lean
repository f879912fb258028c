import StepScript.Proofs.Action.Control
import StepScript.Proofs.Expr.Counting
import StepScript.Proofs.Run.Masks
import StepScript.Proofs.Run.Uncut
import StepScript.Proofs.Run.Walks
import StepScript.Proofs.Template.Expansion
import StepScript.Rehearsal.Browser

/-!
# Counter loops

A loop counts with a parameter: its guard compares the parameter to a bound, and its body adds one to
it. Before each round the guard and the body are expanded again, so that the text of the parameter
becomes part of an expression, whose value becomes the parameter. The loop counts up to its bound and
ends.
-/

namespace StepScript

open Template

variable {B : Backend}

/-- A step of the control actions that succeeds at once is seen as a dispatch only. -/
theorem Setup.IsPlain.dispatch_of_perform {setup : Setup B} (hsetup : setup.IsPlain)
    {step expanded : Step} {context after : Context B} {result : ActionResult} {action : Action B}
    (hresolve : (Registry.control : Registry B).resolve step = some action)
    (hexpand : step.expand context.params context.policy = .ok expanded)
    (h : (perform .control expanded).EndsWith context result after)
    (hsuccess : result.success = true) (hrunning : context.cancelled = false) :
    StepScript.dispatch setup step context = ⟨[⟨.dispatch step, context⟩], .ok result, after⟩ := by
  have htrip : trip setup step context = ⟨[], .ok result, after⟩ := by
    rw [hsetup.trip_eq, carryOut_of_ok hexpand, h]
  have hafter : afterTrip setup step context = after := by
    rw [afterTrip, htrip, seePauses, Context.stayCancelled, hrunning]
    rfl
  have hpauses : tripPauses setup step context = [] := by rw [tripPauses, htrip, seePauses]
  rw [← hsetup.registry] at hresolve
  rw [dispatch_of_resolve hresolve, htrip]
  simp only [hsuccess, if_true, hafter, hpauses]

/-- If a walk leads through the plan of a run, the run comes to the end of the walk. -/
theorem Run.collect_of_walks {run : Run B} {nodes : List Node} {world : B.World}
    {moments : List (Moment B)} {rounds : Nat} {last : Context B}
    (hplan : Plan.resolve run.script.steps = .ok nodes)
    (htimeout : run.settings.timeoutMillis = none) (hquiet : run.NeverCancelled world)
    (h : Walks run.setup nodes (.fresh run.settings.policy false world) moments rounds none last)
    (turn : Nat) :
    ∃ fuel outcome, run.collect fuel false world turn = some outcome ∧
      outcome.Shows moments none last ∧ outcome.emitted = (emittedResults moments).length := by
  obtain ⟨fuel, htrace⟩ := h.exists_trace
  rw [← start_running hplan] at htrace
  have hcollect := collect_shows htimeout hquiet turn fuel
  rw [htrace] at hcollect
  obtain ⟨outcome, houtcome, hsteps, hresults, herror, hcontext⟩ := hcollect
  have huncut : outcome.IsUncut := by
    intro cause hcause
    rw [herror] at hcause
    cases hcause
  obtain ⟨-, seen, -, ⟨-, hseen, -⟩, hcount, -⟩ := collect_uncut houtcome huncut
  refine ⟨fuel, outcome, houtcome, ⟨hsteps, hresults, herror, hcontext⟩, ?_⟩
  rw [hcount, ← hseen, hresults]

/-! ## Reports -/

/-- The steps that go to the interceptors among some moments, and the data of the results that are
handed out. -/
structure Reports (moments : List (Moment B)) (steps : List Step) (data : List (Option Json)) :
    Prop where
  steps : dispatchedSteps moments = steps
  data : (emittedResults moments).map (·.data) = data

namespace Reports

theorem nil : Reports ([] : List (Moment B)) [] [] := ⟨rfl, rfl⟩

theorem dispatch (step : Step) (context : Context B) :
    Reports [⟨.dispatch step, context⟩] [step] [] :=
  ⟨rfl, rfl⟩

theorem emit (result : ActionResult) (context : Context B) :
    Reports [⟨.emit result, context⟩] [] [result.data] :=
  ⟨rfl, rfl⟩

theorem pauseBetween (setup : Setup B) (context : Context B) :
    Reports (Machine.pauseBetween setup context) [] [] := by
  unfold Machine.pauseBetween
  split <;> exact ⟨rfl, rfl⟩

theorem append {first second : List (Moment B)} {steps steps' : List Step}
    {data data' : List (Option Json)} (h : Reports first steps data)
    (h' : Reports second steps' data') :
    Reports (first ++ second) (steps ++ steps') (data ++ data') := by
  refine ⟨?_, ?_⟩
  · rw [dispatchedSteps_append, h.steps, h'.steps]
  · rw [emittedResults_append, List.map_append, h.data, h'.data]

end Reports

/-! ## Counter loops -/

/-- A loop that counts up to a bound, with the names of its script and of its steps. -/
structure CounterLoop where
  bound : Nat
  title : String
  first : String
  again : String
  next : String
  last : String

namespace CounterLoop

variable (loop : CounterLoop)

def start : Step := .putText loop.first "count" "0"

def guard : Step :=
  { name := loop.again, instruction := .whileGuard ("$\x7bcount\x7d<" ++ natText loop.bound) }

def increment : Step := .putExpression loop.next "count" "1+$\x7bcount\x7d"

def script : Script :=
  { name := loop.title
    steps := [loop.start, loop.guard, loop.increment,
      { name := loop.last, instruction := .endWhile }] }

def run (B : Backend) (pollMillis : Nat := 0) : Run B :=
  { script := loop.script, registry := .control, settings := { pollMillis } }

/-- The counter after some rounds: a text at first, and then an integer. -/
def countAfter : Nat → Json
  | 0 => .string "0"
  | rounds + 1 => .ofNat (rounds + 1)

def contextAfter (world : B.World) (rounds : Nat) : Context B :=
  { Context.fresh .lenient false world with
    params := Parameters.empty.set "count" (countAfter rounds) }

theorem display?_count (world : B.World) (rounds : Nat) :
    (contextAfter world rounds).params.display? "count" = some (natText rounds) := by
  have hdisplay : displayText (countAfter rounds) = natText rounds := by
    cases rounds <;> rfl
  rw [← hdisplay]
  rfl

/-- A text with a placeholder for the counter. -/
theorem expandText_count (world : B.World) (rounds : Nat) {before after : String}
    (hbefore : '$' ∉ before.toList) (hafter : '$' ∉ after.toList) :
    expandText (contextAfter world rounds).params .lenient (before ++ "$\x7bcount\x7d" ++ after) =
      .ok (before ++ natText rounds ++ after) := by
  have hname : "count".toList.all isNameChar = true := by decide
  have hplaceholder : "$\x7bcount\x7d" = String.ofList (placeholderChars "count".toList) := by
    decide
  rw [hplaceholder]
  exact expandText_placeholder hbefore (by decide)
    (fun c hc => isNameChar_iff.1 (List.all_eq_true.1 hname c hc)) (display?_count world rounds) hafter

theorem expandText_guard (world : B.World) (rounds : Nat) :
    expandText (contextAfter world rounds).params .lenient
        ("$\x7bcount\x7d<" ++ natText loop.bound) =
      .ok (natText rounds ++ "<" ++ natText loop.bound) := by
  have hafter : '$' ∉ ("<" ++ natText loop.bound).toList := by
    rw [String.toList_append, toList_natText, List.mem_append, not_or]
    exact ⟨by decide, fun h => absurd (isDigit_of_mem_digitsOfNat _ h) (by decide)⟩
  have hexpand := expandText_count world rounds (by decide : '$' ∉ "".toList) hafter
  rwa [String.empty_append, String.empty_append, ← String.append_assoc, ← String.append_assoc]
    at hexpand

theorem expandText_increment (world : B.World) (rounds : Nat) :
    expandText (contextAfter world rounds).params .lenient "1+$\x7bcount\x7d" =
      .ok (natText 1 ++ "+" ++ natText rounds) := by
  have hone : natText 1 ++ "+" = "1+" := by decide
  have hexpand := expandText_count world rounds (by decide : '$' ∉ "1+".toList)
    (by decide : '$' ∉ "".toList)
  rwa [String.append_empty, String.append_empty, ← hone] at hexpand

/-! ## Rounds -/

variable {setup : Setup B} (hsetup : setup.IsPlain) (world : B.World)

include hsetup

/-- The first step sets the counter. -/
theorem dispatch_start : ∃ result, result.data = some (countAfter 0) ∧
    dispatch setup loop.start (.fresh .lenient false world) =
      ⟨[⟨.dispatch loop.start, .fresh .lenient false world⟩], .ok result,
        contextAfter world 0⟩ := by
  have htext : loop.start.instruction.mapTexts
      (expandText (Context.fresh .lenient false world : Context B).params .lenient) =
        .ok loop.start.instruction := by
    simp only [start, Step.putText, Instruction.mapTexts, mapOptional,
      expandText_eq_self (by decide : '$' ∉ "count".toList),
      expandText_eq_self (by decide : '$' ∉ "0".toList)]
    rfl
  obtain ⟨name, hexpand⟩ := Step.exists_expand htext loop.first
  exact ⟨_, rfl, hsetup.dispatch_of_perform rfl hexpand (perform_putText name _ "count" "0") rfl rfl⟩

/-- The guard holds as long as fewer rounds than the bound are over. -/
theorem dispatch_guard {rounds : Nat} (hrounds : rounds < twoTo 53)
    (hbound : loop.bound < twoTo 53) :
    ∃ result, result.condition = decide (rounds < loop.bound) ∧
      dispatch setup loop.guard (contextAfter world rounds) =
        ⟨[⟨.dispatch loop.guard, contextAfter world rounds⟩], .ok result,
          contextAfter world rounds⟩ := by
  have htext : loop.guard.instruction.mapTexts
      (expandText (contextAfter world rounds).params .lenient) =
        .ok (.whileGuard (natText rounds ++ "<" ++ natText loop.bound)) := by
    simp only [guard, Instruction.mapTexts, expandText_guard]
    rfl
  obtain ⟨name, hexpand⟩ := Step.exists_expand htext loop.again
  have hholds : Expr.holds (natText rounds ++ "<" ++ natText loop.bound) =
      .ok (decide (rounds < loop.bound)) := by
    rw [Expr.holds, Expr.evaluate_less hrounds hbound]
    rfl
  exact ⟨_, rfl, hsetup.dispatch_of_perform rfl hexpand (perform_whileGuard name _ hholds) rfl rfl⟩

/-- The body adds one. -/
theorem dispatch_increment {rounds : Nat} (h : rounds + 1 < twoTo 53) :
    ∃ result, result.data = some (countAfter (rounds + 1)) ∧
      dispatch setup loop.increment (contextAfter world rounds) =
        ⟨[⟨.dispatch loop.increment, contextAfter world rounds⟩], .ok result,
          contextAfter world (rounds + 1)⟩ := by
  have htext : loop.increment.instruction.mapTexts
      (expandText (contextAfter world rounds).params .lenient) =
        .ok (.putParam "count" none (some (natText 1 ++ "+" ++ natText rounds)) false true) := by
    simp only [increment, Step.putExpression, Instruction.mapTexts, mapOptional,
      expandText_eq_self (by decide : '$' ∉ "count".toList), expandText_increment]
    rfl
  obtain ⟨name, hexpand⟩ := Step.exists_expand htext loop.next
  have hvalue := Expr.evaluate_add (a := 1) (b := rounds) (by omega)
  have hdata : (Value.number (.ofInt (1 + rounds : Nat))).toJson = countAfter (rounds + 1) := by
    rw [Value.toJson_ofInt (by omega), Nat.add_comm]
    rfl
  have hperform := perform_putExpression name (contextAfter world rounds) hvalue "count"
  rw [hdata] at hperform
  exact ⟨_, rfl, hsetup.dispatch_of_perform rfl hexpand hperform rfl rfl⟩

/-- The rounds that are left, from the guard on. -/
theorem walks_rounds (hbound : loop.bound < twoTo 53) (left : Nat) {rounds : Nat}
    (hrounds : rounds + left = loop.bound) :
    ∃ moments completed, Walks setup [.loop loop.guard [.sequential loop.increment]]
        (contextAfter world rounds) moments completed none (contextAfter world loop.bound) ∧
      Reports moments ((List.replicate left [loop.guard, loop.increment]).flatten ++ [loop.guard])
        ((List.range' (rounds + 1) left).map fun count => some (.ofNat count)) := by
  induction left generalizing rounds with
  | zero =>
    obtain rfl : rounds = loop.bound := hrounds
    obtain ⟨result, hcondition, hguard⟩ := dispatch_guard loop hsetup world hbound hbound
    rw [decide_eq_false (Nat.lt_irrefl _)] at hcondition
    exact ⟨_, _, .loopEnds rfl hguard hcondition .done, rfl, rfl⟩
  | succ left ih =>
    have hmore : rounds < loop.bound := by omega
    obtain ⟨result, hcondition, hguard⟩ :=
      dispatch_guard loop hsetup world (Nat.lt_trans hmore hbound) hbound
    rw [decide_eq_true hmore] at hcondition
    obtain ⟨increased, hdata, hincrement⟩ :=
      dispatch_increment loop hsetup world (Nat.lt_of_le_of_lt hmore hbound)
    have hbody : Walks setup [.sequential loop.increment] _ _ 0 none _ :=
      .sequential rfl hincrement .done
    have hleft : rounds + 1 + left = loop.bound := by omega
    obtain ⟨later, completed, hrest, hlater⟩ := ih hleft
    have hincremented := ((Reports.dispatch loop.increment (contextAfter world rounds)).append
      (.emit increased (contextAfter world (rounds + 1)))).append .nil
    have hround := hincremented.append (.pauseBetween setup (contextAfter world (rounds + 1)))
    have hall := (Reports.dispatch loop.guard (contextAfter world rounds)).append
      (hround.append hlater)
    rw [hdata] at hall
    exact ⟨_, _, .round rfl hguard hcondition hbody hrest, hall⟩

omit hsetup

/-! ## Runs -/

/-- A counter loop with a bound that binary64 numbers represent exactly, with everything below it,
comes to its end: its guard is dispatched before every round and once more, its body in every round,
and the results are the counter after each number of rounds. -/
theorem collect_counts (h : loop.bound ≤ 2 ^ 53 - 1) (pollMillis turn : Nat) :
    ∃ fuel outcome, (loop.run B pollMillis).collect fuel false world turn = some outcome ∧
      outcome.error = none ∧
      outcome.dispatches.toList.map Prod.snd = loop.start ::
        ((List.replicate loop.bound [loop.guard, loop.increment]).flatten ++ [loop.guard]) ∧
      outcome.results.toList.map (·.data) =
        some (.string "0") :: (List.range' 1 loop.bound).map (fun count => some (.ofNat count)) ∧
      outcome.emitted = loop.bound + 1 ∧
      outcome.params = Parameters.empty.set "count" (countAfter loop.bound) := by
  have hbound : loop.bound < twoTo 53 := Nat.lt_of_le_sub_one (twoTo_pos 53) h
  have hplain : (loop.run B pollMillis).setup.IsPlain := ⟨rfl, rfl⟩
  have hquiet : (loop.run B pollMillis).NeverCancelled world :=
    Run.neverCancelled_of_isQuiet (Setup.isQuiet_control pollMillis) world
  obtain ⟨first, hdata, hstart⟩ := dispatch_start loop hplain world
  obtain ⟨later, rounds, hrest, hlater⟩ := walks_rounds loop hplain world hbound loop.bound
    (Nat.zero_add _)
  have hreports := ((Reports.dispatch loop.start (.fresh .lenient false world)).append
    (.emit first (contextAfter world 0))).append hlater
  rw [hdata] at hreports
  have hplan : Plan.resolve (loop.run B pollMillis).script.steps =
      .ok [.sequential loop.start, .loop loop.guard [.sequential loop.increment]] := rfl
  obtain ⟨fuel, outcome, houtcome, ⟨hsteps, hresults, herror, hcontext⟩, hemitted⟩ :=
    Run.collect_of_walks hplan rfl hquiet (.sequential rfl hstart hrest) turn
  have hdata' : outcome.results.toList.map (·.data) = _ :=
    (congrArg (List.map (·.data)) hresults).trans hreports.data
  refine ⟨fuel, outcome, houtcome, herror, hsteps.trans hreports.steps, hdata', ?_, ?_⟩
  · rw [hemitted, ← List.length_map (·.data), hreports.data]
    simp
  · rw [Outcome.params, hcontext]
    rfl

/-- A loop that counts up to three. -/
def threeRounds : CounterLoop where
  bound := 3
  title := "three"
  first := "init"
  again := "loop"
  next := "bump"
  last := "loop end"

/-- The guard is dispatched four times and the body three times. -/
theorem collect_threeRounds : threeRounds.bound ≤ 2 ^ 53 - 1 ∧
    ∃ fuel outcome, (threeRounds.run Rehearsal.backend).collect fuel false {} = some outcome ∧
      outcome.error = none ∧
      outcome.dispatches.toList.map (·.2.name) =
        ["init", "loop", "bump", "loop", "bump", "loop", "bump", "loop"] ∧
      outcome.results.toList.map (·.data) =
        [some (.string "0"), some (.ofNat 1), some (.ofNat 2), some (.ofNat 3)] ∧
      outcome.emitted = 4 ∧ outcome.params.get? "count" = some (.ofNat 3) := by
  have hbound : threeRounds.bound ≤ 2 ^ 53 - 1 := by decide
  obtain ⟨fuel, outcome, houtcome, herror, hsteps, hresults, hemitted, hparams⟩ :=
    @collect_counts Rehearsal.backend threeRounds {} hbound 0 turnLength
  refine ⟨hbound, fuel, outcome, houtcome, herror, ?_, hresults, hemitted, ?_⟩
  · have hnames := congrArg (List.map Step.name) hsteps
    rwa [List.map_map] at hnames
  · rw [hparams]
    rfl

end CounterLoop

end StepScript
