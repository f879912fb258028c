import StepScript.Proofs.Run.Cancellation

/-!
# Runs that are cancelled while they work

A run that works does not notice at once that another party has cancelled it. It looks at its token
before each node and after the pause of each loop, but not again before the dispatch that follows.
So at most one step is sent after a cancellation, and none if the run waits when it is cancelled, or
if it is cancelled by those who take part in a dispatch.
-/

namespace StepScript

variable {B : Backend}

/-! ## Paths -/

/-- Any number of steps in a row, with all that is seen of them. -/
inductive Path {σ ω : Type} (step : σ → List ω → σ → Prop) (first : σ) : List ω → σ → Prop where
  | refl : Path step first [] first
  | tail {seen more : List ω} {middle last : σ} (h : Path step first seen middle)
      (hstep : step middle more last) : Path step first (seen ++ more) last

section

variable {σ ω : Type} {step : σ → List ω → σ → Prop} {first last : σ} {seen : List ω}

theorem Path.single (h : step first seen last) : Path step first seen last := .tail .refl h

theorem Path.trans {later : σ} {more : List ω} (h : Path step first seen last)
    (h' : Path step last more later) : Path step first (seen ++ more) later := by
  induction h' with
  | refl =>
    rw [List.append_nil]
    exact h
  | tail _ hstep ih =>
    rw [← List.append_assoc]
    exact ih.tail hstep

/-- What every step preserves holds after every path. -/
theorem Path.invariant {I : σ → Prop} (hkeeps : ∀ s more t, I s → step s more t → I t)
    (h : Path step first seen last) (hfirst : I first) : I last := by
  induction h with
  | refl => exact hfirst
  | tail _ hlast ih => exact hkeeps _ _ _ ih hlast

end

/-! ## Looking at the token -/

namespace Machine

/-- What a run knows of its token when it makes a move: it looks at it before a node and before the
pause of a loop. -/
def State.look (token : Bool) (state : State B) : State B :=
  match state.frames with
  | .visit (_ :: _) :: _ | .rest _ _ :: _ =>
    { state with context := { state.context with cancelled := token || state.context.cancelled } }
  | _ => state

/-- Whether the guard of a loop comes next. -/
def Next.checks : Next B → Bool
  | .resume ⟨frame :: _, _⟩ => frame.checks
  | .resume ⟨[], _⟩ | .ended .. => false

theorem State.look_of_cancelled {token : Bool} {state : State B}
    (h : token = true → state.context.cancelled = true) : state.look token = state := by
  have hsame : (token || state.context.cancelled) = state.context.cancelled := by
    cases token with
    | false => rfl
    | true => rw [h rfl, Bool.or_true]
  unfold State.look
  split
  · rw [hsame]
  · rw [hsame]
  · rfl

theorem State.Heeds.look {state : State B} (h : state.Heeds) (token : Bool) :
    (state.look token).Heeds := by
  obtain ⟨frames, context⟩ := state
  obtain ⟨hfirst, hbelow⟩ := h
  match frames with
  | [] => exact ⟨hfirst, hbelow⟩
  | .visit [] :: _ => exact ⟨hfirst, hbelow⟩
  | .check .. :: _ => exact ⟨hfirst, hbelow⟩
  | .visit (_ :: _) :: _ | .rest .. :: _ =>
    refine ⟨fun frame hframe hchecks => ?_, hbelow⟩
    obtain rfl := Option.some.inj hframe
    cases hchecks

end Machine

/-! ## Dispatches that are due -/

/-- How many steps are sent before the run looks at its token again. -/
def pending (moments : List (Moment B)) (next : Machine.Next B) : Nat :=
  (dispatchedSteps moments).length + next.checks.toNat

theorem pending_cons (moment : Moment B) (moments : List (Moment B)) (next : Machine.Next B) :
    pending (moment :: moments) next =
      moment.signal.dispatched?.toList.length + pending moments next := by
  unfold pending dispatchedSteps
  rw [List.filterMap_cons]
  cases moment.signal.dispatched? with
  | none => simp
  | some step =>
    simp only [List.length_cons, Option.toList_some, List.length_nil]
    omega

namespace Machine

variable {setup : Setup B} {step : Step} {context : Context B}

theorem length_dispatchedSteps_dispatch (setup : Setup B) (step : Step) (context : Context B) :
    (dispatchedSteps (dispatch setup step context).moments).length ≤ 1 := by
  rcases dispatch_cases setup step context with hnone | ⟨failures, hmoments, -, -⟩
  · rw [hnone]
    exact Nat.zero_le 1
  · have hrest : dispatchedSteps (tripPauses setup step context ++
        failures.map fun result => ⟨.emit result, afterTrip setup step context⟩) = [] := by
      rw [dispatchedSteps, List.filterMap_eq_nil_iff]
      intro moment hmoment
      rcases List.mem_append.1 hmoment with hpause | hfailure
      · exact Collect.dispatched?_of_isPause (isPause_of_mem_tripPauses hpause)
      · obtain ⟨result, -, rfl⟩ := List.mem_map.1 hfailure
        rfl
    rw [hmoments, dispatchedSteps, List.filterMap_cons]
    exact Nat.le_of_eq (congrArg (·.length + 1) hrest)

/-- After a dispatch that does not lead to the guard of a loop, nothing is due. -/
theorem pending_afterDispatch {frames : ActionResult → List Frame}
    {proceed : List (Moment B) → ActionResult → Context B → Move B}
    (hproceed : proceed = emitting frames ∨ proceed = silent frames)
    (hframes : ∀ result, ∀ frame ∈ frames result, frame.checks = false) :
    pending (afterDispatch setup step context proceed).moments
      (afterDispatch setup step context proceed).next ≤ 1 := by
  have hone := length_dispatchedSteps_dispatch setup step context
  have hcalm : ∀ result context, (Next.resume ⟨frames result, context⟩ : Next B).checks = false := by
    intro result context
    cases hlist : frames result with
    | nil => rfl
    | cons frame rest => exact hframes result frame (hlist ▸ List.mem_cons_self ..)
  simp only [afterDispatch]
  split
  · rcases hproceed with rfl | rfl
    · simpa [pending, emitting, dispatchedSteps, Signal.dispatched?, hcalm] using hone
    · simpa [pending, silent, hcalm] using hone
  · exact hone

theorem pending_pauseBetween (setup : Setup B) (context : Context B) (next : Next B) :
    pending (pauseBetween setup context) next = next.checks.toNat := by
  have hpauses : dispatchedSteps (pauseBetween setup context) = [] := by
    rw [dispatchedSteps, List.filterMap_eq_nil_iff]
    exact fun moment hmoment =>
      Collect.dispatched?_of_isPause (isPause_pauseBetween hmoment).1
  rw [pending, hpauses]
  exact Nat.zero_add _

/-- At most one step is due after every move. -/
theorem pending_advance (setup : Setup B) {state : State B} (h : state.Heeds) :
    pending (advance setup state).moments (advance setup state).next ≤ 1 := by
  obtain ⟨frames, context⟩ := state
  have hbelow := h.below
  match frames with
  | [] => exact Nat.zero_le 1
  | .visit [] :: rest => exact Nat.le_trans (Nat.le_of_eq (Nat.zero_add _)) (Bool.toNat_le _)
  | .visit (node :: nodes) :: rest =>
    have hlater : ∀ frame ∈ Frame.visit nodes :: rest, frame.checks = false :=
      List.forall_mem_cons.2 ⟨rfl, hbelow⟩
    simp only [advance]
    split
    · exact Nat.zero_le 1
    · cases node with
      | sequential step => exact pending_afterDispatch (.inl rfl) fun _ => hlater
      | conditional guard thenBranch elseBranch =>
        exact pending_afterDispatch (.inl rfl) fun _ => List.forall_mem_cons.2 ⟨rfl, hlater⟩
      -- the loop is entered without a dispatch, and its guard follows without a look at the token
      | loop guard body => exact Nat.le_refl 1
  | .check guard body :: rest =>
    refine pending_afterDispatch (.inr rfl) fun result => ?_
    split
    · exact List.forall_mem_cons.2 ⟨rfl, List.forall_mem_cons.2 ⟨rfl, hbelow⟩⟩
    · exact hbelow
  | .rest guard body :: rest =>
    simp only [advance]
    split
    · rw [pending_pauseBetween]
      exact Bool.toNat_le _
    · rw [pending_pauseBetween]
      exact Bool.toNat_le _

/-- Once the token is cancelled, a move makes no other step due. -/
theorem pending_advance_look (setup : Setup B) {state : State B} (h : state.Heeds) :
    pending (advance setup (state.look true)).moments (advance setup (state.look true)).next ≤
      pending [] (.resume state) := by
  obtain ⟨frames, context⟩ := state
  match frames with
  | [] => exact Nat.zero_le _
  | .visit [] :: [] => exact Nat.zero_le _
  | .visit [] :: frame :: rest =>
    have hcalm : frame.checks = false := h.below frame (List.mem_cons_self ..)
    simp [State.look, advance, pending, dispatchedSteps, Next.checks, hcalm]
  | .visit (node :: nodes) :: rest => exact Nat.zero_le _
  | .check guard body :: rest => exact pending_advance setup h
  | .rest guard body :: rest =>
    simp only [State.look, advance, Bool.true_or, if_true]
    rw [pending_pauseBetween]
    exact Nat.zero_le _

theorem emittedResults_pauseBetween (setup : Setup B) (context : Context B) :
    emittedResults (pauseBetween setup context) = [] := by
  rw [emittedResults, List.filterMap_eq_nil_iff]
  exact fun moment hmoment => Collect.emitted?_of_isPause (isPause_pauseBetween hmoment).1

/-- A move of a run that knows of its cancellation hands out nothing and leads to the same end. -/
theorem advance_of_cancelled (setup : Setup B) {state : State B} (h : state.Heeds)
    (hcancelled : state.context.cancelled = true) :
    emittedResults (advance setup state).moments = [] ∧
      (advance setup state).next.verdict = (Next.resume state).verdict := by
  obtain ⟨frames, context⟩ := state
  match frames with
  | [] => exact ⟨rfl, rfl⟩
  | .visit [] :: rest => exact ⟨rfl, rfl⟩
  | .visit (node :: nodes) :: rest =>
    have hstop : advance setup ⟨.visit (node :: nodes) :: rest, context⟩ =
        ⟨[], .ended (some .cancelled) context⟩ := if_pos hcancelled
    rw [hstop]
    exact ⟨rfl, rfl⟩
  | .check guard body :: rest => cases (h.first _ rfl rfl).symm.trans hcancelled
  | .rest guard body :: rest =>
    have hstop : advance setup ⟨.rest guard body :: rest, context⟩ =
        ⟨pauseBetween setup context, .ended (some .cancelled) context⟩ := if_pos hcancelled
    rw [hstop]
    exact ⟨emittedResults_pauseBetween setup context, rfl⟩

end Machine

/-! ## Collected runs -/

open Collect

/-- What can happen to a collected run and its token, which another party may cancel at any time, with
the steps that are sent. What a dispatch comes to may depend on when exactly the token is cancelled;
so the interceptors of a move are arbitrary. -/
inductive Position.Happens (run : Run B) : Bool × Position B → List Step → Bool × Position B → Prop where
  | cancels {token : Bool} {position : Position B} :
      Happens run (token, position) [] (true, position)
  | moves {token : Bool} {state : Collect.State B} {machine : Machine.State B}
      {interceptors : List (Interceptor B)} :
      Happens run (token, ⟨state, [], .resume machine⟩) []
        (token, ⟨state,
          (Machine.advance { run.setup with interceptors } (machine.look token)).moments,
          (Machine.advance { run.setup with interceptors } (machine.look token)).next⟩)
  /-- After the pause of a loop the run looks at its token once more. -/
  | looks {state : Collect.State B} {guard : Step} {body : List Node} {frames : List Machine.Frame}
      {context : Context B} :
      Happens run (true, ⟨state, [], .resume ⟨.check guard body :: frames, context⟩⟩) []
        (true, ⟨state, [], .ended (some .cancelled) context⟩)
  /-- A run that waits goes on only if its token has not been cancelled. -/
  | passes {token : Bool} {state later : Collect.State B} {moment : Moment B}
      {moments : List (Moment B)} {next : Machine.Next B}
      (hobserve : state.observe run.settings.timeoutMillis moment = .ok later)
      (hcalm : state.waits moment.signal = true → token = false) :
      Happens run (token, ⟨state, moment :: moments, next⟩) moment.signal.dispatched?.toList
        (token, ⟨later, moments, next⟩)

/-- At a position of a run that others may cancel, at most one step is due. -/
structure Position.IsSafe (position : Position B) : Prop where
  heeds : Heeds false position.moments position.next
  due : pending position.moments position.next ≤ 1

namespace Position

variable {run : Run B} {before later : Bool × Position B} {sent : List Step}

theorem Happens.isSafe (hsafe : before.2.IsSafe) (h : Happens run before sent later) :
    later.2.IsSafe := by
  obtain ⟨hheeds, hdue⟩ := hsafe
  cases h with
  | cancels => exact ⟨hheeds, hdue⟩
  | @moves token _ machine interceptors =>
    cases hheeds with
    | last _ hnext =>
      have hlook : (machine.look token).Heeds := Machine.State.Heeds.look hnext token
      exact ⟨(Machine.advance_heeds _ hlook).running, Machine.pending_advance _ hlook⟩
  | looks =>
    refine ⟨.last nofun ?_, Nat.zero_le 1⟩
    rintro - cause ⟨⟩
    exact .inl rfl
  | passes =>
    rw [pending_cons] at hdue
    exact ⟨hheeds.tail.running, Nat.le_trans (Nat.le_add_left _ _) hdue⟩

/-- Once the token is cancelled, every step that is sent was due. -/
theorem Happens.pending (hsafe : before.2.IsSafe) (htoken : before.1 = true)
    (h : Happens run before sent later) :
    sent.length + StepScript.pending later.2.moments later.2.next ≤
      StepScript.pending before.2.moments before.2.next := by
  cases h with
  | cancels => exact Nat.le_of_eq (Nat.zero_add _)
  | moves =>
    obtain rfl := htoken
    cases hsafe.heeds with
    | last _ hnext =>
      rw [List.length_nil, Nat.zero_add]
      exact Machine.pending_advance_look _ hnext
  | looks => exact Nat.zero_le _
  | passes => exact Nat.le_of_eq (pending_cons ..).symm

theorem Happens.token (h : Happens run before sent later) (htoken : before.1 = true) :
    later.1 = true := by
  cases h with
  | cancels | looks => rfl
  | moves | passes => exact htoken

variable {position : Position B} {last : Bool × Position B}

end Position

namespace Run

variable {run : Run B} {cancelled : Bool} {world : B.World} {turn : Nat} {nodes : List Node}

theorem pending_start (hplan : Plan.resolve run.script.steps = .ok nodes) :
    pending [] (run.start cancelled world) = 0 := by
  simp only [Run.start, Machine.start, hplan]
  split <;> rfl

end Run

end StepScript
