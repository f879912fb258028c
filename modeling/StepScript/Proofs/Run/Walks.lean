import StepScript.Proofs.Run.Trace

/-!
# Walks

A walk goes through the blocks of a plan as a whole: block by block and, in a loop, round by round. It
is described without a stack. A run that nobody stops makes the moves of a walk, and if such a run
ends, it has gone through a walk.
-/

namespace StepScript

variable {B : Backend}

def Node.entry : Node → Step
  | .sequential step => step
  | .conditional guard _ _ => guard
  | .loop guard _ => guard

open Machine

/-- The way through the nodes of a block from some context on: what is seen of it, how many rounds of
loops are completed, and the error and the context with which it ends. Nobody cancels the run before
a node. -/
inductive Walks (setup : Setup B) :
    List Node → Context B → List (Moment B) → Nat → Option RunError → Context B → Prop where
  | done {context : Context B} : Walks setup [] context [] 0 none context
  /-- The first step fails, or no action supports it. -/
  | fails {node : Node} {nodes : List Node} {context after : Context B}
      {moments : List (Moment B)} {cause : RunError} (hrunning : context.cancelled = false)
      (h : dispatch setup node.entry context = ⟨moments, .error cause, after⟩) :
      Walks setup (node :: nodes) context moments 0 (some cause) after
  | sequential {step : Step} {nodes : List Node} {context after last : Context B}
      {moments later : List (Moment B)} {result : ActionResult} {rounds : Nat}
      {error : Option RunError} (hrunning : context.cancelled = false)
      (h : dispatch setup step context = ⟨moments, .ok result, after⟩)
      (hrest : Walks setup nodes after later rounds error last) :
      Walks setup (.sequential step :: nodes) context
        (moments ++ [⟨.emit result, after⟩] ++ later) rounds error last
  /-- The branch of a condition fails. -/
  | branchFails {guard : Step} {thenBranch elseBranch nodes : List Node}
      {context after last : Context B} {moments within : List (Moment B)} {result : ActionResult}
      {rounds : Nat} {cause : RunError} (hrunning : context.cancelled = false)
      (h : dispatch setup guard context = ⟨moments, .ok result, after⟩)
      (hbranch : Walks setup (if result.condition then thenBranch else elseBranch) after within
        rounds (some cause) last) :
      Walks setup (.conditional guard thenBranch elseBranch :: nodes) context
        (moments ++ [⟨.emit result, after⟩] ++ within) rounds (some cause) last
  | conditional {guard : Step} {thenBranch elseBranch nodes : List Node}
      {context after middle last : Context B} {moments within later : List (Moment B)}
      {result : ActionResult} {rounds rounds' : Nat} {error : Option RunError}
      (hrunning : context.cancelled = false)
      (h : dispatch setup guard context = ⟨moments, .ok result, after⟩)
      (hbranch : Walks setup (if result.condition then thenBranch else elseBranch) after within
        rounds none middle)
      (hrest : Walks setup nodes middle later rounds' error last) :
      Walks setup (.conditional guard thenBranch elseBranch :: nodes) context
        (moments ++ [⟨.emit result, after⟩] ++ (within ++ later)) (rounds + rounds') error last
  /-- The guard of a loop does not hold. -/
  | loopEnds {guard : Step} {body nodes : List Node} {context after last : Context B}
      {moments later : List (Moment B)} {result : ActionResult} {rounds : Nat}
      {error : Option RunError} (hrunning : context.cancelled = false)
      (h : dispatch setup guard context = ⟨moments, .ok result, after⟩)
      (hcondition : result.condition = false)
      (hrest : Walks setup nodes after later rounds error last) :
      Walks setup (.loop guard body :: nodes) context (moments ++ later) rounds error last
  /-- The body of a loop fails. -/
  | bodyFails {guard : Step} {body nodes : List Node} {context after last : Context B}
      {moments within : List (Moment B)} {result : ActionResult} {rounds : Nat} {cause : RunError}
      (hrunning : context.cancelled = false)
      (h : dispatch setup guard context = ⟨moments, .ok result, after⟩)
      (hcondition : result.condition = true)
      (hbody : Walks setup body after within rounds (some cause) last) :
      Walks setup (.loop guard body :: nodes) context (moments ++ within) rounds (some cause) last
  /-- A round of a loop is completed, and the loop begins again. -/
  | round {guard : Step} {body nodes : List Node} {context after middle last : Context B}
      {moments within later : List (Moment B)} {result : ActionResult} {rounds rounds' : Nat}
      {error : Option RunError} (hrunning : context.cancelled = false)
      (h : dispatch setup guard context = ⟨moments, .ok result, after⟩)
      (hcondition : result.condition = true)
      (hbody : Walks setup body after within rounds none middle)
      (hrest : Walks setup (.loop guard body :: nodes) middle later rounds' error last) :
      Walks setup (.loop guard body :: nodes) context
        (moments ++ (within ++ pauseBetween setup middle ++ later)) (rounds + 1 + rounds') error last

section

variable {setup : Setup B} {context after last : Context B} {moments : List (Moment B)}
  {step guard : Step} {body nodes : List Node} {node : Node} {rest : List Frame}
  {result : ActionResult} {cause : RunError} {rounds : Nat} {error : Option RunError}

/-- A walk does not begin with a node in a run that is cancelled. -/
theorem Walks.running (h : Walks setup (node :: nodes) context moments rounds error last) :
    context.cancelled = false := by
  cases h <;> assumption

/-! ## Moves of the machine -/

namespace Machine

theorem proceed_done :
    proceed setup (.resume ⟨.visit [] :: rest, context⟩) = ([], .resume ⟨rest, context⟩) :=
  rfl

theorem proceed_cancelled (h : context.cancelled = true) :
    proceed setup (.resume ⟨.visit (node :: nodes) :: rest, context⟩) =
      ([], .ended (some .cancelled) context) := by
  simp only [proceed, advance, h, if_true]

theorem proceed_visit (h : context.cancelled = false) :
    proceed setup (.resume ⟨.visit (node :: nodes) :: rest, context⟩) =
      ((visitNode setup context (.visit nodes :: rest) node).moments,
        (visitNode setup context (.visit nodes :: rest) node).next) := by
  simp only [proceed, advance, h, Bool.false_eq_true, if_false]

theorem proceed_loop (h : context.cancelled = false) :
    proceed setup (.resume ⟨.visit (.loop guard body :: nodes) :: rest, context⟩) =
      ([], .resume ⟨.check guard body :: .visit nodes :: rest, context⟩) :=
  proceed_visit h

theorem proceed_rest (h : context.cancelled = false) :
    proceed setup (.resume ⟨.rest guard body :: rest, context⟩) =
      (pauseBetween setup context, .resume ⟨.check guard body :: rest, context⟩) := by
  simp only [proceed, advance, h, Bool.false_eq_true, if_false]

theorem proceed_rest_cancelled (h : context.cancelled = true) :
    proceed setup (.resume ⟨.rest guard body :: rest, context⟩) =
      (pauseBetween setup context, .ended (some .cancelled) context) := by
  simp only [proceed, advance, h, if_true]

theorem afterDispatch_ok {proceed : List (Moment B) → ActionResult → Context B → Move B}
    (h : dispatch setup step context = ⟨moments, .ok result, after⟩) :
    afterDispatch setup step context proceed = proceed moments result after := by
  simp only [afterDispatch, h]

theorem afterDispatch_error {proceed : List (Moment B) → ActionResult → Context B → Move B}
    (h : dispatch setup step context = ⟨moments, .error cause, after⟩) :
    afterDispatch setup step context proceed = ⟨moments, .ended (some cause) after⟩ := by
  simp only [afterDispatch, h]

theorem proceed_check_ok (h : dispatch setup guard context = ⟨moments, .ok result, after⟩) :
    proceed setup (.resume ⟨.check guard body :: rest, context⟩) =
      (moments, .resume ⟨if result.condition then .visit body :: .rest guard body :: rest else rest,
        after⟩) := by
  simp only [proceed, advance, afterDispatch_ok h, silent]

theorem proceed_check_error (h : dispatch setup guard context = ⟨moments, .error cause, after⟩) :
    proceed setup (.resume ⟨.check guard body :: rest, context⟩) =
      (moments, .ended (some cause) after) := by
  simp only [proceed, advance, afterDispatch_error h]

end Machine

/-! ## From walks to moves -/

/-- Where a run is after a block that stands before other frames. -/
def Machine.leave (rest : List Frame) (error : Option RunError) (last : Context B) : Next B :=
  match error with
  | none => .resume ⟨rest, last⟩
  | some cause => .ended (some cause) last

theorem trace_trans {ω σ : Type} {move : σ → List ω × σ} {m n : Nat} {first second third : σ}
    {shown later : List ω} (h : trace move m first = (shown, second))
    (h' : trace move n second = (later, third)) :
    trace move (m + n) first = (shown ++ later, third) := by
  rw [trace_add, h, h']

/-- The machine makes the moves of a walk. It needs one at least. -/
theorem Walks.trace (h : Walks setup nodes context moments rounds error last) (rest : List Frame) :
    ∃ n, trace (proceed setup) (n + 1) (.resume ⟨.visit nodes :: rest, context⟩) =
      (moments, leave rest error last) := by
  induction h generalizing rest with
  | done => exact ⟨0, trace_one _ _⟩
  | @fails node nodes context after moments cause hrunning h =>
    cases node with
    | sequential step =>
      have hstep : dispatch setup step context = _ := h
      refine ⟨0, ?_⟩
      rw [trace_one, proceed_visit hrunning, visitNode, afterDispatch_error hstep]
      rfl
    | conditional guard _ _ =>
      have hguard : dispatch setup guard context = _ := h
      refine ⟨0, ?_⟩
      rw [trace_one, proceed_visit hrunning, visitNode, afterDispatch_error hguard]
      rfl
    | loop guard body =>
      have hguard : dispatch setup guard context = _ := h
      refine ⟨1, ?_⟩
      rw [trace_succ, proceed_loop hrunning, trace_one, proceed_check_error hguard]
      rfl
  | sequential hrunning h hrest ih =>
    obtain ⟨n, hn⟩ := ih rest
    refine ⟨n + 1, ?_⟩
    rw [trace_succ, proceed_visit hrunning, visitNode, afterDispatch_ok h, emitting, hn]
  | branchFails hrunning h hbranch ih =>
    obtain ⟨n, hn⟩ := ih (.visit _ :: rest)
    refine ⟨n + 1, ?_⟩
    rw [trace_succ, proceed_visit hrunning, visitNode, afterDispatch_ok h, emitting, hn]
    rfl
  | conditional hrunning h hbranch hrest ih ih' =>
    obtain ⟨n, hn⟩ := ih (.visit _ :: rest)
    obtain ⟨n', hn'⟩ := ih' rest
    refine ⟨n + 1 + (n' + 1), ?_⟩
    rw [trace_succ, proceed_visit hrunning, visitNode, afterDispatch_ok h, emitting,
      trace_trans hn hn']
  | loopEnds hrunning h hcondition hrest ih =>
    obtain ⟨n, hn⟩ := ih rest
    refine ⟨n + 1 + 1, ?_⟩
    rw [trace_succ, proceed_loop hrunning, trace_succ, proceed_check_ok h]
    simp only [hcondition, Bool.false_eq_true, if_false, hn, List.nil_append]
  | @bodyFails guard body nodes _ _ _ _ _ _ _ _ hrunning h hcondition hbody ih =>
    obtain ⟨n, hn⟩ := ih (.rest guard body :: .visit nodes :: rest)
    refine ⟨n + 1 + 1, ?_⟩
    rw [trace_succ, proceed_loop hrunning, trace_succ, proceed_check_ok h]
    simp only [hcondition, if_true, hn, List.nil_append]
    rfl
  | @round guard body nodes _ _ _ _ _ _ _ _ _ _ _ hrunning h hcondition hbody hrest ih ih' =>
    obtain ⟨n, hn⟩ := ih (.rest guard body :: .visit nodes :: rest)
    obtain ⟨n', hn'⟩ := ih' rest
    -- the next round begins at the guard, one move after the node of the loop
    rw [trace_succ, proceed_loop hrest.running, List.nil_append] at hn'
    have hpause := @proceed_rest _ setup _ guard body (.visit nodes :: rest) hrest.running
    rw [← trace_one (proceed setup)] at hpause
    refine ⟨n + 1 + 1 + n' + 1, ?_⟩
    rw [trace_succ, proceed_loop hrunning, trace_succ, proceed_check_ok h]
    simp only [hcondition, if_true, trace_trans (trace_trans hn hpause) hn', List.nil_append]

/-- A walk through a whole plan is a run to its end. -/
theorem Walks.exists_trace (h : Walks setup nodes context moments rounds error last) :
    ∃ n, StepScript.trace (proceed setup) n (.resume ⟨[.visit nodes], context⟩) =
      (moments, .ended error last) := by
  obtain ⟨n, hn⟩ := h.trace []
  cases error with
  | some cause => exact ⟨n + 1, hn⟩
  | none =>
    refine ⟨n + 1 + 1, ?_⟩
    rw [trace_trans hn (trace_one _ _)]
    exact Prod.ext (List.append_nil _) rfl

/-! ## From moves to walks -/

def EndsIn (setup : Setup B) (n : Nat) (next : Next B) (error : Option RunError)
    (final : Context B) : Prop :=
  (trace (proceed setup) n next).2 = .ended error final

section

variable {n : Nat} {final : Context B} {state : Machine.State B} {next : Next B}

/-- A run that has not ended makes a move, and ends within fewer moves after it. -/
theorem EndsIn.later (h : EndsIn setup n (.resume state) error final)
    (hmove : proceed setup (.resume state) = (moments, next)) :
    ∃ m < n, EndsIn setup m next error final := by
  cases n with
  | zero => cases h
  | succ n =>
    rw [EndsIn, trace_succ, hmove] at h
    exact ⟨n, Nat.lt_succ_self n, h⟩

theorem EndsIn.earlier (h : EndsIn setup n next error final)
    (hmove : proceed setup (.resume state) = (moments, next)) :
    EndsIn setup (n + 1) (.resume state) error final := by
  rw [EndsIn, trace_succ, hmove]
  exact h

theorem EndsIn.eq_of_ended {cause : Option RunError}
    (h : EndsIn setup n (.ended cause last) error final) : cause = error ∧ last = final := by
  rw [EndsIn, trace_ended] at h
  cases h
  exact ⟨rfl, rfl⟩

theorem trace_mono {m : Nat} (h : trace (proceed setup) n next = (moments, .ended error final))
    (hle : n ≤ m) : trace (proceed setup) m next = (moments, .ended error final) := by
  obtain ⟨d, rfl⟩ := Nat.exists_eq_add_of_le hle
  rw [trace_add, h, trace_ended, List.append_nil]

/-- A run has only one end, and shows the same up to it. -/
theorem trace_ended_unique {m : Nat} {moments' : List (Moment B)} {cause : Option RunError}
    (h : trace (proceed setup) m next = (moments, .ended cause last))
    (h' : trace (proceed setup) n next = (moments', .ended error final)) :
    moments = moments' ∧ cause = error ∧ last = final := by
  have hlong := trace_mono h (Nat.le_max_left m n)
  have hlong' := trace_mono h' (Nat.le_max_right m n)
  cases hlong.symm.trans hlong'
  exact ⟨rfl, rfl, rfl⟩

end

/-- After a walk through a block, a run goes on with the frames behind the block and ends within
fewer than `n` moves. -/
def WalksThen (setup : Setup B) (nodes : List Node) (rest : List Frame) (context : Context B)
    (n : Nat) (error : Option RunError) (final : Context B) : Prop :=
  ∃ moments rounds error' last, Walks setup nodes context moments rounds error' last ∧
    (error' = none → ∃ m < n, EndsIn setup m (.resume ⟨rest, last⟩) error final)

/-- Runs that end within `n` moves have gone through walks. -/
def AllWalk (setup : Setup B) (n : Nat) (error : Option RunError) (final : Context B) : Prop :=
  ∀ nodes rest context, EndsIn setup n (.resume ⟨.visit nodes :: rest, context⟩) error final →
    WalksThen setup nodes rest context n error final

section

variable {n : Nat} {final : Context B} (ih : ∀ m < n, AllWalk setup m error final)

include ih

theorem walksThen_sequential (hrunning : context.cancelled = false)
    (hstep : dispatch setup step context = ⟨moments, .ok result, after⟩)
    (h : EndsIn setup n (.resume ⟨.visit (.sequential step :: nodes) :: rest, context⟩) error
      final) :
    WalksThen setup (.sequential step :: nodes) rest context n error final := by
  have hmove := @proceed_visit _ setup context nodes (.sequential step) rest hrunning
  rw [visitNode, afterDispatch_ok hstep] at hmove
  obtain ⟨m, hm, hafter⟩ := h.later hmove
  obtain ⟨later, rounds, error', last, hrest, hthen⟩ := ih m hm _ _ _ hafter
  refine ⟨_, rounds, error', last, .sequential hrunning hstep hrest, fun hnone => ?_⟩
  obtain ⟨k, hk, hend⟩ := hthen hnone
  exact ⟨k, Nat.lt_trans hk hm, hend⟩

theorem walksThen_conditional {thenBranch elseBranch : List Node}
    (hrunning : context.cancelled = false)
    (hguard : dispatch setup guard context = ⟨moments, .ok result, after⟩)
    (h : EndsIn setup n
      (.resume ⟨.visit (.conditional guard thenBranch elseBranch :: nodes) :: rest, context⟩) error
      final) :
    WalksThen setup (.conditional guard thenBranch elseBranch :: nodes) rest context n error
      final := by
  have hmove :=
    @proceed_visit _ setup context nodes (.conditional guard thenBranch elseBranch) rest hrunning
  rw [visitNode, afterDispatch_ok hguard] at hmove
  obtain ⟨m, hm, hafter⟩ := h.later hmove
  obtain ⟨within, rounds, error', middle, hbranch, hthen⟩ := ih m hm _ _ _ hafter
  cases error' with
  | some cause => exact ⟨_, rounds, _, middle, .branchFails hrunning hguard hbranch, nofun⟩
  | none =>
    obtain ⟨k, hk, hbehind⟩ := hthen rfl
    obtain ⟨later, rounds', error', last, hrest, hthen'⟩ :=
      ih k (Nat.lt_trans hk hm) _ _ _ hbehind
    refine ⟨_, _, error', last, .conditional hrunning hguard hbranch hrest, fun hnone => ?_⟩
    obtain ⟨l, hl, hend⟩ := hthen' hnone
    exact ⟨l, by omega, hend⟩

/-- A loop is walked again from its next round on, which takes fewer moves to the end. -/
theorem walksThen_loop (herror : error ≠ some .cancelled) (hrunning : context.cancelled = false)
    (hguard : dispatch setup guard context = ⟨moments, .ok result, after⟩)
    (h : EndsIn setup n (.resume ⟨.visit (.loop guard body :: nodes) :: rest, context⟩) error
      final) :
    WalksThen setup (.loop guard body :: nodes) rest context n error final := by
  obtain ⟨_, hm, hcheck⟩ := h.later (proceed_loop hrunning)
  obtain ⟨m, hm', hafter⟩ := hcheck.later (proceed_check_ok hguard)
  cases hcondition : result.condition with
  | false =>
    simp only [hcondition, Bool.false_eq_true, if_false] at hafter
    obtain ⟨later, rounds, error', last, hrest, hthen⟩ := ih m (by omega) _ _ _ hafter
    refine ⟨_, rounds, error', last, .loopEnds hrunning hguard hcondition hrest, fun hnone => ?_⟩
    obtain ⟨k, hk, hend⟩ := hthen hnone
    exact ⟨k, by omega, hend⟩
  | true =>
    simp only [hcondition, if_true] at hafter
    obtain ⟨within, rounds, error', middle, hbody, hthen⟩ := ih m (by omega) _ _ _ hafter
    cases error' with
    | some cause => exact ⟨_, rounds, _, middle, .bodyFails hrunning hguard hcondition hbody, nofun⟩
    | none =>
      obtain ⟨k, hk, hpause⟩ := hthen rfl
      cases hmiddle : middle.cancelled with
      | true =>
        obtain ⟨_, -, hended⟩ := hpause.later (proceed_rest_cancelled hmiddle)
        exact absurd hended.eq_of_ended.1.symm herror
      | false =>
        obtain ⟨l, hl, hagain⟩ := hpause.later (proceed_rest hmiddle)
        obtain ⟨later, rounds', error', last, hrest, hthen'⟩ :=
          ih (l + 1) (by omega) _ _ _ (hagain.earlier (proceed_loop hmiddle))
        refine ⟨_, _, error', last, .round hrunning hguard hcondition hbody hrest, fun hnone => ?_⟩
        obtain ⟨i, hi, hend⟩ := hthen' hnone
        exact ⟨i, by omega, hend⟩

end

/-- If a run ends that nobody cancels, it has gone through a walk of the block before which it
was. -/
theorem allWalk {final : Context B} (herror : error ≠ some .cancelled) (n : Nat) :
    AllWalk setup n error final := by
  induction n using Nat.strongRecOn with
  | ind n ih =>
    intro nodes rest context h
    cases nodes with
    | nil =>
      obtain ⟨m, hm, hend⟩ := h.later proceed_done
      exact ⟨[], 0, none, context, .done, fun _ => ⟨m, hm, hend⟩⟩
    | cons node nodes =>
      cases hrunning : context.cancelled with
      | true =>
        obtain ⟨_, -, hended⟩ := h.later (proceed_cancelled hrunning)
        exact absurd hended.eq_of_ended.1.symm herror
      | false =>
        rcases hentry : dispatch setup node.entry context with ⟨moments, cause | result, after⟩
        · exact ⟨moments, 0, some cause, after, .fails hrunning hentry, nofun⟩
        · cases node with
          | sequential => exact walksThen_sequential ih hrunning hentry h
          | conditional => exact walksThen_conditional ih hrunning hentry h
          | loop => exact walksThen_loop ih herror hrunning hentry h

/-- A run of a block that ends without being cancelled has gone through a walk, with the same end. -/
theorem exists_walks {n : Nat} {final : Context B} (herror : error ≠ some .cancelled)
    (h : EndsIn setup n (.resume ⟨[.visit nodes], context⟩) error final) :
    ∃ moments rounds, Walks setup nodes context moments rounds error final := by
  obtain ⟨moments, rounds, error', last, hwalks, hthen⟩ := allWalk herror n nodes [] context h
  cases error' with
  | none =>
    obtain ⟨m, -, hend⟩ := hthen rfl
    obtain ⟨k, -, hended⟩ := hend.later rfl
    obtain ⟨rfl, rfl⟩ := hended.eq_of_ended
    exact ⟨moments, rounds, hwalks⟩
  | some cause =>
    -- the walk fails, and the run makes its moves
    obtain ⟨k, hk⟩ := hwalks.exists_trace
    obtain ⟨-, rfl, rfl⟩ := trace_ended_unique hk (Prod.ext rfl h)
    exact ⟨moments, rounds, hwalks⟩

end

/-! ## Runs -/

namespace Run

variable {run : Run B} {cancelled : Bool} {world : B.World}

theorem start_rejected {cause : PlanError} (h : Plan.resolve run.script.steps = .error cause) :
    run.start cancelled world =
      .ended (some (.plan cause)) (.fresh run.settings.policy cancelled world) := by
  rw [start, Machine.start, h]

theorem start_cancelled {nodes : List Node} (h : Plan.resolve run.script.steps = .ok nodes) :
    run.start true world = .ended (some .cancelled) (.fresh run.settings.policy true world) := by
  rw [start, Machine.start, h]
  rfl

theorem start_running {nodes : List Node} (h : Plan.resolve run.script.steps = .ok nodes) :
    run.start false world =
      .resume ⟨[.visit nodes], .fresh run.settings.policy false world⟩ := by
  rw [start, Machine.start, h]
  rfl

end Run

end StepScript
