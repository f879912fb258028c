import StepScript.Proofs.Run.FlatMachine

/-!
# Moves without a plan

A run that walks its plan and the flat machine on the steps of its script, completed by the markers
that are missing at the end, make corresponding moves. The stack of the run tells at which position
of the list the machine is. The run makes some moves of its own, of which nothing is seen: it comes
to the end of a sequence, or to a loop.
-/

namespace StepScript

variable {B : Backend}

namespace FlatMachine

open Machine (Frame)

/-- The loop of a guard begins at a position and ends at another one. -/
def IsLoop (code : List Step) (first : Nat) (guard : Step) (body : List Node) (last : Nat) : Prop :=
  ∃ inside closing after, code.drop first = guard :: (inside ++ closing :: after) ∧
    guard.type = .whileGuard ∧ Plan.Layout body inside ∧ closing.type = .endWhile ∧
    last = first + 1 + inside.length

/-- The position at which the frames of a run go on. -/
inductive Resumes (code : List Step) : List Frame → Nat → Prop
  | finished : Resumes code [] code.length
  /-- The nodes of a branch that is not there. -/
  | exhausted {rest : List Frame} {position : Nat} (h : Resumes code rest position) :
      Resumes code (.visit [] :: rest) position
  | endIf {rest : List Frame} {position : Nat} {marker : Step} {after : List Step}
      (hcode : code.drop position = marker :: after) (htype : marker.type = .endIf)
      (h : Resumes code rest (position + 1)) : Resumes code (.visit [] :: rest) position
  | elseMarker {rest : List Frame} {position : Nat} {marker closing : Step}
      {other after : List Step} {nodes : List Node}
      (hcode : code.drop position = marker :: (other ++ closing :: after))
      (htype : marker.type = .elseMarker) (layout : Plan.Layout nodes other)
      (closes : closing.type = .endIf) (h : Resumes code rest (position + 1 + other.length + 1)) :
      Resumes code (.visit [] :: rest) position
  | nodes {rest : List Frame} {position : Nat} {text after : List Step} {node : Node}
      {nodes : List Node} (hcode : code.drop position = text ++ after)
      (layout : Plan.Layout (node :: nodes) text)
      (h : Resumes code (.visit [] :: rest) (position + text.length)) :
      Resumes code (.visit (node :: nodes) :: rest) position
  | check {rest : List Frame} {first last : Nat} {guard : Step} {body : List Node}
      (hloop : IsLoop code first guard body last) (h : Resumes code rest (last + 1)) :
      Resumes code (.check guard body :: rest) first
  | rest {rest : List Frame} {first last : Nat} {guard : Step} {body : List Node}
      (hloop : IsLoop code first guard body last) (h : Resumes code rest (last + 1)) :
      Resumes code (.rest guard body :: rest) last

theorem Resumes.of_eq {code : List Step} {frames : List Frame} {position position' : Nat}
    (h : Resumes code frames position) (heq : position = position') :
    Resumes code frames position' :=
  heq ▸ h

/-- Nodes are visited at the beginning of their steps. -/
theorem Resumes.visit {code text after : List Step} {rest : List Frame} {position : Nat}
    {nodes : List Node} (hcode : code.drop position = text ++ after)
    (layout : Plan.Layout nodes text)
    (h : Resumes code (.visit [] :: rest) (position + text.length)) :
    Resumes code (.visit nodes :: rest) position := by
  cases nodes with
  | nil =>
    cases layout
    exact h
  | cons node nodes => exact .nodes hcode layout h

/-- How many silent moves a run can make in a row. -/
def silentMoves : List Frame → Nat
  | [] => 0
  | .visit nodes :: rest => 2 * nodes.length + 1 + silentMoves rest
  | .check .. :: rest | .rest .. :: rest => 1 + silentMoves rest

/-- The same of a run between two moves. -/
def rank : Machine.Next B → Nat
  | .ended .. => 0
  | .resume state => silentMoves state.frames

/-- A run that is not cancelled from now on, and a flat machine, in corresponding states. -/
inductive Related (setup : Setup B) (code : List Step) : Machine.Next B → Next B → Prop
  | ended (error : Option RunError) (context : Context B) :
      Related setup code (.ended error context) (.ended error context)
  | resumes {frames : List Frame} {position : Nat} {context : Context B}
      (h : Resumes code frames position)
      (hquiet : Machine.NeverCancelled setup (.resume ⟨frames, context⟩)) :
      Related setup code (.resume ⟨frames, context⟩) (.at position context)

/-! ## Single moves -/

section

variable {setup : Setup B} {code : List Step} {position : Nat} {context : Context B}
  {step : Step} {after : List Step}

theorem proceed_plain (hcode : code.drop position = step :: after)
    (plain : step.type.isPlain = true) :
    proceed setup code (.at position context) =
      carryOn setup step context true fun _ => position + 1 := by
  simp only [proceed, getElem?_of_drop hcode]
  revert plain
  cases step.type <;> first | exact fun _ => rfl | exact nofun

theorem proceed_ifGuard (hcode : code.drop position = step :: after)
    (htype : step.type = .ifGuard) :
    proceed setup code (.at position context) =
      carryOn setup step context true fun result =>
        if result.condition then position + 1 else branchEnd code position + 1 := by
  simp only [proceed, getElem?_of_drop hcode, htype]

theorem proceed_elseMarker (hcode : code.drop position = step :: after)
    (htype : step.type = .elseMarker) :
    proceed setup code (.at position context) = ([], .at (elseEnd code position + 1) context) := by
  simp only [proceed, getElem?_of_drop hcode, htype]

theorem proceed_endIf (hcode : code.drop position = step :: after) (htype : step.type = .endIf) :
    proceed setup code (.at position context) = ([], .at (position + 1) context) := by
  simp only [proceed, getElem?_of_drop hcode, htype]

theorem proceed_whileGuard (hcode : code.drop position = step :: after)
    (htype : step.type = .whileGuard) :
    proceed setup code (.at position context) =
      carryOn setup step context false fun result =>
        if result.condition then position + 1 else loopEnd code position + 1 := by
  simp only [proceed, getElem?_of_drop hcode, htype]

theorem proceed_endWhile (hcode : code.drop position = step :: after)
    (htype : step.type = .endWhile) :
    proceed setup code (.at position context) =
      (pause setup context, .at (loopStart code position) context) := by
  simp only [proceed, getElem?_of_drop hcode, htype]

/-- Both machines dispatch a step in the same way. -/
theorem carryOn_related (frames : ActionResult → List Frame) {next : Machine.Next B}
    {emits : Bool} {target : ActionResult → Nat}
    (hmove : Machine.proceed setup next =
      let move := Machine.afterDispatch setup step context
        (if emits then Machine.emitting frames else Machine.silent frames)
      (move.moments, move.next))
    (hquiet : Machine.NeverCancelled setup next)
    (h : ∀ result, Resumes code (frames result) (target result)) :
    (Machine.proceed setup next).1 = (carryOn setup step context emits target).1 ∧
      Related setup code (Machine.proceed setup next).2
        (carryOn setup step context emits target).2 := by
  have hlater := hquiet.proceed
  rw [hmove] at hlater ⊢
  simp only [Machine.afterDispatch, carryOn] at hlater ⊢
  cases houtcome : (dispatch setup step context).outcome with
  | error cause => exact ⟨rfl, .ended _ _⟩
  | ok result =>
    simp only [houtcome] at hlater
    cases emits with
    | true => exact ⟨rfl, .resumes (h result) hlater⟩
    | false => exact ⟨(List.append_nil _).symm, .resumes (h result) hlater⟩

/-! ## Corresponding moves -/

/-- Moves correspond: a silent move of the run, or a move of both machines. -/
def Corresponds (setup : Setup B) (code : List Step) (a : Machine.Next B) (b : Next B) : Prop :=
  ((Machine.proceed setup a).1 = [] ∧ Related setup code (Machine.proceed setup a).2 b ∧
    rank (Machine.proceed setup a).2 < rank a) ∨
  ((Machine.proceed setup a).1 = (proceed setup code b).1 ∧
    Related setup code (Machine.proceed setup a).2 (proceed setup code b).2)

variable {rest : List Frame}

theorem pause_of_running (hrunning : context.cancelled = false) :
    Machine.pauseBetween setup context = pause setup context := by
  simp only [Machine.pauseBetween, pause, hrunning]
  rfl

theorem proceed_visit {node : Node} {nodes : List Node} (hrunning : context.cancelled = false) :
    Machine.proceed setup (.resume ⟨.visit (node :: nodes) :: rest, context⟩) =
      let move := Machine.visitNode setup context (.visit nodes :: rest) node
      (move.moments, move.next) := by
  simp only [Machine.proceed, Machine.advance, hrunning]
  rfl

/-- The nodes of a branch, and behind its `EndIf` the nodes after the block. -/
theorem Resumes.branch {closing : Step} {inside text : List Step} {branch nodes : List Node}
    (hcode : code.drop position = inside ++ closing :: (text ++ after))
    (layout : Plan.Layout branch inside) (closes : closing.type = .endIf)
    (more : Plan.Layout nodes text)
    (h : Resumes code (.visit [] :: rest) (position + inside.length + 1 + text.length)) :
    Resumes code (.visit branch :: .visit nodes :: rest) position := by
  have hclosing := drop_add hcode
  exact .visit hcode layout (.endIf hclosing closes (.visit (drop_succ hclosing) more h))

theorem corresponds_sequential {nodes : List Node} {text : List Step}
    (plain : step.type.isPlain = true) (more : Plan.Layout nodes text)
    (hcode : code.drop position = step :: (text ++ after))
    (h : Resumes code (.visit [] :: rest) (position + 1 + text.length))
    (hquiet : Machine.NeverCancelled setup
      (.resume ⟨.visit (.sequential step :: nodes) :: rest, context⟩)) :
    Corresponds setup code (.resume ⟨.visit (.sequential step :: nodes) :: rest, context⟩)
      (.at position context) := by
  refine .inr ?_
  rw [proceed_plain hcode plain]
  refine carryOn_related (fun _ => .visit nodes :: rest) ?_ hquiet fun _ => ?_
  · rw [proceed_visit hquiet.running]
    rfl
  · exact .visit (drop_succ hcode) more h

theorem corresponds_conditional {guard closing : Step} {inside text : List Step}
    {thenBranch nodes : List Node} (guarded : guard.type = .ifGuard)
    (layout : Plan.Layout thenBranch inside) (closes : closing.type = .endIf)
    (more : Plan.Layout nodes text)
    (hcode : code.drop position = guard :: (inside ++ closing :: (text ++ after)))
    (h : Resumes code (.visit [] :: rest) (position + 1 + inside.length + 1 + text.length))
    (hquiet : Machine.NeverCancelled setup
      (.resume ⟨.visit (.conditional guard thenBranch [] :: nodes) :: rest, context⟩)) :
    Corresponds setup code
      (.resume ⟨.visit (.conditional guard thenBranch [] :: nodes) :: rest, context⟩)
      (.at position context) := by
  refine .inr ?_
  rw [proceed_ifGuard hcode guarded, branchEnd_layout hcode layout (.inr closes)]
  refine carryOn_related
    (fun result => .visit (if result.condition then thenBranch else []) :: .visit nodes :: rest)
    ?_ hquiet fun result => ?_
  · rw [proceed_visit hquiet.running]
    rfl
  · cases result.condition with
    | true => exact .branch (drop_succ hcode) layout closes more h
    | false => exact .exhausted (.visit (drop_succ (drop_add (drop_succ hcode))) more h)

theorem corresponds_alternative {guard marker closing : Step} {inside other text : List Step}
    {thenBranch elseBranch nodes : List Node} (guarded : guard.type = .ifGuard)
    (layout : Plan.Layout thenBranch inside) (marked : marker.type = .elseMarker)
    (layout' : Plan.Layout elseBranch other) (closes : closing.type = .endIf)
    (more : Plan.Layout nodes text)
    (hcode : code.drop position =
      guard :: (inside ++ marker :: (other ++ closing :: (text ++ after))))
    (h : Resumes code (.visit [] :: rest)
      (position + 1 + inside.length + 1 + other.length + 1 + text.length))
    (hquiet : Machine.NeverCancelled setup
      (.resume ⟨.visit (.conditional guard thenBranch elseBranch :: nodes) :: rest, context⟩)) :
    Corresponds setup code
      (.resume ⟨.visit (.conditional guard thenBranch elseBranch :: nodes) :: rest, context⟩)
      (.at position context) := by
  refine .inr ?_
  rw [proceed_ifGuard hcode guarded, branchEnd_layout hcode layout (.inl marked)]
  have hmarker := drop_add (drop_succ hcode)
  have hother := drop_succ hmarker
  refine carryOn_related
    (fun result =>
      .visit (if result.condition then thenBranch else elseBranch) :: .visit nodes :: rest)
    ?_ hquiet fun result => ?_
  · rw [proceed_visit hquiet.running]
    rfl
  · cases result.condition with
    | true =>
      -- the end of the first branch is an `Else`, from which the machine jumps behind the other one
      have hafter := drop_succ (drop_add hother)
      exact .visit (drop_succ hcode) layout
        (.elseMarker hmarker marked layout' closes (.visit hafter more h))
    | false => exact .branch hother layout' closes more h

theorem corresponds_loop {guard closing : Step} {inside text : List Step} {body nodes : List Node}
    (guarded : guard.type = .whileGuard) (layout : Plan.Layout body inside)
    (closes : closing.type = .endWhile) (more : Plan.Layout nodes text)
    (hcode : code.drop position = guard :: (inside ++ closing :: (text ++ after)))
    (h : Resumes code (.visit [] :: rest) (position + 1 + inside.length + 1 + text.length))
    (hquiet : Machine.NeverCancelled setup
      (.resume ⟨.visit (.loop guard body :: nodes) :: rest, context⟩)) :
    Corresponds setup code (.resume ⟨.visit (.loop guard body :: nodes) :: rest, context⟩)
      (.at position context) := by
  -- the run only puts the loop on its stack; the machine dispatches the guard from where it is
  refine .inl ?_
  have hlater := hquiet.proceed
  rw [proceed_visit hquiet.running] at hlater ⊢
  have hafter := drop_succ (drop_add (drop_succ hcode))
  have hloop : IsLoop code position guard body (position + 1 + inside.length) :=
    ⟨inside, closing, _, hcode, guarded, layout, closes, rfl⟩
  refine ⟨rfl, .resumes (.check hloop (.visit hafter more h)) hlater, ?_⟩
  · simp only [Machine.visitNode, rank, silentMoves, List.length_cons]
    omega

/-- The guard of a loop, with its body. -/
theorem corresponds_check {guard : Step} {body : List Node} {last : Nat}
    (hloop : IsLoop code position guard body last) (h : Resumes code rest (last + 1))
    (hquiet : Machine.NeverCancelled setup
      (.resume ⟨.check guard body :: rest, context⟩)) :
    Corresponds setup code (.resume ⟨.check guard body :: rest, context⟩)
      (.at position context) := by
  have hloop' := hloop
  obtain ⟨inside, closing, after, hcode, guarded, layout, closes, rfl⟩ := hloop
  refine .inr ?_
  rw [proceed_whileGuard hcode guarded, loopEnd_layout hcode layout closes]
  refine carryOn_related
    (fun result => if result.condition then .visit body :: .rest guard body :: rest else rest)
    rfl hquiet fun result => ?_
  cases result.condition with
  | true => exact .visit (drop_succ hcode) layout (.exhausted (.rest hloop' h))
  | false => exact h

/-- The end of a round of a loop. -/
theorem corresponds_rest {guard : Step} {body : List Node} {first : Nat}
    (hloop : IsLoop code first guard body position) (h : Resumes code rest (position + 1))
    (hquiet : Machine.NeverCancelled setup
      (.resume ⟨.rest guard body :: rest, context⟩)) :
    Corresponds setup code (.resume ⟨.rest guard body :: rest, context⟩)
      (.at position context) := by
  have hloop' := hloop
  obtain ⟨inside, closing, after, hcode, guarded, layout, closes, rfl⟩ := hloop
  have hrunning := hquiet.running
  have hlater := hquiet.proceed
  refine .inr ?_
  have hproceed : Machine.proceed setup (.resume ⟨.rest guard body :: rest, context⟩) =
      (pause setup context, .resume ⟨.check guard body :: rest, context⟩) := by
    simp only [Machine.proceed, Machine.advance, hrunning, pause_of_running hrunning]
    rfl
  rw [hproceed] at hlater
  rw [hproceed, proceed_endWhile (drop_add (drop_succ hcode)) closes,
    loopStart_layout hcode layout guarded]
  exact ⟨rfl, .resumes (.check hloop' h) hlater⟩

end

/-- A run and the flat machine on its completed steps make corresponding moves. -/
theorem simulation (setup : Setup B) (code : List Step) :
    Simulation (Machine.proceed setup) (proceed setup code) (Related setup code) rank := by
  constructor
  intro a b related
  change Corresponds setup code a b
  cases related with
  | ended error context => exact .inr ⟨rfl, .ended error context⟩
  | resumes h hquiet =>
    have hlater := hquiet.proceed
    -- the frame on top decides, and where it has no nodes left, what stands at its position
    cases h with
    | finished =>
      refine .inr ?_
      simp only [proceed, List.getElem?_eq_none (Nat.le_refl _)]
      exact ⟨rfl, .ended none _⟩
    | exhausted h =>
      refine .inl ⟨rfl, .resumes h hlater, ?_⟩
      simp only [Machine.proceed, Machine.advance, rank, silentMoves, List.length_nil]
      omega
    | endIf hcode htype h =>
      refine .inr ?_
      rw [proceed_endIf hcode htype]
      exact ⟨rfl, .resumes h hlater⟩
    | elseMarker hcode htype layout closes h =>
      refine .inr ?_
      rw [proceed_elseMarker hcode htype, elseEnd_layout hcode layout closes]
      exact ⟨rfl, .resumes h hlater⟩
    | nodes hcode layout h =>
      cases layout with
      | sequential plain more =>
        exact corresponds_sequential plain more hcode (h.of_eq (by simp; omega)) hquiet
      | conditional guarded layout closes more =>
        exact corresponds_conditional guarded layout closes more (by simpa using hcode)
          (h.of_eq (by simp; omega)) hquiet
      | alternative guarded layout marked layout' closes more =>
        exact corresponds_alternative guarded layout marked layout' closes more
          (by simpa using hcode) (h.of_eq (by simp; omega)) hquiet
      | loop guarded layout closes more =>
        exact corresponds_loop guarded layout closes more (by simpa using hcode)
          (h.of_eq (by simp; omega)) hquiet
    | check hloop h => exact corresponds_check hloop h hquiet
    | rest hloop h => exact corresponds_rest hloop h hquiet

end FlatMachine

end StepScript
