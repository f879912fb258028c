import StepScript.Proofs.Plan.Rendering
import StepScript.Proofs.Run.Trace

/-!
# Flat machines

A machine that runs a list of steps without a plan. It holds an index into the list and finds the
ends of blocks by counting the blocks that begin and end on the way.
-/

namespace StepScript

/-! ## Passing over blocks -/

/-- A search for a step; `enters` and `leaves` are the steps at which it comes to a block and to
the end of one. -/
structure Search where
  isTarget : StepType → Bool
  enters : StepType → Bool
  leaves : StepType → Bool

def StepType.opensBlock (type : StepType) : Bool := type = .ifGuard || type = .whileGuard

def StepType.closesBlock (type : StepType) : Bool := type = .endIf || type = .endWhile

theorem StepType.opensBlock_of_isPlain {type : StepType} (plain : type.isPlain = true) :
    type.opensBlock = false := by
  cases type <;> first | rfl | cases plain

theorem StepType.closesBlock_of_isPlain {type : StepType} (plain : type.isPlain = true) :
    type.closesBlock = false := by
  cases type <;> first | rfl | cases plain

namespace Search

/-- A search for the end of the block at hand. -/
def ahead (isTarget : StepType → Bool) : Search :=
  ⟨isTarget, StepType.opensBlock, StepType.closesBlock⟩

/-- A search for the beginning of the block at hand, in the opposite direction. -/
def back (isTarget : StepType → Bool) : Search :=
  ⟨isTarget, StepType.closesBlock, StepType.opensBlock⟩

/-- How many steps are passed over, `depth` blocks deep inside the block at hand, before a target
outside of these blocks is found. -/
def distance (search : Search) : Nat → List Step → Nat
  | _, [] => 0
  | depth, step :: rest =>
    if depth = 0 ∧ search.isTarget step.type = true then 0
    else if search.enters step.type then search.distance (depth + 1) rest + 1
    else if search.leaves step.type then search.distance (depth - 1) rest + 1
    else search.distance depth rest + 1

end Search

namespace FlatMachine

/-- The `Else` of the block that the step at a position begins, or its `EndIf` if it has none. -/
def branchEnd (code : List Step) (position : Nat) : Nat :=
  position + 1 +
    (Search.ahead fun type => type = .elseMarker || type = .endIf).distance 0
      (code.drop (position + 1))

/-- The `EndIf` of the block of the `Else` at a position. -/
def elseEnd (code : List Step) (position : Nat) : Nat :=
  position + 1 + (Search.ahead fun type => type = .endIf).distance 0 (code.drop (position + 1))

/-- The `EndWhile` of the loop that the step at a position begins. -/
def loopEnd (code : List Step) (position : Nat) : Nat :=
  position + 1 + (Search.ahead fun type => type = .endWhile).distance 0 (code.drop (position + 1))

/-- The `While` of the loop that the step at a position ends. -/
def loopStart (code : List Step) (position : Nat) : Nat :=
  position - 1 -
    (Search.back fun type => type = .whileGuard).distance 0 (code.take position).reverse

variable {B : Backend}

/-- The machine between two moves: at a position of the list, or at its end. -/
inductive Next (B : Backend) where
  | at (position : Nat) (context : Context B)
  | ended (error : Option RunError) (context : Context B)

/-- Dispatches a step and goes on where its result says; the result is emitted or not. -/
def carryOn (setup : Setup B) (step : Step) (context : Context B) (emits : Bool)
    (target : ActionResult → Nat) : List (Moment B) × Next B :=
  let dispatched := dispatch setup step context
  match dispatched.outcome with
  | .error cause => (dispatched.moments, .ended (some cause) dispatched.context)
  | .ok result =>
    (dispatched.moments ++ (if emits then [⟨.emit result, dispatched.context⟩] else []),
      .at (target result) dispatched.context)

def pause (setup : Setup B) (context : Context B) : List (Moment B) :=
  if setup.pollMillis = 0 then [⟨.stepAside, context⟩]
  else [⟨.sleep (sleepSpan setup.pollMillis), context⟩]

def proceed (setup : Setup B) (code : List Step) : Next B → List (Moment B) × Next B
  | .ended error context => ([], .ended error context)
  | .at position context =>
    match code[position]? with
    | none => ([], .ended none context)
    | some step =>
      match step.type with
      | .ifGuard =>
        carryOn setup step context true fun result =>
          if result.condition then position + 1 else branchEnd code position + 1
      | .elseMarker => ([], .at (elseEnd code position + 1) context)
      | .endIf => ([], .at (position + 1) context)
      | .whileGuard =>
        carryOn setup step context false fun result =>
          if result.condition then position + 1 else loopEnd code position + 1
      | .endWhile => (pause setup context, .at (loopStart code position) context)
      | _ => carryOn setup step context true fun _ => position + 1

end FlatMachine

/-! ## Complete renderings -/

namespace Plan

/-- The steps that stand for some nodes, with all markers. -/
inductive Layout : List Node → List Step → Prop
  | nil : Layout [] []
  | sequential {step : Step} {nodes : List Node} {text : List Step}
      (plain : step.type.isPlain = true) (more : Layout nodes text) :
      Layout (.sequential step :: nodes) (step :: text)
  | conditional {guard closing : Step} {thenBranch nodes : List Node} {inside text : List Step}
      (guarded : guard.type = .ifGuard) (layout : Layout thenBranch inside)
      (closes : closing.type = .endIf) (more : Layout nodes text) :
      Layout (.conditional guard thenBranch [] :: nodes) (guard :: (inside ++ closing :: text))
  | alternative {guard marker closing : Step} {thenBranch elseBranch nodes : List Node}
      {inside other text : List Step} (guarded : guard.type = .ifGuard)
      (layout : Layout thenBranch inside) (marked : marker.type = .elseMarker)
      (layout' : Layout elseBranch other) (closes : closing.type = .endIf)
      (more : Layout nodes text) :
      Layout (.conditional guard thenBranch elseBranch :: nodes)
        (guard :: (inside ++ marker :: (other ++ closing :: text)))
  | loop {guard closing : Step} {body nodes : List Node} {inside text : List Step}
      (guarded : guard.type = .whileGuard) (layout : Layout body inside)
      (closes : closing.type = .endWhile) (more : Layout nodes text) :
      Layout (.loop guard body :: nodes) (guard :: (inside ++ closing :: text))

/-- In front of further steps a rendering has all its markers. -/
theorem Renders.layout {steps rest : List Step} {nodes : List Node} (h : Renders steps nodes rest)
    (hrest : rest ≠ []) : ∃ text, steps = text ++ rest ∧ Layout nodes text := by
  induction h with
  | nil => exact ⟨[], rfl, .nil⟩
  | sequential plain _ ih =>
    obtain ⟨text, rfl, hlayout⟩ := ih hrest
    exact ⟨_, rfl, .sequential plain hlayout⟩
  | conditional guarded _ closes more ihInside ih =>
    cases closes with
    | marker _ htype =>
      obtain ⟨inside, rfl, hinside⟩ := ihInside (List.cons_ne_nil _ _)
      obtain ⟨text, rfl, hlayout⟩ := ih hrest
      exact ⟨_, by simp, .conditional guarded hinside htype hlayout⟩
    | omitted => exact absurd more.of_nil.2 hrest
  | alternative guarded _ marked _ closes more ihInside ihOther ih =>
    cases closes with
    | marker _ htype =>
      obtain ⟨inside, rfl, hinside⟩ := ihInside (List.cons_ne_nil _ _)
      obtain ⟨other, rfl, hother⟩ := ihOther (List.cons_ne_nil _ _)
      obtain ⟨text, rfl, hlayout⟩ := ih hrest
      exact ⟨_, by simp, .alternative guarded hinside marked hother htype hlayout⟩
    | omitted => exact absurd more.of_nil.2 hrest
  | loop guarded _ closes more ihInside ih =>
    cases closes with
    | marker _ htype =>
      obtain ⟨inside, rfl, hinside⟩ := ihInside (List.cons_ne_nil _ _)
      obtain ⟨text, rfl, hlayout⟩ := ih hrest
      exact ⟨_, by simp, .loop guarded hinside htype hlayout⟩
    | omitted => exact absurd more.of_nil.2 hrest

end Plan

/-! ## Searches over complete renderings -/

namespace Search

/-- A search for a marker passes over the steps of some nodes. -/
def Skips (search : Search) (depth : Nat) (text : List Step) : Prop :=
  ∀ rest, search.distance depth (text ++ rest) = text.length + search.distance depth rest

variable {search : Search} {depth : Nat}

theorem Skips.nil : search.Skips depth [] := fun _ => (Nat.zero_add _).symm

theorem Skips.append {first second : List Step} (h : search.Skips depth first)
    (h' : search.Skips depth second) : search.Skips depth (first ++ second) := by
  intro rest
  rw [List.append_assoc, h, h', List.length_append, Nat.add_assoc]

/-- A step that is no target, and neither begins nor ends a block, is passed over. -/
theorem Skips.step {step : Step} (htarget : depth = 0 → search.isTarget step.type = false)
    (henters : search.enters step.type = false) (hleaves : search.leaves step.type = false) :
    search.Skips depth [step] := by
  intro rest
  have hno : ¬ (depth = 0 ∧ search.isTarget step.type = true) := by
    rintro ⟨hdepth, htrue⟩
    rw [htarget hdepth] at htrue
    cases htrue
  rw [List.singleton_append, distance, if_neg hno, henters, hleaves]
  simp [Nat.add_comm]

/-- A block is passed over if the steps inside it are. -/
theorem Skips.block {first last : Step} {inside : List Step}
    (htarget : search.isTarget first.type = false) (henters : search.enters first.type = true)
    (hinside : search.Skips (depth + 1) inside) (hends : search.enters last.type = false)
    (hleaves : search.leaves last.type = true) :
    search.Skips depth (first :: (inside ++ [last])) := by
  intro rest
  have hfirst : ¬ (depth = 0 ∧ search.isTarget first.type = true) := by simp [htarget]
  have hlast : ¬ (depth + 1 = 0 ∧ search.isTarget last.type = true) := by simp
  rw [List.cons_append, List.append_assoc, List.singleton_append, distance, if_neg hfirst,
    if_pos henters, hinside, distance, if_neg hlast, hends, hleaves]
  simp
  omega

end Search

theorem StepType.opensBlock_of_closesBlock {type : StepType} (h : type.closesBlock = true) :
    type.opensBlock = false := by
  cases type <;> first | rfl | cases h

theorem StepType.isMarker_of_opensBlock {type : StepType} (h : type.opensBlock = true) :
    type.isMarker = false := by
  cases type <;> first | rfl | cases h

namespace Search

variable {isTarget : StepType → Bool} {depth : Nat}

/-- Blocks are passed over by a search for markers. -/
theorem Skips.ahead_block
    (htarget : ∀ type : StepType, type.isMarker = false → isTarget type = false)
    {guard closing : Step} {inside : List Step} (hguard : guard.type.opensBlock = true)
    (hclosing : closing.type.closesBlock = true) (h : (ahead isTarget).Skips (depth + 1) inside) :
    (ahead isTarget).Skips depth (guard :: (inside ++ [closing])) := by
  refine .block ?_ hguard h ?_ hclosing
  · exact htarget _ (StepType.isMarker_of_opensBlock hguard)
  · exact StepType.opensBlock_of_closesBlock hclosing

/-- In the opposite direction a block begins with its last step. -/
theorem Skips.back_block {guard closing : Step} {inside : List Step}
    (hguard : guard.type.opensBlock = true) (hclosing : closing.type.closesBlock = true)
    (h : (back fun type => type = .whileGuard).Skips (depth + 1) inside) :
    (back fun type => type = .whileGuard).Skips depth (closing :: (inside ++ [guard])) := by
  have hopens := StepType.opensBlock_of_closesBlock hclosing
  refine .block (decide_eq_false ?_) hclosing h ?_ hguard
  · intro htype
    rw [htype] at hopens
    cases hopens
  · cases hends : guard.type.closesBlock with
    | false => exact hends
    | true =>
      rw [StepType.opensBlock_of_closesBlock hends] at hguard
      cases hguard

/-- Inside a block an `Else` is no target. -/
theorem Skips.elseMarker (search : Search) (depth : Nat) {marker : Step}
    (hmarker : marker.type = .elseMarker)
    (henters : search.enters .elseMarker = false) (hleaves : search.leaves .elseMarker = false) :
    search.Skips (depth + 1) [marker] := by
  refine .step (fun hdepth => absurd hdepth (Nat.succ_ne_zero _)) ?_ ?_
  · rw [hmarker, henters]
  · rw [hmarker, hleaves]

end Search

namespace Plan.Layout

variable {nodes : List Node} {text : List Step}

/-- A search for markers passes over the steps of some nodes. -/
theorem skips {isTarget : StepType → Bool}
    (htarget : ∀ type : StepType, type.isMarker = false → isTarget type = false)
    (h : Layout nodes text) (depth : Nat) : (Search.ahead isTarget).Skips depth text := by
  induction h generalizing depth with
  | nil => exact .nil
  | @sequential step _ _ plain _ ih =>
    have hstep : (Search.ahead isTarget).Skips depth [step] := by
      refine .step (fun _ => htarget _ (StepType.isMarker_of_isPlain plain)) ?_ ?_
      · exact StepType.opensBlock_of_isPlain plain
      · exact StepType.closesBlock_of_isPlain plain
    exact hstep.append (ih depth)
  | conditional guarded _ closes _ ihInside ih =>
    have hblock := Search.Skips.ahead_block htarget (by rw [guarded]; rfl) (by rw [closes]; rfl)
      (ihInside (depth + 1))
    simpa using hblock.append (ih depth)
  | alternative guarded _ marked _ closes _ ihInside ihOther ih =>
    have hmarker := Search.Skips.elseMarker (.ahead isTarget) depth marked rfl rfl
    have hblock := Search.Skips.ahead_block htarget (by rw [guarded]; rfl) (by rw [closes]; rfl)
      ((ihInside (depth + 1)).append (hmarker.append (ihOther (depth + 1))))
    simpa using hblock.append (ih depth)
  | loop guarded _ closes _ ihInside ih =>
    have hblock := Search.Skips.ahead_block htarget (by rw [guarded]; rfl) (by rw [closes]; rfl)
      (ihInside (depth + 1))
    simpa using hblock.append (ih depth)

/-- A search for a `While` in the opposite direction passes over the steps of some nodes. -/
theorem skips_back (h : Layout nodes text) (depth : Nat) :
    (Search.back fun type => type = .whileGuard).Skips depth text.reverse := by
  induction h generalizing depth with
  | nil => exact .nil
  | sequential plain _ ih =>
    rw [List.reverse_cons]
    refine (ih depth).append (.step (fun _ => ?_) ?_ ?_)
    · exact decide_eq_false (StepType.ne_of_isPlain plain rfl)
    · exact StepType.closesBlock_of_isPlain plain
    · exact StepType.opensBlock_of_isPlain plain
  | conditional guarded _ closes _ ihInside ih =>
    have hblock := Search.Skips.back_block (by rw [guarded]; rfl) (by rw [closes]; rfl)
      (ihInside (depth + 1))
    simpa using (ih depth).append hblock
  | alternative guarded _ marked _ closes _ ihInside ihOther ih =>
    have hmarker := Search.Skips.elseMarker (.back fun type => type = .whileGuard) depth marked
      rfl rfl
    have hblock := Search.Skips.back_block (by rw [guarded]; rfl) (by rw [closes]; rfl)
      ((ihOther (depth + 1)).append (hmarker.append (ihInside (depth + 1))))
    simpa using (ih depth).append hblock
  | loop guarded _ closes _ ihInside ih =>
    have hblock := Search.Skips.back_block (by rw [guarded]; rfl) (by rw [closes]; rfl)
      (ihInside (depth + 1))
    simpa using (ih depth).append hblock

end Plan.Layout

/-! ## Jumps -/

namespace FlatMachine

variable {code inside after : List Step} {guard marker : Step} {nodes : List Node} {position : Nat}

/-- A search ahead stops behind the steps of some nodes if the next step is a target. -/
theorem distance_layout {isTarget : StepType → Bool}
    (htarget : ∀ type : StepType, type.isMarker = false → isTarget type = false)
    (hcode : code.drop position = guard :: (inside ++ marker :: after))
    (h : Plan.Layout nodes inside) (hmarker : isTarget marker.type = true) :
    (Search.ahead isTarget).distance 0 (code.drop (position + 1)) = inside.length := by
  have hzero : (Search.ahead isTarget).distance 0 (marker :: after) = 0 := by
    rw [Search.distance, if_pos ⟨rfl, hmarker⟩]
  rw [drop_succ hcode, h.skips htarget 0, hzero, Nat.add_zero]

theorem branchEnd_layout (hcode : code.drop position = guard :: (inside ++ marker :: after))
    (h : Plan.Layout nodes inside) (hmarker : marker.type = .elseMarker ∨ marker.type = .endIf) :
    branchEnd code position = position + 1 + inside.length := by
  rw [branchEnd, distance_layout (by intro type; cases type <;> decide) hcode h
    (by simpa using hmarker)]

theorem elseEnd_layout (hcode : code.drop position = guard :: (inside ++ marker :: after))
    (h : Plan.Layout nodes inside) (hmarker : marker.type = .endIf) :
    elseEnd code position = position + 1 + inside.length := by
  rw [elseEnd, distance_layout (by intro type; cases type <;> decide) hcode h
    (by simpa using hmarker)]

theorem loopEnd_layout (hcode : code.drop position = guard :: (inside ++ marker :: after))
    (h : Plan.Layout nodes inside) (hmarker : marker.type = .endWhile) :
    loopEnd code position = position + 1 + inside.length := by
  rw [loopEnd, distance_layout (by intro type; cases type <;> decide) hcode h
    (by simpa using hmarker)]

theorem loopStart_layout (hcode : code.drop position = guard :: (inside ++ marker :: after))
    (h : Plan.Layout nodes inside) (guarded : guard.type = .whileGuard) :
    loopStart code (position + 1 + inside.length) = position := by
  -- before the marker there is the body, and before the body its guard
  have htake : code.take (position + 1 + inside.length) =
      code.take position ++ guard :: inside := by
    rw [Nat.add_assoc, List.take_add, hcode, Nat.add_comm 1, List.take_succ_cons, List.take_left]
  have hzero : (Search.back fun type => type = .whileGuard).distance 0
      ([guard] ++ (code.take position).reverse) = 0 := by
    rw [List.singleton_append, Search.distance, if_pos ⟨rfl, by simpa [Search.back] using guarded⟩]
  rw [loopStart, htake, List.reverse_append, List.reverse_cons, List.append_assoc,
    h.skips_back 0, hzero, List.length_reverse]
  omega

end FlatMachine

end StepScript
