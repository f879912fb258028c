import StepScript.Plan.Basic
import StepScript.Proofs.Basic

/-!
# Renderings of plans

The steps that stand for a plan: guards, the steps of their blocks, and the markers between and
behind the blocks. The relation is a grammar of blocks that says nothing about how they are found.
-/

namespace StepScript

/-- Steps that neither begin nor delimit a block. -/
def StepType.isPlain : StepType → Bool
  | .ifGuard | .whileGuard | .elseMarker | .endIf | .endWhile => false
  | _ => true

/-- A step is a marker, a guard or plain. -/
theorem StepType.kinds (type : StepType) :
    type.isMarker = true ∨ type = .ifGuard ∨ type = .whileGuard ∨ type.isPlain = true := by
  cases type <;> decide

theorem StepType.isMarker_of_isPlain {type : StepType} (h : type.isPlain = true) :
    type.isMarker = false := by
  cases type <;> first | rfl | cases h

theorem StepType.ne_of_isPlain {type other : StepType} (h : type.isPlain = true)
    (hother : other.isPlain = false) : type ≠ other := by
  rintro rfl
  rw [h] at hother
  cases hother

mutual

/-- How deep the blocks of a node nest. -/
def nodeDepth : Node → Nat
  | .sequential _ => 0
  | .conditional _ thenBranch elseBranch =>
    max (nodesDepth thenBranch) (nodesDepth elseBranch) + 1
  | .loop _ body => nodesDepth body + 1

def nodesDepth : List Node → Nat
  | [] => 0
  | node :: rest => max (nodeDepth node) (nodesDepth rest)

end

mutual

/-- The steps of a node in the order of the script, without markers. -/
def nodeSteps : Node → List Step
  | .sequential step => [step]
  | .conditional guard thenBranch elseBranch =>
    guard :: (nodesSteps thenBranch ++ nodesSteps elseBranch)
  | .loop guard body => guard :: nodesSteps body

def nodesSteps : List Node → List Step
  | [] => []
  | node :: rest => nodeSteps node ++ nodesSteps rest

end

namespace Plan

/-! ## The grammar of blocks -/

/-- The end of a block: a marker of a type, or nothing at all where no step follows. -/
inductive Closes (type : StepType) : List Step → List Step → Prop
  | marker {marker : Step} (after : List Step) (h : marker.type = type) :
      Closes type (marker :: after) after
  | omitted : Closes type [] []

/-- `Renders steps nodes rest`: the steps are a rendering of the nodes, followed by the steps
`rest`. -/
inductive Renders : List Step → List Node → List Step → Prop
  | nil (steps : List Step) : Renders steps [] steps
  | sequential {step : Step} {steps rest : List Step} {nodes : List Node}
      (plain : step.type.isPlain = true) (more : Renders steps nodes rest) :
      Renders (step :: steps) (.sequential step :: nodes) rest
  | conditional {guard : Step} {steps closing after rest : List Step}
      {thenBranch nodes : List Node} (guarded : guard.type = .ifGuard)
      (inside : Renders steps thenBranch closing) (closes : Closes .endIf closing after)
      (more : Renders after nodes rest) :
      Renders (guard :: steps) (.conditional guard thenBranch [] :: nodes) rest
  | alternative {guard marker : Step} {steps middle closing after rest : List Step}
      {thenBranch elseBranch nodes : List Node} (guarded : guard.type = .ifGuard)
      (inside : Renders steps thenBranch (marker :: middle)) (marked : marker.type = .elseMarker)
      (other : Renders middle elseBranch closing) (closes : Closes .endIf closing after)
      (more : Renders after nodes rest) :
      Renders (guard :: steps) (.conditional guard thenBranch elseBranch :: nodes) rest
  | loop {guard : Step} {steps closing after rest : List Step} {body nodes : List Node}
      (guarded : guard.type = .whileGuard) (inside : Renders steps body closing)
      (closes : Closes .endWhile closing after) (more : Renders after nodes rest) :
      Renders (guard :: steps) (.loop guard body :: nodes) rest

/-- Where a sequence of nodes ends: at the end of the steps, or before a marker. -/
inductive Stops : List Step → Prop
  | atEnd : Stops []
  | atMarker {marker : Step} (after : List Step) (h : marker.isMarker = true) :
      Stops (marker :: after)

theorem Closes.length_le {type : StepType} {closing after : List Step}
    (h : Closes type closing after) : after.length ≤ closing.length := by
  cases h <;> simp

theorem Renders.length_le {steps rest : List Step} {nodes : List Node}
    (h : Renders steps nodes rest) : rest.length ≤ steps.length := by
  induction h with
  | nil => exact Nat.le_refl _
  | sequential _ _ ih => exact Nat.le_succ_of_le ih
  | conditional _ _ closes _ ihInside ih =>
    have := closes.length_le
    simp only [List.length_cons]
    omega
  | alternative _ _ _ _ closes _ ihInside ihOther ih =>
    have := closes.length_le
    simp only [List.length_cons] at ihInside ⊢
    omega
  | loop _ _ closes _ ihInside ih =>
    have := closes.length_le
    simp only [List.length_cons]
    omega

/-- A node takes at least one step. -/
theorem Renders.length_lt {steps rest : List Step} {node : Node} {nodes : List Node}
    (h : Renders steps (node :: nodes) rest) : rest.length < steps.length := by
  cases h with
  | sequential _ more => exact Nat.lt_succ_of_le more.length_le
  | conditional _ inside closes more =>
    have hinside := inside.length_le
    have hcloses := closes.length_le
    have hmore := more.length_le
    rw [List.length_cons]
    omega
  | alternative _ inside _ other closes more =>
    have hinside := inside.length_le
    have hother := other.length_le
    have hcloses := closes.length_le
    have hmore := more.length_le
    rw [List.length_cons] at hinside ⊢
    omega
  | loop _ inside closes more =>
    have hinside := inside.length_le
    have hcloses := closes.length_le
    have hmore := more.length_le
    rw [List.length_cons]
    omega

/-- Without steps there is nothing to render. -/
theorem Renders.of_nil {nodes : List Node} {rest : List Step} (h : Renders [] nodes rest) :
    nodes = [] ∧ rest = [] := by
  cases h
  exact ⟨rfl, rfl⟩

/-! ## Uniqueness -/

theorem Stops.of_type {marker : Step} {type : StepType} (h : marker.type = type)
    (htype : type.isMarker = true) (after : List Step) : Stops (marker :: after) :=
  .atMarker after (by rw [Step.isMarker, h, htype])

theorem Closes.stops {type : StepType} {closing after : List Step}
    (h : Closes type closing after) (htype : type.isMarker = true) : Stops closing := by
  cases h with
  | marker after h => exact .of_type h htype after
  | omitted => exact .atEnd

theorem Closes.unique {type : StepType} {closing after after' : List Step}
    (h : Closes type closing after) (h' : Closes type closing after') : after = after' := by
  cases h <;> cases h' <;> rfl

/-- A block that ends at an `Else` has no other end. -/
theorem Closes.not_else {marker : Step} {middle after : List Step}
    (h : Closes .endIf (marker :: middle) after) : marker.type ≠ .elseMarker := by
  cases h with
  | marker _ h => rw [h]; decide

/-- A sequence that stops at a step does not begin with it. -/
theorem Stops.isMarker {step : Step} {steps : List Step} (h : Stops (step :: steps)) :
    step.type.isMarker = true := by
  cases h with
  | atMarker _ h => exact h

theorem Stops.not_plain {step : Step} {steps : List Step} (h : Stops (step :: steps)) :
    step.type.isPlain ≠ true := by
  have := h.isMarker
  revert this
  cases step.type <;> decide

theorem Stops.type_ne {step : Step} {steps : List Step} {type : StepType}
    (h : Stops (step :: steps)) (htype : type.isMarker = false) : step.type ≠ type := by
  intro heq
  rw [← heq, h.isMarker] at htype
  cases htype

/-- Steps render one list of nodes only, if it is to be followed by a marker or nothing. -/
theorem Renders.unique {steps rest rest' : List Step} {nodes nodes' : List Node}
    (h : Renders steps nodes rest) (hstop : Stops rest) (h' : Renders steps nodes' rest')
    (hstop' : Stops rest') : nodes = nodes' ∧ rest = rest' := by
  -- the first step tells which constructor the other rendering ends with, except that only the end
  -- of its first branch tells whether a conditional has an `Else`
  induction h generalizing nodes' rest' with
  | nil =>
    cases h' with
    | nil => exact ⟨rfl, rfl⟩
    | sequential plain => exact absurd plain hstop.not_plain
    | conditional guarded => exact absurd guarded (hstop.type_ne rfl)
    | alternative guarded => exact absurd guarded (hstop.type_ne rfl)
    | loop guarded => exact absurd guarded (hstop.type_ne rfl)
  | sequential plain _ ih =>
    cases h' with
    | nil => exact absurd plain hstop'.not_plain
    | sequential _ more =>
      obtain ⟨rfl, rfl⟩ := ih hstop more hstop'
      exact ⟨rfl, rfl⟩
    | conditional guarded => exact absurd guarded (StepType.ne_of_isPlain plain rfl)
    | alternative guarded => exact absurd guarded (StepType.ne_of_isPlain plain rfl)
    | loop guarded => exact absurd guarded (StepType.ne_of_isPlain plain rfl)
  | conditional guarded _ closes _ ihInside ih =>
    cases h' with
    | nil => exact absurd guarded (hstop'.type_ne rfl)
    | sequential plain => exact absurd guarded (StepType.ne_of_isPlain plain rfl)
    | conditional _ inside closes' more =>
      obtain ⟨rfl, rfl⟩ := ihInside (closes.stops rfl) inside (closes'.stops rfl)
      cases closes.unique closes'
      obtain ⟨rfl, rfl⟩ := ih hstop more hstop'
      exact ⟨rfl, rfl⟩
    | alternative _ inside marked =>
      obtain ⟨_, rfl⟩ := ihInside (closes.stops rfl) inside (.of_type marked rfl _)
      exact absurd marked closes.not_else
    | loop guarded' => exact absurd (guarded.symm.trans guarded') (by decide)
  | alternative guarded _ marked _ closes _ ihInside ihOther ih =>
    cases h' with
    | nil => exact absurd guarded (hstop'.type_ne rfl)
    | sequential plain => exact absurd guarded (StepType.ne_of_isPlain plain rfl)
    | conditional _ inside closes' =>
      obtain ⟨_, rfl⟩ := ihInside (.of_type marked rfl _) inside (closes'.stops rfl)
      exact absurd marked closes'.not_else
    | alternative _ inside marked' other closes' more =>
      obtain ⟨rfl, heq⟩ := ihInside (.of_type marked rfl _) inside (.of_type marked' rfl _)
      cases heq
      obtain ⟨rfl, rfl⟩ := ihOther (closes.stops rfl) other (closes'.stops rfl)
      cases closes.unique closes'
      obtain ⟨rfl, rfl⟩ := ih hstop more hstop'
      exact ⟨rfl, rfl⟩
    | loop guarded' => exact absurd (guarded.symm.trans guarded') (by decide)
  | loop guarded _ closes _ ihInside ih =>
    cases h' with
    | nil => exact absurd guarded (hstop'.type_ne rfl)
    | sequential plain => exact absurd guarded (StepType.ne_of_isPlain plain rfl)
    | conditional guarded' => exact absurd (guarded.symm.trans guarded') (by decide)
    | alternative guarded' => exact absurd (guarded.symm.trans guarded') (by decide)
    | loop _ inside closes' more =>
      obtain ⟨rfl, rfl⟩ := ihInside (closes.stops rfl) inside (closes'.stops rfl)
      cases closes.unique closes'
      obtain ⟨rfl, rfl⟩ := ih hstop more hstop'
      exact ⟨rfl, rfl⟩

/-! ## Steps of a rendering -/

theorem Closes.filter_steps {type : StepType} {closing after : List Step}
    (h : Closes type closing after) (htype : type.isMarker = true) :
    closing.filter (!·.isMarker) = after.filter (!·.isMarker) := by
  cases h with
  | marker after h => rw [List.filter_cons_of_neg (by simp [Step.isMarker, h, htype])]
  | omitted => rfl

/-- A rendering consists of the steps of its nodes and of markers. -/
theorem Renders.filter_steps {steps rest : List Step} {nodes : List Node}
    (h : Renders steps nodes rest) :
    steps.filter (!·.isMarker) = nodesSteps nodes ++ rest.filter (!·.isMarker) := by
  induction h with
  | nil => rfl
  | sequential plain _ ih =>
    have hstep := StepType.isMarker_of_isPlain plain
    rw [List.filter_cons_of_pos (by simp [Step.isMarker, hstep]), ih]
    rfl
  | conditional guarded _ closes _ ihInside ih =>
    rw [List.filter_cons_of_pos (by simp [Step.isMarker, guarded, StepType.isMarker]), ihInside,
      closes.filter_steps rfl, ih]
    simp [nodesSteps, nodeSteps]
  | alternative guarded _ marked _ closes _ ihInside ihOther ih =>
    rw [List.filter_cons_of_pos (by simp [Step.isMarker, guarded, StepType.isMarker]), ihInside,
      List.filter_cons_of_neg (by simp [Step.isMarker, marked, StepType.isMarker]), ihOther,
      closes.filter_steps rfl, ih]
    simp [nodesSteps, nodeSteps]
  | loop guarded _ closes _ ihInside ih =>
    rw [List.filter_cons_of_pos (by simp [Step.isMarker, guarded, StepType.isMarker]), ihInside,
      closes.filter_steps rfl, ih]
    simp [nodesSteps, nodeSteps]

/-! ## The resolver -/

/-- What a resolver of sequences returns for at most `bound` steps is rendered by them, and no
block in it is too deep. -/
def Faithful (bound : Nat) (sequence : Nat → List Step → Except PlanError Sequence) : Prop :=
  ∀ depth steps found, steps.length ≤ bound → depth ≤ depthLimit →
    sequence depth steps = .ok found →
    Renders steps found.nodes found.rest ∧ Stops found.rest ∧
      depth + nodesDepth found.nodes ≤ depthLimit

section

variable {total bound depth : Nat} {sequence : Nat → List Step → Except PlanError Sequence}
  {guard : Step} {rest after : List Step} {node : Node}

/-- What a resolver of nodes returns: with the nodes after it, the node is rendered by the steps,
and no block in it is too deep. -/
def FaithfulNode (depth : Nat) (steps : List Step) (node : Node) (after : List Step) : Prop :=
  Renders steps [node] after ∧ depth + nodeDepth node ≤ depthLimit

theorem resolveElse_renders {thenBranch : List Node} {marker : Step} {steps : List Step}
    (hseq : Faithful bound sequence) (hlength : rest.length ≤ bound) (hdepth : depth < depthLimit)
    (guarded : guard.type = .ifGuard) (inside : Renders steps thenBranch (marker :: rest))
    (marked : marker.type = .elseMarker) (hthen : depth + 1 + nodesDepth thenBranch ≤ depthLimit)
    (h : resolveElse total sequence (depth + 1) guard thenBranch rest = .ok (node, after)) :
    FaithfulNode depth (guard :: steps) node after := by
  rw [resolveElse] at h
  obtain ⟨branch, hbranch, h⟩ := exists_of_bind_eq_ok h
  obtain ⟨other, -, helse⟩ := hseq _ _ _ hlength hdepth hbranch
  have hshape : ∀ last, Closes .endIf branch.rest last →
      FaithfulNode depth (guard :: steps) (.conditional guard thenBranch branch.nodes) last := by
    intro last closes
    refine ⟨.alternative guarded inside marked other closes (.nil last), ?_⟩
    simp only [nodeDepth]
    omega
  split at h
  · next hnil =>
    obtain ⟨rfl, rfl⟩ := Prod.mk.inj (Except.ok.inj h)
    exact hshape [] (by rw [hnil]; exact .omitted)
  · next marker' last hcons =>
    split at h
    · next htype =>
      obtain ⟨rfl, rfl⟩ := Prod.mk.inj (Except.ok.inj h)
      exact hshape last (by rw [hcons]; exact .marker last htype)
    · cases h

theorem resolveIf_renders (hseq : Faithful bound sequence) (hlength : rest.length ≤ bound)
    (hdepth : depth < depthLimit) (guarded : guard.type = .ifGuard)
    (h : resolveIf total sequence (depth + 1) guard rest = .ok (node, after)) :
    FaithfulNode depth (guard :: rest) node after := by
  rw [resolveIf] at h
  obtain ⟨branch, hbranch, h⟩ := exists_of_bind_eq_ok h
  obtain ⟨inside, -, hthen⟩ := hseq _ _ _ hlength hdepth hbranch
  have hshape : ∀ last, Closes .endIf branch.rest last →
      FaithfulNode depth (guard :: rest) (.conditional guard branch.nodes []) last := by
    intro last closes
    refine ⟨.conditional guarded inside closes (.nil last), ?_⟩
    simp only [nodeDepth, nodesDepth]
    omega
  split at h
  · next hnil =>
    obtain ⟨rfl, rfl⟩ := Prod.mk.inj (Except.ok.inj h)
    exact hshape [] (by rw [hnil]; exact .omitted)
  · next marker last hcons =>
    split at h
    · next htype =>
      obtain ⟨rfl, rfl⟩ := Prod.mk.inj (Except.ok.inj h)
      exact hshape last (by rw [hcons]; exact .marker last htype)
    · split at h
      · next marked =>
        rw [hcons] at inside
        have hle := inside.length_le
        rw [List.length_cons] at hle
        exact resolveElse_renders hseq (by omega) hdepth guarded inside marked hthen h
      · cases h

theorem resolveWhile_renders (hseq : Faithful bound sequence) (hlength : rest.length ≤ bound)
    (hdepth : depth < depthLimit) (guarded : guard.type = .whileGuard)
    (h : resolveWhile total sequence (depth + 1) guard rest = .ok (node, after)) :
    FaithfulNode depth (guard :: rest) node after := by
  rw [resolveWhile] at h
  obtain ⟨body, hbody, h⟩ := exists_of_bind_eq_ok h
  obtain ⟨inside, -, hinside⟩ := hseq _ _ _ hlength hdepth hbody
  have hshape : ∀ last, Closes .endWhile body.rest last →
      FaithfulNode depth (guard :: rest) (.loop guard body.nodes) last := by
    intro last closes
    refine ⟨.loop guarded inside closes (.nil last), ?_⟩
    simp only [nodeDepth]
    omega
  split at h
  · next hnil =>
    obtain ⟨rfl, rfl⟩ := Prod.mk.inj (Except.ok.inj h)
    exact hshape [] (by rw [hnil]; exact .omitted)
  · next marker last hcons =>
    split at h
    · next htype =>
      obtain ⟨rfl, rfl⟩ := Prod.mk.inj (Except.ok.inj h)
      exact hshape last (by rw [hcons]; exact .marker last htype)
    · cases h

theorem resolveNode_renders (hseq : Faithful bound sequence) (hlength : rest.length ≤ bound)
    (hdepth : depth ≤ depthLimit) (hmarker : guard.isMarker = false)
    (h : resolveNode total sequence depth guard rest = .ok (node, after)) :
    FaithfulNode depth (guard :: rest) node after := by
  simp only [resolveNode] at h
  split at h
  · cases h
  · next hopen =>
    split at h
    · next guarded =>
      have hdepth' : ¬ depthLimit ≤ depth := fun hle => hopen ⟨.inl guarded, hle⟩
      exact resolveIf_renders hseq hlength (Nat.lt_of_not_le hdepth') guarded h
    · next hif =>
      split at h
      · next guarded =>
        have hdepth' : ¬ depthLimit ≤ depth := fun hle => hopen ⟨.inr guarded, hle⟩
        exact resolveWhile_renders hseq hlength (Nat.lt_of_not_le hdepth') guarded h
      · next hwhile =>
        cases h
        have plain : guard.type.isPlain = true := by
          rcases guard.type.kinds with hkind | hkind | hkind | hkind
          · exact absurd hkind (by rw [← Step.isMarker, hmarker]; decide)
          · exact absurd hkind hif
          · exact absurd hkind hwhile
          · exact hkind
        exact ⟨.sequential plain (.nil _), by simpa only [nodeDepth, Nat.add_zero] using hdepth⟩

end

/-- Put before a rendering, a rendered node is rendered. -/
theorem Renders.append_nodes {steps middle rest : List Step} {nodes more : List Node}
    (h : Renders steps nodes middle) (hmore : Renders middle more rest) :
    Renders steps (nodes ++ more) rest := by
  induction h with
  | nil => exact hmore
  | sequential plain _ ih => exact .sequential plain (ih hmore)
  | conditional guarded inside closes _ _ ih => exact .conditional guarded inside closes (ih hmore)
  | alternative guarded inside marked other closes _ _ _ ih =>
    exact .alternative guarded inside marked other closes (ih hmore)
  | loop guarded inside closes _ _ ih => exact .loop guarded inside closes (ih hmore)

/-- The resolver of sequences in terms of the node at the front. -/
theorem resolveSequence_cons {total bound depth : Nat} {step : Step} {rest : List Step}
    (hmarker : step.isMarker = false) :
    resolveSequence total (bound + 1) depth (step :: rest) =
      (resolveNode total (resolveSequence total bound) depth step rest).bind fun found =>
        (resolveSequence total bound depth found.2).bind fun more =>
          .ok ⟨found.1 :: more.nodes, more.rest⟩ := by
  simp only [resolveSequence, hmarker]
  rfl

/-- What the resolver returns is rendered by the steps. -/
theorem resolveSequence_renders (total bound : Nat) :
    Faithful bound (resolveSequence total bound) := by
  induction bound with
  | zero =>
    intro depth steps found hlength hdepth h
    obtain rfl : steps = [] := List.length_eq_zero_iff.1 (Nat.le_zero.1 hlength)
    cases h
    exact ⟨.nil [], .atEnd, hdepth⟩
  | succ bound ih =>
    intro depth steps found hlength hdepth h
    match steps with
    | [] =>
      cases h
      exact ⟨.nil [], .atEnd, hdepth⟩
    | step :: rest =>
      by_cases hmarker : step.isMarker = true
      · simp only [resolveSequence, hmarker, if_true] at h
        cases h
        exact ⟨.nil _, .atMarker rest hmarker, hdepth⟩
      · have hmarker : step.isMarker = false := by simpa using hmarker
        rw [resolveSequence_cons hmarker] at h
        obtain ⟨⟨node, after⟩, hnode, h⟩ := exists_of_bind_eq_ok h
        obtain ⟨more, hmore, h⟩ := exists_of_bind_eq_ok h
        cases h
        change resolveSequence total bound depth after = _ at hmore
        rw [List.length_cons] at hlength
        obtain ⟨hfirst, hfirstDepth⟩ :=
          resolveNode_renders ih (Nat.le_of_succ_le_succ hlength) hdepth hmarker hnode
        -- at least one step less is left for the nodes after it
        have hafter := hfirst.length_lt
        rw [List.length_cons] at hafter
        obtain ⟨hrest, hstop, hrestDepth⟩ := ih _ _ _ (by omega) hdepth hmore
        refine ⟨hfirst.append_nodes hrest, hstop, ?_⟩
        simp only [nodesDepth]
        omega

end Plan

end StepScript
