import StepScript.Proofs.Plan.Rendering

/-!
# Scanning for open blocks

One pass over the steps of a script that remembers which blocks are open. It finds the same faults
as the resolver, which recurses into the blocks instead.
-/

namespace StepScript.Plan

/-- A block that has begun and not ended. -/
inductive OpenBlock where
  | beforeElse
  | afterElse
  | loop
deriving DecidableEq, Repr

def OpenBlock.closing : OpenBlock → StepType
  | .beforeElse | .afterElse => .endIf
  | .loop => .endWhile

/-- The open blocks, innermost first, after a step of some type at an index. -/
def scanStep (index : Nat) : StepType → List OpenBlock → Except PlanError (List OpenBlock)
  | .ifGuard, stack =>
    if depthLimit ≤ stack.length then .error (.tooDeep index depthLimit)
    else .ok (.beforeElse :: stack)
  | .whileGuard, stack =>
    if depthLimit ≤ stack.length then .error (.tooDeep index depthLimit)
    else .ok (.loop :: stack)
  | .elseMarker, .beforeElse :: outer => .ok (.afterElse :: outer)
  | .endIf, .beforeElse :: outer => .ok outer
  | .endIf, .afterElse :: outer => .ok outer
  | .endWhile, .loop :: outer => .ok outer
  | .elseMarker, _ => .error (.unbalanced index .elseMarker)
  | .endIf, _ => .error (.unbalanced index .endIf)
  | .endWhile, _ => .error (.unbalanced index .endWhile)
  | _, stack => .ok stack

/-- The open blocks after some steps, the first of which has an index. -/
def scan (index : Nat) (stack : List OpenBlock) : List Step → Except PlanError (List OpenBlock)
  | [] => .ok stack
  | step :: rest => (scanStep index step.type stack).bind fun stack => scan (index + 1) stack rest

/-- The types of the markers that would close the blocks open at the end of a script, innermost
first. -/
def missingMarkers (steps : List Step) : List StepType :=
  match scan 0 [] steps with
  | .ok stack => stack.map OpenBlock.closing
  | .error _ => []

/-! ## Single steps -/

@[simp] theorem scan_nil (index : Nat) (stack : List OpenBlock) : scan index stack [] = .ok stack :=
  rfl

theorem scan_cons_ok {index : Nat} {stack stack' : List OpenBlock} {step : Step} {rest : List Step}
    (h : scanStep index step.type stack = .ok stack') :
    scan index stack (step :: rest) = scan (index + 1) stack' rest := by
  rw [scan, h]
  rfl

theorem scan_cons_error {index : Nat} {stack : List OpenBlock} {step : Step} {rest : List Step}
    {cause : PlanError} (h : scanStep index step.type stack = .error cause) :
    scan index stack (step :: rest) = .error cause := by
  rw [scan, h]
  rfl

theorem scanStep_plain {type : StepType} (index : Nat) (stack : List OpenBlock)
    (plain : type.isPlain = true) : scanStep index type stack = .ok stack := by
  cases type <;> first | rfl | cases plain

theorem scanStep_ifGuard {index : Nat} {stack : List OpenBlock} (h : stack.length < depthLimit) :
    scanStep index .ifGuard stack = .ok (.beforeElse :: stack) := by
  rw [scanStep, if_neg (Nat.not_le_of_lt h)]

theorem scanStep_whileGuard {index : Nat} {stack : List OpenBlock}
    (h : stack.length < depthLimit) : scanStep index .whileGuard stack = .ok (.loop :: stack) := by
  rw [scanStep, if_neg (Nat.not_le_of_lt h)]

/-- The marker that closes a block takes it off. -/
theorem scanStep_closing (index : Nat) (block : OpenBlock) (outer : List OpenBlock) :
    scanStep index block.closing (block :: outer) = .ok outer := by
  cases block <;> rfl

/-! ## Renderings -/

/-- A scan of the steps of a rendering comes to the steps `rest` after it, with the blocks `opened`
open in addition if the steps have ended. A marker for each of these makes the rendering complete,
so that anything may follow it. -/
structure Leaves (steps : List Step) (nodes : List Node) (opened : List OpenBlock)
    (rest : List Step) : Prop where
  atEnd : rest = [] ∨ opened = []
  scans : ∀ index stack, stack.length + nodesDepth nodes ≤ depthLimit →
    scan index stack steps = scan (index + (steps.length - rest.length)) (opened ++ stack) rest
  completes : ∀ closing more, closing.map Step.type = opened.map OpenBlock.closing →
    Renders (steps ++ (closing ++ more)) nodes (rest ++ more)

/-- The same for the steps inside a block, its end and the nodes after it. -/
structure LeavesBlock (block : OpenBlock) (steps : List Step) (inside nodes : List Node)
    (opened : List OpenBlock) (rest : List Step) : Prop where
  atEnd : rest = [] ∨ opened = []
  scans : ∀ index stack, stack.length + 1 + nodesDepth inside ≤ depthLimit →
    stack.length + nodesDepth nodes ≤ depthLimit →
    scan index (block :: stack) steps =
      scan (index + (steps.length - rest.length)) (opened ++ stack) rest
  completes : ∀ closing more, closing.map Step.type = opened.map OpenBlock.closing →
    ∃ middle after, Renders (steps ++ (closing ++ more)) inside middle ∧
      Closes block.closing middle after ∧ Renders after nodes (rest ++ more)

/-- Nothing is open in front of further steps. -/
theorem Leaves.opened_eq_nil {steps rest : List Step} {nodes : List Node}
    {opened : List OpenBlock} {step : Step} (h : Leaves steps nodes opened (step :: rest)) :
    opened = [] :=
  h.atEnd.resolve_left (List.cons_ne_nil step rest)

theorem Leaves.closes (block : OpenBlock) {steps middle after rest : List Step}
    {inside nodes : List Node} {opened others : List OpenBlock}
    (hinside : Leaves steps inside opened middle) (hshorter : middle.length ≤ steps.length)
    (closes : Closes block.closing middle after) (hmore : Leaves after nodes others rest)
    (h : Renders after nodes rest) :
    ∃ opened, LeavesBlock block steps inside nodes opened rest := by
  cases closes with
  | @marker marker after htype =>
    obtain rfl := hinside.opened_eq_nil
    refine ⟨others, hmore.atEnd, fun index stack hdepth hdepth' => ?_,
      fun closing more htypes => ?_⟩
    · have hafter := h.length_le
      rw [List.length_cons] at hshorter
      have hindex : index + (steps.length - (marker :: after).length) + 1 +
          (after.length - rest.length) = index + (steps.length - rest.length) := by
        rw [List.length_cons]
        omega
      rw [hinside.scans index (block :: stack) (by rw [List.length_cons]; exact hdepth),
        List.nil_append, scan_cons_ok (by rw [htype]; exact scanStep_closing _ block stack),
        hmore.scans _ stack hdepth', hindex]
    · exact ⟨_, _, hinside.completes [] (closing ++ more) rfl, .marker _ htype,
        hmore.completes closing more htypes⟩
  | omitted =>
    -- behind the blocks that were open inside, the block itself stays open
    obtain ⟨rfl, rfl⟩ := h.of_nil
    refine ⟨opened ++ [block], .inl rfl, fun index stack hdepth _ => ?_,
      fun closing more htypes => ?_⟩
    · rw [hinside.scans index (block :: stack) (by rw [List.length_cons]; exact hdepth),
        List.append_assoc]
      rfl
    · rw [List.map_append] at htypes
      obtain ⟨closing, last, rfl, hclosing, hlast⟩ := List.map_eq_append_iff.1 htypes
      obtain ⟨marker, rfl, htype⟩ := List.map_eq_singleton_iff.1 hlast
      refine ⟨_, _, ?_, .marker more htype, .nil more⟩
      have := hinside.completes closing (marker :: more) hclosing
      rwa [List.append_assoc]

theorem LeavesBlock.guarded {block : OpenBlock} {guard : Step} {steps rest : List Step}
    {inside nodes : List Node} {opened : List OpenBlock}
    (h : LeavesBlock block steps inside nodes opened rest) (hshorter : rest.length ≤ steps.length)
    {index : Nat} {stack : List OpenBlock}
    (hopens : scanStep index guard.type stack = .ok (block :: stack))
    (hinside : stack.length + 1 + nodesDepth inside ≤ depthLimit)
    (hnodes : stack.length + nodesDepth nodes ≤ depthLimit) :
    scan index stack (guard :: steps) =
      scan (index + ((guard :: steps).length - rest.length)) (opened ++ stack) rest := by
  have hindex : index + 1 + (steps.length - rest.length) =
      index + ((guard :: steps).length - rest.length) := by
    rw [List.length_cons]
    omega
  rw [scan_cons_ok hopens, h.scans _ stack hinside hnodes, hindex]

/-- A rendering leaves only the blocks open that its end cuts short. -/
theorem Renders.leaves {steps rest : List Step} {nodes : List Node}
    (h : Renders steps nodes rest) : ∃ opened, Leaves steps nodes opened rest := by
  induction h with
  | nil steps =>
    refine ⟨[], .inr rfl, fun index stack _ => ?_, fun closing more htypes => ?_⟩
    · rw [Nat.sub_self, Nat.add_zero, List.nil_append]
    · obtain rfl := List.map_eq_nil_iff.1 htypes
      exact .nil _
  | @sequential step steps rest nodes plain more ih =>
    obtain ⟨opened, ih⟩ := ih
    refine ⟨opened, ih.atEnd, fun index stack hdepth => ?_, fun closing more htypes => ?_⟩
    · have hshorter := more.length_le
      have hindex : index + 1 + (steps.length - rest.length) =
          index + ((step :: steps).length - rest.length) := by
        rw [List.length_cons]
        omega
      simp only [nodesDepth] at hdepth
      rw [scan_cons_ok (scanStep_plain index stack plain), ih.scans _ stack (by omega), hindex]
    · exact .sequential plain (ih.completes closing more htypes)
  | @conditional guard steps closing after rest thenBranch nodes guarded inside closes more ihInside
      ih =>
    obtain ⟨_, ihInside⟩ := ihInside
    obtain ⟨_, ih⟩ := ih
    obtain ⟨opened, hblock⟩ :=
      ihInside.closes .beforeElse inside.length_le closes ih more
    refine ⟨opened, hblock.atEnd, fun index stack hdepth => ?_, fun closing more' htypes => ?_⟩
    · simp only [nodesDepth, nodeDepth] at hdepth
      have hshorter := Nat.le_trans more.length_le (Nat.le_trans closes.length_le inside.length_le)
      refine hblock.guarded hshorter ?_ (by omega) (by omega)
      rw [guarded]
      exact scanStep_ifGuard (by omega)
    · obtain ⟨_, _, hinside, hcloses, hmore⟩ := hblock.completes closing more' htypes
      exact .conditional guarded hinside hcloses hmore
  | @alternative guard marker steps middle closing after rest thenBranch elseBranch nodes guarded
      inside marked other closes more ihInside ihOther ih =>
    obtain ⟨_, ihInside⟩ := ihInside
    obtain ⟨_, ihOther⟩ := ihOther
    obtain ⟨_, ih⟩ := ih
    obtain ⟨opened, hblock⟩ :=
      ihOther.closes .afterElse other.length_le closes ih more
    obtain rfl := ihInside.opened_eq_nil
    refine ⟨opened, hblock.atEnd, fun index stack hdepth => ?_, fun closing more' htypes => ?_⟩
    · simp only [nodesDepth, nodeDepth] at hdepth
      have hinside := inside.length_le
      have hshorter := Nat.le_trans more.length_le (Nat.le_trans closes.length_le other.length_le)
      rw [List.length_cons] at hinside
      have helse : ∀ index, scanStep index marker.type (.beforeElse :: stack) =
          .ok (.afterElse :: stack) := by
        intro index
        rw [marked]
        rfl
      rw [scan_cons_ok (by rw [guarded]; exact scanStep_ifGuard (by omega)),
        ihInside.scans _ (.beforeElse :: stack) (by rw [List.length_cons]; omega),
        List.nil_append, scan_cons_ok (helse _), hblock.scans _ stack (by omega) (by omega)]
      congr 1
      simp only [List.length_cons]
      omega
    · obtain ⟨_, _, hother, hcloses, hmore⟩ := hblock.completes closing more' htypes
      exact .alternative guarded (ihInside.completes [] _ rfl) marked hother hcloses hmore
  | @loop guard steps closing after rest body nodes guarded inside closes more ihInside ih =>
    obtain ⟨_, ihInside⟩ := ihInside
    obtain ⟨_, ih⟩ := ih
    obtain ⟨opened, hblock⟩ := ihInside.closes .loop inside.length_le closes ih more
    refine ⟨opened, hblock.atEnd, fun index stack hdepth => ?_, fun closing more' htypes => ?_⟩
    · simp only [nodesDepth, nodeDepth] at hdepth
      have hshorter := Nat.le_trans more.length_le (Nat.le_trans closes.length_le inside.length_le)
      refine hblock.guarded hshorter ?_ (by omega) (by omega)
      rw [guarded]
      exact scanStep_whileGuard (by omega)
    · obtain ⟨_, _, hinside, hcloses, hmore⟩ := hblock.completes closing more' htypes
      exact .loop guarded hinside hcloses hmore

/-! ## Faults -/

/-- The scan finds the faults that a resolver of sequences finds in at most `bound` steps. -/
def FindsFaults (total bound : Nat) (sequence : Nat → List Step → Except PlanError Sequence) :
    Prop :=
  ∀ index stack steps cause, steps.length ≤ bound → index + steps.length = total →
    stack.length ≤ depthLimit → sequence stack.length steps = .error cause →
    scan index stack steps = .error cause

section

variable {total bound index : Nat} {sequence : Nat → List Step → Except PlanError Sequence}
  {stack : List OpenBlock} {steps : List Step} {cause : PlanError}

/-- A marker that closes no open block is a fault of the scan as well. -/
theorem scanStep_unbalanced {type : StepType} (hmarker : type.isMarker = true)
    (helse : type = .elseMarker → ∀ outer, stack ≠ .beforeElse :: outer)
    (hclosing : ∀ block outer, stack = block :: outer → type ≠ block.closing) :
    scanStep index type stack = .error (.unbalanced index type) := by
  rcases stack with _ | ⟨block, outer⟩
  · cases type <;> first | rfl | cases hmarker
  · have hblock := hclosing block outer rfl
    cases type <;> cases block <;>
      first
        | rfl
        | exact (hblock rfl).elim
        | exact (helse rfl outer rfl).elim
        | cases hmarker

/-- A block whose sequence stops before the steps `rest` is scanned up to them. -/
theorem scan_block {block : OpenBlock} {inside : List Node} {marker : Step} {rest : List Step}
    (htotal : index + steps.length = total) (hrenders : Renders steps inside (marker :: rest))
    (hdepth : stack.length + 1 + nodesDepth inside ≤ depthLimit) :
    scan index (block :: stack) steps =
      scan (total - (marker :: rest).length) (block :: stack) (marker :: rest) := by
  obtain ⟨opened, hleaves⟩ := hrenders.leaves
  obtain rfl := hleaves.opened_eq_nil
  have hshorter := hrenders.length_le
  rw [hleaves.scans index (block :: stack) (by rw [List.length_cons]; exact hdepth),
    List.nil_append]
  congr 1
  omega

/-- A block that stops at a marker of another kind is a fault of the scan. -/
theorem scan_block_unbalanced {block : OpenBlock} {inside : List Node} {marker : Step}
    {rest : List Step} (htotal : index + steps.length = total)
    (hrenders : Renders steps inside (marker :: rest))
    (hdepth : stack.length + 1 + nodesDepth inside ≤ depthLimit)
    (hmarker : marker.type.isMarker = true) (hclosing : marker.type ≠ block.closing)
    (helse : marker.type = .elseMarker → block ≠ .beforeElse) :
    scan index (block :: stack) steps =
      .error (.unbalanced (total - (marker :: rest).length) marker.type) := by
  rw [scan_block htotal hrenders hdepth]
  apply scan_cons_error
  apply scanStep_unbalanced hmarker
  · rintro marked outer ⟨⟩
    exact helse marked rfl
  · rintro block outer ⟨⟩
    exact hclosing

theorem resolveWhile_fault (hfaithful : Faithful bound sequence)
    (hfaults : FindsFaults total bound sequence) (hlength : steps.length ≤ bound)
    (htotal : index + steps.length = total) (hdepth : stack.length < depthLimit) {guard : Step}
    (h : resolveWhile total sequence (stack.length + 1) guard steps = .error cause) :
    scan index (.loop :: stack) steps = .error cause := by
  rw [resolveWhile] at h
  rcases cases_of_bind_eq_error h with hbody | ⟨body, hbody, h⟩
  · exact hfaults index (.loop :: stack) steps _ hlength htotal hdepth hbody
  · obtain ⟨inside, hstop, hinside⟩ := hfaithful _ _ _ hlength hdepth hbody
    split at h
    · cases h
    · next marker rest hrest =>
      rw [hrest] at inside hstop
      split at h
      · cases h
      · next htype =>
        cases h
        exact scan_block_unbalanced htotal inside hinside hstop.isMarker htype fun _ => by decide

theorem resolveElse_fault (hfaithful : Faithful bound sequence)
    (hfaults : FindsFaults total bound sequence) (hlength : steps.length ≤ bound)
    (htotal : index + steps.length = total) (hdepth : stack.length < depthLimit) {guard : Step}
    {thenBranch : List Node}
    (h : resolveElse total sequence (stack.length + 1) guard thenBranch steps = .error cause) :
    scan index (.afterElse :: stack) steps = .error cause := by
  rw [resolveElse] at h
  rcases cases_of_bind_eq_error h with hbranch | ⟨branch, hbranch, h⟩
  · exact hfaults index (.afterElse :: stack) steps _ hlength htotal hdepth hbranch
  · obtain ⟨inside, hstop, hinside⟩ := hfaithful _ _ _ hlength hdepth hbranch
    split at h
    · cases h
    · next marker rest hrest =>
      rw [hrest] at inside hstop
      split at h
      · cases h
      · next htype =>
        cases h
        exact scan_block_unbalanced htotal inside hinside hstop.isMarker htype fun _ => by decide

theorem resolveIf_fault (hfaithful : Faithful bound sequence)
    (hfaults : FindsFaults total bound sequence) (hlength : steps.length ≤ bound)
    (htotal : index + steps.length = total) (hdepth : stack.length < depthLimit) {guard : Step}
    (h : resolveIf total sequence (stack.length + 1) guard steps = .error cause) :
    scan index (.beforeElse :: stack) steps = .error cause := by
  rw [resolveIf] at h
  rcases cases_of_bind_eq_error h with hbranch | ⟨branch, hbranch, h⟩
  · exact hfaults index (.beforeElse :: stack) steps _ hlength htotal hdepth hbranch
  · obtain ⟨inside, hstop, hinside⟩ := hfaithful _ _ _ hlength hdepth hbranch
    split at h
    · cases h
    · next marker rest hrest =>
      rw [hrest] at inside hstop
      split at h
      · cases h
      · next htype =>
        split at h
        · -- the scan goes on inside the same block, behind its `Else`
          next marked =>
          have hrestLength := inside.length_le
          rw [List.length_cons] at hrestLength
          have helse : scanStep (total - (marker :: rest).length) marker.type
              (.beforeElse :: stack) = .ok (.afterElse :: stack) := by
            rw [marked]
            rfl
          rw [scan_block htotal inside hinside, scan_cons_ok helse]
          refine resolveElse_fault hfaithful hfaults (by omega) ?_ hdepth h
          rw [List.length_cons]
          omega
        · next hother =>
          cases h
          exact scan_block_unbalanced htotal inside hinside hstop.isMarker htype
            fun marked => absurd marked hother

theorem resolveNode_fault (hfaithful : Faithful bound sequence)
    (hfaults : FindsFaults total bound sequence) (hlength : steps.length ≤ bound) {step : Step}
    (htotal : index + (step :: steps).length = total)
    (h : resolveNode total sequence stack.length step steps = .error cause) :
    scan index stack (step :: steps) = .error cause := by
  have htotal' : index + 1 + steps.length = total := by
    rw [List.length_cons] at htotal
    omega
  simp only [resolveNode] at h
  split at h
  · next hopen =>
    obtain ⟨hguard, hfull⟩ := hopen
    cases h
    obtain rfl : total - (step :: steps).length = index := by omega
    apply scan_cons_error
    rcases hguard with hguard | hguard <;> rw [hguard, scanStep, if_pos hfull]
  · next hopen =>
    split at h
    · next guarded =>
      have hdepth : ¬ depthLimit ≤ stack.length := fun hle => hopen ⟨.inl guarded, hle⟩
      have hdepth := Nat.lt_of_not_le hdepth
      rw [scan_cons_ok (by rw [guarded]; exact scanStep_ifGuard hdepth)]
      exact resolveIf_fault hfaithful hfaults hlength htotal' hdepth h
    · split at h
      · next guarded =>
        have hdepth : ¬ depthLimit ≤ stack.length := fun hle => hopen ⟨.inr guarded, hle⟩
        have hdepth := Nat.lt_of_not_le hdepth
        rw [scan_cons_ok (by rw [guarded]; exact scanStep_whileGuard hdepth)]
        exact resolveWhile_fault hfaithful hfaults hlength htotal' hdepth h
      · cases h

end

/-- The resolver of sequences makes no fault of its own. -/
theorem resolveSequence_fault (total bound : Nat) :
    FindsFaults total bound (resolveSequence total bound) := by
  induction bound with
  | zero =>
    intro index stack steps cause _ _ _ h
    cases h
  | succ bound ih =>
    intro index stack steps cause hlength htotal hdepth h
    match steps with
    | [] => cases h
    | step :: rest =>
      by_cases hmarker : step.isMarker = true
      · simp only [resolveSequence, hmarker, if_true] at h
        cases h
      · have hmarker : step.isMarker = false := by simpa using hmarker
        have hfaithful := resolveSequence_renders total bound
        have hrestLength := Nat.le_of_succ_le_succ hlength
        rw [resolveSequence_cons hmarker] at h
        cases hnode : resolveNode total (resolveSequence total bound) stack.length step rest with
        | error =>
          rw [hnode] at h
          cases h
          exact resolveNode_fault hfaithful ih hrestLength htotal hnode
        | ok found =>
          obtain ⟨node, after⟩ := found
          obtain ⟨hfirst, hfirstDepth⟩ :=
            resolveNode_renders hfaithful hrestLength hdepth hmarker hnode
          obtain ⟨opened, hleaves⟩ := hfirst.leaves
          have hafter := hfirst.length_lt
          rw [hnode] at h
          simp only [Except.bind] at h
          -- the fault is behind the node, so the scan has passed over the node
          cases after with
          | nil => cases bound <;> cases h
          | cons next after =>
            obtain rfl := hleaves.opened_eq_nil
            have hnodeDepth : stack.length + nodesDepth [node] ≤ depthLimit := by
              simp only [nodesDepth]
              omega
            rw [hleaves.scans index stack hnodeDepth, List.nil_append]
            simp only [List.length_cons] at hafter hlength htotal ⊢
            split at h
            · next hmore =>
              cases h
              refine ih _ stack _ _ ?_ ?_ hdepth hmore <;> rw [List.length_cons] <;> omega
            · cases h

end StepScript.Plan
