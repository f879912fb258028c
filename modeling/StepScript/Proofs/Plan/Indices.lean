import StepScript.Proofs.Plan.Rendering

/-!
# Resolving by index

The resolvers hand on what is left of the steps. The same resolvers can hand on indices: they read
the step at an index of the whole list, and return the index of the first step behind what they have
resolved. Then nothing in their form keeps them from reading outside of the list, or from calling
each other for ever, and both count as results here. Neither comes about: a block begins behind its
guard or its marker, and whatever is resolved ends further on and inside of the list.
-/

namespace StepScript.Plan

/-! ## The resolvers by index -/

/-- Why a sequence of nodes stops: at a marker, or because no step is left. -/
inductive Terminator where
  | marker (type : StepType)
  | endOfScript
deriving DecidableEq, Repr

/-- Why resolving by index gives no nodes: a fault of the script, an index without a step, or more
calls inside each other than are allowed. -/
inductive Halt where
  | fault (cause : PlanError)
  | outside (index : Nat)
  | unfinished
deriving DecidableEq, Repr

/-- A sequence of nodes, the index at which it stops, and why it does. -/
structure Stretch where
  nodes : List Node
  terminator : Terminator
  next : Nat

section

variable (steps : List Step)

def stepAt (index : Nat) : Except Halt Step :=
  match steps[index]? with
  | some step => .ok step
  | none => .error (.outside index)

/-- A marker that closes no open block. -/
def unbalancedAt {α : Type} (index : Nat) (marker : StepType) : Except Halt α :=
  .error (.fault (.unbalanced index marker))

variable (sequence : Nat → Nat → Except Halt Stretch)

/-- The second branch of a condition, which begins at an index. -/
def elseAt (depth : Nat) (guard : Step) (thenBranch : List Node) (start : Nat) :
    Except Halt (Node × Nat) := do
  let branch ← sequence depth start
  match branch.terminator with
  | .endOfScript => return (.conditional guard thenBranch branch.nodes, branch.next)
  | .marker type =>
    if type = .endIf then return (.conditional guard thenBranch branch.nodes, branch.next + 1)
    else unbalancedAt branch.next type

def ifAt (depth index : Nat) : Except Halt (Node × Nat) := do
  let guard ← stepAt steps index
  let branch ← sequence depth (index + 1)
  match branch.terminator with
  | .endOfScript => return (.conditional guard branch.nodes [], branch.next)
  | .marker type =>
    if type = .endIf then return (.conditional guard branch.nodes [], branch.next + 1)
    else if type = .elseMarker then elseAt sequence depth guard branch.nodes (branch.next + 1)
    else unbalancedAt branch.next type

def whileAt (depth index : Nat) : Except Halt (Node × Nat) := do
  let guard ← stepAt steps index
  let body ← sequence depth (index + 1)
  match body.terminator with
  | .endOfScript => return (.loop guard body.nodes, body.next)
  | .marker type =>
    if type = .endWhile then return (.loop guard body.nodes, body.next + 1)
    else unbalancedAt body.next type

/-- The node that the step at an index begins, inside `depth` blocks, and the index behind it. -/
def nodeAt (depth index : Nat) : Except Halt (Node × Nat) := do
  let step ← stepAt steps index
  let opensBlock := step.type = .ifGuard ∨ step.type = .whileGuard
  if opensBlock ∧ depthLimit ≤ depth then .error (.fault (.tooDeep index depthLimit))
  else if step.type = .ifGuard then ifAt steps sequence (depth + 1) index
  else if step.type = .whileGuard then whileAt steps sequence (depth + 1) index
  else return (.sequential step, index + 1)

end

/-- The nodes from an index on, up to the first marker that closes no block among them, inside
`depth` blocks. At most `calls` calls may be inside each other, one for each node of a sequence
included. -/
def sequenceAt (steps : List Step) : Nat → Nat → Nat → Except Halt Stretch
  | 0, _, _ => .error .unfinished
  | calls + 1, depth, start =>
    match steps[start]? with
    | none => .ok ⟨[], .endOfScript, start⟩
    | some step =>
      if step.isMarker then .ok ⟨[], .marker step.type, start⟩
      else do
        let (node, next) ← nodeAt steps (sequenceAt steps calls) depth start
        let more ← sequenceAt steps calls depth next
        return { more with nodes := node :: more.nodes }

/-! ## What is left behind nodes -/

/-- Behind what a resolver of sequences finds in at most `bound` steps, the end of the steps from
some place on is left: nothing, or steps that begin with a marker. -/
def LeavesEnd (bound : Nat) (sequence : Nat → List Step → Except PlanError Sequence) : Prop :=
  ∀ depth steps found, steps.length ≤ bound → sequence depth steps = .ok found →
    found.rest <:+ steps ∧ Stops found.rest

section

variable {total bound depth : Nat} {sequence : Nat → List Step → Except PlanError Sequence}
  {guard : Step} {rest after : List Step} {node : Node}

theorem resolveElse_suffix {thenBranch : List Node} (hseq : LeavesEnd bound sequence)
    (hlength : rest.length ≤ bound)
    (h : resolveElse total sequence depth guard thenBranch rest = .ok (node, after)) :
    after <:+ rest := by
  rw [resolveElse] at h
  obtain ⟨branch, hbranch, h⟩ := exists_of_bind_eq_ok h
  obtain ⟨hsuffix, -⟩ := hseq _ _ _ hlength hbranch
  split at h
  · cases h
    exact List.nil_suffix
  · next marker last hcons =>
    rw [hcons] at hsuffix
    split at h
    · cases h
      exact (List.suffix_cons marker _).trans hsuffix
    · cases h

theorem resolveIf_suffix (hseq : LeavesEnd bound sequence) (hlength : rest.length ≤ bound)
    (h : resolveIf total sequence depth guard rest = .ok (node, after)) : after <:+ rest := by
  rw [resolveIf] at h
  obtain ⟨branch, hbranch, h⟩ := exists_of_bind_eq_ok h
  obtain ⟨hsuffix, -⟩ := hseq _ _ _ hlength hbranch
  split at h
  · cases h
    exact List.nil_suffix
  · next marker last hcons =>
    rw [hcons] at hsuffix
    have hlast := (List.suffix_cons marker last).trans hsuffix
    split at h
    · cases h
      exact hlast
    · split at h
      · exact (resolveElse_suffix hseq (Nat.le_trans hlast.length_le hlength) h).trans hlast
      · cases h

theorem resolveWhile_suffix (hseq : LeavesEnd bound sequence) (hlength : rest.length ≤ bound)
    (h : resolveWhile total sequence depth guard rest = .ok (node, after)) : after <:+ rest := by
  rw [resolveWhile] at h
  obtain ⟨body, hbody, h⟩ := exists_of_bind_eq_ok h
  obtain ⟨hsuffix, -⟩ := hseq _ _ _ hlength hbody
  split at h
  · cases h
    exact List.nil_suffix
  · next marker last hcons =>
    rw [hcons] at hsuffix
    split at h
    · cases h
      exact (List.suffix_cons marker _).trans hsuffix
    · cases h

/-- A node takes at least its first step. -/
theorem resolveNode_suffix (hseq : LeavesEnd bound sequence) (hlength : rest.length ≤ bound)
    (h : resolveNode total sequence depth guard rest = .ok (node, after)) : after <:+ rest := by
  simp only [resolveNode] at h
  split at h
  · cases h
  · split at h
    · exact resolveIf_suffix hseq hlength h
    · split at h
      · exact resolveWhile_suffix hseq hlength h
      · cases h
        exact List.suffix_rfl

end

/-- Behind what the resolver of sequences finds, the end of the steps is left. -/
theorem resolveSequence_leavesEnd (total bound : Nat) :
    LeavesEnd bound (resolveSequence total bound) := by
  induction bound with
  | zero =>
    intro depth steps found hlength h
    obtain rfl : steps = [] := List.length_eq_zero_iff.1 (Nat.le_zero.1 hlength)
    cases h
    exact ⟨List.suffix_rfl, .atEnd⟩
  | succ bound ih =>
    intro depth steps found hlength h
    match steps with
    | [] =>
      cases h
      exact ⟨List.suffix_rfl, .atEnd⟩
    | step :: rest =>
      cases hmarker : step.isMarker with
      | true =>
        simp only [resolveSequence, hmarker, if_true] at h
        cases h
        exact ⟨List.suffix_rfl, .atMarker rest hmarker⟩
      | false =>
        rw [resolveSequence_cons hmarker] at h
        obtain ⟨⟨node, after⟩, hnode, h⟩ := exists_of_bind_eq_ok h
        obtain ⟨more, hmore, h⟩ := exists_of_bind_eq_ok h
        cases h
        have hrest := Nat.le_of_succ_le_succ hlength
        have hafter := resolveNode_suffix ih hrest hnode
        obtain ⟨hsuffix, hstop⟩ := ih _ _ _ (Nat.le_trans hafter.length_le hrest) hmore
        exact ⟨(hsuffix.trans hafter).trans (List.suffix_cons step rest), hstop⟩

/-! ## From what is left to indices -/

/-- Why a sequence stops in front of some steps. -/
def Terminator.before : List Step → Terminator
  | [] => .endOfScript
  | step :: _ => .marker step.type

/-- Where a sequence ends in a list of `total` steps. -/
def Stretch.ofSequence (total : Nat) (found : Sequence) : Stretch :=
  ⟨found.nodes, .before found.rest, total - found.rest.length⟩

/-- The index behind a node in a list of `total` steps. -/
def indexBehind (total : Nat) (found : Node × List Step) : Node × Nat :=
  (found.1, total - found.2.length)

/-- A result in terms of indices. Its faults are those of the script. -/
def byIndex {α β : Type} (locate : α → β) : Except PlanError α → Except Halt β
  | .ok found => .ok (locate found)
  | .error cause => .error (.fault cause)

/-- Results that go on alike after each other are alike. -/
theorem byIndex_bind {α β α' β' : Type} {locate : α → β} {locate' : α' → β'}
    {result : Except PlanError α} {next : α → Except PlanError α'} {next' : β → Except Halt β'}
    (h : ∀ found, result = .ok found → next' (locate found) = byIndex locate' (next found)) :
    (byIndex locate result).bind next' = byIndex locate' (result.bind next) := by
  cases result with
  | error => rfl
  | ok found => exact h found rfl

/-- From an index of `first` or more on, a resolver by index does the same as another one with what
is left of the steps. -/
def Follows (steps : List Step) (first : Nat) (indexed : Nat → Nat → Except Halt Stretch)
    (sequence : Nat → List Step → Except PlanError Sequence) : Prop :=
  ∀ depth start, first ≤ start → start ≤ steps.length →
    indexed depth start = byIndex (.ofSequence steps.length) (sequence depth (steps.drop start))

section

variable {steps : List Step} {index : Nat}

/-- The end of a list begins at an index of it. -/
theorem drop_length_sub {rest : List Step} (h : rest <:+ steps) :
    steps.drop (steps.length - rest.length) = rest :=
  (List.suffix_iff_eq_drop.1 h).symm

theorem stepAt_eq {step : Step} {rest : List Step} (h : steps.drop index = step :: rest) :
    stepAt steps index = .ok step := by
  rw [stepAt, getElem?_of_drop h]

theorem length_of_drop {step : Step} {rest : List Step} (h : steps.drop index = step :: rest) :
    steps.length = index + (step :: rest).length := by
  have hlength := congrArg List.length h
  rw [List.length_drop] at hlength
  rw [List.length_cons] at hlength ⊢
  omega

/-- The index behind a marker with which the end of a list begins. -/
theorem sub_length_cons {marker : Step} {rest : List Step} (h : (marker :: rest) <:+ steps) :
    steps.length - (marker :: rest).length + 1 = steps.length - rest.length := by
  have hle := h.length_le
  rw [List.length_cons] at hle ⊢
  omega

end

section

variable {steps : List Step} {bound first depth : Nat}
  {indexed : Nat → Nat → Except Halt Stretch}
  {sequence : Nat → List Step → Except PlanError Sequence} {guard : Step}
  (hfollows : Follows steps first indexed sequence) (hseq : LeavesEnd bound sequence)
  (hbound : steps.length ≤ first + bound)

include hfollows hseq hbound

/-- What is done with a block is alike if it is at the end of the steps and in front of a marker. -/
theorem bind_block {start : Nat} (hstart : first ≤ start) (hle : start ≤ steps.length)
    {next : Sequence → Except PlanError (Node × List Step)}
    {next' : Stretch → Except Halt (Node × Nat)}
    (hend : ∀ nodes, next' ⟨nodes, .endOfScript, steps.length⟩ =
      byIndex (indexBehind steps.length) (next ⟨nodes, []⟩))
    (hmarker : ∀ nodes marker rest, (marker :: rest) <:+ steps.drop start →
      next' ⟨nodes, .marker marker.type, steps.length - (marker :: rest).length⟩ =
        byIndex (indexBehind steps.length) (next ⟨nodes, marker :: rest⟩)) :
    (indexed depth start).bind next' =
      byIndex (indexBehind steps.length) ((sequence depth (steps.drop start)).bind next) := by
  have hlength : (steps.drop start).length ≤ bound := by
    rw [List.length_drop]
    omega
  rw [hfollows depth start hstart hle]
  refine byIndex_bind fun found hfound => ?_
  obtain ⟨hsuffix, -⟩ := hseq _ _ _ hlength hfound
  obtain ⟨nodes, rest⟩ := found
  cases rest with
  | nil => exact hend nodes
  | cons marker rest => exact hmarker nodes marker rest hsuffix

theorem elseAt_eq {thenBranch : List Node} {start : Nat} (hstart : first ≤ start)
    (hle : start ≤ steps.length) :
    elseAt indexed depth guard thenBranch start =
      byIndex (indexBehind steps.length)
        (resolveElse steps.length sequence depth guard thenBranch (steps.drop start)) := by
  refine bind_block hfollows hseq hbound hstart hle (fun nodes => rfl) fun nodes marker rest h => ?_
  have hbehind := sub_length_cons (h.trans (List.drop_suffix ..))
  dsimp only
  rw [hbehind]
  split <;> rfl

theorem ifAt_eq {index : Nat} {rest : List Step} (hstart : first ≤ index + 1)
    (hguard : steps.drop index = guard :: rest) :
    ifAt steps indexed depth index =
      byIndex (indexBehind steps.length) (resolveIf steps.length sequence depth guard rest) := by
  have hlength := length_of_drop hguard
  have hindex : index + 1 ≤ steps.length := by
    rw [hlength, List.length_cons]
    omega
  rw [ifAt, stepAt_eq hguard, ← drop_succ hguard]
  refine bind_block hfollows hseq hbound hstart hindex (fun nodes => rfl)
    fun nodes marker rest h => ?_
  have hend := h.trans (List.drop_suffix ..)
  have hbehind := sub_length_cons hend
  have hrest := drop_length_sub ((List.suffix_cons marker rest).trans hend)
  dsimp only
  rw [hbehind]
  split
  · rfl
  · split
    · have helse : first ≤ steps.length - rest.length := by
        have hle := h.length_le
        rw [List.length_drop, List.length_cons] at hle
        omega
      rw [elseAt_eq hfollows hseq hbound helse (Nat.sub_le ..), hrest]
    · rfl

theorem whileAt_eq {index : Nat} {rest : List Step} (hstart : first ≤ index + 1)
    (hguard : steps.drop index = guard :: rest) :
    whileAt steps indexed depth index =
      byIndex (indexBehind steps.length) (resolveWhile steps.length sequence depth guard rest) := by
  have hlength := length_of_drop hguard
  have hindex : index + 1 ≤ steps.length := by
    rw [hlength, List.length_cons]
    omega
  rw [whileAt, stepAt_eq hguard, ← drop_succ hguard]
  refine bind_block hfollows hseq hbound hstart hindex (fun nodes => rfl)
    fun nodes marker rest h => ?_
  have hbehind := sub_length_cons (h.trans (List.drop_suffix ..))
  dsimp only
  rw [hbehind]
  split <;> rfl

/-- A node is resolved alike by index. -/
theorem nodeAt_eq {index : Nat} {rest : List Step} (hstart : first ≤ index + 1)
    (hguard : steps.drop index = guard :: rest) :
    nodeAt steps indexed depth index =
      byIndex (indexBehind steps.length) (resolveNode steps.length sequence depth guard rest) := by
  have hlength := length_of_drop hguard
  have hindex : steps.length - (guard :: rest).length = index := by omega
  have hbehind : steps.length - rest.length = index + 1 := by
    rw [hlength, List.length_cons]
    omega
  rw [nodeAt, stepAt_eq hguard, resolveNode, hindex]
  dsimp only [bind, Except.bind]
  split
  · rfl
  · split
    · exact ifAt_eq hfollows hseq hbound hstart hguard
    · split
      · exact whileAt_eq hfollows hseq hbound hstart hguard
      · rw [byIndex, indexBehind, hbehind]
        rfl

end

theorem resolveSequence_nil (total bound depth : Nat) :
    resolveSequence total bound depth [] = .ok ⟨[], []⟩ := by
  cases bound <;> rfl

/-- Behind the last step there is an empty sequence. -/
theorem sequenceAt_length (steps : List Step) (calls depth : Nat) :
    sequenceAt steps (calls + 1) depth steps.length = .ok ⟨[], .endOfScript, steps.length⟩ := by
  rw [sequenceAt, List.getElem?_eq_none (Nat.le_refl _)]

theorem sequenceAt_marker {steps : List Step} {start : Nat} {step : Step}
    (hstep : steps[start]? = some step) (hmarker : step.isMarker = true) (calls depth : Nat) :
    sequenceAt steps (calls + 1) depth start = .ok ⟨[], .marker step.type, start⟩ := by
  rw [sequenceAt, hstep]
  exact if_pos hmarker

/-- The resolver of sequences by index in terms of the node at the front. -/
theorem sequenceAt_node {steps : List Step} {start : Nat} {step : Step}
    (hstep : steps[start]? = some step) (hmarker : step.isMarker = false) (calls depth : Nat) :
    sequenceAt steps (calls + 1) depth start =
      (nodeAt steps (sequenceAt steps calls) depth start).bind fun found =>
        (sequenceAt steps calls depth found.2).bind fun more =>
          .ok { more with nodes := found.1 :: more.nodes } := by
  rw [sequenceAt, hstep]
  simp only [hmarker]
  rfl

/-- The resolver of sequences by index does the same as the other one, if at least as many calls may
be inside each other as there are steps, and one more. -/
theorem sequenceAt_eq (steps : List Step) {calls bound first : Nat}
    (hcalls : steps.length ≤ first + calls) (hbound : steps.length ≤ first + bound) :
    Follows steps first (sequenceAt steps (calls + 1)) (resolveSequence steps.length bound) := by
  -- what follows the first step needs one call less
  induction calls generalizing bound first with
  | zero =>
    intro depth start hstart hle
    obtain rfl : start = steps.length := by omega
    rw [sequenceAt_length, List.drop_length, resolveSequence_nil]
    rfl
  | succ calls ih =>
    intro depth start hstart hle
    cases hdrop : steps.drop start with
    | nil =>
      obtain rfl : start = steps.length := Nat.le_antisymm hle (List.drop_eq_nil_iff.1 hdrop)
      rw [sequenceAt_length, resolveSequence_nil]
      rfl
    | cons step rest =>
      have hlength := length_of_drop hdrop
      have hstep := getElem?_of_drop hdrop
      rw [List.length_cons] at hlength
      obtain ⟨bound, rfl⟩ : ∃ k, bound = k + 1 := ⟨bound - 1, by omega⟩
      cases hmarker : step.isMarker with
      | true =>
        have hstart : steps.length - (step :: rest).length = start := by
          rw [List.length_cons]
          omega
        rw [sequenceAt_marker hstep hmarker, resolveSequence, if_pos hmarker, byIndex,
          Stretch.ofSequence, hstart]
        rfl
      | false =>
        have hfollows := @ih bound (start + 1) (by omega) (by omega)
        have hseq := resolveSequence_leavesEnd steps.length bound
        rw [sequenceAt_node hstep hmarker, resolveSequence_cons hmarker,
          nodeAt_eq hfollows hseq (by omega) (Nat.le_refl _) hdrop]
        refine byIndex_bind fun found hnode => ?_
        have hsuffix := resolveNode_suffix hseq (by omega) hnode
        have hshorter := hsuffix.length_le
        have hend : found.2 <:+ steps := by
          have hrest := List.drop_suffix (start + 1) steps
          rw [drop_succ hdrop] at hrest
          exact hsuffix.trans hrest
        have hmore := hfollows depth (steps.length - found.2.length) (by omega) (Nat.sub_le ..)
        rw [drop_length_sub hend] at hmore
        rw [indexBehind, hmore]
        exact byIndex_bind fun more _ => rfl

/-! ## The indices -/

/-- A stretch from an index on that ends further on and inside of the list: at the end, or at a
marker. -/
structure Stretch.IsWithin (steps : List Step) (start : Nat) (found : Stretch) : Prop where
  start_le : start ≤ found.next
  le_length : found.next ≤ steps.length
  endOfScript_iff : found.terminator = .endOfScript ↔ found.next = steps.length
  marker : ∀ type, found.terminator = .marker type →
    ∃ step, steps[found.next]? = some step ∧ step.isMarker = true ∧ step.type = type

theorem Stretch.isWithin_ofSequence {steps : List Step} {start : Nat} {found : Sequence}
    (hsuffix : found.rest <:+ steps.drop start) (hstop : Stops found.rest)
    (hstart : start ≤ steps.length) :
    (Stretch.ofSequence steps.length found).IsWithin steps start := by
  obtain ⟨nodes, rest⟩ := found
  have hshorter : rest.length ≤ (steps.drop start).length := hsuffix.length_le
  rw [List.length_drop] at hshorter
  have hdrop := drop_length_sub (hsuffix.trans (List.drop_suffix ..))
  refine ⟨?_, Nat.sub_le .., ?_, ?_⟩
  · simp only [Stretch.ofSequence]
    omega
  · cases rest with
    | nil => exact iff_of_true rfl rfl
    | cons step rest =>
      refine iff_of_false nofun ?_
      simp only [Stretch.ofSequence, List.length_cons] at hshorter ⊢
      omega
  · intro type hmarker
    cases rest with
    | nil => cases hmarker
    | cons step rest =>
      obtain rfl : step.type = type := Terminator.marker.inj hmarker
      exact ⟨step, getElem?_of_drop hdrop, hstop.isMarker, rfl⟩

/-- Nodes, or a fault of the script: no index without a step, and no calls without end. -/
def IsSettled {α : Type} (result : Except Halt α) : Prop :=
  ∀ halt, result = .error halt → ∃ cause, halt = .fault cause

theorem isSettled_byIndex {α β : Type} (locate : α → β) (result : Except PlanError α) :
    IsSettled (byIndex locate result) := by
  intro halt h
  cases result with
  | ok => cases h
  | error cause =>
    cases h
    exact ⟨cause, rfl⟩

/-- What a result in terms of indices comes from. -/
theorem byIndex_eq_ok {α β : Type} {locate : α → β} {result : Except PlanError α} {found : β}
    (h : byIndex locate result = .ok found) : ∃ origin, result = .ok origin ∧ locate origin = found := by
  cases result with
  | error => cases h
  | ok origin => exact ⟨origin, rfl, Except.ok.inj h⟩

/-- Wherever resolving begins in a list of steps and in however many blocks, it comes to an end and
reads no step outside of the list. It does the same as the resolvers that hand on what is left. The
index behind a node is greater than that of its first step, and a sequence ends in the list: at the
end just if it says so, and otherwise at the marker that it says. -/
theorem indices_advance (steps : List Step) {calls : Nat} (hcalls : steps.length < calls)
    (depth : Nat) :
    (∀ index, (hindex : index < steps.length) →
      IsSettled (nodeAt steps (sequenceAt steps calls) depth index) ∧
      nodeAt steps (sequenceAt steps calls) depth index =
        byIndex (indexBehind steps.length)
          (resolveNode steps.length (resolveSequence steps.length steps.length) depth
            steps[index] (steps.drop (index + 1))) ∧
      ∀ node next, nodeAt steps (sequenceAt steps calls) depth index = .ok (node, next) →
        index < next ∧ next ≤ steps.length) ∧
    ∀ start ≤ steps.length,
      IsSettled (sequenceAt steps calls depth start) ∧
      sequenceAt steps calls depth start =
        byIndex (.ofSequence steps.length)
          (resolveSequence steps.length steps.length depth (steps.drop start)) ∧
      ∀ found, sequenceAt steps calls depth start = .ok found → found.IsWithin steps start := by
  obtain ⟨calls, rfl⟩ : ∃ k, calls = k + 1 := ⟨calls - 1, by omega⟩
  have hfollows : Follows steps 0 (sequenceAt steps (calls + 1))
      (resolveSequence steps.length steps.length) := sequenceAt_eq steps (by omega) (by omega)
  have hseq := resolveSequence_leavesEnd steps.length steps.length
  constructor
  · intro index hindex
    have hdrop := List.drop_eq_getElem_cons hindex
    have hnode : nodeAt steps (sequenceAt steps (calls + 1)) depth index = _ :=
      nodeAt_eq hfollows hseq (by omega) (Nat.zero_le _) hdrop
    refine ⟨?_, hnode, ?_⟩
    · rw [hnode]
      exact isSettled_byIndex _ _
    · intro node next h
      rw [hnode] at h
      obtain ⟨⟨_, after⟩, hfound, hbehind⟩ := byIndex_eq_ok h
      obtain ⟨-, rfl⟩ := Prod.mk.inj hbehind
      have hsuffix := resolveNode_suffix hseq (by rw [List.length_drop]; omega) hfound
      have hshorter := hsuffix.length_le
      rw [List.length_drop] at hshorter
      exact ⟨by dsimp only; omega, Nat.sub_le ..⟩
  · intro start hstart
    have hsequence := hfollows depth start (Nat.zero_le _) hstart
    refine ⟨?_, hsequence, ?_⟩
    · rw [hsequence]
      exact isSettled_byIndex _ _
    · intro found h
      rw [hsequence] at h
      obtain ⟨origin, hfound, rfl⟩ := byIndex_eq_ok h
      obtain ⟨hsuffix, hstop⟩ := hseq _ _ _ (by rw [List.length_drop]; omega) hfound
      exact Stretch.isWithin_ofSequence hsuffix hstop hstart

/-- A condition with a loop in its first branch, and a step behind it. -/
def branches : List Step :=
  [⟨"when", none, .ifGuard "a"⟩, ⟨"while", none, .whileGuard "b"⟩, .putText "set" "x" "1",
    ⟨"", none, .endWhile⟩, ⟨"", none, .elseMarker⟩, .putText "reset" "x" "0", ⟨"", none, .endIf⟩,
    .putText "go on" "y" "2"]

/-- The condition ends behind its marker, and its first branch, alone, at the `Else`. -/
theorem indices_advance_branches :
    let inside : Node := .loop ⟨"while", none, .whileGuard "b"⟩ [.sequential (.putText "set" "x" "1")]
    branches.length < 9 ∧
    nodeAt branches (sequenceAt branches 9) 0 0 =
      .ok (.conditional ⟨"when", none, .ifGuard "a"⟩ [inside]
        [.sequential (.putText "reset" "x" "0")], 7) ∧
    0 < 7 ∧ 7 ≤ branches.length ∧
    sequenceAt branches 9 1 1 = .ok ⟨[inside], .marker .elseMarker, 4⟩ ∧
    Stretch.IsWithin branches 1 ⟨[inside], .marker .elseMarker, 4⟩ := by
  intro inside
  have hcalls : branches.length < 9 := by decide
  have hnode : nodeAt branches (sequenceAt branches 9) 0 0 = .ok (_, 7) := rfl
  have hsequence : sequenceAt branches 9 1 1 = .ok ⟨[inside], .marker .elseMarker, 4⟩ := rfl
  obtain ⟨hstart, hend⟩ :=
    ((indices_advance branches hcalls 0).1 0 (by decide)).2.2 _ _ hnode
  exact ⟨hcalls, hnode, hstart, hend, hsequence,
    ((indices_advance branches hcalls 1).2 1 (by decide)).2.2 _ hsequence⟩

end StepScript.Plan
