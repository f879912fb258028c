import StepScript.Plan.Outline
import StepScript.Proofs.CommandLine.Printing
import StepScript.Proofs.Plan.Resolution
import StepScript.Proofs.Script.RoundTrip

/-!
# What outlines tell

The outline of a plan determines how its blocks are nested, what its steps and their names are, and
what is written at its guards. A line begins with two spaces for each block around it and goes on
with a word, so that the line of a marker, which is less indented, ends a block in all plans alike.

## Main definitions

- `Plan.Sketch`, `Plan.sketches` — what the outline of a plan tells about it
- `Plan.WellTyped` — plans whose steps are of the types that their nodes ask for
- `Plan.places` — all nodes of a plan, with the number of blocks around each
- `Node.ownLines`, `Node.lineCount` — the lines of a node without those inside of it

## Main results

- `Plan.WellTyped.sketches_eq` — equal lines come from equal sketches
- `Plan.perm_outlineLines` — the lines of an outline are those of its nodes
- `Plan.outline_determines` — outlines of resolved scripts
-/

namespace StepScript

/-- Nothing that an outline shows of the step contains a line break. -/
structure Step.IsSingleLine (step : Step) : Prop where
  name : '\n' ∉ step.name.toList
  guard : ∀ text, step.guardText? = some text → '\n' ∉ text.toList

namespace Plan

/-! ## Sketches -/

/-- What the outline of a node tells: the type and the name of a step, or what is written at a guard
and what stands in its blocks. -/
inductive Sketch where
  | step (type : StepType) (name : String)
  | branches (header : String) (thenBranch elseBranch : List Sketch)
  | rounds (header : String) (body : List Sketch)

mutual

def sketch : Node → Sketch
  | .sequential step => .step step.type step.name
  | .conditional guard thenBranch elseBranch =>
    .branches (guardLine "If" guard) (sketches thenBranch) (sketches elseBranch)
  | .loop guard body => .rounds (guardLine "While" guard) (sketches body)

def sketches : List Node → List Sketch
  | [] => []
  | node :: rest => sketch node :: sketches rest

end

/-- Plans whose steps are of the types that their nodes ask for. -/
inductive WellTyped : List Node → Prop
  | nil : WellTyped []
  | sequential {step : Step} {nodes : List Node} (plain : step.type.isPlain = true)
      (more : WellTyped nodes) : WellTyped (.sequential step :: nodes)
  | conditional {guard : Step} {thenBranch elseBranch nodes : List Node}
      (guarded : guard.type = .ifGuard) (inside : WellTyped thenBranch)
      (other : WellTyped elseBranch) (more : WellTyped nodes) :
      WellTyped (.conditional guard thenBranch elseBranch :: nodes)
  | loop {guard : Step} {body nodes : List Node} (guarded : guard.type = .whileGuard)
      (inside : WellTyped body) (more : WellTyped nodes) : WellTyped (.loop guard body :: nodes)

theorem Renders.wellTyped {steps rest : List Step} {nodes : List Node}
    (h : Renders steps nodes rest) : WellTyped nodes := by
  induction h with
  | nil => exact .nil
  | sequential plain _ ih => exact .sequential plain ih
  | conditional guarded _ _ _ ihInside ih => exact .conditional guarded ihInside .nil ih
  | alternative guarded _ _ _ _ _ ihInside ihOther ih =>
    exact .conditional guarded ihInside ihOther ih
  | loop guarded _ _ _ ihInside ih => exact .loop guarded ihInside ih

/-! ## Lines -/

@[simp] theorem toList_indented (depth : Nat) (line : String) :
    (indented depth line).toList = List.replicate (2 * depth) ' ' ++ line.toList := by
  rw [indented, String.toList_append, String.toList_ofList]

theorem indented_inj {depth : Nat} {line line' : String}
    (h : indented depth line = indented depth line') : line = line' := by
  have hchars := congrArg String.toList h
  rw [toList_indented, toList_indented, List.append_cancel_left_eq] at hchars
  exact String.toList_injective hchars

/-- A line that begins with something else than a space. -/
def StartsWithWord (line : String) : Prop := ∃ c rest, line.toList = c :: rest ∧ c ≠ ' '

theorem startsWithWord_name (type : StepType) : StartsWithWord type.name := by
  cases type <;> exact ⟨_, _, rfl, by decide⟩

theorem StartsWithWord.append {line : String} (h : StartsWithWord line) (text : String) :
    StartsWithWord (line ++ text) := by
  obtain ⟨c, rest, hline, hc⟩ := h
  exact ⟨c, rest ++ text.toList, by rw [String.toList_append, hline, List.cons_append], hc⟩

/-- The number of spaces at the start of a line. -/
def margin (line : String) : Nat := (line.toList.takeWhile (· == ' ')).length

/-- A line is indented by two spaces for each block around it. -/
theorem margin_indented (depth : Nat) {line : String} (h : StartsWithWord line) :
    margin (indented depth line) = 2 * depth := by
  obtain ⟨c, rest, hline, hc⟩ := h
  rw [margin, toList_indented, takeWhile_append_stop, List.length_replicate]
  · intro c hmem
    rw [List.eq_of_mem_replicate hmem]
    rfl
  · rintro c' tail heq
    obtain ⟨rfl, -⟩ := List.cons.inj (hline.symm.trans heq)
    exact beq_false_of_ne hc

/-- A type and what is written behind it are told apart. -/
theorem type_eq_of_line {type type' : StepType} {text text' : String}
    (h : type.name ++ " " ++ text = type'.name ++ " " ++ text') : type = type' ∧ text = text' := by
  have hword : ∀ type : StepType, ∀ c ∈ type.name.toList, (c != ' ') = true := by
    intro type
    refine List.all_eq_true.1 ?_
    cases type <;> decide
  have hspace : ∀ text : String, ∀ c tail, " ".toList ++ text.toList = c :: tail →
      (c != ' ') = false := by
    rintro text c tail heq
    obtain ⟨rfl, -⟩ := List.cons.inj heq
    rfl
  have hchars := congrArg String.toList h
  simp only [String.toList_append, List.append_assoc] at hchars
  have htype := congrArg (List.takeWhile (· != ' ')) hchars
  have htext := congrArg (List.dropWhile (· != ' ')) hchars
  rw [takeWhile_append_stop (hword type) (hspace text),
    takeWhile_append_stop (hword type') (hspace text')] at htype
  rw [dropWhile_append_stop (hword type) (hspace text),
    dropWhile_append_stop (hword type') (hspace text'), List.append_cancel_left_eq] at htext
  refine ⟨Option.some.inj ?_, String.toList_injective htext⟩
  rw [← StepType.ofName?_name type, ← StepType.ofName?_name type', String.toList_injective htype]

/-- The name of a guard and its expression. -/
def guardText (guard : Step) : String := guard.name ++ " [" ++ guard.guardText?.getD "" ++ "]"

theorem guardLine_eq (word : String) (guard : Step) :
    guardLine word guard = word ++ " " ++ guardText guard := by
  simp only [guardLine, guardText, String.append_assoc]

/-- The lines of a second branch with the marker in front of them. -/
def elseLines (depth : Nat) : List Node → List String
  | [] => []
  | node :: rest => indented depth "Else" :: outlineLines (depth + 1) (node :: rest)

section

variable {depth : Nat} {step guard : Step} {thenBranch elseBranch body nodes : List Node}

theorem outlineLines_sequential : outlineLines depth (.sequential step :: nodes) =
    indented depth (step.type.name ++ " " ++ step.name) :: outlineLines depth nodes := by
  simp only [outlineLines, nodeLines, List.singleton_append]

theorem outlineLines_conditional :
    outlineLines depth (.conditional guard thenBranch elseBranch :: nodes) =
      indented depth (StepType.ifGuard.name ++ " " ++ guardText guard) ::
        (outlineLines (depth + 1) thenBranch ++ (elseLines depth elseBranch ++
          indented depth "EndIf" :: outlineLines depth nodes)) := by
  have hword : guardLine "If" guard = _ := guardLine_eq StepType.ifGuard.name guard
  cases elseBranch <;>
    simp only [outlineLines, nodeLines, elseLines, hword, List.cons_append, List.append_assoc,
      List.nil_append]

theorem outlineLines_loop : outlineLines depth (.loop guard body :: nodes) =
    indented depth (StepType.whileGuard.name ++ " " ++ guardText guard) ::
      (outlineLines (depth + 1) body ++ indented depth "EndWhile" :: outlineLines depth nodes) := by
  have hword : guardLine "While" guard = _ := guardLine_eq StepType.whileGuard.name guard
  simp only [outlineLines, nodeLines, hword, List.cons_append, List.append_assoc, List.nil_append]

end

/-! ## Reading back -/

/-- What comes behind the lines inside some blocks: nothing, or a line that is less indented. -/
def EndsBlock (depth : Nat) (lines : List String) : Prop :=
  ∀ line rest, lines = line :: rest → margin line < 2 * depth

theorem endsBlock_nil (depth : Nat) : EndsBlock depth [] := nofun

/-- The marker behind a block is less indented than the block. -/
theorem endsBlock_marker (depth : Nat) (type : StepType) (rest : List String) :
    EndsBlock (depth + 1) (indented depth type.name :: rest) := by
  rintro line lines heq
  obtain ⟨rfl, -⟩ := List.cons.inj heq
  rw [margin_indented depth (startsWithWord_name type)]
  omega

theorem endsBlock_else (depth : Nat) (elseBranch : List Node) (rest : List String) :
    EndsBlock (depth + 1) (elseLines depth elseBranch ++ indented depth "EndIf" :: rest) := by
  cases elseBranch with
  | nil => exact endsBlock_marker depth .endIf rest
  | cons node nodes => exact endsBlock_marker depth .elseMarker _

/-- A line that begins a node is not less indented. -/
theorem EndsBlock.not_type {depth : Nat} {type : StepType} {text : String}
    {lines rest : List String} (h : EndsBlock depth lines)
    (heq : lines = indented depth (type.name ++ " " ++ text) :: rest) : False := by
  have := h _ _ heq
  rw [String.append_assoc, margin_indented depth ((startsWithWord_name type).append _)] at this
  omega

/-- The type whose name begins the lines of some nodes. -/
def headType? : List Node → Option StepType
  | [] => none
  | .sequential step :: _ => some step.type
  | .conditional .. :: _ => some .ifGuard
  | .loop .. :: _ => some .whileGuard

theorem exists_headLine (depth : Nat) (node : Node) (nodes : List Node) :
    ∃ type text lines, headType? (node :: nodes) = some type ∧
      outlineLines depth (node :: nodes) = indented depth (type.name ++ " " ++ text) :: lines := by
  cases node with
  | sequential step => exact ⟨_, _, _, rfl, outlineLines_sequential⟩
  | conditional guard thenBranch elseBranch => exact ⟨_, _, _, rfl, outlineLines_conditional⟩
  | loop guard body => exact ⟨_, _, _, rfl, outlineLines_loop⟩

section

variable {depth : Nat} {nodes nodes' : List Node} {rest rest' : List String}

/-- The first line shows with which type a plan begins, or that it has no nodes. -/
theorem headType?_eq (hrest : EndsBlock depth rest) (hrest' : EndsBlock depth rest')
    (heq : outlineLines depth nodes ++ rest = outlineLines depth nodes' ++ rest') :
    headType? nodes = headType? nodes' := by
  cases nodes with
  | nil =>
    cases nodes' with
    | nil => rfl
    | cons node' nodes' =>
      obtain ⟨type, text, lines, -, hlines⟩ := exists_headLine depth node' nodes'
      rw [hlines] at heq
      exact (hrest.not_type heq).elim
  | cons node nodes =>
    obtain ⟨type, text, lines, htype, hlines⟩ := exists_headLine depth node nodes
    rw [hlines] at heq
    cases nodes' with
    | nil => exact (hrest'.not_type heq.symm).elim
    | cons node' nodes' =>
      obtain ⟨type', text', lines', htype', hlines'⟩ := exists_headLine depth node' nodes'
      rw [hlines'] at heq
      rw [htype, htype', (type_eq_of_line (indented_inj (List.cons.inj heq).1)).1]

/-- A guard is written in one way for each name and expression. -/
theorem guardLine_eq_of_line {type : StepType} {guard guard' : Step}
    (h : indented depth (type.name ++ " " ++ guardText guard) =
      indented depth (type.name ++ " " ++ guardText guard')) (word : String) :
    guardLine word guard = guardLine word guard' := by
  rw [guardLine_eq, guardLine_eq, (type_eq_of_line (indented_inj h)).2]

/-- The marker in front of a second branch shows that there is one. -/
theorem elseLines_inj
    (hinside : ∀ {depth : Nat} {rest rest' : List String}, EndsBlock depth rest →
      EndsBlock depth rest' → outlineLines depth nodes ++ rest = outlineLines depth nodes' ++ rest' →
        sketches nodes = sketches nodes' ∧ rest = rest')
    (heq : elseLines depth nodes ++ indented depth "EndIf" :: rest =
      elseLines depth nodes' ++ indented depth "EndIf" :: rest') :
    sketches nodes = sketches nodes' ∧ rest = rest' := by
  have hmarker : indented depth "Else" ≠ indented depth "EndIf" :=
    fun heq => absurd (indented_inj heq) (by decide)
  cases nodes with
  | nil =>
    cases nodes' with
    | nil => exact ⟨rfl, (List.cons.inj heq).2⟩
    | cons node' nodes' => exact absurd (List.cons.inj heq).1.symm hmarker
  | cons node nodes =>
    cases nodes' with
    | nil => exact absurd (List.cons.inj heq).1 hmarker
    | cons node' nodes' =>
      obtain ⟨hnodes, hbehind⟩ := hinside (endsBlock_marker depth .endIf rest)
        (endsBlock_marker depth .endIf rest') (List.cons.inj heq).2
      exact ⟨hnodes, (List.cons.inj hbehind).2⟩

/-- Plans with the same lines have the same sketches, whatever less indented lines come behind. -/
theorem WellTyped.sketches_eq (h : WellTyped nodes) (h' : WellTyped nodes')
    (hrest : EndsBlock depth rest) (hrest' : EndsBlock depth rest')
    (heq : outlineLines depth nodes ++ rest = outlineLines depth nodes' ++ rest') :
    sketches nodes = sketches nodes' ∧ rest = rest' := by
  induction h generalizing nodes' depth rest rest' with
  | nil =>
    have hhead := headType?_eq hrest hrest' heq
    cases h' with
    | nil => exact ⟨rfl, heq⟩
    | sequential | conditional | loop => cases hhead
  | sequential plain _ ih =>
    have hhead := headType?_eq hrest hrest' heq
    cases h' with
    | nil => cases hhead
    | sequential _ more =>
      rw [outlineLines_sequential, outlineLines_sequential] at heq
      obtain ⟨hline, hlines⟩ := List.cons.inj heq
      obtain ⟨htype, hname⟩ := type_eq_of_line (indented_inj hline)
      obtain ⟨hnodes, hbehind⟩ := ih more hrest hrest' hlines
      exact ⟨by rw [sketches, sketches, sketch, sketch, htype, hname, hnodes], hbehind⟩
    | conditional | loop =>
      exact absurd (Option.some.inj hhead) (StepType.ne_of_isPlain plain rfl)
  | @conditional guard thenBranch elseBranch nodes _ _ _ _ ihInside ihOther ih =>
    have hhead := headType?_eq hrest hrest' heq
    cases h' with
    | nil | loop => cases hhead
    | sequential plain =>
      exact absurd (Option.some.inj hhead).symm (StepType.ne_of_isPlain plain rfl)
    | @conditional guard' thenBranch' elseBranch' nodes' _ inside other more =>
      simp only [outlineLines_conditional, List.cons_append, List.append_assoc] at heq
      obtain ⟨hline, hlines⟩ := List.cons.inj heq
      obtain ⟨hthen, hmiddle⟩ := ihInside inside (endsBlock_else depth elseBranch _)
        (endsBlock_else depth elseBranch' _) hlines
      obtain ⟨helse, hbehind⟩ := elseLines_inj (ihOther other) hmiddle
      obtain ⟨hnodes, hrests⟩ := ih more hrest hrest' hbehind
      have hguard := guardLine_eq_of_line hline
      exact ⟨by rw [sketches, sketches, sketch, sketch, hguard "If", hthen, helse, hnodes], hrests⟩
  | loop _ _ _ ihInside ih =>
    have hhead := headType?_eq hrest hrest' heq
    cases h' with
    | nil | conditional => cases hhead
    | sequential plain =>
      exact absurd (Option.some.inj hhead).symm (StepType.ne_of_isPlain plain rfl)
    | loop _ inside more =>
      simp only [outlineLines_loop, List.cons_append, List.append_assoc] at heq
      obtain ⟨hline, hlines⟩ := List.cons.inj heq
      obtain ⟨hbody, hmarked⟩ := ihInside inside (endsBlock_marker depth .endWhile _)
        (endsBlock_marker depth .endWhile _) hlines
      obtain ⟨hnodes, hrests⟩ := ih more hrest hrest' (List.cons.inj hmarked).2
      have hguard := guardLine_eq_of_line hline
      exact ⟨by rw [sketches, sketches, sketch, sketch, hguard "While", hbody, hnodes], hrests⟩

end

/-! ## Line breaks -/

theorem noBreak_indented (depth : Nat) (line : String) (h : '\n' ∉ line.toList) :
    '\n' ∉ (indented depth line).toList := by
  rw [toList_indented, List.mem_append, not_or]
  exact ⟨fun hspace => absurd (List.eq_of_mem_replicate hspace) (by decide), h⟩

theorem noBreak_type (type : StepType) {text : String} (h : '\n' ∉ text.toList) :
    '\n' ∉ (type.name ++ " " ++ text).toList := by
  rw [String.toList_append, String.toList_append, List.mem_append, List.mem_append, not_or, not_or]
  exact ⟨⟨by cases type <;> decide, by decide⟩, h⟩

theorem noBreak_guardText {guard : Step} (h : guard.IsSingleLine) :
    '\n' ∉ (guardText guard).toList := by
  have htext : '\n' ∉ (guard.guardText?.getD "").toList := by
    cases hguard : guard.guardText? with
    | none => decide
    | some text => exact h.guard text hguard
  simp only [guardText, String.toList_append, List.mem_append, not_or]
  exact ⟨⟨⟨h.name, by decide⟩, htext⟩, by decide⟩

/-- Each line of an outline is a line of its text. -/
theorem WellTyped.noBreak {nodes : List Node} (h : WellTyped nodes) (depth : Nat)
    (hsteps : ∀ step ∈ nodesSteps nodes, step.IsSingleLine) :
    ∀ line ∈ outlineLines depth nodes, '\n' ∉ line.toList := by
  induction h generalizing depth with
  | nil => exact fun _ hline => absurd hline List.not_mem_nil
  | @sequential step nodes _ _ ih =>
    obtain ⟨hstep, hmore⟩ := List.forall_mem_cons.1 hsteps
    rw [outlineLines_sequential, List.forall_mem_cons]
    exact ⟨noBreak_indented depth _ (noBreak_type step.type hstep.name), ih depth hmore⟩
  | @conditional guard thenBranch elseBranch nodes _ _ _ _ ihInside ihOther ih =>
    simp only [nodesSteps, nodeSteps, List.forall_mem_cons, List.forall_mem_append] at hsteps
    obtain ⟨⟨hguard, hinside, hother⟩, hmore⟩ := hsteps
    have helse : ∀ line ∈ elseLines depth elseBranch, '\n' ∉ line.toList := by
      cases elseBranch with
      | nil => exact fun _ hline => absurd hline List.not_mem_nil
      | cons node elseBranch =>
        exact List.forall_mem_cons.2
          ⟨noBreak_indented depth "Else" (by decide), ihOther (depth + 1) hother⟩
    simp only [outlineLines_conditional, List.forall_mem_cons, List.forall_mem_append]
    exact ⟨noBreak_indented depth _ (noBreak_type .ifGuard (noBreak_guardText hguard)),
      ihInside (depth + 1) hinside, helse, noBreak_indented depth "EndIf" (by decide),
      ih depth hmore⟩
  | @loop guard body nodes _ _ _ ihInside ih =>
    simp only [nodesSteps, nodeSteps, List.forall_mem_cons, List.forall_mem_append] at hsteps
    obtain ⟨⟨hguard, hinside⟩, hmore⟩ := hsteps
    simp only [outlineLines_loop, List.forall_mem_cons, List.forall_mem_append]
    exact ⟨noBreak_indented depth _ (noBreak_type .whileGuard (noBreak_guardText hguard)),
      ihInside (depth + 1) hinside, noBreak_indented depth "EndWhile" (by decide),
      ih depth hmore⟩

/-- The text of an outline is made of its lines. -/
theorem pieces_outline {nodes : List Node}
    (h : ∀ line ∈ outlineLines 0 nodes, '\n' ∉ line.toList) :
    Text.pieces '\n' (outline nodes).toList =
      (outlineLines 0 nodes).map String.toList ++ [[]] := by
  have htext : (outline nodes).toList =
      ((outlineLines 0 nodes).map String.toList).flatMap fun line => line ++ ['\n'] := by
    rw [outline, String.toList_join, List.flatMap_map, List.flatMap_map]
    simp only [String.toList_append]
    rfl
  rw [htext, Text.pieces_lines (List.forall_mem_map.2 h)]

/-! ## The lines of each node -/

mutual

/-- A node and the nodes in its blocks, each with the number of blocks around it. -/
def nodePlaces (depth : Nat) : Node → List (Nat × Node)
  | .sequential step => [(depth, .sequential step)]
  | .conditional guard thenBranch elseBranch =>
    (depth, .conditional guard thenBranch elseBranch) ::
      (places (depth + 1) thenBranch ++ places (depth + 1) elseBranch)
  | .loop guard body => (depth, .loop guard body) :: places (depth + 1) body

def places (depth : Nat) : List Node → List (Nat × Node)
  | [] => []
  | node :: rest => nodePlaces depth node ++ places depth rest

end

/-- The lines of a node without those of the nodes in its blocks. -/
def ownLines : Node → List String
  | .sequential step => [step.type.name ++ " " ++ step.name]
  | .conditional guard _ [] => [guardLine "If" guard, "EndIf"]
  | .conditional guard _ (_ :: _) => [guardLine "If" guard, "Else", "EndIf"]
  | .loop guard _ => [guardLine "While" guard, "EndWhile"]

def lineCount : Node → Nat
  | .sequential _ => 1
  | .conditional _ _ [] => 2
  | .conditional _ _ (_ :: _) => 3
  | .loop _ _ => 2

/-- The lines of all nodes, each indented by two spaces for every block around it. -/
def placedLines (places : List (Nat × Node)) : List String :=
  places.flatMap fun place =>
    (ownLines place.2).map fun line => String.ofList (List.replicate (2 * place.1) ' ') ++ line

theorem placedLines_append (places places' : List (Nat × Node)) :
    placedLines (places ++ places') = placedLines places ++ placedLines places' :=
  List.flatMap_append

/-- A block has the lines of its node and the lines of the nodes inside. -/
theorem perm_conditional {depth : Nat} {thenBranch elseBranch : List Node} {thenLines : List String}
    {otherLines : List String} (guard : Step)
    (hthen : (outlineLines (depth + 1) thenBranch).Perm thenLines)
    (helse : (outlineLines (depth + 1) elseBranch).Perm otherLines) :
    (nodeLines depth (.conditional guard thenBranch elseBranch)).Perm
      ((ownLines (.conditional guard thenBranch elseBranch)).map (indented depth) ++
        (thenLines ++ otherLines)) := by
  rw [List.perm_iff_count] at *
  intro line
  have hthen := hthen line
  have helse := helse line
  cases elseBranch with
  | nil =>
    simp only [nodeLines, ownLines, outlineLines, List.map_cons, List.map_nil, List.count_append,
      List.count_cons, List.count_nil] at *
    omega
  | cons node elseBranch =>
    simp only [nodeLines, ownLines, List.map_cons, List.map_nil, List.count_append,
      List.count_cons, List.count_nil] at *
    omega

mutual

theorem perm_nodeLines (depth : Nat) (node : Node) :
    (nodeLines depth node).Perm (placedLines (nodePlaces depth node)) := by
  cases node with
  | sequential step => exact .refl _
  | conditional guard thenBranch elseBranch =>
    have h := perm_conditional guard (perm_outlineLines (depth + 1) thenBranch)
      (perm_outlineLines (depth + 1) elseBranch)
    rwa [← placedLines_append] at h
  | loop guard body =>
    have hbody := perm_outlineLines (depth + 1) body
    exact (hbody.append_right [indented depth "EndWhile"]).trans List.perm_append_comm |>.cons _

/-- The lines of an outline are those of the nodes of the plan. -/
theorem perm_outlineLines (depth : Nat) (nodes : List Node) :
    (outlineLines depth nodes).Perm (placedLines (places depth nodes)) := by
  cases nodes with
  | nil => exact .refl _
  | cons node rest =>
    rw [outlineLines, places, placedLines_append]
    exact (perm_nodeLines depth node).append (perm_outlineLines depth rest)

end

theorem length_ownLines (node : Node) : (ownLines node).length = lineCount node := by
  rcases node with step | ⟨guard, thenBranch, _ | ⟨node, elseBranch⟩⟩ | ⟨guard, body⟩ <;> rfl

theorem length_outlineLines (depth : Nat) (nodes : List Node) :
    (outlineLines depth nodes).length =
      ((places depth nodes).map fun place => lineCount place.2).sum := by
  rw [(perm_outlineLines depth nodes).length_eq, placedLines, List.length_flatMap]
  simp only [List.length_map, length_ownLines]

/-- Behind the spaces of its indentation a line goes on with a word. -/
theorem startsWithWord_ownLines (node : Node) : ∀ line ∈ ownLines node, StartsWithWord line := by
  have htype : ∀ (type : StepType) (text : String), StartsWithWord (type.name ++ " " ++ text) :=
    fun type text => ((startsWithWord_name type).append " ").append text
  have hguard : ∀ (type : StepType) (guard : Step), StartsWithWord (guardLine type.name guard) :=
    fun type guard => guardLine_eq type.name guard ▸ htype type (guardText guard)
  have hend := startsWithWord_name .endIf
  rcases node with step | ⟨guard, thenBranch, _ | ⟨node, elseBranch⟩⟩ | ⟨guard, body⟩
  · exact List.forall_mem_singleton.2 (htype step.type step.name)
  · exact List.forall_mem_cons.2 ⟨hguard .ifGuard guard, List.forall_mem_singleton.2 hend⟩
  · exact List.forall_mem_cons.2 ⟨hguard .ifGuard guard, List.forall_mem_cons.2
      ⟨startsWithWord_name .elseMarker, List.forall_mem_singleton.2 hend⟩⟩
  · exact List.forall_mem_cons.2 ⟨hguard .whileGuard guard,
      List.forall_mem_singleton.2 (startsWithWord_name .endWhile)⟩

/-! ## Outlines of scripts -/

theorem isSingleLine_nodesSteps {steps : List Step} {nodes : List Node}
    (h : Renders steps nodes []) (hsteps : ∀ step ∈ steps, step.IsSingleLine) :
    ∀ step ∈ nodesSteps nodes, step.IsSingleLine := by
  intro step hstep
  have hfilter := h.filter_steps
  rw [List.filter_nil, List.append_nil] at hfilter
  exact hsteps step (List.mem_of_mem_filter (hfilter ▸ hstep))

/-- Two scripts whose names and guards have no line breaks have the same outline only if their plans
have the same tree of steps and blocks, with the same types and names of steps and the same headers of
guards. The text of an outline consists of lines, which are those of the nodes of the plan: a step
has one, a loop has two, and a conditional has two, or three if there is a second branch with nodes.
A line begins with two spaces for each block around its node and goes on with something else than a
space. -/
theorem outline_determines {steps steps' : List Step} {nodes nodes' : List Node}
    (h : resolve steps = .ok nodes) (h' : resolve steps' = .ok nodes')
    (hsteps : ∀ step ∈ steps, step.IsSingleLine) (hsteps' : ∀ step ∈ steps', step.IsSingleLine) :
    (outline nodes = outline nodes' → sketches nodes = sketches nodes') ∧
    ∃ lines : List String,
      Text.pieces '\n' (outline nodes).toList = lines.map String.toList ++ [[]] ∧
      lines.Perm (placedLines (places 0 nodes)) ∧
      lines.length = ((places 0 nodes).map fun place => lineCount place.2).sum ∧
      ∀ place ∈ places 0 nodes, ∀ line ∈ ownLines place.2, StartsWithWord line := by
  have hrenders := (resolve_renders h).1
  have hrenders' := (resolve_renders h').1
  have hpieces := pieces_outline
    (hrenders.wellTyped.noBreak 0 (isSingleLine_nodesSteps hrenders hsteps))
  have hpieces' := pieces_outline
    (hrenders'.wellTyped.noBreak 0 (isSingleLine_nodesSteps hrenders' hsteps'))
  refine ⟨fun houtline => ?_, outlineLines 0 nodes, hpieces, perm_outlineLines 0 nodes,
    length_outlineLines 0 nodes, fun place _ => startsWithWord_ownLines place.2⟩
  rw [← houtline, hpieces, List.append_cancel_right_eq] at hpieces'
  have hlines := List.map_injective_iff.2 (fun _ _ => String.toList_injective) hpieces'
  exact (hrenders.wellTyped.sketches_eq hrenders'.wellTyped (endsBlock_nil 0) (endsBlock_nil 0)
    (by rw [hlines])).1

/-- Two scripts with the same outline. Their guards have the same header, and one of them has an
empty second branch, where the other one is left open. -/
theorem outline_determines_headers :
    let steps : List Step :=
      [⟨"a [b", none, .ifGuard "c"⟩, .putText "EndIf" "x" "1"]
    let steps' : List Step :=
      [⟨"a", none, .ifGuard "b [c"⟩, .putText "EndIf" "y" "2", ⟨"", none, .elseMarker⟩,
        ⟨"", none, .endIf⟩]
    let nodes : List Node :=
      [.conditional ⟨"a [b", none, .ifGuard "c"⟩ [.sequential (.putText "EndIf" "x" "1")] []]
    let nodes' : List Node :=
      [.conditional ⟨"a", none, .ifGuard "b [c"⟩ [.sequential (.putText "EndIf" "y" "2")] []]
    resolve steps = .ok nodes ∧ resolve steps' = .ok nodes' ∧
      outline nodes = "If a [b [c]\n  PutParam EndIf\nEndIf\n" ∧
      outline nodes' = outline nodes ∧ sketches nodes' = sketches nodes := by
  intro steps steps' nodes nodes'
  have hsingle : ∀ (step : Step), '\n' ∉ step.name.toList →
      '\n' ∉ (step.guardText?.getD "").toList → step.IsSingleLine := by
    intro step hname hguard
    refine ⟨hname, fun text htext => ?_⟩
    rwa [htext] at hguard
  have hsteps : ∀ step ∈ steps, step.IsSingleLine := by
    intro step hstep
    refine hsingle step ?_ ?_ <;> revert step <;> decide
  have hsteps' : ∀ step ∈ steps', step.IsSingleLine := by
    intro step hstep
    refine hsingle step ?_ ?_ <;> revert step <;> decide
  have houtline : outline nodes' = outline nodes := by decide +kernel
  have hnodes : resolve steps = .ok nodes := rfl
  have hnodes' : resolve steps' = .ok nodes' := rfl
  exact ⟨hnodes, hnodes', by decide +kernel, houtline,
    (outline_determines hnodes' hnodes hsteps' hsteps).1 houtline⟩

end Plan

end StepScript
