import StepScript.Proofs.Expr.Parsing

/-!
# Expressions with a hole

The parser does not look into operands that it has read. If one of them is exchanged, the machine
goes on in the same way, and what it finds has the other operand in the same place.
-/

namespace StepScript.Expr

/-! ## Holes -/

/-- An expression in which one operand is left open. -/
inductive Holed where
  | hole
  | unary (op : UnaryOp) (operand : Holed)
  | onLeft (op : BinaryOp) (left : Holed) (right : Expr)
  | onRight (op : BinaryOp) (left : Expr) (right : Holed)

def Holed.fill : Holed → Expr → Expr
  | .hole, e => e
  | .unary op operand, e => .unary op (operand.fill e)
  | .onLeft op left right, e => .binary op (left.fill e) right
  | .onRight op left right, e => .binary op left (right.fill e)

theorem Holed.height_fill (around : Holed) {e e' : Expr} (h : e.height = e'.height) :
    (around.fill e).height = (around.fill e').height := by
  induction around with
  | hole => exact h
  | unary op operand ih => simp only [fill, Expr.height, ih]
  | onLeft op left right ih => simp only [fill, Expr.height, ih]
  | onRight op left right ih => simp only [fill, Expr.height, ih]

/-- A stack in which an operand that waits has a hole. -/
structure HoledStack where
  above : List Frame
  operand : Holed
  op : BinaryOp
  below : List Frame

def HoledStack.fill (stack : HoledStack) (e : Expr) : List Frame :=
  stack.above ++ .left (stack.operand.fill e) stack.op :: stack.below

def HoledStack.push (frame : Frame) (stack : HoledStack) : HoledStack :=
  { stack with above := frame :: stack.above }

/-- A stack and an operand on it, one of them with a hole. -/
inductive HoledState where
  | inOperand (stack : List Frame) (operand : Holed)
  | inStack (stack : HoledStack) (operand : Expr)

def HoledState.fillStack : HoledState → Expr → List Frame
  | .inOperand stack _, _ => stack
  | .inStack stack _, e => stack.fill e

def HoledState.fillOperand : HoledState → Expr → Expr
  | .inOperand _ operand, e => operand.fill e
  | .inStack _ operand, _ => operand

/-- The stack on which the operand waits for another one. -/
def HoledState.wait (op : BinaryOp) : HoledState → HoledStack
  | .inOperand stack operand => ⟨[], operand, op, stack⟩
  | .inStack stack operand => stack.push (.left operand op)

theorem HoledState.fill_wait (op : BinaryOp) (state : HoledState) (e : Expr) :
    (state.wait op).fill e = .left (state.fillOperand e) op :: state.fillStack e := by
  cases state <;> rfl

/-! ## Closing -/

/-- Closing frames leads to the same with every operand in the hole. -/
def ClosesAlike (close : List Frame → Expr → List Frame × Expr) (state : HoledState) : Prop :=
  ∃ closed : HoledState, ∀ e, close (state.fillStack e) (state.fillOperand e) =
    (closed.fillStack e, closed.fillOperand e)

theorem closeSigns_operand (stack : List Frame) (operand : Holed) :
    ClosesAlike closeSigns (.inOperand stack operand) := by
  induction stack generalizing operand with
  | nil => exact ⟨.inOperand [] operand, fun _ => rfl⟩
  | cons frame stack ih =>
    cases frame with
    | sign op => exact ih (.unary op operand)
    | group => exact ⟨.inOperand (.group :: stack) operand, fun _ => rfl⟩
    | left left op => exact ⟨.inOperand (.left left op :: stack) operand, fun _ => rfl⟩

theorem closeSigns_stack (above : List Frame) (inside : Holed) (op : BinaryOp) (below : List Frame)
    (operand : Expr) : ClosesAlike closeSigns (.inStack ⟨above, inside, op, below⟩ operand) := by
  induction above generalizing operand with
  | nil => exact ⟨.inStack ⟨[], inside, op, below⟩ operand, fun _ => rfl⟩
  | cons frame above ih =>
    cases frame with
    | sign sign => exact ih (.unary sign operand)
    | group => exact ⟨.inStack ⟨.group :: above, inside, op, below⟩ operand, fun _ => rfl⟩
    | left left op' =>
      exact ⟨.inStack ⟨.left left op' :: above, inside, op, below⟩ operand, fun _ => rfl⟩

theorem closeSigns_alike (state : HoledState) : ClosesAlike closeSigns state := by
  cases state with
  | inOperand stack operand => exact closeSigns_operand stack operand
  | inStack stack operand => exact closeSigns_stack _ _ _ _ operand

theorem closeOperators_operand (level : Nat) (stack : List Frame) (operand : Holed) :
    ClosesAlike (closeOperators level) (.inOperand stack operand) := by
  induction stack generalizing operand with
  | nil => exact ⟨.inOperand [] operand, fun _ => rfl⟩
  | cons frame stack ih =>
    cases frame with
    | sign op => exact ⟨.inOperand (.sign op :: stack) operand, fun _ => rfl⟩
    | group => exact ⟨.inOperand (.group :: stack) operand, fun _ => rfl⟩
    | left left op =>
      by_cases hlevel : level ≤ op.level
      · obtain ⟨closed, hclosed⟩ := ih (.onRight op left operand)
        exact ⟨closed, fun e => (if_pos hlevel).trans (hclosed e)⟩
      · exact ⟨.inOperand (.left left op :: stack) operand, fun _ => if_neg hlevel⟩

theorem closeOperators_stack (level : Nat) (above : List Frame) (inside : Holed) (op : BinaryOp)
    (below : List Frame) (operand : Expr) :
    ClosesAlike (closeOperators level) (.inStack ⟨above, inside, op, below⟩ operand) := by
  induction above generalizing operand with
  | nil =>
    by_cases hlevel : level ≤ op.level
    · -- the operand that waited becomes the left one of an operand with a hole
      obtain ⟨closed, hclosed⟩ := closeOperators_operand level below (.onLeft op inside operand)
      exact ⟨closed, fun e => (if_pos hlevel).trans (hclosed e)⟩
    · exact ⟨.inStack ⟨[], inside, op, below⟩ operand, fun _ => if_neg hlevel⟩
  | cons frame above ih =>
    cases frame with
    | sign sign => exact ⟨.inStack ⟨.sign sign :: above, inside, op, below⟩ operand, fun _ => rfl⟩
    | group => exact ⟨.inStack ⟨.group :: above, inside, op, below⟩ operand, fun _ => rfl⟩
    | left left op' =>
      by_cases hlevel : level ≤ op'.level
      · obtain ⟨closed, hclosed⟩ := ih (.binary op' left operand)
        exact ⟨closed, fun e => (if_pos hlevel).trans (hclosed e)⟩
      · exact ⟨.inStack ⟨.left left op' :: above, inside, op, below⟩ operand, fun _ => if_neg hlevel⟩

theorem closeOperators_alike (level : Nat) (state : HoledState) :
    ClosesAlike (closeOperators level) state := by
  cases state with
  | inOperand stack operand => exact closeOperators_operand level stack operand
  | inStack stack operand => exact closeOperators_stack level _ _ _ _ operand

/-! ## Reading on -/

/-- With every operand the reading fails in the same place, or with every operand it finds the same
expression around it. -/
def ReadsAlike (read : Expr → Except Fault Expr) : Prop :=
  (∃ cause, ∀ e, read e = .error cause) ∨ ∃ around : Holed, ∀ e, read e = .ok (around.fill e)

theorem ReadsAlike.of_eq {read read' : Expr → Except Fault Expr} (h : ReadsAlike read')
    (heq : ∀ e, read e = read' e) : ReadsAlike read := by
  rw [show read = read' from funext heq]
  exact h

/-- Whether a parenthesis is open does not depend on the operand in the hole. -/
theorem HoledState.insideGroup_fillStack (state : HoledState) (e e' : Expr) :
    insideGroup (state.fillStack e) = insideGroup (state.fillStack e') := by
  cases state with
  | inOperand => rfl
  | inStack stack operand => simp [fillStack, HoledStack.fill, insideGroup]

/-- If there is no frame on the stack, the hole is in the operand. -/
theorem HoledState.eq_operand_of_nil {state : HoledState} {e : Expr}
    (h : state.fillStack e = []) : ∃ operand, state = .inOperand [] operand := by
  cases state with
  | inOperand stack operand => exact ⟨operand, by rw [show stack = [] from h]⟩
  | inStack stack operand => simp [fillStack, HoledStack.fill] at h

/-- An open parenthesis on the stack is there with every operand in the hole. -/
theorem HoledState.exists_of_group {state : HoledState} {e : Expr} {outer : List Frame}
    (h : state.fillStack e = .group :: outer) :
    ∃ inside : HoledState, ∀ e, state.fillStack e = .group :: inside.fillStack e ∧
      state.fillOperand e = inside.fillOperand e := by
  cases state with
  | inOperand stack operand =>
    obtain rfl : stack = .group :: outer := h
    exact ⟨.inOperand outer operand, fun _ => ⟨rfl, rfl⟩⟩
  | inStack stack operand =>
    obtain ⟨above, inside, op, below⟩ := stack
    cases above with
    | nil => simp [fillStack, HoledStack.fill] at h
    | cons frame above =>
      obtain ⟨rfl, -⟩ := List.cons.inj h
      exact ⟨.inStack ⟨above, inside, op, below⟩ operand, fun _ => ⟨rfl, rfl⟩⟩

/-- Both states of the machine treat all operands alike on a text. -/
def AllReadAlike (text : List Char) : Prop :=
  (∀ stack : HoledStack, ReadsAlike fun e => readOperand (stack.fill e) text) ∧
    ∀ state : HoledState, ReadsAlike fun e =>
      readOperator (state.fillStack e) (state.fillOperand e) text

/-- An operand ends: the signs before it are closed, and the machine reads on. -/
theorem AllReadAlike.closeSigns {text : List Char} (h : AllReadAlike text) (state : HoledState) :
    ReadsAlike fun e => readOperator
      (Expr.closeSigns (state.fillStack e) (state.fillOperand e)).1
      (Expr.closeSigns (state.fillStack e) (state.fillOperand e)).2 text := by
  obtain ⟨closed, hclosed⟩ := closeSigns_alike state
  refine (h.2 closed).of_eq fun e => ?_
  rw [hclosed e]

section

variable {text : List Char} (ih : ∀ rest : List Char, rest.length < text.length → AllReadAlike rest)

include ih

theorem readsAlike_operand (stack : HoledStack) :
    ReadsAlike fun e => readOperand (stack.fill e) text := by
  cases hscan : scanOperand? (dropBlanks text) with
  | none => exact .inl ⟨_, fun e => readOperand_none hscan⟩
  | some found =>
    obtain ⟨token, rest⟩ := found
    have hrest := ih rest
      (Nat.lt_of_lt_of_le (length_scanOperand? hscan) (length_dropBlanks_le text))
    cases token with
    | sign op => exact (hrest.1 (stack.push (.sign op))).of_eq fun e => readOperand_sign hscan
    | opening => exact (hrest.1 (stack.push .group)).of_eq fun e => readOperand_opening hscan
    | leaf value =>
      exact (hrest.closeSigns (.inStack stack value)).of_eq fun e => readOperand_leaf hscan

theorem readsAlike_operator (state : HoledState) :
    ReadsAlike fun e => readOperator (state.fillStack e) (state.fillOperand e) text := by
  cases hscan : scanOperator? (dropBlanks text) with
  | some found =>
    obtain ⟨op, rest⟩ := found
    have hrest := ih rest
      (Nat.lt_of_lt_of_le (length_scanOperator? hscan) (length_dropBlanks_le text))
    obtain ⟨closed, hclosed⟩ := closeOperators_alike op.level state
    refine (hrest.1 (closed.wait op)).of_eq fun e => ?_
    rw [readOperator_symbol hscan, hclosed e, closed.fill_wait]
  | none =>
    obtain ⟨closed, hclosed⟩ := closeOperators_alike 0 state
    by_cases hend : dropBlanks text = [] ∧ ∃ around, closed = .inOperand [] around
    · obtain ⟨htext, around, rfl⟩ := hend
      exact .inr ⟨around, fun e => readOperator_end htext (hclosed e)⟩
    · by_cases hgroup : ∃ rest inside, dropBlanks text = ')' :: rest ∧ ∀ e,
          closed.fillStack e = .group :: HoledState.fillStack inside e ∧
            closed.fillOperand e = inside.fillOperand e
      · obtain ⟨rest, inside, htext, hinside⟩ := hgroup
        have hlength := length_dropBlanks_le text
        rw [htext, List.length_cons] at hlength
        refine ((ih rest hlength).closeSigns inside).of_eq fun e => ?_
        obtain ⟨hstack, hoperand⟩ := hinside e
        refine readOperator_close htext ?_
        rw [hclosed e, hstack, hoperand]
      · -- what makes the reading fail here is seen without the operand in the hole
        refine .inl ⟨.operatorDue (insideGroup (state.fillStack (.literal .null)))
          (dropBlanks text), fun e => ?_⟩
        rw [state.insideGroup_fillStack (.literal .null) e]
        refine readOperator_fault hscan ?_ ?_
        · intro hnil htext
          rw [hclosed e] at hnil
          exact hend ⟨htext, HoledState.eq_operand_of_nil hnil⟩
        · intro outer rest hstack htext
          rw [hclosed e] at hstack
          obtain ⟨inside, hinside⟩ := HoledState.exists_of_group hstack
          exact hgroup ⟨rest, inside, htext, hinside⟩

end

theorem allReadAlike (text : List Char) : AllReadAlike text := by
  induction hlength : text.length using Nat.strongRecOn generalizing text with
  | ind length ih =>
    subst hlength
    have hshorter : ∀ rest : List Char, rest.length < text.length → AllReadAlike rest :=
      fun rest hrest => ih rest.length hrest rest rfl
    exact ⟨readsAlike_operand hshorter, readsAlike_operator hshorter⟩

/-- Behind an operand the machine reads on in the same way, whatever the operand is. -/
theorem readBehind_alike (stack : List Frame) (text : List Char) :
    ReadsAlike fun e => readOperator (closeSigns stack e).1 (closeSigns stack e).2 text :=
  (allReadAlike text).closeSigns (.inOperand stack .hole)

end StepScript.Expr
