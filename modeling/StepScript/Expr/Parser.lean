import StepScript.Expr.Nesting
import StepScript.Expr.Token

/-!
# Parsing

A text is read once from left to right by a machine that alternates between two states: an operand
is due, or an operand has just ended. Its stack holds what waits for the operand to its right. A
binary operator closes the operators before it that bind at least as tightly.
-/

namespace StepScript.Expr

/-- What waits for the operand to its right. -/
inductive Frame where
  | group
  | sign (op : UnaryOp)
  | left (operand : Expr) (op : BinaryOp)
deriving DecidableEq

/-- Applies the prefix operators that wait for an operand. -/
def closeSigns : List Frame → Expr → List Frame × Expr
  | .sign op :: stack, e => closeSigns stack (.unary op e)
  | stack, e => (stack, e)

/-- Applies the waiting binary operators of a level or a higher one. -/
def closeOperators (level : Nat) : List Frame → Expr → List Frame × Expr
  | .left operand op :: stack, e =>
    if level ≤ op.level then closeOperators level stack (.binary op operand e)
    else (.left operand op :: stack, e)
  | stack, e => (stack, e)

def insideGroup (stack : List Frame) : Bool := stack.contains .group

/-- Why a text is no expression. The text from the first place that does not fit is part of the
fault. -/
inductive Fault where
  | operandDue (rest : List Char)
  | operatorDue (insideGroup : Bool) (rest : List Char)
deriving DecidableEq

mutual

/-- Reads on where an operand is due. -/
def readOperand (stack : List Frame) (text : List Char) : Except Fault Expr :=
  match _h : scanOperand? (dropBlanks text) with
  | none => .error (.operandDue (dropBlanks text))
  | some (.sign op, rest) => readOperand (.sign op :: stack) rest
  | some (.opening, rest) => readOperand (.group :: stack) rest
  | some (.leaf value, rest) =>
    let (stack, e) := closeSigns stack value
    readOperator stack e rest
termination_by text.length
decreasing_by
  all_goals
    have := length_scanOperand? _h
    have := length_dropBlanks_le text
    omega

/-- Reads on after the operand `e`. -/
def readOperator (stack : List Frame) (e : Expr) (text : List Char) : Except Fault Expr :=
  match _h : scanOperator? (dropBlanks text) with
  | some (op, rest) =>
    let (stack, e) := closeOperators op.level stack e
    readOperand (.left e op :: stack) rest
  | none =>
    let (outer, e) := closeOperators 0 stack e
    match outer, _hd : dropBlanks text with
    | [], [] => .ok e
    | .group :: stack, ')' :: rest =>
      let (stack, e) := closeSigns stack e
      readOperator stack e rest
    | _, rest => .error (.operatorDue (insideGroup stack) rest)
termination_by text.length
decreasing_by
  · have := length_scanOperator? _h
    have := length_dropBlanks_le text
    omega
  · have := length_dropBlanks_le text
    simp only [_hd, List.length_cons] at this
    omega

end

/-! ## Limits and messages -/

/-- How many parentheses and prefix operators may be open at once. -/
def nestingLimit : Nat := 32

def heightLimit : Nat := 256

inductive ParseError where
  | nestedTooDeep
  | tooHigh
  | fault (cause : Fault)
deriving DecidableEq

def parse (text : String) : Except ParseError Expr :=
  if Nesting.start.exceeds nestingLimit text.toList then .error .nestedTooDeep
  else
    match readOperand [] text.toList with
    | .error cause => .error (.fault cause)
    | .ok e => if e.height ≤ heightLimit then .ok e else .error .tooHigh

/-- The column of the place in a text before the characters `rest`, counted from one. -/
def columnBefore (text rest : List Char) : Nat :=
  let before := text.take (text.length - rest.length)
  (before.reverse.takeWhile (· ≠ '\n')).length + 1

/-- The names under which messages list the binary operators, in the order in which they are
tried. -/
def operatorNames : List String :=
  ["op_or", "op_and", "op_strict_eq", "op_strict_ne", "op_eq", "op_ne", "op_lte", "op_gte",
    "op_lt", "op_gt", "op_add", "op_sub", "op_mul", "op_div", "or op_mod"]

/-- What a fault says would have fitted. -/
def Fault.expected : Fault → String
  | .operandDue _ => "unary_expr"
  | .operatorDue insideGroup _ =>
    ", ".intercalate (if insideGroup then operatorNames else "EOI" :: operatorNames)

def Fault.rest : Fault → List Char
  | .operandDue rest | .operatorDue _ rest => rest

def ParseError.detail (text : String) : ParseError → String
  | .nestedTooDeep => "nesting deeper than " ++ natText nestingLimit ++ " levels"
  | .tooHigh => "expression tree deeper than " ++ natText heightLimit ++ " levels"
  | .fault cause =>
    "expected " ++ cause.expected ++ " at column " ++ natText (columnBefore text.toList cause.rest)

end StepScript.Expr
