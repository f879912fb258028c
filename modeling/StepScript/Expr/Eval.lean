import StepScript.Expr.Value

/-!
# Evaluation

An expression is evaluated without an environment: an identifier has no value.
-/

namespace StepScript

inductive EvalError where
  | unknownIdentifier (name : String)
  | typeMismatch (symbol left right : String)
  | divisionByZero
deriving DecidableEq, Repr

def EvalError.message : EvalError → String
  | .unknownIdentifier name =>
    "unknown identifier '" ++ name
      ++ "' (expressions cannot read variables; use $\x7bname\x7d templates)"
  | .typeMismatch symbol left right =>
    "cannot apply '" ++ symbol ++ "' to " ++ left ++ " and " ++ right
  | .divisionByZero => "division by zero"

namespace Value

/-- Equality without conversion. Not-a-number differs from itself, and the two zeros are equal. -/
def identical : Value → Value → Bool
  | .null, .null => true
  | .boolean a, .boolean b => a == b
  | .number a, .number b => a.equal b
  | .text a, .text b => a == b
  | _, _ => false

/-- Equality with conversion: texts as they are, nothing equals nothing only, and anything else
as numbers. -/
def looselyEqual (l r : Value) : Bool :=
  match l, r with
  | .null, .null => true
  | .null, _ | _, .null => false
  | .text a, .text b => a == b
  | _, _ =>
    match l.toNumber?, r.toNumber? with
    | some a, some b => a.equal b
    | _, _ => false

def numbers (op : BinaryOp) (l r : Value) : Except EvalError (Binary64 × Binary64) :=
  match l.toNumber?, r.toNumber? with
  | some a, some b => .ok (a, b)
  | _, _ => .error (.typeMismatch op.symbol l.typeName r.typeName)

def signedNumber (op : UnaryOp) (v : Value) : Except EvalError Binary64 :=
  match v.toNumber? with
  | some x => .ok x
  | none => .error (.typeMismatch op.symbol v.typeName v.typeName)

/-- The order of two operands: texts by their characters, anything else as numbers. -/
def order? (op : BinaryOp) (l r : Value) : Except EvalError (Option Ordering) :=
  match l, r with
  | .text a, .text b => .ok (some (if a < b then .lt else if a = b then .eq else .gt))
  | _, _ => do
    let (a, b) ← numbers op l r
    return a.compare? b

/-- Whether an order is one that the operator asks for. -/
def ordered (op : BinaryOp) (order : Ordering) : Bool :=
  match op with
  | .less => order.isLT
  | .atMost => order.isLE
  | .greater => order.isGT
  | _ => order.isGE

/-- A comparison; operands without an order compare as false. -/
def compareWith (op : BinaryOp) (l r : Value) : Except EvalError Value := do
  match ← order? op l r with
  | some order => return .boolean (ordered op order)
  | none => return .boolean false

/-- The sum, which joins the texts of the operands if one of them is a text. -/
def plus (l r : Value) : Except EvalError Value :=
  match l, r with
  | .text _, _ | _, .text _ => .ok (.text (l.display ++ r.display))
  | _, _ => do
    let (a, b) ← numbers .add l r
    return .number (a.add b)

/-- A division, whose divisor must not be zero. -/
def divided (op : BinaryOp) (l r : Value) (result : Binary64 → Binary64 → Binary64) :
    Except EvalError Value := do
  let (a, b) ← numbers op l r
  if b.isZero then throw .divisionByZero
  return .number (result a b)

end Value

/-- A binary operator on two values. The logical operators return an operand. -/
def BinaryOp.apply (op : BinaryOp) (l r : Value) : Except EvalError Value :=
  match op with
  | .or => .ok (if l.isTruthy then l else r)
  | .and => .ok (if l.isTruthy then r else l)
  | .identical => .ok (.boolean (l.identical r))
  | .notIdentical => .ok (.boolean !(l.identical r))
  | .equal => .ok (.boolean (l.looselyEqual r))
  | .notEqual => .ok (.boolean !(l.looselyEqual r))
  | .less | .atMost | .greater | .atLeast => l.compareWith op r
  | .add => l.plus r
  | .sub => do
    let (a, b) ← l.numbers op r
    return .number (a.sub b)
  | .mul => do
    let (a, b) ← l.numbers op r
    return .number (a.mul b)
  | .div => l.divided op r Binary64.div
  | .rem => l.divided op r Binary64.rem

def UnaryOp.apply (op : UnaryOp) (v : Value) : Except EvalError Value :=
  match op with
  | .not => .ok (.boolean !v.isTruthy)
  | .neg => do
    let x ← v.signedNumber op
    return .number x.neg
  | .plus => do
    let x ← v.signedNumber op
    return .number x

/-- Whether the value of the left operand alone is the value of the whole. -/
def BinaryOp.decidedBy (op : BinaryOp) (left : Value) : Bool :=
  match op with
  | .or => left.isTruthy
  | .and => !left.isTruthy
  | _ => false

/-- The value of an expression. The right operand is not evaluated if the left one decides. -/
def Expr.eval : Expr → Except EvalError Value
  | .literal v => .ok v
  | .identifier name => .error (.unknownIdentifier name)
  | .unary op operand => do
    let v ← operand.eval
    op.apply v
  | .binary op left right => do
    let l ← left.eval
    if op.decidedBy l then return l
    let r ← right.eval
    op.apply l r

end StepScript
