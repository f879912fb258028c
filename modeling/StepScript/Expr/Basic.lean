import StepScript.Number.Binary64

/-!
# Expressions

The trees of guard and value expressions. Leaves are literals and identifiers.
-/

namespace StepScript

inductive Value where
  | null
  | boolean (value : Bool)
  | number (value : Binary64)
  | text (value : String)
deriving DecidableEq

inductive BinaryOp where
  | or
  | and
  | identical
  | notIdentical
  | equal
  | notEqual
  | less
  | atMost
  | greater
  | atLeast
  | add
  | sub
  | mul
  | div
  | rem
deriving DecidableEq, Repr

inductive UnaryOp where
  | not
  | neg
  | plus
deriving DecidableEq, Repr

def BinaryOp.symbol : BinaryOp → String
  | .or => "||"
  | .and => "&&"
  | .identical => "==="
  | .notIdentical => "!=="
  | .equal => "=="
  | .notEqual => "!="
  | .less => "<"
  | .atMost => "<="
  | .greater => ">"
  | .atLeast => ">="
  | .add => "+"
  | .sub => "-"
  | .mul => "*"
  | .div => "/"
  | .rem => "%"

def UnaryOp.symbol : UnaryOp → String
  | .not => "!"
  | .neg => "-"
  | .plus => "+"

/-- How tightly an operator binds: of two operators the one of the higher level takes its operands
first, and operators of one level group to the left. -/
def BinaryOp.level : BinaryOp → Nat
  | .or => 0
  | .and => 1
  | .identical | .notIdentical | .equal | .notEqual => 2
  | .less | .atMost | .greater | .atLeast => 3
  | .add | .sub => 4
  | .mul | .div | .rem => 5

inductive Expr where
  | literal (value : Value)
  | identifier (name : String)
  | unary (op : UnaryOp) (operand : Expr)
  | binary (op : BinaryOp) (left right : Expr)
deriving DecidableEq

/-- The number of edges on the longest way from the root to a leaf. -/
def Expr.height : Expr → Nat
  | .literal _ | .identifier _ => 0
  | .unary _ operand => operand.height + 1
  | .binary _ left right => max left.height right.height + 1

end StepScript
