import StepScript.Expr.Eval
import StepScript.Expr.Parser

/-!
# Evaluating texts

Guards and computed parameters are texts that are parsed and evaluated at once.
-/

namespace StepScript

inductive ExpressionError where
  | parse (text : String) (cause : Expr.ParseError)
  | eval (cause : EvalError)
deriving DecidableEq

def ExpressionError.message : ExpressionError → String
  | .parse text cause => "cannot parse expression '" ++ text ++ "': " ++ cause.detail text
  | .eval cause => cause.message

/-- The value of the expression that a text stands for. -/
def Expr.evaluate (text : String) : Except ExpressionError Value :=
  match Expr.parse text with
  | .error cause => .error (.parse text cause)
  | .ok e =>
    match e.eval with
    | .error cause => .error (.eval cause)
    | .ok v => .ok v

def Expr.holds (text : String) : Except ExpressionError Bool := do
  let v ← Expr.evaluate text
  return v.isTruthy

end StepScript
