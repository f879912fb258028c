import StepScript.Proofs.Expr.Causes
import StepScript.Proofs.Expr.Numbers

/-!
# Laws of the logical operators

A logical operator returns one of its operands, and the right one with its errors is passed over if
the left one decides. Grouping and negation do not see this: the laws of the logical operators hold
with the same value or the same error on both sides. What stands in an expression may be replaced by
its value.
-/

namespace StepScript

/-- The operators that return an operand. -/
def BinaryOp.isLogical : BinaryOp → Bool
  | .or | .and => true
  | _ => false

def BinaryOp.dual : BinaryOp → BinaryOp
  | .or => .and
  | .and => .or
  | op => op

theorem BinaryOp.isLogical_dual {op : BinaryOp} (h : op.isLogical = true) :
    op.dual.isLogical = true := by
  cases op <;> first | rfl | cases h

/-- A negated operand decides the other operator. -/
theorem BinaryOp.decidedBy_dual {op : BinaryOp} (h : op.isLogical = true) (v : Value) :
    op.dual.decidedBy (.boolean !v.isTruthy) = op.decidedBy v := by
  cases op with
  | or => simp [dual, decidedBy, Value.isTruthy]
  | and => rfl
  | _ => cases h

namespace Expr

/-! ## One operator -/

theorem eval_not (operand : Expr) :
    (Expr.unary .not operand).eval = operand.eval >>= fun v => .ok (.boolean !v.isTruthy) :=
  rfl

/-- The value of a logical operation is that of its left operand if this one decides, and that of
its right operand otherwise. -/
theorem eval_logical {op : BinaryOp} (h : op.isLogical = true) (left right : Expr) :
    (Expr.binary op left right).eval =
      left.eval >>= fun l => if op.decidedBy l then .ok l else right.eval := by
  have happly : ∀ l, op.decidedBy l = false → ∀ r, op.apply l r = .ok r := by
    intro l hl r
    cases op with
    | or => simp_all [BinaryOp.decidedBy, BinaryOp.apply]
    | and => simp_all [BinaryOp.decidedBy, BinaryOp.apply]
    | _ => cases h
  rw [Expr.eval]
  refine bind_congr fun l => ?_
  cases hl : op.decidedBy l with
  | true => rfl
  | false =>
    simp only [Bool.false_eq_true, if_false, happly l hl]
    cases right.eval <;> rfl

/-! ## Two operators -/

theorem eval_logical_assoc {op : BinaryOp} (h : op.isLogical = true) (a b c : Expr) :
    (Expr.binary op (.binary op a b) c).eval = (Expr.binary op a (.binary op b c)).eval := by
  rw [eval_logical h, eval_logical h, eval_logical h, eval_logical h, bind_assoc]
  refine bind_congr fun l => ?_
  cases hl : op.decidedBy l with
  | true =>
    -- the first operand decides twice
    change (if op.decidedBy l then Except.ok l else c.eval) = .ok l
    rw [if_pos hl]
  | false => rfl

/-- The negation of a logical operation is the other operation on the negated operands. -/
theorem eval_not_logical {op : BinaryOp} (h : op.isLogical = true) (a b : Expr) :
    (Expr.unary .not (.binary op a b)).eval =
      (Expr.binary op.dual (.unary .not a) (.unary .not b)).eval := by
  rw [eval_logical (BinaryOp.isLogical_dual h), eval_not, eval_not, eval_not, eval_logical h,
    bind_assoc, bind_assoc]
  refine bind_congr fun l => ?_
  change _ = if op.dual.decidedBy (.boolean !l.isTruthy) then _ else _
  rw [BinaryOp.decidedBy_dual h]
  cases op.decidedBy l with
  | true => rfl
  | false => rfl

/-! ## Parts -/

/-- What stands in an expression fills a hole of it. -/
theorem partOf_iff_exists_fill {part whole : Expr} :
    part.PartOf whole ↔ ∃ around : Holed, around.fill part = whole := by
  constructor
  · intro h
    induction h with
    | itself => exact ⟨.hole, rfl⟩
    | @operand op _ _ ih =>
      obtain ⟨around, rfl⟩ := ih
      exact ⟨.unary op around, rfl⟩
    | @left op _ right _ ih =>
      obtain ⟨around, rfl⟩ := ih
      exact ⟨.onLeft op around right, rfl⟩
    | @right op left _ _ ih =>
      obtain ⟨around, rfl⟩ := ih
      exact ⟨.onRight op left around, rfl⟩
  · rintro ⟨around, rfl⟩
    induction around with
    | hole => exact .itself
    | unary op operand ih => exact .operand ih
    | onLeft op left right ih => exact .left ih
    | onRight op left right ih => exact .right ih

/-- Both logical operators may be grouped in any way, and each is the other one on negated operands:
the two sides have the same value or the same error. A part of an expression that has a value may be
replaced by a literal of this value, in whatever place the part stands, and the expression keeps its
value or its error. -/
theorem logical_laws :
    (∀ a b c : Expr,
      (Expr.binary .and (.binary .and a b) c).eval = (Expr.binary .and a (.binary .and b c)).eval ∧
      (Expr.binary .or (.binary .or a b) c).eval = (Expr.binary .or a (.binary .or b c)).eval ∧
      (Expr.unary .not (.binary .and a b)).eval =
        (Expr.binary .or (.unary .not a) (.unary .not b)).eval ∧
      (Expr.unary .not (.binary .or a b)).eval =
        (Expr.binary .and (.unary .not a) (.unary .not b)).eval) ∧
    (∀ part whole : Expr, part.PartOf whole ↔ ∃ around : Holed, around.fill part = whole) ∧
    ∀ (around : Holed) (part : Expr) (v : Value), part.eval = .ok v →
      (around.fill (.literal v)).eval = (around.fill part).eval := by
  refine ⟨fun a b c => ⟨?_, ?_, ?_, ?_⟩, fun part whole => partOf_iff_exists_fill,
    fun around part v h => around.eval_fill h.symm⟩
  · exact eval_logical_assoc rfl a b c
  · exact eval_logical_assoc rfl a b c
  · exact eval_not_logical rfl a b
  · exact eval_not_logical rfl a b

/-- A joined text in the place where it decides that an identifier is evaluated. -/
theorem logical_laws_joined :
    let joined : Expr := .binary .add (.literal (.text "a")) (.literal (.text "b"))
    let around : Holed := .unary .not (.onLeft .and .hole (.identifier "x"))
    joined.eval = .ok (.text "ab") ∧
      (around.fill (.literal (.text "ab"))).eval = (around.fill joined).eval ∧
      (around.fill joined).eval = .error (.unknownIdentifier "x") := by
  intro joined around
  have hjoined : joined.eval = .ok (.text "ab") := by decide
  exact ⟨hjoined, logical_laws.2.2 around joined _ hjoined, by decide⟩

end Expr

end StepScript
