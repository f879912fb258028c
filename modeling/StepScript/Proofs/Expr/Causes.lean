import StepScript.Expr.Eval
import StepScript.Proofs.Basic

/-!
# Why expressions have no value

Evaluation fails at one place of an expression: at an identifier, at a division, or at an operator
that takes a text for a number. The texts that operators meet come from literals, since no operator
makes a text out of other values.
-/

namespace StepScript

/-! ## Operators -/

def Value.IsText (v : Value) : Prop := ∃ text, v = .text text

/-- Nothing, a truth value or a number. -/
def Value.IsNumeric (v : Value) : Prop :=
  v = .null ∨ (∃ b, v = .boolean b) ∨ ∃ x, v = .number x

def BinaryOp.divides : BinaryOp → Bool
  | .div | .rem => true
  | _ => false

/-- The orderings, and the arithmetic operators except for `+`, which joins texts. -/
def BinaryOp.takesNumbers : BinaryOp → Bool
  | .sub | .mul | .div | .rem | .less | .atMost | .greater | .atLeast => true
  | _ => false

namespace Value

theorem IsText.typeName_eq {v : Value} (h : v.IsText) : v.typeName = "string" := by
  obtain ⟨text, rfl⟩ := h
  rfl

theorem isNumeric_of_not_isText {v : Value} (h : ¬v.IsText) : v.IsNumeric := by
  cases v with
  | null => exact .inl rfl
  | boolean b => exact .inr (.inl ⟨b, rfl⟩)
  | number x => exact .inr (.inr ⟨x, rfl⟩)
  | text s => exact absurd ⟨s, rfl⟩ h

/-- Everything but a text counts as a number. -/
theorem isText_of_toNumber? {v : Value} (h : v.toNumber? = none) : v.IsText := by
  cases v with
  | text s => exact ⟨s, rfl⟩
  | _ => cases h

variable {op : BinaryOp} {l r v : Value} {cause : EvalError}

theorem numbers_eq_error (h : l.numbers op r = .error cause) :
    cause = .typeMismatch op.symbol l.typeName r.typeName ∧ (l.IsText ∨ r.IsText) := by
  unfold numbers at h
  cases hl : l.toNumber? with
  | none =>
    simp only [hl, Except.error.injEq] at h
    exact ⟨h.symm, .inl (isText_of_toNumber? hl)⟩
  | some a =>
    cases hr : r.toNumber? with
    | none =>
      simp only [hl, hr, Except.error.injEq] at h
      exact ⟨h.symm, .inr (isText_of_toNumber? hr)⟩
    | some b => simp [hl, hr] at h

theorem numbers_eq_ok {a b : Binary64} (h : l.numbers op r = .ok (a, b)) :
    l.toNumber? = some a ∧ r.toNumber? = some b := by
  unfold numbers at h
  split at h
  · next hl hr =>
    obtain ⟨rfl, rfl⟩ := Prod.mk.inj (Except.ok.inj h)
    exact ⟨hl, hr⟩
  · cases h

theorem numbers_of_order? (h : order? op l r = .error cause) : l.numbers op r = .error cause := by
  unfold order? at h
  split at h
  · cases h
  · obtain h | ⟨_, -, h⟩ := cases_of_bind_eq_error h
    · exact h
    · cases h

theorem numbers_of_compareWith (h : l.compareWith op r = .error cause) :
    l.numbers op r = .error cause := by
  obtain h | ⟨order, -, h⟩ := cases_of_bind_eq_error h
  · exact numbers_of_order? h
  · cases order <;> cases h

theorem boolean_of_compareWith (h : l.compareWith op r = .ok v) : ∃ b, v = .boolean b := by
  obtain ⟨order, -, h⟩ := exists_of_bind_eq_ok h
  cases order <;> cases h <;> exact ⟨_, rfl⟩

/-- Two operands are joined if one of them is a text, and are added otherwise. -/
theorem plus_cases (l r : Value) :
    (l.IsText ∨ r.IsText) ∧ (∃ text, l.plus r = .ok (.text text)) ∨
      ∃ x, l.plus r = .ok (.number x) := by
  cases l with
  | text s => exact .inl ⟨.inl ⟨s, rfl⟩, _, rfl⟩
  | _ =>
    cases r with
    | text s => exact .inl ⟨.inr ⟨s, rfl⟩, _, rfl⟩
    | _ => exact .inr ⟨_, rfl⟩

section

variable {result : Binary64 → Binary64 → Binary64}

theorem divided_eq_error (h : l.divided op r result = .error cause) :
    l.numbers op r = .error cause ∨
      cause = .divisionByZero ∧ ∃ x, r.toNumber? = some x ∧ x.isZero = true := by
  obtain h | ⟨⟨a, b⟩, hnumbers, h⟩ := cases_of_bind_eq_error h
  · exact .inl h
  · dsimp only at h
    split at h
    · next hzero =>
      cases h
      exact .inr ⟨rfl, b, (numbers_eq_ok hnumbers).2, hzero⟩
    · cases h

theorem number_of_divided (h : l.divided op r result = .ok v) : ∃ x, v = .number x := by
  obtain ⟨⟨a, b⟩, -, h⟩ := exists_of_bind_eq_ok h
  dsimp only at h
  split at h
  · cases h
  · cases h
    exact ⟨_, rfl⟩

end

theorem signedNumber_eq_error {op : UnaryOp} (h : signedNumber op v = .error cause) :
    cause = .typeMismatch op.symbol v.typeName v.typeName ∧ v.IsText := by
  unfold signedNumber at h
  split at h
  · cases h
  · next hv =>
    cases h
    exact ⟨rfl, isText_of_toNumber? hv⟩

end Value

/-- Two operands have no value together if they are not both numbers, or if the right one is zero
and divides the left one. -/
theorem BinaryOp.apply_eq_error {op : BinaryOp} {l r : Value} {cause : EvalError}
    (h : op.apply l r = .error cause) :
    (op.divides = true ∧ cause = .divisionByZero ∧
        ∃ x, r.toNumber? = some x ∧ x.isZero = true) ∨
      op.takesNumbers = true ∧ (l.IsText ∨ r.IsText) ∧
        cause = .typeMismatch op.symbol l.typeName r.typeName := by
  have hnumbers : op.takesNumbers = true → l.numbers op r = .error cause →
      op.takesNumbers = true ∧ (l.IsText ∨ r.IsText) ∧
        cause = .typeMismatch op.symbol l.typeName r.typeName := by
    intro hop hnumbers
    obtain ⟨hcause, htext⟩ := Value.numbers_eq_error hnumbers
    exact ⟨hop, htext, hcause⟩
  cases op with
  | or | and | identical | notIdentical | equal | notEqual => cases h
  | less | atMost | greater | atLeast =>
    exact .inr (hnumbers rfl (Value.numbers_of_compareWith h))
  | add =>
    obtain ⟨-, text, htext⟩ | ⟨x, hx⟩ := Value.plus_cases l r
    · cases htext.symm.trans h
    · cases hx.symm.trans h
  | sub | mul =>
    obtain h | ⟨_, -, h⟩ := cases_of_bind_eq_error h
    · exact .inr (hnumbers rfl h)
    · cases h
  | div | rem =>
    obtain h | hzero := Value.divided_eq_error h
    · exact .inr (hnumbers rfl h)
    · exact .inl ⟨rfl, hzero⟩

/-- The value of an operator is a text only if one of its operands is. -/
theorem BinaryOp.isText_of_apply {op : BinaryOp} {l r v : Value} (h : op.apply l r = .ok v)
    (hv : v.IsText) : l.IsText ∨ r.IsText := by
  obtain ⟨text, rfl⟩ := hv
  cases op with
  | or =>
    have hv : (if l.isTruthy then l else r) = .text text := Except.ok.inj h
    split at hv
    · exact .inl ⟨text, hv⟩
    · exact .inr ⟨text, hv⟩
  | and =>
    have hv : (if l.isTruthy then r else l) = .text text := Except.ok.inj h
    split at hv
    · exact .inr ⟨text, hv⟩
    · exact .inl ⟨text, hv⟩
  | identical | notIdentical | equal | notEqual => cases h
  | less | atMost | greater | atLeast =>
    obtain ⟨b, hb⟩ := Value.boolean_of_compareWith h
    cases hb
  | add =>
    obtain ⟨htext, -⟩ | ⟨x, hx⟩ := Value.plus_cases l r
    · exact htext
    · cases hx.symm.trans h
  | sub | mul =>
    obtain ⟨_, -, h⟩ := exists_of_bind_eq_ok h
    cases h
  | div | rem =>
    obtain ⟨x, hx⟩ := Value.number_of_divided h
    cases hx

theorem UnaryOp.apply_eq_error {op : UnaryOp} {v : Value} {cause : EvalError}
    (h : op.apply v = .error cause) :
    op ≠ .not ∧ v.IsText ∧ cause = .typeMismatch op.symbol v.typeName v.typeName := by
  cases op with
  | not => cases h
  | neg | plus =>
    obtain h | ⟨_, -, h⟩ := cases_of_bind_eq_error h
    · obtain ⟨hcause, htext⟩ := Value.signedNumber_eq_error h
      exact ⟨nofun, htext, hcause⟩
    · cases h

theorem UnaryOp.not_isText_of_apply {op : UnaryOp} {v result : Value}
    (h : op.apply v = .ok result) : ¬result.IsText := by
  rintro ⟨text, rfl⟩
  cases op with
  | not => cases h
  | neg | plus =>
    obtain ⟨_, -, h⟩ := exists_of_bind_eq_ok h
    cases h

/-! ## Parts -/

namespace Expr

/-- The expressions that stand in an expression, itself among them. -/
inductive PartOf (part : Expr) : Expr → Prop where
  | itself : PartOf part part
  | operand {op : UnaryOp} {operand : Expr} (h : PartOf part operand) :
    PartOf part (.unary op operand)
  | left {op : BinaryOp} {left right : Expr} (h : PartOf part left) :
    PartOf part (.binary op left right)
  | right {op : BinaryOp} {left right : Expr} (h : PartOf part right) :
    PartOf part (.binary op left right)

section

variable {part : Expr}

@[simp] theorem partOf_literal {v : Value} : PartOf part (.literal v) ↔ part = .literal v := by
  constructor
  · rintro ⟨⟩
    rfl
  · rintro rfl
    exact .itself

@[simp] theorem partOf_identifier {name : String} :
    PartOf part (.identifier name) ↔ part = .identifier name := by
  constructor
  · rintro ⟨⟩
    rfl
  · rintro rfl
    exact .itself

@[simp] theorem partOf_unary {op : UnaryOp} {operand : Expr} :
    PartOf part (.unary op operand) ↔ part = .unary op operand ∨ PartOf part operand := by
  constructor
  · intro h
    cases h with
    | itself => exact .inl rfl
    | operand h => exact .inr h
  · rintro (rfl | h)
    · exact .itself
    · exact .operand h

@[simp] theorem partOf_binary {op : BinaryOp} {left right : Expr} :
    PartOf part (.binary op left right) ↔
      part = .binary op left right ∨ PartOf part left ∨ PartOf part right := by
  constructor
  · intro h
    cases h with
    | itself => exact .inl rfl
    | left h => exact .inr (.inl h)
    | right h => exact .inr (.inr h)
  · rintro (rfl | h | h)
    · exact .itself
    · exact .left h
    · exact .right h

end

theorem PartOf.trans {part middle e : Expr} (h : part.PartOf middle) (hmiddle : middle.PartOf e) :
    part.PartOf e := by
  induction hmiddle with
  | itself => exact h
  | operand _ ih => exact .operand ih
  | left _ ih => exact .left ih
  | right _ ih => exact .right ih

def HasText (e : Expr) : Prop := ∃ text, PartOf (.literal (.text text)) e

theorem HasText.of_part {part e : Expr} (h : part.HasText) (hpart : part.PartOf e) : e.HasText := by
  obtain ⟨text, htext⟩ := h
  exact ⟨text, htext.trans hpart⟩

/-! ## Values -/

section

variable {op : BinaryOp} {left right : Expr} {v : Value} {cause : EvalError}

/-- The value of an operation is that of its left operand, or both operands have one. -/
theorem eval_binary_eq_ok (h : (Expr.binary op left right).eval = .ok v) :
    left.eval = .ok v ∨ ∃ l r, left.eval = .ok l ∧ right.eval = .ok r ∧ op.apply l r = .ok v := by
  obtain ⟨l, hl, h⟩ := exists_of_bind_eq_ok h
  split at h
  · cases h
    exact .inl hl
  · obtain ⟨r, hr, h⟩ := exists_of_bind_eq_ok h
    exact .inr ⟨l, r, hl, hr, h⟩

theorem eval_binary_eq_error (h : (Expr.binary op left right).eval = .error cause) :
    left.eval = .error cause ∨ right.eval = .error cause ∨
      ∃ l r, left.eval = .ok l ∧ right.eval = .ok r ∧ op.apply l r = .error cause := by
  obtain h | ⟨l, hl, h⟩ := cases_of_bind_eq_error h
  · exact .inl h
  split at h
  · cases h
  obtain h | ⟨r, hr, h⟩ := cases_of_bind_eq_error h
  · exact .inr (.inl h)
  · exact .inr (.inr ⟨l, r, hl, hr, h⟩)

end

/-- An expression whose value is a text has a text in it. -/
theorem exists_text_part {e : Expr} {v : Value} (h : e.eval = .ok v) (hv : v.IsText) :
    e.HasText := by
  induction e generalizing v with
  | literal value =>
    obtain ⟨text, rfl⟩ := hv
    cases h
    exact ⟨text, .itself⟩
  | identifier name => cases h
  | unary op operand =>
    obtain ⟨_, -, h⟩ := exists_of_bind_eq_ok h
    exact absurd hv (UnaryOp.not_isText_of_apply h)
  | binary op left right ihleft ihright =>
    obtain h | ⟨l, r, hl, hr, h⟩ := eval_binary_eq_ok h
    · exact (ihleft h hv).of_part (.left .itself)
    · obtain htext | htext := BinaryOp.isText_of_apply h hv
      · exact (ihleft hl htext).of_part (.left .itself)
      · exact (ihright hr htext).of_part (.right .itself)

/-! ## Errors -/

/-- The ways in which an expression fails although its operands have values. -/
inductive FailsWith : Expr → EvalError → Prop where
  | identifier (name : String) : FailsWith (.identifier name) (.unknownIdentifier name)
  | division {op : BinaryOp} {left right : Expr} {r : Value} {x : Binary64}
    (hop : op.divides = true) (hright : right.eval = .ok r) (hr : r.toNumber? = some x)
    (hx : x.isZero = true) : FailsWith (.binary op left right) .divisionByZero
  | operands {op : BinaryOp} {left right : Expr} {l r : Value} (hop : op.takesNumbers = true)
    (hleft : left.eval = .ok l) (hright : right.eval = .ok r) (htext : l.IsText ∨ r.IsText) :
    FailsWith (.binary op left right) (.typeMismatch op.symbol l.typeName r.typeName)
  | sign {op : UnaryOp} {operand : Expr} {v : Value} (hop : op ≠ .not)
    (hoperand : operand.eval = .ok v) (htext : v.IsText) :
    FailsWith (.unary op operand) (.typeMismatch op.symbol v.typeName v.typeName)

/-- If an expression has no value, one of its parts fails although the operands of that part have
values. -/
theorem exists_failing_part {e : Expr} {cause : EvalError} (h : e.eval = .error cause) :
    ∃ part : Expr, part.PartOf e ∧ part.FailsWith cause := by
  induction e with
  | literal value => cases h
  | identifier name =>
    cases h
    exact ⟨_, .itself, .identifier name⟩
  | unary op operand ih =>
    obtain h | ⟨v, hv, h⟩ := cases_of_bind_eq_error h
    · obtain ⟨part, hpart, hfails⟩ := ih h
      exact ⟨part, .operand hpart, hfails⟩
    · obtain ⟨hop, htext, rfl⟩ := UnaryOp.apply_eq_error h
      exact ⟨_, .itself, .sign hop hv htext⟩
  | binary op left right ihleft ihright =>
    obtain h | h | ⟨l, r, hl, hr, h⟩ := eval_binary_eq_error h
    · obtain ⟨part, hpart, hfails⟩ := ihleft h
      exact ⟨part, .left hpart, hfails⟩
    · obtain ⟨part, hpart, hfails⟩ := ihright h
      exact ⟨part, .right hpart, hfails⟩
    · obtain ⟨hop, rfl, x, hx, hzero⟩ | ⟨hop, htext, rfl⟩ := BinaryOp.apply_eq_error h
      · exact ⟨_, .itself, .division hop hr hx hzero⟩
      · exact ⟨_, .itself, .operands hop hl hr htext⟩

def HasDivision (e : Expr) : Prop :=
  ∃ op left right, op.divides = true ∧ PartOf (.binary op left right) e

/-- An ordering, an arithmetic operator other than `+` or a sign with this symbol stands in the
expression. -/
def HasNumberOperator (symbol : String) (e : Expr) : Prop :=
  (∃ op left right, op.takesNumbers = true ∧ op.symbol = symbol ∧
      PartOf (.binary op left right) e) ∨
    ∃ op operand, op ≠ .not ∧ op.symbol = symbol ∧ PartOf (.unary op operand) e

section

variable {part e : Expr}

theorem FailsWith.part_unknownIdentifier {name : String}
    (h : part.FailsWith (.unknownIdentifier name)) (hpart : part.PartOf e) :
    PartOf (.identifier name) e := by
  cases h
  exact hpart

theorem FailsWith.hasDivision (h : part.FailsWith .divisionByZero) (hpart : part.PartOf e) :
    e.HasDivision := by
  cases h with
  | division hop => exact ⟨_, _, _, hop, hpart⟩

/-- A mismatch is one between a text and an operator on numbers. -/
theorem FailsWith.typeMismatch {symbol left right : String}
    (h : part.FailsWith (.typeMismatch symbol left right)) (hpart : part.PartOf e) :
    e.HasText ∧ e.HasNumberOperator symbol ∧ (left = "string" ∨ right = "string") := by
  cases h with
  | @operands op left right l r hop hleft hright htext =>
    have hsymbol : e.HasNumberOperator op.symbol := .inl ⟨op, left, right, hop, rfl, hpart⟩
    cases htext with
    | inl hl =>
      have hinside : left.PartOf e := PartOf.trans (.left .itself) hpart
      exact ⟨(exists_text_part hleft hl).of_part hinside, hsymbol, .inl hl.typeName_eq⟩
    | inr hr =>
      have hinside : right.PartOf e := PartOf.trans (.right .itself) hpart
      exact ⟨(exists_text_part hright hr).of_part hinside, hsymbol, .inr hr.typeName_eq⟩
  | @sign op operand v hop hoperand htext =>
    have hinside : operand.PartOf e := PartOf.trans (.operand .itself) hpart
    exact ⟨(exists_text_part hoperand htext).of_part hinside,
      .inr ⟨op, operand, hop, rfl, hpart⟩, .inl htext.typeName_eq⟩

end

/-- Each error has its cause in the expression: the identifier that is unknown, an operator that
divides, or a literal text together with the operator on numbers that the error names next to a text.
So an expression without identifiers and texts is nothing, a truth value or a number, unless it
divides by zero. -/
theorem errors_have_causes (e : Expr) :
    (∀ name, e.eval = .error (.unknownIdentifier name) → PartOf (.identifier name) e) ∧
    (e.eval = .error .divisionByZero → e.HasDivision) ∧
    (∀ symbol left right, e.eval = .error (.typeMismatch symbol left right) →
      e.HasText ∧ e.HasNumberOperator symbol ∧ (left = "string" ∨ right = "string")) ∧
    ((∀ name, ¬PartOf (.identifier name) e) → ¬e.HasText →
      (e.eval = .error .divisionByZero ∨ ∃ v, e.eval = .ok v ∧ v.IsNumeric) ∧
      (¬e.HasDivision → ∃ v, e.eval = .ok v ∧ v.IsNumeric)) := by
  have hidentifier : ∀ name, e.eval = .error (.unknownIdentifier name) →
      PartOf (.identifier name) e := by
    intro name h
    obtain ⟨part, hpart, hfails⟩ := exists_failing_part h
    exact hfails.part_unknownIdentifier hpart
  have hdivision : e.eval = .error .divisionByZero → e.HasDivision := by
    intro h
    obtain ⟨part, hpart, hfails⟩ := exists_failing_part h
    exact hfails.hasDivision hpart
  have hmismatch : ∀ symbol left right, e.eval = .error (.typeMismatch symbol left right) →
      e.HasText ∧ e.HasNumberOperator symbol ∧ (left = "string" ∨ right = "string") := by
    intro symbol left right h
    obtain ⟨part, hpart, hfails⟩ := exists_failing_part h
    exact hfails.typeMismatch hpart
  refine ⟨hidentifier, hdivision, hmismatch, fun hnames htexts => ?_⟩
  have hends : e.eval = .error .divisionByZero ∨ ∃ v, e.eval = .ok v ∧ v.IsNumeric := by
    cases heval : e.eval with
    | ok v =>
      have hv : ¬v.IsText := fun htext => htexts (exists_text_part heval htext)
      exact .inr ⟨v, rfl, Value.isNumeric_of_not_isText hv⟩
    | error cause =>
      cases cause with
      | unknownIdentifier name => exact absurd (hidentifier name heval) (hnames name)
      | typeMismatch symbol left right => exact absurd (hmismatch _ _ _ heval).1 htexts
      | divisionByZero => exact .inl rfl
  exact ⟨hends, fun hnone => hends.resolve_left fun h => hnone (hdivision h)⟩

/-- `(true && 'b') + 1 < 2`: the text of the mismatch is none that stands in the expression. -/
def joinedText : Expr :=
  .binary .less
    (.binary .add (.binary .and (.literal (.boolean true)) (.literal (.text "b")))
      (.literal (.number .one)))
    (.literal (.number (.ofInt 2)))

/-- `-(null <= true) % 1` -/
def signedOrder : Expr :=
  .binary .rem (.unary .neg (.binary .atMost (.literal .null) (.literal (.boolean true))))
    (.literal (.number .one))

theorem errors_have_causes_joinedText :
    joinedText.eval = .error (.typeMismatch "<" "string" "number") ∧
      joinedText.HasText ∧ joinedText.HasNumberOperator "<" ∧
      (∀ name, ¬PartOf (.identifier name) signedOrder) ∧ ¬signedOrder.HasText ∧
      (signedOrder.eval = .error .divisionByZero ∨
        ∃ v, signedOrder.eval = .ok v ∧ v.IsNumeric) := by
  have heval : joinedText.eval = .error (.typeMismatch "<" "string" "number") := by decide +kernel
  obtain ⟨htext, hoperator, -⟩ := (errors_have_causes joinedText).2.2.1 _ _ _ heval
  have hnames : ∀ name, ¬PartOf (.identifier name) signedOrder := by simp [signedOrder]
  have hnone : ¬signedOrder.HasText := by simp [HasText, signedOrder]
  exact ⟨heval, htext, hoperator, hnames, hnone,
    ((errors_have_causes signedOrder).2.2.2 hnames hnone).1⟩

end Expr

end StepScript
