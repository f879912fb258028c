import StepScript.Expr.Parser
import Mathlib.Tactic.Common

/-!
# The grammar of expressions

The texts of expressions, without reference to a parser. Tokens are given by their characters;
between tokens there may be blanks. Binary operators of a level take operands of that level on their
left and of the next level on their right.
-/

namespace StepScript.Expr

/-! ## Tokens -/

def Blanks (text : List Char) : Prop := ∀ c ∈ text, isBlank c = true

def Digits (text : List Char) : Prop := text ≠ [] ∧ ∀ c ∈ text, c.isDigit = true

inductive FractionText : List Char → List Char → Prop
  | none : FractionText [] []
  | point {digits : List Char} (h : Digits digits) : FractionText digits ('.' :: digits)

inductive ExponentText : Int → List Char → Prop
  | none : ExponentText 0 []
  | unsigned {mark : Char} {digits : List Char} (hmark : mark = 'e' ∨ mark = 'E')
      (h : Digits digits) : ExponentText (natOfDigits digits) (mark :: digits)
  | plus {mark : Char} {digits : List Char} (hmark : mark = 'e' ∨ mark = 'E')
      (h : Digits digits) : ExponentText (natOfDigits digits) (mark :: '+' :: digits)
  | minus {mark : Char} {digits : List Char} (hmark : mark = 'e' ∨ mark = 'E')
      (h : Digits digits) : ExponentText (-natOfDigits digits) (mark :: '-' :: digits)

/-- A number: digits, then perhaps a fraction, then perhaps an exponent. -/
inductive NumberText : Numeral → List Char → Prop
  | mk {whole fraction fractionText exponentText : List Char} {exponent : Int}
      (hwhole : Digits whole) (hfraction : FractionText fraction fractionText)
      (hexponent : ExponentText exponent exponentText) :
      NumberText ⟨whole, fraction, exponent⟩ (whole ++ (fractionText ++ exponentText))

/-- What stands between two quotes: the content and its text. The quote itself and the backslash
need a backslash. -/
inductive QuotedText (quote : Char) : List Char → List Char → Prop
  | nil : QuotedText quote [] []
  | plain {c : Char} {content text : List Char} (hescape : c ≠ '\\') (hquote : c ≠ quote)
      (h : QuotedText quote content text) : QuotedText quote (c :: content) (c :: text)
  | escape {c : Char} {content text : List Char} (h : QuotedText quote content text) :
      QuotedText quote (escaped c :: content) ('\\' :: c :: text)

/-- A word: a letter, an underscore or a dollar sign, and then also digits. -/
def Word (text : List Char) : Prop :=
  ∃ c rest, text = c :: rest ∧ isWordStart c = true ∧ ∀ d ∈ rest, isWordChar d = true

def keywords : List String := ["true", "false", "null", "undefined"]

inductive LeafText : Expr → List Char → Prop
  | number {numeral : Numeral} {text : List Char} (h : NumberText numeral text) :
      LeafText (.literal (.number (numeral.toDecimal.toBinary64 false))) text
  | quoted {quote : Char} {content text : List Char} (hquote : quote = '"' ∨ quote = '\'')
      (h : QuotedText quote content text) :
      LeafText (.literal (.text (String.ofList content))) (quote :: (text ++ [quote]))
  | trueWord : LeafText (.literal (.boolean true)) "true".toList
  | falseWord : LeafText (.literal (.boolean false)) "false".toList
  | nullWord : LeafText (.literal .null) "null".toList
  | undefinedWord : LeafText (.literal .null) "undefined".toList
  | identifier {name : String} (h : Word name.toList) (hkeyword : name ∉ keywords) :
      LeafText (.identifier name) name.toList

/-! ## Expressions -/

/-- The level of operands that no binary operator takes apart. -/
def unaryLevel : Nat := 6

/-- An expression of a level, and its text. -/
inductive Derives : Nat → Expr → List Char → Prop
  | leaf {e : Expr} {text : List Char} (h : LeafText e text) : Derives unaryLevel e text
  | group {e : Expr} {before text after : List Char} (hbefore : Blanks before)
      (h : Derives 0 e text) (hafter : Blanks after) :
      Derives unaryLevel e ('(' :: (before ++ (text ++ (after ++ [')']))))
  | unary {op : UnaryOp} {e : Expr} {between text : List Char} (hbetween : Blanks between)
      (h : Derives unaryLevel e text) :
      Derives unaryLevel (.unary op e) (op.symbol.toList ++ (between ++ text))
  | binary {op : BinaryOp} {e e' : Expr} {left before after right : List Char}
      (h : Derives op.level e left) (hbefore : Blanks before) (hafter : Blanks after)
      (h' : Derives (op.level + 1) e' right) :
      Derives op.level (.binary op e e')
        (left ++ (before ++ (op.symbol.toList ++ (after ++ right))))
  | operand {level : Nat} {e : Expr} {text : List Char} (hlevel : level < unaryLevel)
      (h : Derives (level + 1) e text) : Derives level e text

/-- A text that is an expression, with blanks around it. -/
def Program (e : Expr) (text : List Char) : Prop :=
  ∃ before inner after, text = before ++ (inner ++ after) ∧ Blanks before ∧ Blanks after ∧
    Derives 0 e inner

/-! ## Facts about the grammar -/

theorem Blanks.nil : Blanks [] := List.forall_mem_nil _

theorem Blanks.append {first second : List Char} (h : Blanks first) (h' : Blanks second) :
    Blanks (first ++ second) := by
  intro c hc
  rcases List.mem_append.1 hc with hc | hc
  · exact h c hc
  · exact h' c hc

theorem level_lt_unaryLevel (op : BinaryOp) : op.level < unaryLevel := by
  cases op <;> decide

/-- An operand of a level may stand where one of a lower level is due. -/
theorem Derives.weaken {level level' : Nat} {e : Expr} {text : List Char}
    (h : Derives level e text) (hlevel : level ≤ unaryLevel) (hle : level' ≤ level) :
    Derives level' e text := by
  obtain ⟨k, rfl⟩ := Nat.exists_eq_add_of_le hle
  induction k with
  | zero => exact h
  | succ k ih => exact ih (.operand hlevel h) (Nat.le_of_lt hlevel) (Nat.le_add_right _ _)

/-- An expression of any level needs no blanks around it. -/
theorem Derives.program {level : Nat} {e : Expr} {text : List Char} (h : Derives level e text)
    (hlevel : level ≤ unaryLevel) : Program e text :=
  ⟨[], text, [], (List.append_nil text).symm, Blanks.nil, Blanks.nil,
    h.weaken hlevel (Nat.zero_le level)⟩

/-- A character with which an expression may begin. -/
def isExprStart (c : Char) : Bool := !isBlank c && c != '='

theorem isExprStart_of_isDigit {c : Char} (h : c.isDigit = true) : isExprStart c = true := by
  have hc : c ≠ ' ' ∧ c ≠ '\t' ∧ c ≠ '\r' ∧ c ≠ '\n' ∧ c ≠ '=' := by
    refine ⟨?_, ?_, ?_, ?_, ?_⟩ <;> rintro rfl <;> exact absurd h (by decide)
  simp [isExprStart, isBlank, hc]

theorem isExprStart_of_isWordStart {c : Char} (h : isWordStart c = true) :
    isExprStart c = true := by
  have hc : c ≠ ' ' ∧ c ≠ '\t' ∧ c ≠ '\r' ∧ c ≠ '\n' ∧ c ≠ '=' := by
    refine ⟨?_, ?_, ?_, ?_, ?_⟩ <;> rintro rfl <;> exact absurd h (by decide)
  simp [isExprStart, isBlank, hc]

theorem NumberText.starts {numeral : Numeral} {text : List Char} (h : NumberText numeral text) :
    ∃ c rest, text = c :: rest ∧ c.isDigit = true := by
  obtain ⟨hwhole, -, -⟩ := h
  obtain ⟨hne, hdigits⟩ := hwhole
  obtain ⟨c, rest, rfl⟩ := List.exists_cons_of_ne_nil hne
  exact ⟨c, _, rfl, hdigits c (List.mem_cons_self ..)⟩

theorem LeafText.starts {e : Expr} {text : List Char} (h : LeafText e text) :
    ∃ c rest, text = c :: rest ∧ isExprStart c = true := by
  cases h with
  | number h =>
    obtain ⟨c, rest, rfl, hdigit⟩ := h.starts
    exact ⟨c, rest, rfl, isExprStart_of_isDigit hdigit⟩
  | quoted hquote =>
    refine ⟨_, _, rfl, ?_⟩
    rcases hquote with rfl | rfl <;> decide
  | trueWord | falseWord | nullWord | undefinedWord => exact ⟨_, _, rfl, by decide⟩
  | identifier h =>
    obtain ⟨c, rest, htext, hstart, -⟩ := h
    exact ⟨c, rest, htext, isExprStart_of_isWordStart hstart⟩

/-- An expression begins neither with a blank nor with the second character of an operator. -/
theorem Derives.starts {level : Nat} {e : Expr} {text : List Char} (h : Derives level e text) :
    ∃ c rest, text = c :: rest ∧ isExprStart c = true := by
  induction h with
  | leaf h => exact h.starts
  | group => exact ⟨_, _, rfl, by decide⟩
  | @unary op => cases op <;> exact ⟨_, _, rfl, by decide⟩
  | binary _ _ _ _ ih =>
    obtain ⟨c, rest, rfl, hstart⟩ := ih
    exact ⟨c, _, rfl, hstart⟩
  | operand _ _ ih => exact ih

end StepScript.Expr
