import StepScript.Proofs.Expr.Quoting
import StepScript.Proofs.Number.Exact

/-!
# Printed expressions

An expression is printed with no more parentheses than its operators ask for: only an operation is
put in parentheses, and only where it binds less tightly than its place. The parser gives every
expression back from every text that it is printed as.
-/

namespace StepScript.Expr

/-! ## Texts of leaves -/

/-- The leaves are names of the grammar and literals other than negative numbers, infinities and
not-a-number. -/
def IsPrintable : Expr → Prop
  | .literal (.number (.finite x)) => x.negative = false
  | .literal (.number _) => False
  | .literal _ => True
  | .identifier name => Word name.toList ∧ name ∉ keywords
  | .unary _ operand => operand.IsPrintable
  | .binary _ left right => left.IsPrintable ∧ right.IsPrintable

/-- A decimal with a negative exponent is the value of a number of the grammar. -/
theorem exists_leafText_decimal (coefficient places : Nat) :
    ∃ text, LeafText
      (.literal (.number ((⟨coefficient, -(places : Int)⟩ : Decimal).toBinary64 false))) text := by
  have hwhole : Digits (digitsOfNat coefficient) :=
    ⟨digitsOfNat_ne_nil coefficient, isDigit_of_mem_digitsOfNat⟩
  have hplaces : Digits (digitsOfNat places) :=
    ⟨digitsOfNat_ne_nil places, isDigit_of_mem_digitsOfNat⟩
  have hnumber : NumberText ⟨digitsOfNat coefficient, [], _⟩ _ :=
    .mk hwhole .none (.minus (.inl rfl) hplaces)
  have hdecimal : Numeral.toDecimal
      ⟨digitsOfNat coefficient, [], -natOfDigits (digitsOfNat places)⟩ =
        ⟨coefficient, -(places : Int)⟩ := by
    simp [Numeral.toDecimal, natOfDigits_digitsOfNat]
  have hleaf := LeafText.number hnumber
  rw [hdecimal] at hleaf
  exact ⟨_, hleaf⟩

theorem exists_leafText_text (text : String) :
    ∃ quotedText, LeafText (.literal (.text text)) quotedText := by
  have hquoted := quotedText_escape (.inl rfl) text.toList
  have hleaf := LeafText.quoted (.inl rfl) hquoted
  rw [String.ofList_toList] at hleaf
  exact ⟨_, hleaf⟩

/-- A literal of a printable expression has a text. -/
theorem exists_leafText {value : Value} (h : (Expr.literal value).IsPrintable) :
    ∃ text, LeafText (.literal value) text := by
  match value, h with
  | .null, _ => exact ⟨_, .nullWord⟩
  | .boolean true, _ => exact ⟨_, .trueWord⟩
  | .boolean false, _ => exact ⟨_, .falseWord⟩
  | .text text, _ => exact exists_leafText_text text
  | .number (.finite x), hsign =>
    obtain ⟨coefficient, hdecimal⟩ := Decimal.exists_toBinary64 x
    rw [← hdecimal, show x.negative = false from hsign]
    exact exists_leafText_decimal coefficient 1074

/-! ## Printing -/

/-- A text of an expression as an operand of a level. Tokens may touch, or there are blanks between
them. An operation stands in parentheses only if its level is below that of the operand: on the left
of an operator an operation of a lower level, on the right also one of the same level, and behind a
prefix operator every operation. -/
inductive Printed : Nat → Expr → List Char → Prop
  | leaf {level : Nat} {e : Expr} {text : List Char} (h : LeafText e text) : Printed level e text
  | unary {level : Nat} {op : UnaryOp} {e : Expr} {between text : List Char}
      (hbetween : Blanks between) (h : Printed unaryLevel e text) :
      Printed level (.unary op e) (op.symbol.toList ++ (between ++ text))
  | binary {level : Nat} {op : BinaryOp} {e e' : Expr} {left before after right : List Char}
      (hlevel : level ≤ op.level) (h : Printed op.level e left) (hbefore : Blanks before)
      (hafter : Blanks after) (h' : Printed (op.level + 1) e' right) :
      Printed level (.binary op e e') (left ++ (before ++ (op.symbol.toList ++ (after ++ right))))
  | group {level : Nat} {op : BinaryOp} {e e' : Expr} {before text after : List Char}
      (hlevel : op.level < level) (hbefore : Blanks before) (h : Printed 0 (.binary op e e') text)
      (hafter : Blanks after) :
      Printed level (.binary op e e') ('(' :: (before ++ (text ++ (after ++ [')']))))

/-- A text of a whole expression, with blanks around it. -/
def PrintedAlone (e : Expr) (text : List Char) : Prop :=
  ∃ before inner after, text = before ++ (inner ++ after) ∧ Blanks before ∧ Blanks after ∧
    Printed 0 e inner

/-- An operation that may stand without parentheses somewhere may stand everywhere. -/
theorem Printed.exists_binary {op : BinaryOp} {e e' : Expr} {text : List Char}
    (h : Printed 0 (.binary op e e') text) (level : Nat) :
    ∃ text', Printed level (.binary op e e') text' := by
  rcases Nat.lt_or_ge op.level level with hlow | hhigh
  · exact ⟨_, .group hlow Blanks.nil h Blanks.nil⟩
  · cases h with
    | leaf hleaf => cases hleaf
    | binary _ h hbefore hafter h' => exact ⟨_, .binary hhigh h hbefore hafter h'⟩
    | group hlevel => exact absurd hlevel (Nat.not_lt_zero _)

/-- A printable expression is printed at every level. -/
theorem exists_printed {e : Expr} (h : e.IsPrintable) (level : Nat) :
    ∃ text, Printed level e text := by
  induction e generalizing level with
  | literal value =>
    obtain ⟨text, hleaf⟩ := exists_leafText h
    exact ⟨text, .leaf hleaf⟩
  | identifier name => exact ⟨_, .leaf (.identifier h.1 h.2)⟩
  | unary op operand ih =>
    obtain ⟨text, hoperand⟩ := ih h unaryLevel
    exact ⟨_, .unary Blanks.nil hoperand⟩
  | binary op left right ih ih' =>
    obtain ⟨text, hleft⟩ := ih h.1 op.level
    obtain ⟨text', hright⟩ := ih' h.2 (op.level + 1)
    have hbare : Printed 0 (.binary op left right) _ :=
      .binary (Nat.zero_le _) hleft Blanks.nil Blanks.nil hright
    exact hbare.exists_binary level

/-! ## Parsing what is printed -/

/-- The grammar derives a printed operand at its level. -/
theorem Printed.derives {level : Nat} {e : Expr} {text : List Char} (h : Printed level e text)
    (hlevel : level ≤ unaryLevel) : Derives level e text := by
  induction h with
  | leaf hleaf => exact (Derives.leaf hleaf).weaken (Nat.le_refl _) hlevel
  | unary hbetween _ ih =>
    exact (Derives.unary hbetween (ih (Nat.le_refl _))).weaken (Nat.le_refl _) hlevel
  | @binary _ op _ _ _ _ _ _ hbelow _ hbefore hafter _ ih ih' =>
    have hop := level_lt_unaryLevel op
    have hoperation := Derives.binary (ih (Nat.le_of_lt hop)) hbefore hafter (ih' hop)
    exact hoperation.weaken (Nat.le_of_lt hop) hbelow
  | group _ hbefore _ hafter ih =>
    exact (Derives.group hbefore (ih (Nat.zero_le _)) hafter).weaken (Nat.le_refl _) hlevel

theorem PrintedAlone.program {e : Expr} {text : List Char} (h : PrintedAlone e text) :
    Program e text := by
  obtain ⟨before, inner, after, rfl, hbefore, hafter, hinner⟩ := h
  exact ⟨before, inner, after, rfl, hbefore, hafter, hinner.derives (Nat.zero_le _)⟩

/-- Every printable expression has a text, and from each text that is printed for it the parser gives
it back, if the text does not nest too deep and the expression is not too high. -/
theorem parse_printedAlone {e : Expr} (h : e.IsPrintable) :
    (∃ text : String, PrintedAlone e text.toList) ∧
    ∀ text : String, PrintedAlone e text.toList →
      Nesting.start.exceeds nestingLimit text.toList = false → e.height ≤ heightLimit →
        parse text = .ok e := by
  constructor
  · obtain ⟨inner, hinner⟩ := exists_printed h 0
    refine ⟨String.ofList inner, [], inner, [], ?_, Blanks.nil, Blanks.nil, hinner⟩
    rw [String.toList_ofList, List.append_nil, List.nil_append]
  · intro text hprinted hnesting hheight
    exact parse_eq_ok_iff.2 ⟨hnesting, hprinted.program.read, hheight⟩

/-- Parentheses on the right of an operator of the same level and behind a prefix operator; signs and
operators that touch. -/
theorem parse_printedAlone_touching :
    let e : Expr := .binary .notEqual
      (.unary .not (.binary .sub (.identifier "a")
        (.binary .sub (.identifier "b") (.unary .neg (.identifier "c")))))
      (.unary .not (.literal (.text "it's")))
    (e.IsPrintable ∧ PrintedAlone e "!( a-(b--c))!=!'it\\'s'".toList ∧
      Nesting.start.exceeds nestingLimit "!( a-(b--c))!=!'it\\'s'".toList = false ∧
      e.height ≤ heightLimit) ∧
    parse "!( a-(b--c))!=!'it\\'s'" = .ok e := by
  intro e
  have hword : ∀ c : Char, isWordStart c = true → Word [c] :=
    fun c hc => ⟨c, [], rfl, hc, List.forall_mem_nil _⟩
  have ha : LeafText (.identifier "a") "a".toList := .identifier (hword 'a' rfl) (by decide)
  have hb : LeafText (.identifier "b") "b".toList := .identifier (hword 'b' rfl) (by decide)
  have hc : LeafText (.identifier "c") "c".toList := .identifier (hword 'c' rfl) (by decide)
  have hspace : Blanks [' '] := List.forall_mem_singleton.2 rfl
  have hneg : ∀ level, Printed level (.unary .neg (.identifier "c")) "-c".toList := fun _ =>
    @Printed.unary _ .neg _ [] _ Blanks.nil (.leaf hc)
  have hinner : Printed 0 (.binary .sub (.identifier "b") (.unary .neg (.identifier "c")))
      "b--c".toList :=
    @Printed.binary _ .sub _ _ _ [] [] _ (by decide) (.leaf hb) Blanks.nil Blanks.nil (hneg _)
  have hdifference := @Printed.binary 0 .sub _ _ _ [] [] _ (by decide) (.leaf ha) Blanks.nil
    Blanks.nil (@Printed.group 5 _ _ _ [] _ [] (by decide) Blanks.nil hinner Blanks.nil)
  have hgroup := @Printed.group unaryLevel _ _ _ [' '] _ [] (by decide) hspace hdifference Blanks.nil
  have hquoted : LeafText (.literal (.text "it's")) "'it\\'s'".toList :=
    LeafText.quoted (.inr rfl) (quotedText_escape (.inr rfl) "it's".toList)
  have hleft := @Printed.unary 2 .not _ [] _ Blanks.nil hgroup
  have hright := @Printed.unary 3 .not _ [] _ Blanks.nil (.leaf hquoted)
  have hwhole : Printed 0 e "!( a-(b--c))!=!'it\\'s'".toList :=
    @Printed.binary 0 .notEqual _ _ _ [] [] _ (by decide) hleft Blanks.nil Blanks.nil hright
  have hprinted : PrintedAlone e "!( a-(b--c))!=!'it\\'s'".toList :=
    ⟨[], _, [], (List.append_nil _).symm, Blanks.nil, Blanks.nil, hwhole⟩
  have hprintable : e.IsPrintable :=
    ⟨⟨⟨hword 'a' rfl, by decide⟩, ⟨hword 'b' rfl, by decide⟩, ⟨hword 'c' rfl, by decide⟩⟩, trivial⟩
  have hnesting : Nesting.start.exceeds nestingLimit "!( a-(b--c))!=!'it\\'s'".toList = false := by
    decide
  have hheight : e.height ≤ heightLimit := by decide
  exact ⟨⟨hprintable, hprinted, hnesting, hheight⟩,
    (parse_printedAlone hprintable).2 _ hprinted hnesting hheight⟩

end StepScript.Expr
