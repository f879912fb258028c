import StepScript.Expr.Evaluate
import StepScript.Parameters
import StepScript.Proofs.Expr.Arrival
import StepScript.Proofs.Expr.Holes
import StepScript.Proofs.Number.Digits
import StepScript.Proofs.Number.ReadBack

/-!
# Numbers in expressions

The text of a number may be put into an expression where an operand is due, with or without
parentheses around it. The operators next to it do not matter: a sign in front of the digits belongs
to the operand, and nothing binds more tightly.
-/

namespace StepScript.Expr

open Nesting

/-- A number with or without a minus sign, as an expression, and its text. -/
inductive SignedText : Expr → List Char → Prop
  | unsigned {numeral : Numeral} {text : List Char} (h : NumberText numeral text) :
      SignedText (.literal (.number (numeral.toDecimal.toBinary64 false))) text
  | minus {numeral : Numeral} {text : List Char} (h : NumberText numeral text) :
      SignedText (.unary .neg (.literal (.number (numeral.toDecimal.toBinary64 false))))
        ('-' :: text)

/-! ## Texts of numbers -/

theorem digits_digitsOfNat (n : Nat) : Digits (digitsOfNat n) :=
  ⟨digitsOfNat_ne_nil n, isDigit_of_mem_digitsOfNat⟩

theorem Digits.append {digits more : List Char} (h : Digits digits)
    (hmore : ∀ c ∈ more, c.isDigit = true) : Digits (digits ++ more) := by
  exact ⟨List.append_ne_nil_of_left_ne_nil h.1 _, List.forall_mem_append.2 ⟨h.2, hmore⟩⟩

/-- Digits alone are a number. -/
theorem Digits.numberText {digits : List Char} (h : Digits digits) :
    NumberText ⟨digits, [], 0⟩ digits := by
  have htext := NumberText.mk h .none .none
  rwa [List.append_nil, List.append_nil] at htext

/-- Digits with a point between them are a number. -/
theorem Digits.numberText_point {whole fraction : List Char} (h : Digits whole)
    (hfraction : Digits fraction) :
    NumberText ⟨whole, fraction, 0⟩ (whole ++ '.' :: fraction) := by
  have htext := NumberText.mk h (.point hfraction) .none
  rwa [List.append_nil] at htext

/-- A number without an exponent mark is a number for expressions. -/
theorem numberText_plain (keepsPoint : Bool) {digits : List Char} (h : Digits digits)
    (exponent : Int) :
    ∃ numeral, NumberText numeral (NumberFormat.plain keepsPoint digits exponent) ∧
      numeral.toDecimal.SameValue ⟨natOfDigits digits, exponent⟩ := by
  by_cases hexponent : 0 ≤ exponent
  · rw [NumberFormat.plain, if_pos hexponent]
    have hwhole := h.append (isDigit_of_mem_zeros exponent.toNat)
    have hnone : (-exponent).toNat = 0 := by omega
    cases keepsPoint with
    | false =>
      refine ⟨_, by simpa using hwhole.numberText, ?_⟩
      simp [Numeral.toDecimal, Decimal.SameValue, natOfDigits_append_zeros, hnone, tenTo_zero]
    | true =>
      -- the zero behind the point makes the coefficient ten times as large
      refine ⟨_, hwhole.numberText_point ⟨List.cons_ne_nil _ _, isDigit_of_mem_zeros 1⟩, ?_⟩
      have hvalue : natOfDigits (digits ++ List.replicate exponent.toNat '0' ++ ['0']) =
          natOfDigits digits * tenTo (exponent.toNat + 1) := by
        rw [List.append_assoc, ← List.replicate_succ', natOfDigits_append_zeros]
      show natOfDigits (digits ++ List.replicate exponent.toNat '0' ++ ['0']) * tenTo 0 *
          tenTo (-exponent).toNat = natOfDigits digits * tenTo exponent.toNat * tenTo 1
      rw [hvalue, hnone, tenTo_zero, Nat.mul_one, Nat.mul_one, tenTo_add, Nat.mul_assoc]
  · obtain ⟨whole, places, htext, hwhole, hplaces, hdigits, hvalue, hlength, -⟩ :=
      NumberFormat.exists_plain_point keepsPoint h.1 h.2 (Int.not_le.1 hexponent)
    obtain ⟨hleft, hright⟩ := List.forall_mem_append.1 hdigits
    rw [htext]
    refine ⟨_, Digits.numberText_point ⟨hwhole, hleft⟩ ⟨hplaces, hright⟩, ?_⟩
    have hplaces : (0 : Int) - places.length = exponent := by omega
    rw [Numeral.toDecimal, hvalue, hplaces]
    exact .refl _

/-- A number with an exponent mark is a number for expressions. -/
theorem numberText_scientific {digits : List Char} (h : Digits digits) (leading : Int) :
    ∃ numeral, NumberText numeral (NumberFormat.scientific digits leading) ∧
      numeral.toDecimal = ⟨natOfDigits digits, leading - digits.length + 1⟩ := by
  have hexponent : ExponentText leading
      ('e' :: (if leading < 0 then '-' else '+') :: digitsOfNat leading.natAbs) := by
    have hdigits := digits_digitsOfNat leading.natAbs
    split
    · next hnegative =>
      have hminus := ExponentText.minus (.inl rfl) hdigits
      rwa [natOfDigits_digitsOfNat, Int.ofNat_natAbs_of_nonpos (Int.le_of_lt hnegative),
        Int.neg_neg] at hminus
    · next hpositive =>
      have hplus := ExponentText.plus (.inl rfl) hdigits
      rwa [natOfDigits_digitsOfNat, Int.natAbs_of_nonneg (Int.not_lt.1 hpositive)] at hplus
  unfold NumberFormat.scientific
  split
  · next first second rest =>
    have hfirst : Digits [first] :=
      ⟨nofun, List.forall_mem_singleton.2 (h.2 first (List.mem_cons_self ..))⟩
    have hsecond : Digits (second :: rest) :=
      ⟨nofun, fun c hc => h.2 c (List.mem_cons_of_mem _ hc)⟩
    refine ⟨_, .mk hfirst (.point hsecond) hexponent, ?_⟩
    have hlength : leading - (second :: rest).length =
        leading - (first :: second :: rest).length + 1 := by
      simp only [List.length_cons]
      omega
    rw [Numeral.toDecimal, hlength]
    rfl
  · next hfew =>
    refine ⟨_, .mk h .none hexponent, ?_⟩
    have hlength : digits.length = 1 := by
      match digits, h.1, hfew with
      | [_], _, _ => rfl
      | _ :: _ :: _, _, hfew => exact absurd rfl (hfew _ _ _)
    simp [Numeral.toDecimal, hlength]

/-- The text of a decimal is a number with its value. -/
theorem numberText_renderDecimal (format : NumberFormat) (d : Decimal) :
    ∃ numeral, NumberText numeral (format.renderDecimal d) ∧ numeral.toDecimal.SameValue d := by
  have hdigits := digits_digitsOfNat d.coefficient
  unfold NumberFormat.renderDecimal
  dsimp only
  split
  · have hplain := numberText_plain format.keepsPoint hdigits d.exponent
    rwa [natOfDigits_digitsOfNat] at hplain
  · obtain ⟨numeral, htext, hvalue⟩ := numberText_scientific hdigits
      (d.exponent + (digitsOfNat d.coefficient).length - 1)
    have hexponent : d.exponent + (digitsOfNat d.coefficient).length - 1 -
        (digitsOfNat d.coefficient).length + 1 = d.exponent := by omega
    refine ⟨numeral, htext, ?_⟩
    rw [hvalue, natOfDigits_digitsOfNat, hexponent]
    exact .refl d

theorem signedText_of_magnitude {text : List Char} (h : ∃ numeral, NumberText numeral text)
    (negative : Prop) [Decidable negative] :
    ∃ e, SignedText e (if negative then '-' :: text else text) := by
  obtain ⟨numeral, h⟩ := h
  split
  · exact ⟨_, .minus h⟩
  · exact ⟨_, .unsigned h⟩

/-- The text of each number is one of expressions too. -/
theorem signedText_chars (n : Json.Number) : ∃ e, SignedText e n.chars := by
  cases n with
  | integer n => exact signedText_of_magnitude ⟨_, (digits_digitsOfNat _).numberText⟩ _
  | real x =>
    obtain ⟨numeral, htext, -⟩ := numberText_renderDecimal Json.realFormat _
    exact signedText_of_magnitude ⟨numeral, htext⟩ _

/-! ## Levels -/

theorem SignedText.isNumeric {e : Expr} {text : List Char} (h : SignedText e text) :
    ∀ c ∈ text, isNumeric c = true := by
  cases h with
  | unsigned h => exact h.isNumeric
  | minus h => exact List.forall_mem_cons.2 ⟨by decide, h.isNumeric⟩

theorem Digits.isOperandChar {text : List Char} (h : Digits text) :
    ∀ c ∈ text, isOperandChar c = true := by
  intro c hc
  simp [Nesting.isOperandChar, Char.isAlphanum, h.2 c hc]

/-- A number ends with a digit. -/
theorem NumberText.ends {numeral : Numeral} {text : List Char} (h : NumberText numeral text) :
    ∃ front digits, text = front ++ digits ∧ Digits digits := by
  cases h with
  | @mk whole _ fractionText _ _ hwhole hfraction hexponent =>
    cases hexponent with
    | none =>
      cases hfraction with
      | none => exact ⟨[], whole, by simp, hwhole⟩
      | point hdigits => exact ⟨whole ++ ['.'], _, by simp, hdigits⟩
    | @unsigned mark _ _ hdigits => exact ⟨whole ++ (fractionText ++ [mark]), _, by simp, hdigits⟩
    | @plus mark _ _ hdigits => exact ⟨whole ++ (fractionText ++ [mark, '+']), _, by simp, hdigits⟩
    | @minus mark _ _ hdigits =>
      exact ⟨whole ++ (fractionText ++ [mark, '-']), _, by simp, hdigits⟩

theorem SignedText.ends {e : Expr} {text : List Char} (h : SignedText e text) :
    ∃ front digits, text = front ++ digits ∧ Digits digits := by
  cases h with
  | unsigned h => exact h.ends
  | minus h =>
    obtain ⟨front, digits, rfl, hdigits⟩ := h.ends
    exact ⟨'-' :: front, digits, rfl, hdigits⟩

section

variable {n : Nesting} (hn : n.IsOutside)

include hn

theorem step_opening : n.step '(' = { n with parens := n.parens + 1 } := by
  rw [Nesting.step, hn.quote]
  rfl

theorem step_closing : n.step ')' = { n with parens := n.parens - 1, signs := 0 } := by
  rw [Nesting.step, hn.quote]
  rfl

/-- A character of a number changes the signs only. -/
theorem step_numeric {c : Char} (h : isNumeric c = true) :
    n.step c = { n with signs := if isOperandChar c then 0 else n.signs + 1 } := by
  obtain ⟨hopening, hdouble, hsingle⟩ := not_special_of_isNumeric h
  have hclosing : c ≠ ')' := by
    rintro rfl
    exact absurd h (by decide)
  by_cases hsign : c = '!' ∨ c = '-' ∨ c = '+'
  · have hoperand : isOperandChar c = false := by rcases hsign with rfl | rfl | rfl <;> decide
    simp only [Nesting.step, hn.quote, hopening, hclosing, hsign, hoperand, if_true, if_false,
      Bool.false_eq_true]
  · have hoperand : isOperandChar c = true := by
      simp only [isNumeric, Bool.or_eq_true, beq_iff_eq] at h
      rcases h with (h | rfl) | rfl
      · exact h
      · simp at hsign
      · simp at hsign
    simp only [Nesting.step, hn.quote, hopening, hclosing, hsign, hdouble, hsingle, hoperand,
      or_self, if_true, if_false]

theorem steps_numeric {text : List Char} (h : ∀ c ∈ text, isNumeric c = true) :
    ∃ signs, n.steps text = { n with signs } := by
  induction text generalizing n with
  | nil => exact ⟨n.signs, rfl⟩
  | cons c text ih =>
    have hstep := step_numeric hn (h c (List.mem_cons_self ..))
    have hcons : n.steps (c :: text) = (n.step c).steps text := rfl
    rw [hcons, hstep]
    exact ih ⟨hn.quote, hn.escaped⟩ fun d hd => h d (List.mem_cons_of_mem _ hd)

theorem step_operandChar {c : Char} (h : isOperandChar c = true) :
    n.step c = { n with signs := 0 } := by
  rw [step_numeric hn (by simp [isNumeric, h]), if_pos h]

/-- The characters of an operand end the signs in front of it. -/
theorem steps_operandChars {text : List Char} (hne : text ≠ [])
    (h : ∀ c ∈ text, isOperandChar c = true) : n.steps text = { n with signs := 0 } := by
  induction text generalizing n with
  | nil => exact absurd rfl hne
  | cons c text ih =>
    obtain ⟨hc, hmore⟩ := List.forall_mem_cons.1 h
    have hcons : n.steps (c :: text) = (n.step c).steps text := rfl
    rw [hcons, step_operandChar hn hc]
    by_cases htext : text = []
    · rw [htext]
      rfl
    · exact ih ⟨hn.quote, hn.escaped⟩ htext hmore

theorem steps_digits {text : List Char} (h : Digits text) :
    n.steps text = { n with signs := 0 } :=
  steps_operandChars hn h.1 h.isOperandChar

/-- Behind a number no sign is open. -/
theorem SignedText.steps {e : Expr} {text : List Char} (h : SignedText e text) :
    n.steps text = { n with signs := 0 } := by
  have hnumeric := h.isNumeric
  obtain ⟨front, digits, rfl, hdigits⟩ := h.ends
  obtain ⟨signs, hfront⟩ := steps_numeric hn fun c hc => hnumeric c (List.mem_append_left _ hc)
  have hoperand : IsOutside { n with signs } := ⟨hn.quote, hn.escaped⟩
  rw [steps_append, hfront, steps_digits hoperand hdigits]

/-- The levels in a number are higher if more levels are open in front of it. -/
theorem exceeds_numeric {m : Nesting} (hm : m.IsOutside) (hparens : n.parens ≤ m.parens)
    (hsigns : n.signs ≤ m.signs) {limit : Nat} {text : List Char}
    (h : ∀ c ∈ text, isNumeric c = true) (hfits : exceeds limit m text = false) :
    exceeds limit n text = false := by
  induction text generalizing n m with
  | nil => rfl
  | cons c text ih =>
    have hc := h c (List.mem_cons_self ..)
    rw [exceeds_cons_eq_false, step_numeric hm hc] at hfits
    rw [exceeds_cons_eq_false, step_numeric hn hc]
    obtain ⟨hdepth, hmore⟩ := hfits
    have hstep : (if isOperandChar c then 0 else n.signs + 1) ≤
        if isOperandChar c then 0 else m.signs + 1 := by
      split <;> omega
    refine ⟨Nat.le_trans (Nat.add_le_add hparens hstep) hdepth, ?_⟩
    refine ih ⟨hn.quote, hn.escaped⟩ ?_ ?_ ?_ (fun d hd => h d (List.mem_cons_of_mem _ hd)) hmore
    · exact ⟨hm.quote, hm.escaped⟩
    · exact hparens
    · exact hstep

end

/-- A text with a number in parentheses is nested at least as deeply as the text without them. -/
theorem exceeds_unenclosed {limit : Nat} {before number after : List Char} {e : Expr} {n : Nesting}
    (h : SignedText e number) (hn : (n.steps before).IsOutside)
    (hfits : exceeds limit n (before ++ '(' :: (number ++ ')' :: after)) = false) :
    exceeds limit n (before ++ (number ++ after)) = false := by
  rw [exceeds_append_eq_false, exceeds_cons_eq_false, step_opening hn, exceeds_append_eq_false,
    exceeds_cons_eq_false] at hfits
  obtain ⟨hbefore, -, hnumber, -, hafter⟩ := hfits
  rw [exceeds_append_eq_false, exceeds_append_eq_false, h.steps hn]
  generalize n.steps before = m at hn hnumber hafter ⊢
  have hinside : IsOutside { m with parens := m.parens + 1 } := ⟨hn.quote, hn.escaped⟩
  have hbehind : IsOutside { m with parens := m.parens + 1, signs := 0 } := ⟨hn.quote, hn.escaped⟩
  -- behind the closing parenthesis the measure is where it is without the parentheses
  rw [h.steps hinside, step_closing hbehind] at hafter
  have hle : m.parens ≤ m.parens + 1 := Nat.le_succ _
  exact ⟨hbefore, exceeds_numeric hn hinside hle (Nat.le_refl _) h.isNumeric hnumber, hafter⟩

/-! ## Reading -/

theorem SignedText.starts {e : Expr} {text : List Char} (h : SignedText e text) :
    ∃ c rest, text = c :: rest ∧ isExprStart c = true := by
  cases h with
  | unsigned h => exact (LeafText.number h).starts
  | minus => exact ⟨_, _, rfl, by decide⟩

section

variable {stack : List Frame} {e : Expr} {number rest : List Char}

/-- A number is read as one operand, its sign included. -/
theorem readOperand_signed (h : SignedText e number) (hrest : Ends rest) :
    readOperand stack (number ++ rest) =
      readOperator (closeSigns stack e).1 (closeSigns stack e).2 rest := by
  have hdigits : ∀ {numeral : Numeral} {text : List Char} (stack : List Frame),
      NumberText numeral text → readOperand stack (text ++ rest) =
        readOperator (closeSigns stack (.literal (.number (numeral.toDecimal.toBinary64 false)))).1
          (closeSigns stack (.literal (.number (numeral.toDecimal.toBinary64 false)))).2 rest := by
    intro numeral text stack htext
    refine readOperand_leaf ?_
    obtain ⟨c, tail, rfl, hdigit⟩ := htext.starts
    have hstart := isExprStart_of_isDigit hdigit
    simp only [isExprStart, Bool.and_eq_true, Bool.not_eq_true'] at hstart
    rw [List.cons_append, dropBlanks_of_not_blank (by rintro _ _ ⟨⟩; exact hstart.1)]
    exact scanOperand?_leaf (.number htext) hrest
  cases h with
  | unsigned htext => exact hdigits stack htext
  | @minus _ text htext =>
    have hscan : scanOperand? (dropBlanks ('-' :: text ++ rest)) = some (.sign .neg, text ++ rest) :=
      rfl
    rw [readOperand_sign hscan, hdigits _ htext]
    rfl

/-- In parentheses a number is the same operand. -/
theorem readOperand_enclosed (h : SignedText e number) :
    readOperand stack ('(' :: (number ++ ')' :: rest)) =
      readOperator (closeSigns stack e).1 (closeSigns stack e).2 rest := by
  have hscan : scanOperand? (dropBlanks ('(' :: (number ++ ')' :: rest))) =
      some (.opening, number ++ ')' :: rest) := rfl
  rw [readOperand_opening hscan, readOperand_signed h (.cons (by decide) (by decide))]
  exact readOperator_close rfl rfl

end

/-! ## Values -/

/-- The value of an expression depends on an operand through the value of the operand only. -/
theorem Holed.eval_fill (around : Holed) {e e' : Expr} (h : e.eval = e'.eval) :
    (around.fill e).eval = (around.fill e').eval := by
  induction around with
  | hole => exact h
  | unary op operand ih => simp only [fill, Expr.eval, ih]
  | onLeft op left right ih => simp only [fill, Expr.eval, ih]
  | onRight op left right ih => simp only [fill, Expr.eval, ih]

theorem SignedText.height_le {e : Expr} {text : List Char} (h : SignedText e text) :
    e.height ≤ heightLimit := by
  cases h with
  | unsigned => exact Nat.zero_le _
  | minus => exact Nat.succ_le_succ (Nat.zero_le _)

theorem SignedText.eval {e : Expr} {text : List Char} (h : SignedText e text) :
    ∃ x, e.eval = .ok (.number x) := by
  cases h with
  | unsigned => exact ⟨_, rfl⟩
  | minus => exact ⟨_, rfl⟩

/-- A number alone is an expression. -/
theorem parse_signed {e : Expr} {text : String} (h : SignedText e text.toList)
    (hnesting : exceeds nestingLimit start text.toList = false) : parse text = .ok e := by
  refine parse_eq_ok_iff.2 ⟨hnesting, ?_, h.height_le⟩
  rw [← List.append_nil text.toList, readOperand_signed h .nil]
  exact readOperator_end rfl rfl

/-- A number needs no parentheses: with and without them it is the same operand of the same
expression, and what counts is its value. -/
theorem parse_unenclosed {before : String} (hbefore : EndsOutsideQuotes before) (n : Json.Number)
    {after : String} {e : Expr}
    (h : parse (before ++ "(" ++ displayText (.number n) ++ ")" ++ after) = .ok e) :
    parse (before ++ displayText (.number n) ++ after) = .ok e ∧
    ∃ (around : Holed) (operand : Expr) (x : Binary64),
      parse (displayText (.number n)) = .ok operand ∧ operand.eval = .ok (.number x) ∧
      e = around.fill operand ∧ e.eval = (around.fill (.literal (.number x))).eval := by
  obtain ⟨operand, hnumber⟩ := signedText_chars n
  have hdisplay : (displayText (.number n)).toList = n.chars := String.toList_ofList
  have henclosed : (before ++ "(" ++ displayText (.number n) ++ ")" ++ after).toList =
      before.toList ++ '(' :: (n.chars ++ ')' :: after.toList) := by
    simp only [String.toList_append, hdisplay, List.append_assoc]
    rfl
  have hunenclosed : (before ++ displayText (.number n) ++ after).toList =
      before.toList ++ (n.chars ++ after.toList) := by
    simp only [String.toList_append, hdisplay, List.append_assoc]
  obtain ⟨hnesting, hread, hheight⟩ := parse_eq_ok_iff.1 h
  rw [henclosed] at hnesting hread
  have hfits := exceeds_unenclosed hnumber hbefore.isOutside hnesting
  -- the machine comes to the number with the same stack, with or without the parenthesis
  have hopens : OpensOperand ('(' :: (n.chars ++ ')' :: after.toList)) := ⟨_, _, rfl, .inl rfl⟩
  obtain ⟨stack, harrives⟩ := readOperand_arrives hbefore hopens hread
  rw [harrives _ hopens.starts, readOperand_enclosed hnumber] at hread
  have hends := ends_of_readOperator hread
  have hstarts : StartsOperand (n.chars ++ after.toList) := by
    obtain ⟨c, tail, hc, hstart⟩ := hnumber.starts
    exact ⟨c, tail ++ after.toList, by rw [hc]; rfl, hstart⟩
  have hsame : readOperand [] (before.toList ++ (n.chars ++ after.toList)) = .ok e := by
    rw [harrives _ hstarts, readOperand_signed hnumber hends, hread]
  refine ⟨parse_eq_ok_iff.2 ⟨by rwa [hunenclosed], by rwa [hunenclosed], hheight⟩, ?_⟩
  rcases readBehind_alike stack after.toList with ⟨cause, herror⟩ | ⟨around, hfill⟩
  · exact absurd (hread.symm.trans (herror _)) nofun
  have heq : e = around.fill operand := Except.ok.inj (hread.symm.trans (hfill operand))
  have halone : parse (displayText (.number n)) = .ok operand := by
    have hlevels := (exceeds_append_eq_false.1 (exceeds_append_eq_false.1 hfits).2).1
    refine parse_signed (hdisplay ▸ hnumber) ?_
    rw [hdisplay]
    exact exceeds_numeric isOutside_start hbefore.isOutside (Nat.zero_le _) (Nat.zero_le _)
      hnumber.isNumeric hlevels
  obtain ⟨x, hx⟩ := hnumber.eval
  refine ⟨around, operand, x, halone, hx, heq, ?_⟩
  rw [heq]
  exact around.eval_fill hx

/-- Behind a minus sign a negative number is still the number that is subtracted. -/
theorem parse_unenclosed_negative : EndsOutsideQuotes "total -" ∧
    parse ("total -" ++ displayText (.number (.integer (-7))) ++ "") =
      .ok (.binary .sub (.identifier "total")
        (.unary .neg (.literal (.number (Decimal.toBinary64 false ⟨7, 0⟩))))) := by
  have hbefore : EndsOutsideQuotes "total -" := rfl
  exact ⟨hbefore, (parse_unenclosed hbefore (.integer (-7)) (by decide +kernel)).1⟩

end StepScript.Expr
