import StepScript.Proofs.Expr.Numbers
import StepScript.Proofs.Number.Exact

/-!
# Whole numbers in expressions

A whole number in decimal is an operand whose value is the number, and two of them with an operator
in between are an operation. Small whole numbers are compared and added exactly, and as parameters
they are the integers that they were.
-/

namespace StepScript

theorem toList_natText (n : Nat) : (natText n).toList = digitsOfNat n := String.toList_ofList

namespace Expr

open Nesting

/-! ## Texts -/

/-- Digits open no level. -/
theorem exceeds_digits {n : Nesting} (hn : n.IsOutside) {limit : Nat} (hparens : n.parens ≤ limit)
    {text : List Char} (h : ∀ c ∈ text, c.isDigit = true) : exceeds limit n text = false := by
  induction text generalizing n with
  | nil => rfl
  | cons c text ih =>
    obtain ⟨hdigit, hmore⟩ := List.forall_mem_cons.1 h
    have hoperand : isOperandChar c = true := by simp [isOperandChar, Char.isAlphanum, hdigit]
    have hstep := step_numeric hn (isNumeric_of_isDigit hdigit)
    rw [if_pos hoperand] at hstep
    rw [exceeds_cons_eq_false, hstep]
    exact ⟨hparens, ih ⟨hn.quote, hn.escaped⟩ hparens hmore⟩

/-- An operator alone does not nest too deep, and no parenthesis is open behind it. -/
theorem exceeds_symbol (op : BinaryOp) :
    exceeds nestingLimit start op.symbol.toList = false ∧
      (start.steps op.symbol.toList).IsOutside ∧ (start.steps op.symbol.toList).parens = 0 := by
  cases op <;> exact ⟨rfl, ⟨rfl, rfl⟩, rfl⟩

theorem exceeds_operation {left right : List Char} (hleft : Digits left) (hright : Digits right)
    (op : BinaryOp) :
    exceeds nestingLimit start (left ++ (op.symbol.toList ++ right)) = false := by
  obtain ⟨hsymbol, houtside, hparens⟩ := exceeds_symbol op
  have hbehind : start.steps left = start := steps_digits isOutside_start hleft
  have hlimit : (start.steps op.symbol.toList).parens ≤ nestingLimit := by
    rw [hparens]
    exact Nat.zero_le _
  rw [exceeds_append_eq_false, exceeds_append_eq_false, hbehind]
  exact ⟨exceeds_digits isOutside_start (Nat.zero_le _) hleft.2, hsymbol,
    exceeds_digits houtside hlimit hright.2⟩

/-! ## Parsing -/

theorem toBinary64_digitsOfNat {n : Nat} (h : n < twoTo 53) :
    (Numeral.toDecimal ⟨digitsOfNat n, [], 0⟩).toBinary64 false = .ofInt n := by
  have hdecimal : Numeral.toDecimal ⟨digitsOfNat n, [], 0⟩ = ⟨n, 0⟩ := by
    simp [Numeral.toDecimal, natOfDigits_digitsOfNat]
  rw [hdecimal, Decimal.toBinary64_natCast h]

/-- A small whole number in decimal is a leaf with its value. -/
theorem leafText_digitsOfNat {n : Nat} (h : n < twoTo 53) :
    LeafText (.literal (.number (.ofInt n))) (digitsOfNat n) := by
  rw [← toBinary64_digitsOfNat h]
  exact .number (digits_digitsOfNat n).numberText

/-- Two whole numbers with an operator in between. -/
theorem parse_natText (op : BinaryOp) {a b : Nat} (ha : a < twoTo 53) (hb : b < twoTo 53) :
    parse (natText a ++ op.symbol ++ natText b) =
      .ok (.binary op (.literal (.number (.ofInt a))) (.literal (.number (.ofInt b)))) := by
  have htext : (natText a ++ op.symbol ++ natText b).toList =
      digitsOfNat a ++ (op.symbol.toList ++ digitsOfNat b) := by
    rw [String.toList_append, String.toList_append, toList_natText, toList_natText,
      List.append_assoc]
  have hlevel := level_lt_unaryLevel op
  have hleft := (Derives.leaf (leafText_digitsOfNat ha)).weaken (Nat.le_refl _)
    (Nat.le_of_lt hlevel)
  have hright := (Derives.leaf (leafText_digitsOfNat hb)).weaken (Nat.le_refl _) hlevel
  have hoperation := Derives.binary hleft Blanks.nil Blanks.nil hright
  have hprogram : Program _ (digitsOfNat a ++ (op.symbol.toList ++ digitsOfNat b)) :=
    hoperation.program (Nat.le_of_lt hlevel)
  refine parse_eq_ok_iff.2 ⟨?_, ?_, (by decide : 1 ≤ heightLimit)⟩
  · rw [htext]
    exact exceeds_operation (digits_digitsOfNat a) (digits_digitsOfNat b) op
  · rw [htext]
    exact hprogram.read

/-! ## Evaluating -/

theorem evaluate_of_parse {text : String} {e : Expr} {value : Value} (h : parse text = .ok e)
    (heval : e.eval = .ok value) : evaluate text = .ok value := by
  simp only [evaluate, h, heval]

theorem eval_less {x y : Binary64} {order : Ordering} (h : x.compare? y = some order) :
    eval (.binary .less (.literal (.number x)) (.literal (.number y))) =
      .ok (.boolean order.isLT) := by
  have horder : Value.order? .less (.number x) (.number y) = .ok (x.compare? y) := rfl
  change Value.compareWith .less (.number x) (.number y) = _
  rw [Value.compareWith, horder, h]
  rfl

theorem eval_add (x y : Binary64) :
    eval (.binary .add (.literal (.number x)) (.literal (.number y))) = .ok (.number (x.add y)) :=
  rfl

/-- Small whole numbers are compared as whole numbers. -/
theorem evaluate_less {a b : Nat} (ha : a < twoTo 53) (hb : b < twoTo 53) :
    evaluate (natText a ++ "<" ++ natText b) = .ok (.boolean (decide (a < b))) := by
  have hparse : parse (natText a ++ "<" ++ natText b) = _ := parse_natText .less ha hb
  have horder : (compare a b).isLT = decide (a < b) := by
    rw [Bool.eq_iff_iff, decide_eq_true_iff, Ordering.isLT_iff_eq_lt]
    exact Nat.compare_eq_lt
  have hless := eval_less (Binary64.compare?_ofInt ha hb)
  rw [horder] at hless
  exact evaluate_of_parse hparse hless

/-- Small whole numbers are added exactly. -/
theorem evaluate_add {a b : Nat} (h : a + b < twoTo 53) :
    evaluate (natText a ++ "+" ++ natText b) = .ok (.number (.ofInt (a + b : Nat))) := by
  have ha : a < twoTo 53 := Nat.lt_of_le_of_lt (Nat.le_add_right a b) h
  have hb : b < twoTo 53 := Nat.lt_of_le_of_lt (Nat.le_add_left b a) h
  have hparse : parse (natText a ++ "+" ++ natText b) = _ := parse_natText .add ha hb
  have hadd := eval_add (.ofInt a) (.ofInt b)
  rw [Binary64.add_ofInt h] at hadd
  exact evaluate_of_parse hparse hadd

end Expr

namespace Value

theorem toSafeInteger?_eq_some {x : Binary64} {n : Int} (h : toSafeInteger? x = some n) :
    n.natAbs ≤ safeInteger ∧ ∃ finite, x = .finite finite ∧ finite.toInt? = some n := by
  cases x with
  | finite finite =>
    obtain ⟨m, hm, hsafe⟩ := Option.bind_eq_some_iff.1 h
    split at hsafe
    · next hle =>
      obtain rfl := Option.some.inj hsafe
      exact ⟨hle, finite, rfl, hm⟩
    · cases hsafe
  | infinite => cases h
  | nan => cases h

theorem toJson_of_toInt? {x : Binary64.Finite} {n : Int} (h : x.toInt? = some n)
    (hsafe : n.natAbs ≤ safeInteger) : (Value.number (.finite x)).toJson = .ofInt n := by
  have hinteger : toSafeInteger? (.finite x) = some n := by
    rw [toSafeInteger?, h]
    exact if_pos hsafe
  unfold toJson
  simp only [hinteger]

/-- As a parameter, the number of a small whole number is an integer. -/
theorem toJson_ofInt {n : Nat} (h : n < twoTo 53) :
    (Value.number (.ofInt n)).toJson = .ofNat n := by
  have hsafe : (n : Int).natAbs ≤ safeInteger := by
    rw [safeInteger]
    exact Nat.le_sub_one_of_lt h
  rw [Binary64.ofInt_natCast h]
  exact toJson_of_toInt? (Binary64.toInt?_ofInt h) hsafe

end Value

end StepScript
