import StepScript.Action.Result
import StepScript.Proofs.Expr.Counting
import StepScript.Proofs.Expr.Levels

/-!
# Values in the store

The value of an expression is stored as JSON, put into the text of later expressions, and taken as
the decision of a guard. It is the same value everywhere, but zero loses its sign.
-/

namespace StepScript

/-! ## Equal values -/

namespace Binary64

theorem equal_finite_iff {x y : Finite} :
    equal (.finite x) (.finite y) = true ↔ x.signedUnits = y.signedUnits := by
  have hcompare : equal (.finite x) (.finite y) =
      (some (compare x.signedUnits y.signedUnits) == some .eq) := rfl
  rw [hcompare, beq_iff_eq, Option.some.injEq, compare_eq_iff_eq]

theorem signedUnits_eq_zero_iff {x : Finite} : x.signedUnits = 0 ↔ x.units = 0 := by
  unfold Finite.signedUnits
  split <;> omega

/-- Numbers that are equal are both zero or both not, and not-a-number is equal to nothing. -/
theorem isZero_of_equal {x y : Binary64} (h : x.equal y = true) :
    x.isZero = y.isZero ∧ x.isNaN = false ∧ y.isNaN = false := by
  cases x with
  | finite x => cases y with
    | finite y =>
      have hzero : x.units = 0 ↔ y.units = 0 := by
        rw [← signedUnits_eq_zero_iff, equal_finite_iff.1 h, signedUnits_eq_zero_iff]
      refine ⟨?_, rfl, rfl⟩
      rw [Bool.eq_iff_iff]
      simpa [isZero] using hzero
    | infinite negative => cases negative <;> exact absurd h (by simp [equal, compare?])
    | nan => exact absurd h Bool.false_ne_true
  | infinite negative => cases y with
    | finite y => cases negative <;> exact absurd h (by simp [equal, compare?])
    | infinite => exact ⟨rfl, rfl, rfl⟩
    | nan => exact absurd h Bool.false_ne_true
  | nan => exact absurd h Bool.false_ne_true

/-- A whole number and its integer are the same count of units. -/
theorem signedUnits_of_toInt? {x : Finite} {n : Int} (h : x.toInt? = some n) :
    x.signedUnits = n * unitsPerOne := by
  unfold Finite.toInt? at h
  split at h
  · next hwhole =>
    have hunits : ((x.units / unitsPerOne : Nat) : Int) * unitsPerOne = x.units :=
      congrArg Nat.cast (Nat.div_mul_cancel (Nat.dvd_of_mod_eq_zero hwhole))
    rw [← Option.some.inj h, Finite.signedUnits]
    split
    · rw [Int.neg_mul, hunits]
    · exact hunits.symm
  · cases h

theorem signedUnits_ofInt {n : Int} (h : n.natAbs < twoTo 53) :
    Finite.signedUnits ⟨decide (n < 0), n.natAbs * unitsPerOne, fits_mul_unitsPerOne h⟩ =
      n * unitsPerOne := by
  unfold Finite.signedUnits
  dsimp only
  split
  · next hnegative =>
    have hn := of_decide_eq_true hnegative
    rw [Nat.cast_mul, Int.ofNat_natAbs_of_nonpos (Int.le_of_lt hn), Int.neg_mul, Int.neg_neg]
  · next hpositive =>
    have hn := Int.not_lt.1 (of_decide_eq_false (Bool.not_eq_true _ ▸ hpositive))
    rw [Nat.cast_mul, Int.natAbs_of_nonneg hn]

end Binary64

namespace Value

/-- Values that are the same decide alike. -/
theorem isTruthy_of_identical {v w : Value} (h : v.identical w = true) :
    v.isTruthy = w.isTruthy := by
  cases v with
  | null => cases w with
    | null => rfl
    | boolean | number | text => exact absurd h Bool.false_ne_true
  | boolean a => cases w with
    | boolean b => exact beq_iff_eq.1 h
    | null | number | text => exact absurd h Bool.false_ne_true
  | number x => cases w with
    | number y =>
      obtain ⟨hzero, hx, hy⟩ := Binary64.isZero_of_equal h
      rw [isTruthy, isTruthy, hzero, hx, hy]
    | null | boolean | text => exact absurd h Bool.false_ne_true
  | text s => cases w with
    | text t =>
      obtain rfl : s = t := beq_iff_eq.1 h
      rfl
    | null | boolean | number => exact absurd h Bool.false_ne_true

end Value

/-! ## Evaluating the texts of values -/

namespace Expr

open Nesting

/-- A literal or identifier does not nest too deep where less than the limit is open. -/
theorem LeafText.exceeds {e : Expr} {text : List Char} (h : LeafText e text) {n : Nesting}
    (hn : n.IsOutside) (hdepth : n.depth < nestingLimit) :
    Nesting.exceeds nestingLimit n text = false := by
  have hparens : n.parens ≤ n.depth := Nat.le_add_right _ _
  rw [← Bool.not_eq_true]
  intro hexceeds
  rcases (h.shape.passes hn).1 (.inr hexceeds) with hlimit | ⟨-, hlimit⟩ <;> omega

theorem SignedText.exceeds {e : Expr} {text : List Char} (h : SignedText e text) :
    Nesting.exceeds nestingLimit start text = false := by
  cases h with
  | unsigned h => exact (LeafText.number h).exceeds isOutside_start (by decide)
  | minus h =>
    rw [exceeds_cons_eq_false]
    exact ⟨by decide, (LeafText.number h).exceeds ⟨rfl, rfl⟩ (by decide)⟩

/-- A literal alone is an expression with its value. -/
theorem evaluate_literal {v : Value} {text : String} (h : LeafText (.literal v) text.toList) :
    evaluate text = .ok v := by
  have hprogram : Program (.literal v) text.toList := (Derives.leaf h).program (Nat.le_refl _)
  have hparse : parse text = .ok (.literal v) :=
    parse_eq_ok_iff.2 ⟨h.exceeds isOutside_start (by decide), hprogram.read, Nat.zero_le _⟩
  exact evaluate_of_parse hparse rfl

/-- The text of a number, with a minus sign for a negative one, is an expression for it. -/
theorem evaluate_signed {numeral : Numeral} {text : List Char} (h : NumberText numeral text)
    {units : Nat} {hfits : Binary64.Fits units}
    (hvalue : numeral.toDecimal.toBinary64 false = .finite ⟨false, units, hfits⟩)
    (negative : Bool) :
    evaluate (String.ofList (if negative then '-' :: text else text)) =
      .ok (.number (.finite ⟨negative, units, hfits⟩)) := by
  have hparse : ∀ {e : Expr} {text : List Char}, SignedText e text →
      parse (String.ofList text) = .ok e := by
    intro e text hsigned
    rw [← @String.toList_ofList text] at hsigned
    exact parse_signed hsigned hsigned.exceeds
  cases negative with
  | false =>
    refine evaluate_of_parse (hparse (.unsigned h)) ?_
    rw [hvalue]
    rfl
  | true =>
    refine evaluate_of_parse (hparse (.minus h)) ?_
    rw [hvalue]
    rfl

/-- The text of a real number is an expression for it. -/
theorem evaluate_real (x : Binary64.Finite) :
    evaluate (Json.render (.number (.real x))) = .ok (.number (.finite x)) := by
  obtain ⟨numeral, htext, hvalue⟩ := numberText_renderDecimal Json.realFormat
    (Decimal.shortest Json.realFormat.tie x.units)
  have hread := Decimal.toBinary64_shortest Json.realFormat.tie ⟨false, x.units, x.fits⟩ hvalue
  exact evaluate_signed htext hread x.negative

/-- The text of an integer of less than 54 bits is an expression for it. -/
theorem evaluate_integer {n : Int} (h : n.natAbs < twoTo 53) :
    evaluate (Json.render (.number (.integer n))) = .ok (.number (.ofInt n)) := by
  have hread := toBinary64_digitsOfNat h
  rw [Binary64.ofInt_natCast h] at hread
  have heval := evaluate_signed (digits_digitsOfNat n.natAbs).numberText hread (decide (n < 0))
  rw [Binary64.ofInt_of_natAbs_lt h, ← heval]
  simp only [Json.render, Json.chars, Json.Number.chars, Json.integerChars, decide_eq_true_eq]

end Expr

/-! ## Storing -/

namespace Value

/-- A value without infinities and not-a-number. -/
def IsFinite : Value → Prop
  | .number x => ∃ finite, x = .finite finite
  | _ => True

/-- A finite number is stored as a number equal to it, whose text is an expression for it. -/
theorem exists_stored (x : Binary64.Finite) :
    ∃ n : Json.Number, (Value.number (.finite x)).toJson = .number n ∧
      n.toBinary64.equal (.finite x) = true ∧
      Expr.evaluate (Json.render (.number n)) = .ok (.number n.toBinary64) := by
  cases hinteger : toSafeInteger? (.finite x) with
  | none =>
    refine ⟨.real x, ?_, Binary64.equal_finite_iff.2 rfl, Expr.evaluate_real x⟩
    unfold toJson
    simp only [hinteger]
  | some n =>
    obtain ⟨hsafe, _, ⟨⟩, hwhole⟩ := toSafeInteger?_eq_some hinteger
    have hsmall : n.natAbs < twoTo 53 := Nat.lt_of_le_sub_one (twoTo_pos 53) hsafe
    refine ⟨.integer n, toJson_of_toInt? hwhole hsafe, ?_, Expr.evaluate_integer hsmall⟩
    rw [Json.Number.toBinary64, Binary64.ofInt_of_natAbs_lt hsmall, Binary64.equal_finite_iff,
      Binary64.signedUnits_ofInt hsmall, Binary64.signedUnits_of_toInt? hwhole]

/-- A value that is stored decides as it did. Its text is an expression for it, and a text is stored
as it is. -/
theorem survives_store {v : Value} (h : v.IsFinite) :
    (∀ result : ActionResult, result.data = some v.toJson → result.condition = v.isTruthy) ∧
      (∀ text, v = .text text → displayText v.toJson = text) ∧
      ((∀ text, v ≠ .text text) →
        ∃ back, Expr.evaluate (displayText v.toJson) = .ok back ∧ back.identical v = true) := by
  have hcondition : v.toJson.holds = v.isTruthy → ∀ result : ActionResult,
      result.data = some v.toJson → result.condition = v.isTruthy := by
    intro hholds result hdata
    rw [ActionResult.condition, hdata]
    exact hholds
  cases v with
  | null =>
    exact ⟨hcondition rfl, nofun, fun _ => ⟨.null, Expr.evaluate_literal .nullWord, rfl⟩⟩
  | boolean b =>
    refine ⟨hcondition rfl, nofun, fun _ => ⟨.boolean b, ?_, beq_self_eq_true b⟩⟩
    cases b with
    | false => exact Expr.evaluate_literal .falseWord
    | true => exact Expr.evaluate_literal .trueWord
  | number x =>
    obtain ⟨x, rfl⟩ := h
    obtain ⟨n, hstored, hequal, heval⟩ := exists_stored x
    refine ⟨hcondition ?_, nofun, fun _ => ⟨.number n.toBinary64, ?_, hequal⟩⟩
    · rw [hstored]
      exact isTruthy_of_identical (v := .number n.toBinary64) (w := .number (.finite x)) hequal
    · rw [hstored]
      exact heval
  | text s =>
    refine ⟨hcondition rfl, ?_, fun hother => absurd rfl (hother s)⟩
    rintro _ ⟨⟩
    rfl

/-- The negative number nearest to zero. -/
def leastNegative : Value := .number (.finite ⟨true, 1, by decide +kernel⟩)

/-- It is written with an exponent. -/
theorem survives_store_leastNegative :
    leastNegative.IsFinite ∧ displayText leastNegative.toJson = "-5e-324" ∧
      ∃ back, Expr.evaluate "-5e-324" = .ok back ∧ back.identical leastNegative = true := by
  have hfinite : leastNegative.IsFinite := ⟨_, rfl⟩
  have htext : displayText leastNegative.toJson = "-5e-324" := by decide +kernel
  have hback := (survives_store hfinite).2.2 nofun
  rw [htext] at hback
  exact ⟨hfinite, htext, hback⟩

end Value

end StepScript
