import StepScript.Proofs.Number.Exact

/-!
# Rounded numbers

Rounding a quotient adds at most half the distance between neighbours, and what it leads to is a
number of the format unless it is out of range.
-/

namespace StepScript.Binary64

variable {num den : Nat}

/-! ## Neighbours -/

theorem lt_twoTo_log2 (n : Nat) : n < twoTo (n.log2 + 1) := Nat.lt_log2_self

/-- Neighbours are one unit apart, or their distance is small compared to the number. -/
theorem twoTo_spacing_le (units : Nat) :
    twoTo (spacing units) = 1 ∨ twoTo (spacing units) * twoTo 52 ≤ units := by
  by_cases hsmall : units.log2 ≤ 52
  · have hspacing : spacing units = 0 := Nat.sub_eq_zero_of_le hsmall
    exact .inl (by rw [hspacing]; rfl)
  · have hlog : spacing units + 52 = units.log2 := by
      unfold spacing
      omega
    have hunits : units ≠ 0 := by
      rintro rfl
      exact hsmall (Nat.zero_le 52)
    rw [← twoTo_add, hlog]
    exact .inr (Nat.log2_self_le hunits)

theorem twoTo_spacing_le_self {units : Nat} (h : 0 < units) : twoTo (spacing units) ≤ units := by
  rcases twoTo_spacing_le units with hone | hgap
  · rw [hone]
    exact h
  · exact Nat.le_trans (Nat.le_mul_of_pos_right _ (twoTo_pos 52)) hgap

/-- All numbers in range have neighbours at most this far away. -/
theorem spacing_le {units : Nat} (h : units < unitsLimit) : spacing units ≤ 2045 := by
  rcases Nat.eq_zero_or_pos units with rfl | hpositive
  · exact Nat.zero_le 2045
  · have hlog := log2_lt_of_lt_twoTo hpositive.ne' h
    unfold spacing
    omega

/-- Whole multiples with at most 53 bits of any distance lie on the grid of their neighbours. -/
theorem mod_spacing_eq_zero {count exponent : Nat} (h : count ≤ twoTo 53) :
    count * twoTo exponent % twoTo (spacing (count * twoTo exponent)) = 0 := by
  rcases Nat.eq_zero_or_pos count with rfl | hcount
  · rw [Nat.zero_mul, Nat.zero_mod]
  have hpositive : count * twoTo exponent ≠ 0 := (Nat.mul_pos hcount (twoTo_pos exponent)).ne'
  refine Nat.mod_eq_zero_of_dvd ?_
  rcases Nat.lt_or_eq_of_le h with hless | rfl
  · have hlog : (count * twoTo exponent).log2 < 53 + exponent := by
      refine log2_lt_of_lt_twoTo hpositive ?_
      rw [twoTo_add]
      exact Nat.mul_lt_mul_of_pos_right hless (twoTo_pos exponent)
    have hspacing : spacing (count * twoTo exponent) ≤ exponent := by
      unfold spacing
      omega
    exact Nat.dvd_mul_left_of_dvd (twoTo_dvd_twoTo hspacing) count
  · -- the least number with one bit more is a power of two
    rw [← twoTo_add]
    have hlog : (twoTo (53 + exponent)).log2 < 53 + exponent + 1 :=
      log2_lt_of_lt_twoTo (twoTo_pos _).ne' (twoTo_lt_twoTo (Nat.lt_succ_self _))
    refine twoTo_dvd_twoTo ?_
    unfold spacing
    omega

/-! ## Rounding -/

theorem divideToEven_le_succ (num den : Nat) : divideToEven num den ≤ num / den + 1 := by
  unfold divideToEven
  dsimp only
  split
  · omega
  · split <;> omega

theorem le_divideToEven (num den : Nat) : num / den ≤ divideToEven num den := by
  unfold divideToEven
  dsimp only
  split
  · exact Nat.le_refl _
  · split <;> omega

/-- Rounding to a natural number adds at most a half. -/
theorem divideToEven_le (num den : Nat) :
    2 * (divideToEven num den * den) ≤ 2 * num + den := by
  have hdivision : num / den * den + num % den = num := Nat.div_add_mod' num den
  have hnext : (num / den + 1) * den = num / den * den + den := Nat.succ_mul ..
  have hbelow : divideToEven num den * den ≤ (num / den + 1) * den :=
    Nat.mul_le_mul_right den (divideToEven_le_succ num den)
  by_cases hless : 2 * (num % den) < den
  · have hdown : divideToEven num den = num / den := if_pos hless
    rw [hdown]
    omega
  · omega

theorem roundQuotient_le (num den : Nat) :
    2 * (roundQuotient num den * den) ≤ 2 * num + twoTo (spacing (num / den)) * den := by
  have hround := divideToEven_le num (den * twoTo (spacing (num / den)))
  rw [roundQuotient]
  generalize twoTo (spacing (num / den)) = scale at *
  calc 2 * (divideToEven num (den * scale) * scale * den)
      = 2 * (divideToEven num (den * scale) * (den * scale)) := by ring
    _ ≤ 2 * num + den * scale := hround
    _ = 2 * num + scale * den := by rw [Nat.mul_comm den]

/-- A quotient that is not small grows by no more than its last bit when it is rounded. -/
theorem roundQuotient_le_of_large (h : twoTo 52 ≤ num / den) :
    roundQuotient num den * den * twoTo 53 ≤ num * (twoTo 53 + 1) := by
  have hround := roundQuotient_le num den
  have hgap : twoTo (spacing (num / den)) * twoTo 52 ≤ num / den := by
    rcases twoTo_spacing_le (num / den) with hone | hgap
    · rw [hone, Nat.one_mul]
      exact h
    · exact hgap
  have hquotient : num / den * den ≤ num := Nat.div_mul_le_self num den
  have htwo : twoTo 53 = twoTo 52 * 2 := twoTo_add 52 1
  calc roundQuotient num den * den * twoTo 53
      = twoTo 52 * (2 * (roundQuotient num den * den)) := by rw [htwo]; ring
    _ ≤ twoTo 52 * (2 * num + twoTo (spacing (num / den)) * den) := Nat.mul_le_mul_left _ hround
    _ = num * twoTo 53 + twoTo (spacing (num / den)) * twoTo 52 * den := by rw [htwo]; ring
    _ ≤ num * twoTo 53 + num / den * den := Nat.add_le_add_left (Nat.mul_le_mul_right den hgap) _
    _ ≤ num * twoTo 53 + num := Nat.add_le_add_left hquotient _
    _ = num * (twoTo 53 + 1) := by ring

/-- Rounding halves no number. -/
theorem le_two_mul_roundQuotient (num den : Nat) : num / den ≤ 2 * roundQuotient num den := by
  have hround : num / den / twoTo (spacing (num / den)) ≤
      divideToEven num (den * twoTo (spacing (num / den))) := by
    rw [Nat.div_div_eq_div_mul]
    exact le_divideToEven ..
  have hgap := twoTo_spacing_le (num / den)
  rw [roundQuotient]
  generalize num / den = quotient at *
  have hpositive := twoTo_pos (spacing quotient)
  generalize twoTo (spacing quotient) = scale at *
  have hscaled : quotient / scale * scale ≤ divideToEven num (den * scale) * scale :=
    Nat.mul_le_mul_right scale hround
  have hdivision : quotient / scale * scale + quotient % scale = quotient :=
    Nat.div_add_mod' quotient scale
  rcases hgap with rfl | hgap
  · omega
  · -- the scale itself is not more than the quotient
    have hscale : scale ≤ quotient := Nat.le_trans (Nat.le_mul_of_pos_right _ (twoTo_pos 52)) hgap
    have hone : 1 * scale ≤ quotient / scale * scale :=
      Nat.mul_le_mul_right scale (Nat.div_pos hscale hpositive)
    have hrest := Nat.mod_lt quotient hpositive
    omega

/-- A quotient that is rounded is a number of the format, unless it is out of range. -/
theorem fits_roundQuotient (h : roundQuotient num den < unitsLimit) :
    Fits (roundQuotient num den) := by
  refine ⟨mod_spacing_eq_zero ?_, h⟩
  generalize hexponent : spacing (num / den) = exponent
  have hquotient : num / den < twoTo 53 * twoTo exponent := by
    refine Nat.lt_of_lt_of_le (lt_twoTo_log2 _) ?_
    rw [← twoTo_add]
    refine twoTo_le_twoTo ?_
    unfold spacing at hexponent
    omega
  have hcount : num / (den * twoTo exponent) < twoTo 53 := by
    rw [← Nat.div_div_eq_div_mul]
    exact (Nat.div_lt_iff_lt_mul (twoTo_pos exponent)).2 hquotient
  exact Nat.le_trans (divideToEven_le_succ num _) hcount

/-! ## Ranges -/

/-- Halfway between the greatest number and the end of the range. -/
def roundingLimit : Nat := unitsLimit - twoTo 2044

/-- Up to there a quotient stays in range. -/
theorem roundQuotient_lt_unitsLimit (hden : 0 < den) (h : num < roundingLimit * den) :
    roundQuotient num den < unitsLimit := by
  have hlimit : 2 * roundingLimit + twoTo 2045 = 2 * unitsLimit := by decide +kernel
  have hquotient : num / den < unitsLimit :=
    Nat.lt_of_lt_of_le ((Nat.div_lt_iff_lt_mul hden).2 h) (Nat.sub_le _ _)
  have hgap : twoTo (spacing (num / den)) * den ≤ twoTo 2045 * den :=
    Nat.mul_le_mul_right den (twoTo_le_twoTo (spacing_le hquotient))
  have hround : 2 * (roundQuotient num den * den) < 2 * unitsLimit * den :=
    calc 2 * (roundQuotient num den * den)
        ≤ 2 * num + twoTo (spacing (num / den)) * den := roundQuotient_le num den
      _ < 2 * (roundingLimit * den) + twoTo 2045 * den :=
        Nat.add_lt_add_of_lt_of_le (Nat.mul_lt_mul_of_pos_left h Nat.two_pos) hgap
      _ = (2 * roundingLimit + twoTo 2045) * den := by ring
      _ = 2 * unitsLimit * den := by rw [hlimit]
  rw [← Nat.mul_assoc] at hround
  exact Nat.lt_of_mul_lt_mul_left (Nat.lt_of_mul_lt_mul_right hround)

/-- The number nearest to a quotient that stays in range. -/
theorem ofQuotient_eq_finite (negative : Bool) (h : roundQuotient num den < unitsLimit) :
    ofQuotient negative num den = .finite ⟨negative, roundQuotient num den, fits_roundQuotient h⟩ :=
  ofUnits_of_fits negative (fits_roundQuotient h)

end StepScript.Binary64
