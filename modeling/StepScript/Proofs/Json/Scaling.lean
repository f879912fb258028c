import StepScript.Json.Document
import StepScript.Proofs.Number.Rounding
import StepScript.Proofs.Number.Shortest

/-!
# Scaling real numbers

The digits of a real number are read as a whole number, which is scaled by a power of ten. Both are
rounded, and so is their product. Even so the decimal that is written for a number of the format
stays in range when it is read.
-/

namespace StepScript

open Binary64

namespace Json

/-! ## Whole numbers and powers of ten -/

def wholeUnits (n : Nat) : Nat := roundQuotient (n * unitsPerOne) 1

theorem fits_wholeUnits {n : Nat} (h : n ≤ tenTo 308) : Fits (wholeUnits n) := by
  have hlimit : tenTo 308 * unitsPerOne < roundingLimit * 1 := by decide +kernel
  refine fits_roundQuotient (roundQuotient_lt_unitsLimit Nat.one_pos ?_)
  exact Nat.lt_of_le_of_lt (Nat.mul_le_mul_right unitsPerOne h) hlimit

theorem ofInt_eq_finite {n : Nat} (h : n ≤ tenTo 308) :
    Binary64.ofInt n = .finite ⟨false, wholeUnits n, fits_wholeUnits h⟩ := by
  rcases Nat.eq_zero_or_pos n with rfl | hn
  · have hexact : wholeUnits 0 = 0 * unitsPerOne := by
      have hround := roundQuotient_mul (fits_mul_unitsPerOne (twoTo_pos 53)) Nat.one_pos
      rwa [Nat.mul_one] at hround
    simp only [hexact]
    exact ofInt_natCast (twoTo_pos 53)
  have hcast : (n : Int) * unitsPerOne = ((n * unitsPerOne : Nat) : Int) := by push_cast; rfl
  have hunits : 0 < n * unitsPerOne := Nat.mul_pos hn unitsPerOne_pos
  rw [Binary64.ofInt, ofSignedUnits, hcast, if_neg (by omega), Int.natAbs_natCast,
    decide_eq_false (by omega)]
  exact ofUnits_of_fits false (fits_wholeUnits h)

theorem powerOfTen_eq_finite {exponent : Nat} (h : exponent ≤ 308) :
    powerOfTen exponent =
      .finite ⟨false, wholeUnits (tenTo exponent), fits_wholeUnits (tenTo_le_tenTo h)⟩ := by
  have hmagnitude : ((digitCount 1 : Nat) : Int) + exponent = exponent + 1 := by
    have hone : digitCount 1 = 1 := rfl
    omega
  have hnone : (-(exponent : Int)).toNat = 0 := by omega
  unfold powerOfTen Decimal.toBinary64
  dsimp only
  rw [hmagnitude, if_neg (by omega), if_neg (by omega), hnone, Int.toNat_natCast, Nat.one_mul]
  exact ofUnits_of_fits false (fits_wholeUnits (tenTo_le_tenTo h))

/-- What is written with a point has at least two units for each one of them. -/
theorem two_mul_unitsPerOne_le {exponent : Nat} (h : 0 < exponent) :
    2 * unitsPerOne ≤ wholeUnits (tenTo exponent) := by
  have hten : 10 * unitsPerOne ≤ tenTo exponent * unitsPerOne :=
    Nat.mul_le_mul_right unitsPerOne (tenTo_le_tenTo h)
  have hround := le_two_mul_roundQuotient (tenTo exponent * unitsPerOne) 1
  rw [Nat.div_one] at hround
  unfold wholeUnits
  omega

/-! ## Scaling down -/

/-- A number stays in range when it is divided by a power of ten. -/
theorem div_powerOfTen (x : Finite) {exponent : Nat} (hpositive : 0 < exponent)
    (h : exponent ≤ 308) : ∃ y, (Binary64.finite x).div (powerOfTen exponent) = .finite y := by
  have hten := two_mul_unitsPerOne_le hpositive
  have hone := unitsPerOne_pos
  have hnonzero : wholeUnits (tenTo exponent) ≠ 0 := by omega
  have hdouble : unitsLimit ≤ roundingLimit * 2 := by decide +kernel
  have hrange : x.units * unitsPerOne < roundingLimit * wholeUnits (tenTo exponent) :=
    calc x.units * unitsPerOne
        < unitsLimit * unitsPerOne := Nat.mul_lt_mul_of_pos_right x.fits.2 hone
      _ ≤ roundingLimit * 2 * unitsPerOne := Nat.mul_le_mul_right _ hdouble
      _ = roundingLimit * (2 * unitsPerOne) := Nat.mul_assoc ..
      _ ≤ roundingLimit * wholeUnits (tenTo exponent) := Nat.mul_le_mul_left _ hten
  have hfits := roundQuotient_lt_unitsLimit (Nat.pos_of_ne_zero hnonzero) hrange
  rw [powerOfTen_eq_finite h, Binary64.div, if_neg hnonzero]
  exact ⟨_, ofQuotient_eq_finite _ hfits⟩

theorem scaleDown_finite (x : Finite) {exponent : Nat} (hpositive : 0 < exponent) :
    ∃ y, scaleDown (.finite x) exponent = .finite y := by
  induction exponent using Nat.strongRecOn generalizing x with
  | ind exponent ih =>
    rw [scaleDown]
    by_cases hsmall : exponent ≤ 308
    · rw [if_pos hsmall]
      exact div_powerOfTen x hpositive hsmall
    rw [if_neg hsmall]
    by_cases hzero : (Binary64.finite x).isZero = true
    · rw [if_pos hzero]
      exact ⟨x, rfl⟩
    · obtain ⟨y, hy⟩ := div_powerOfTen x (by decide : 0 < 308) (Nat.le_refl _)
      rw [if_neg hzero, hy]
      exact ih (exponent - 308) (by omega) y (by omega)

theorem signed_finite (negative : Bool) (x : Finite) :
    ∃ y, (if negative then (Binary64.finite x).neg else .finite x) = .finite y := by
  cases negative with
  | false => exact ⟨x, rfl⟩
  | true => exact ⟨{ x with negative := !x.negative }, rfl⟩

/-- A number with a negative exponent is read, whatever its digits. -/
theorem realOfParts_of_negative (negative : Bool) {coefficient : Nat} {exponent : Int}
    (hcoefficient : coefficient ≤ tenTo 308) (h : exponent < 0) :
    ∃ x, realOfParts negative coefficient exponent = .ok (.real x) := by
  obtain ⟨x, hx⟩ := scaleDown_finite ⟨false, wholeUnits coefficient, fits_wholeUnits hcoefficient⟩
    (show 0 < exponent.natAbs by omega)
  obtain ⟨y, hy⟩ := signed_finite negative x
  unfold realOfParts
  dsimp only
  rw [if_pos h, ofInt_eq_finite hcoefficient, hx, hy]
  exact ⟨y, rfl⟩

/-! ## Scaling up -/

/-- Rounding a positive whole number adds no more than its last bit. -/
theorem wholeUnits_mul_le {n : Nat} (h : 0 < n) :
    wholeUnits n * twoTo 53 ≤ n * unitsPerOne * (twoTo 53 + 1) := by
  have hlarge : twoTo 52 ≤ n * unitsPerOne / 1 := by
    rw [Nat.div_one]
    exact Nat.le_trans (twoTo_le_twoTo (by decide)) (Nat.le_mul_of_pos_left _ h)
  have hround := roundQuotient_le_of_large hlarge
  rwa [Nat.mul_one] at hround

/-- The product of a coefficient and a power of ten stays in range when it is rounded. -/
def ScalesUp (coefficient exponent : Nat) : Prop :=
  wholeUnits coefficient * wholeUnits (tenTo exponent) < roundingLimit * unitsPerOne

/-- Two steps below the greatest number both roundings have room. -/
theorem scalesUp_of_le {coefficient exponent : Nat} (hpositive : 0 < coefficient)
    (h : coefficient * (unitsPerOne * tenTo exponent) ≤ unitsLimit - 5 * twoTo 2044) :
    ScalesUp coefficient exponent := by
  have hroom : (unitsLimit - 5 * twoTo 2044) * ((twoTo 53 + 1) * (twoTo 53 + 1)) <
      roundingLimit * (twoTo 53 * twoTo 53) := by
    decide +kernel
  have hcoefficient := wholeUnits_mul_le hpositive
  have hten := wholeUnits_mul_le (tenTo_pos exponent)
  have hone := unitsPerOne_pos
  have htwo := twoTo_pos 53
  unfold ScalesUp
  generalize wholeUnits coefficient = start at *
  generalize wholeUnits (tenTo exponent) = power at *
  generalize unitsLimit - 5 * twoTo 2044 = most at *
  generalize twoTo 53 = bits at *
  have hproduct : start * power * (bits * bits) < roundingLimit * unitsPerOne * (bits * bits) :=
    calc start * power * (bits * bits)
        = (start * bits) * (power * bits) := by ring
      _ ≤ (coefficient * unitsPerOne * (bits + 1)) *
            (tenTo exponent * unitsPerOne * (bits + 1)) := Nat.mul_le_mul hcoefficient hten
      _ = coefficient * (unitsPerOne * tenTo exponent) *
            (unitsPerOne * ((bits + 1) * (bits + 1))) := by ring
      _ ≤ most * (unitsPerOne * ((bits + 1) * (bits + 1))) := Nat.mul_le_mul_right _ h
      _ = unitsPerOne * (most * ((bits + 1) * (bits + 1))) := by ring
      _ < unitsPerOne * (roundingLimit * (bits * bits)) := Nat.mul_lt_mul_of_pos_left hroom hone
      _ = roundingLimit * unitsPerOne * (bits * bits) := by ring
  exact Nat.lt_of_mul_lt_mul_right hproduct

/-- The greatest two numbers are `2 ^ 53 - 1` and `2 ^ 53 - 2` times the greatest distance between
neighbours. -/
theorem eq_greatest {units : Nat} (hfits : Fits units)
    (h : unitsLimit - 3 * twoTo 2045 < units) :
    units = (twoTo 53 - 1) * twoTo 2045 ∨ units = (twoTo 53 - 2) * twoTo 2045 := by
  have hlimit : unitsLimit = twoTo 53 * twoTo 2045 := by decide +kernel
  have hlarge : twoTo 2097 ≤ unitsLimit - 3 * twoTo 2045 := by decide +kernel
  have hspacing : spacing units = 2045 := by
    have hlog : 2097 ≤ units.log2 := le_log2_of_twoTo_le (Nat.le_trans hlarge (Nat.le_of_lt h))
    have hle := spacing_le hfits.2
    unfold spacing at hle ⊢
    omega
  have hgrid := hfits.1
  rw [hspacing] at hgrid
  generalize twoTo 2045 = gap at *
  obtain ⟨count, rfl⟩ := Nat.dvd_of_mod_eq_zero hgrid
  have hbelow : count < twoTo 53 := by
    refine Nat.lt_of_mul_lt_mul_right (a := gap) ?_
    rw [← hlimit, Nat.mul_comm]
    exact hfits.2
  have habove : twoTo 53 < count + 3 := by
    refine Nat.lt_of_mul_lt_mul_right (a := gap) ?_
    rw [Nat.add_mul, ← hlimit, Nat.mul_comm count]
    omega
  rw [Nat.mul_comm]
  rcases (show count = twoTo 53 - 1 ∨ count = twoTo 53 - 2 by omega) with rfl | rfl
  · exact .inl rfl
  · exact .inr rfl

/-- The shortest decimal of a number stays in range when it is scaled up. -/
theorem scalesUp_shortest {units : Nat} (hfits : Fits units)
    (hpositive : 0 < (Decimal.shortest realFormat.tie units).coefficient)
    (hexponent : 0 ≤ (Decimal.shortest realFormat.tie units).exponent) :
    ScalesUp (Decimal.shortest realFormat.tie units).coefficient
      (Decimal.shortest realFormat.tie units).exponent.toNat := by
  by_cases hgreat : unitsLimit - 3 * twoTo 2045 < units
  · rcases eq_greatest hfits hgreat with hunits | hunits
    · rw [hunits]
      unfold ScalesUp
      decide +kernel
    · rw [hunits]
      unfold ScalesUp
      decide +kernel
  · have hnear := (Decimal.isNear_shortest realFormat.tie units).value_le
    have hnone : (-(Decimal.shortest realFormat.tie units).exponent).toNat = 0 := by omega
    have hgap : twoTo (spacing units) ≤ twoTo 2045 := twoTo_le_twoTo (spacing_le hfits.2)
    have hroom : 4 * (unitsLimit - 3 * twoTo 2045) + 2 * twoTo 2045 =
        4 * (unitsLimit - 5 * twoTo 2044) := by
      decide +kernel
    rw [hnone, tenTo_zero, Nat.mul_one] at hnear
    exact scalesUp_of_le hpositive (by omega)

/-- No number is `10 ^ 309` or more. -/
theorem exponent_le_of_isNear {units : Nat} {d : Decimal} (hfits : Fits units) (h : d.IsNear units)
    (hpositive : 0 < d.coefficient) : d.exponent ≤ 308 := by
  by_contra hlarge
  have hnear := h.value_le
  have hnone : (-d.exponent).toNat = 0 := by omega
  have hgap : twoTo (spacing units) ≤ twoTo 2045 := twoTo_le_twoTo (spacing_le hfits.2)
  have hrange := hfits.2
  rw [hnone, tenTo_zero, Nat.mul_one] at hnear
  have hbeyond : unitsPerOne * tenTo 309 ≤ d.coefficient * (unitsPerOne * tenTo d.exponent.toNat) :=
    calc unitsPerOne * tenTo 309
        ≤ unitsPerOne * tenTo d.exponent.toNat :=
          Nat.mul_le_mul_left _ (tenTo_le_tenTo (by omega))
      _ ≤ d.coefficient * (unitsPerOne * tenTo d.exponent.toNat) :=
          Nat.le_mul_of_pos_left _ hpositive
  have hlimit : 4 * unitsLimit + 2 * twoTo 2045 < 4 * (unitsPerOne * tenTo 309) := by
    decide +kernel
  omega

/-- A number is read if its digits have room when they are scaled up. -/
theorem realOfParts_of_scalesUp (negative : Bool) {coefficient : Nat} {exponent : Int}
    (hcoefficient : coefficient ≤ tenTo 308) (hexponent : 0 ≤ exponent)
    (hscales : 0 < coefficient → exponent ≤ 308 ∧ ScalesUp coefficient exponent.toNat) :
    ∃ x, realOfParts negative coefficient exponent = .ok (.real x) := by
  have hstart := ofInt_eq_finite hcoefficient
  have hscaled : ∃ x, (if (Binary64.ofInt coefficient).isZero then Binary64.ofInt coefficient
      else if 308 < exponent then .infinite false
      else (Binary64.ofInt coefficient).mul (powerOfTen exponent.toNat)) = Binary64.finite x := by
    by_cases hzero : (Binary64.ofInt coefficient).isZero = true
    · rw [if_pos hzero]
      exact ⟨_, hstart⟩
    · have hpositive : 0 < coefficient := by
        rcases Nat.eq_zero_or_pos coefficient with hnone | hpositive
        · rw [hnone] at hzero
          exact absurd (by decide +kernel) hzero
        · exact hpositive
      obtain ⟨hsmall, hroom⟩ := hscales hpositive
      have hfinite := roundQuotient_lt_unitsLimit unitsPerOne_pos hroom
      rw [if_neg hzero, if_neg (by omega), hstart, powerOfTen_eq_finite (by omega)]
      exact ⟨_, ofQuotient_eq_finite _ hfinite⟩
  obtain ⟨x, hx⟩ := hscaled
  obtain ⟨y, hy⟩ := signed_finite negative x
  unfold realOfParts
  dsimp only
  rw [if_neg (show ¬ exponent < 0 by omega), hx, hy]
  exact ⟨y, rfl⟩

/-- A number below `10 ^ 308` is read. -/
theorem realOfParts_of_lt (negative : Bool) {coefficient : Nat} {exponent : Int}
    (hcoefficient : coefficient ≤ tenTo 308)
    (h : coefficient * tenTo exponent.toNat < tenTo 308) :
    ∃ x, realOfParts negative coefficient exponent = .ok (.real x) := by
  by_cases hexponent : exponent < 0
  · exact realOfParts_of_negative negative hcoefficient hexponent
  refine realOfParts_of_scalesUp negative hcoefficient (by omega) fun hpositive => ⟨?_, ?_⟩
  · by_contra hlarge
    have hten : tenTo 308 ≤ coefficient * tenTo exponent.toNat :=
      calc tenTo 308 ≤ tenTo exponent.toNat := tenTo_le_tenTo (by omega)
        _ ≤ coefficient * tenTo exponent.toNat := Nat.le_mul_of_pos_left _ hpositive
    omega
  · have hlimit : unitsPerOne * tenTo 308 ≤ unitsLimit - 5 * twoTo 2044 := by decide +kernel
    refine scalesUp_of_le hpositive ?_
    calc coefficient * (unitsPerOne * tenTo exponent.toNat)
        = unitsPerOne * (coefficient * tenTo exponent.toNat) := Nat.mul_left_comm ..
      _ ≤ unitsPerOne * tenTo 308 := Nat.mul_le_mul_left _ (Nat.le_of_lt h)
      _ ≤ unitsLimit - 5 * twoTo 2044 := hlimit

/-- The shortest decimal of a number is read, if it has no negative exponent. -/
theorem realOfParts_shortest (negative : Bool) {units : Nat} (hfits : Fits units)
    (hexponent : 0 ≤ (Decimal.shortest realFormat.tie units).exponent) :
    ∃ x, realOfParts negative (Decimal.shortest realFormat.tie units).coefficient
      (Decimal.shortest realFormat.tie units).exponent = .ok (.real x) := by
  have hnear := Decimal.isNear_shortest realFormat.tie units
  have hscales := scalesUp_shortest hfits
  generalize Decimal.shortest realFormat.tie units = d at *
  have hcoefficient : d.coefficient ≤ tenTo 308 :=
    Nat.le_trans hnear.coefficient_le (tenTo_le_tenTo (by decide))
  exact realOfParts_of_scalesUp negative hcoefficient hexponent fun hpositive =>
    ⟨exponent_le_of_isNear hfits hnear hpositive, hscales hpositive hexponent⟩

end Json

end StepScript
