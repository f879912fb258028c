import StepScript.Number.Numeral
import Mathlib.Tactic.Ring

/-!
# Exact numbers

Rounding leaves what the format represents as it is. A decimal whose value is a number of the format
is read as that number, and every finite number is the value of a decimal. Whole numbers of less than
54 bits are numbers of the format, and their sums and their order are exact.
-/

namespace StepScript

theorem twoTo_pos (exponent : Nat) : 0 < twoTo exponent := Nat.pow_pos (by decide)

theorem tenTo_pos (exponent : Nat) : 0 < tenTo exponent := Nat.pow_pos (by decide)

theorem twoTo_add (m n : Nat) : twoTo (m + n) = twoTo m * twoTo n := Nat.pow_add 2 m n

theorem tenTo_add (m n : Nat) : tenTo (m + n) = tenTo m * tenTo n := Nat.pow_add 10 m n

theorem mul_tenTo (m n : Nat) : m * tenTo n = m * 5 ^ n * tenTo 0 * twoTo n := by
  have hten : tenTo n = 5 ^ n * twoTo n := Nat.mul_pow 5 2 n
  rw [hten, ← Nat.mul_assoc]
  exact congrArg (· * twoTo n) (Nat.mul_one _).symm

theorem twoTo_lt_twoTo {m n : Nat} (h : m < n) : twoTo m < twoTo n :=
  Nat.pow_lt_pow_right (by decide) h

theorem twoTo_le_twoTo {m n : Nat} (h : m ≤ n) : twoTo m ≤ twoTo n :=
  Nat.pow_le_pow_right (by decide) h

theorem tenTo_zero : tenTo 0 = 1 := rfl

theorem tenTo_le_tenTo {m n : Nat} (h : m ≤ n) : tenTo m ≤ tenTo n :=
  Nat.pow_le_pow_right (by decide) h

theorem twoTo_dvd_twoTo {m n : Nat} (h : m ≤ n) : twoTo m ∣ twoTo n := Nat.pow_dvd_pow 2 h

theorem log2_lt_of_lt_twoTo {n k : Nat} (hn : n ≠ 0) (h : n < twoTo k) : n.log2 < k :=
  (Nat.log2_lt hn).2 h

theorem le_log2_of_twoTo_le {n k : Nat} (h : twoTo k ≤ n) : k ≤ n.log2 :=
  (Nat.le_log2 (Nat.ne_of_gt (Nat.lt_of_lt_of_le (twoTo_pos k) h))).2 h

namespace Binary64

/-! ## Rounding -/

theorem unitsPerOne_pos : 0 < unitsPerOne := twoTo_pos _

theorem divideToEven_mul (n : Nat) {den : Nat} (hden : 0 < den) :
    divideToEven (n * den) den = n := by
  simp [divideToEven, Nat.mul_div_cancel _ hden, hden]

/-- A quotient that is a number of the format is rounded to itself. -/
theorem roundQuotient_mul {units den : Nat} (h : Fits units) (hden : 0 < den) :
    roundQuotient (units * den) den = units := by
  obtain ⟨k, hk⟩ := Nat.dvd_of_mod_eq_zero h.1
  rw [roundQuotient, Nat.mul_div_cancel _ hden]
  generalize twoTo (spacing units) = scale at hk
  subst hk
  rcases Nat.eq_zero_or_pos scale with rfl | hscale
  · simp
  · have hfactor : scale * k * den = k * (den * scale) := by ring
    rw [hfactor, divideToEven_mul k (Nat.mul_pos hden hscale), Nat.mul_comm]

theorem ofUnits_of_fits (negative : Bool) {units : Nat} (h : Fits units) :
    ofUnits negative units = .finite ⟨negative, units, h⟩ :=
  dif_pos h

theorem ofQuotient_mul (negative : Bool) {units den : Nat} (h : Fits units) (hden : 0 < den) :
    ofQuotient negative (units * den) den = .finite ⟨negative, units, h⟩ := by
  rw [ofQuotient, roundQuotient_mul h hden, ofUnits_of_fits]

theorem fits_zero : Fits 0 := ⟨Nat.zero_mod _, twoTo_pos _⟩

/-! ## Whole numbers -/

/-- The format represents every whole number of less than 54 bits. -/
theorem fits_mul_unitsPerOne {n : Nat} (h : n < twoTo 53) : Fits (n * unitsPerOne) := by
  rcases Nat.eq_zero_or_pos n with rfl | hn
  · rw [Nat.zero_mul]
    exact fits_zero
  have hpositive : n * unitsPerOne ≠ 0 := (Nat.mul_pos hn unitsPerOne_pos).ne'
  have hrange : n * unitsPerOne < twoTo (53 + 1074) := by
    rw [twoTo_add, ← unitsPerOne]
    exact Nat.mul_lt_mul_of_pos_right h unitsPerOne_pos
  have hspacing : spacing (n * unitsPerOne) ≤ 1074 := by
    have hlog := log2_lt_of_lt_twoTo hpositive hrange
    unfold spacing
    omega
  refine ⟨Nat.mod_eq_zero_of_dvd ?_, ?_⟩
  · exact Nat.dvd_mul_left_of_dvd (twoTo_dvd_twoTo hspacing) n
  · exact Nat.lt_trans hrange (twoTo_lt_twoTo (by decide))

/-- The number of a whole number of less than 54 bits, in units. -/
theorem ofInt_of_natAbs_lt {n : Int} (h : n.natAbs < twoTo 53) :
    ofInt n =
      .finite ⟨decide (n < 0), n.natAbs * unitsPerOne, fits_mul_unitsPerOne h⟩ := by
  rcases eq_or_ne n 0 with rfl | hn
  · have hzero : (0 : Int) * unitsPerOne = 0 := Int.zero_mul _
    rw [ofInt, ofSignedUnits, if_pos hzero, ofUnits_of_fits false fits_zero]
    simp
  have hunits : n * unitsPerOne ≠ 0 :=
    Int.mul_ne_zero hn (Int.natCast_ne_zero.2 unitsPerOne_pos.ne')
  have hsign : n * unitsPerOne < 0 ↔ n < 0 := by
    have hpositive : (0 : Int) < unitsPerOne := Int.natCast_pos.2 unitsPerOne_pos
    have hscaled : n * unitsPerOne < 0 * unitsPerOne ↔ n < 0 := Int.mul_lt_mul_right hpositive
    rwa [Int.zero_mul] at hscaled
  have habs : (n * unitsPerOne).natAbs = n.natAbs * unitsPerOne := by
    rw [Int.natAbs_mul, Int.natAbs_natCast]
  rw [ofInt, ofSignedUnits, if_neg hunits, habs, decide_eq_decide.2 hsign]
  have hexact := ofQuotient_mul (decide (n < 0)) (fits_mul_unitsPerOne h) Nat.one_pos
  rwa [Nat.mul_one] at hexact

/-- The number of a small natural number, in units. -/
theorem ofInt_natCast {n : Nat} (h : n < twoTo 53) :
    ofInt n = .finite ⟨false, n * unitsPerOne, fits_mul_unitsPerOne h⟩ := by
  have hsign : decide ((n : Int) < 0) = false := decide_eq_false (by omega)
  have hsmall : (n : Int).natAbs < twoTo 53 := h
  rw [ofInt_of_natAbs_lt hsmall]
  simp only [hsign, Int.natAbs_natCast]

/-- The sum of small whole numbers is exact. -/
theorem add_ofInt {a b : Nat} (h : a + b < twoTo 53) :
    (ofInt a).add (ofInt b) = ofInt (a + b : Nat) := by
  have ha : a < twoTo 53 := Nat.lt_of_le_of_lt (Nat.le_add_right a b) h
  have hb : b < twoTo 53 := Nat.lt_of_le_of_lt (Nat.le_add_left b a) h
  have hunits : (a * unitsPerOne : Nat) + (b * unitsPerOne : Nat) =
      ((a + b : Nat) : Int) * unitsPerOne := by
    push_cast
    ring
  rw [ofInt_natCast ha, ofInt_natCast hb, ofInt]
  exact congrArg (ofSignedUnits false) hunits

/-- Small whole numbers are ordered as whole numbers. -/
theorem compare?_ofInt {a b : Nat} (ha : a < twoTo 53) (hb : b < twoTo 53) :
    (ofInt a).compare? (ofInt b) = some (compare a b) := by
  have hcompare : compare ((a * unitsPerOne : Nat) : Int) ((b * unitsPerOne : Nat) : Int) =
      compare a b := by
    simp only [compare, compareOfLessAndEq, Int.ofNat_lt, Int.natCast_inj,
      Nat.mul_lt_mul_right unitsPerOne_pos, Nat.mul_left_inj unitsPerOne_pos.ne']
  rw [ofInt_natCast ha, ofInt_natCast hb]
  exact congrArg some hcompare

/-- A small whole number is the whole number that its number stands for. -/
theorem toInt?_ofInt {n : Nat} (h : n < twoTo 53) :
    Finite.toInt? ⟨false, n * unitsPerOne, fits_mul_unitsPerOne h⟩ = some (n : Int) := by
  simp [Finite.toInt?, Nat.mul_div_cancel _ unitsPerOne_pos]

end Binary64

namespace Decimal

open Binary64

theorem digitCount_spec {n : Nat} (h : n ≠ 0) :
    tenTo (digitCount n - 1) ≤ n ∧ n < tenTo (digitCount n) := by
  have hlength : 0 < (Nat.toDigits 10 n).length := Nat.length_toDigits_pos
  rw [digitCount, if_neg h]
  refine ⟨?_, (Nat.length_toDigits_le_iff (by decide) hlength).1 (Nat.le_refl _)⟩
  by_contra hlt
  rcases Nat.eq_zero_or_pos ((Nat.toDigits 10 n).length - 1) with hone | hmany
  · rw [hone] at hlt
    exact hlt (Nat.pos_of_ne_zero h)
  · have hfewer := (Nat.length_toDigits_le_iff (by decide) hmany).2 (Nat.lt_of_not_le hlt)
    omega

section

variable {d : Decimal} (hzero : d.coefficient ≠ 0)

include hzero

/-- A number of at least half a unit is not smaller than the lower bound on what is read. -/
theorem magnitude_ge (h : tenTo (-d.exponent).toNat ≤
      2 * (d.coefficient * tenTo d.exponent.toNat * unitsPerOne)) :
    ¬ ((digitCount d.coefficient : Int) + d.exponent < -330) := by
  intro hmagnitude
  obtain ⟨-, hhigh⟩ := digitCount_spec hzero
  have hexponent : digitCount d.coefficient + d.exponent.toNat + 331 ≤ (-d.exponent).toNat := by
    omega
  have hvalue : d.coefficient * tenTo d.exponent.toNat * tenTo 331 <
      d.coefficient * tenTo d.exponent.toNat * (2 * unitsPerOne) :=
    calc d.coefficient * tenTo d.exponent.toNat * tenTo 331
        < tenTo (digitCount d.coefficient) * tenTo d.exponent.toNat * tenTo 331 :=
          Nat.mul_lt_mul_of_pos_right (Nat.mul_lt_mul_of_pos_right hhigh (tenTo_pos _))
            (tenTo_pos 331)
      _ = tenTo (digitCount d.coefficient + d.exponent.toNat + 331) := by
          rw [tenTo_add, tenTo_add]
      _ ≤ tenTo (-d.exponent).toNat := tenTo_le_tenTo hexponent
      _ ≤ 2 * (d.coefficient * tenTo d.exponent.toNat * unitsPerOne) := h
      _ = d.coefficient * tenTo d.exponent.toNat * (2 * unitsPerOne) := Nat.mul_left_comm ..
  have hbound : tenTo 331 < 2 * unitsPerOne := Nat.lt_of_mul_lt_mul_left hvalue
  exact absurd hbound (by decide +kernel)

/-- A number that is not twice out of range is not greater than the upper bound. -/
theorem magnitude_le (h : d.coefficient * tenTo d.exponent.toNat * unitsPerOne <
      2 * unitsLimit * tenTo (-d.exponent).toNat) :
    ¬ (310 < (digitCount d.coefficient : Int) + d.exponent) := by
  intro hmagnitude
  obtain ⟨hlow, -⟩ := digitCount_spec hzero
  have hexponent : 310 + (-d.exponent).toNat ≤
      digitCount d.coefficient - 1 + d.exponent.toNat := by
    omega
  have hvalue : tenTo 310 * unitsPerOne * tenTo (-d.exponent).toNat <
      2 * unitsLimit * tenTo (-d.exponent).toNat :=
    calc tenTo 310 * unitsPerOne * tenTo (-d.exponent).toNat
        = tenTo (310 + (-d.exponent).toNat) * unitsPerOne := by
          rw [tenTo_add, Nat.mul_right_comm]
      _ ≤ tenTo (digitCount d.coefficient - 1 + d.exponent.toNat) * unitsPerOne :=
          Nat.mul_le_mul_right _ (tenTo_le_tenTo hexponent)
      _ = tenTo (digitCount d.coefficient - 1) * tenTo d.exponent.toNat * unitsPerOne := by
          rw [tenTo_add]
      _ ≤ d.coefficient * tenTo d.exponent.toNat * unitsPerOne :=
          Nat.mul_le_mul_right _ (Nat.mul_le_mul_right _ hlow)
      _ < 2 * unitsLimit * tenTo (-d.exponent).toNat := h
  have hbound : tenTo 310 * unitsPerOne < 2 * unitsLimit := Nat.lt_of_mul_lt_mul_right hvalue
  exact absurd hbound (by decide +kernel)

/-- Between half a unit and twice the range a decimal is read as the nearest number. -/
theorem toBinary64_eq_ofQuotient (negative : Bool)
    (hlow : tenTo (-d.exponent).toNat ≤
      2 * (d.coefficient * tenTo d.exponent.toNat * unitsPerOne))
    (hhigh : d.coefficient * tenTo d.exponent.toNat * unitsPerOne <
      2 * unitsLimit * tenTo (-d.exponent).toNat) :
    d.toBinary64 negative =
      .ofQuotient negative (d.coefficient * tenTo d.exponent.toNat * unitsPerOne)
        (tenTo (-d.exponent).toNat) := by
  rw [toBinary64, if_neg (not_or.2 ⟨hzero, magnitude_ge hzero hlow⟩),
    if_neg (magnitude_le hzero hhigh)]

end

/-- A decimal whose value is a number of the format is read as that number. -/
theorem toBinary64_exact (negative : Bool) {d : Decimal} {units : Nat} (hfits : Fits units)
    (h : d.coefficient * tenTo d.exponent.toNat * unitsPerOne =
      units * tenTo (-d.exponent).toNat) :
    d.toBinary64 negative = .finite ⟨negative, units, hfits⟩ := by
  have hden := tenTo_pos (-d.exponent).toNat
  by_cases hzero : d.coefficient = 0
  · have hunits : units = 0 := by
      rw [hzero, Nat.zero_mul, Nat.zero_mul] at h
      exact (Nat.mul_eq_zero.1 h.symm).resolve_right hden.ne'
    subst hunits
    rw [toBinary64, if_pos (.inl hzero), ofUnits_of_fits]
  · have hunits : 0 < units := by
      rcases Nat.eq_zero_or_pos units with rfl | hpos
      · rw [Nat.zero_mul] at h
        have := Nat.mul_pos (Nat.mul_pos (Nat.pos_of_ne_zero hzero)
          (tenTo_pos d.exponent.toNat)) unitsPerOne_pos
        omega
      · exact hpos
    -- the number is at least one unit, and in range
    rw [toBinary64_eq_ofQuotient hzero negative, h, ofQuotient_mul _ _ hden]
    · rw [h]
      have := Nat.le_mul_of_pos_left (tenTo (-d.exponent).toNat) hunits
      omega
    · rw [h, Nat.mul_assoc]
      have := Nat.mul_lt_mul_of_pos_right hfits.2 hden
      omega

/-- Small whole numbers are read exactly. -/
theorem toBinary64_natCast {n : Nat} (h : n < twoTo 53) :
    (⟨n, 0⟩ : Decimal).toBinary64 false = ofInt n := by
  rw [ofInt_natCast h]
  refine toBinary64_exact false _ ?_
  simp [tenTo]

/-- A unit is `5 ^ 1074` times `10 ^ -1074`, so a finite number has a decimal. -/
theorem exists_toBinary64 (x : Finite) :
    ∃ coefficient, (⟨coefficient, -(1074 : Nat)⟩ : Decimal).toBinary64 x.negative = .finite x := by
  refine ⟨x.units * 5 ^ 1074, toBinary64_exact x.negative x.fits ?_⟩
  rw [Int.neg_neg, Int.toNat_natCast, Int.toNat_neg_natCast, mul_tenTo x.units 1074, unitsPerOne]

end Decimal

end StepScript
