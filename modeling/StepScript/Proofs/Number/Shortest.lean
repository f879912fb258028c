import StepScript.Proofs.Number.Rounding

/-!
# Shortest decimals

The decimal that is written for a number has at most eighteen digits, and it is hardly greater than
the number: it is at most halfway to the next one.
-/

namespace StepScript.Decimal

open Binary64

variable {tie : Tie} {units : Nat} {exponent : Int}

/-- A decimal has few digits, and it is at most halfway from a number to the next one. Only zero is
written as zero. -/
structure IsNear (units : Nat) (d : Decimal) : Prop where
  coefficient_le : d.coefficient ≤ tenTo 18
  coefficient_pos : 0 < units → 0 < d.coefficient
  value_le : 4 * (d.coefficient * (unitsPerOne * tenTo d.exponent.toNat)) ≤
    (4 * units + 2 * twoTo (spacing units)) * tenTo (-d.exponent).toNat

/-! ## Grids -/

theorem Interval.le_of_holds {interval : Interval} {num den : Nat}
    (h : interval.holds num den = true) : num ≤ interval.high * den := by
  unfold Interval.holds at h
  split at h
  · simp only [Bool.and_eq_true, decide_eq_true_eq] at h
    exact h.2
  · simp only [Bool.and_eq_true, decide_eq_true_eq] at h
    exact Nat.le_of_lt h.2

/-- A number of a grid that is chosen lies in the interval, and next to the number. -/
theorem onGrid?_eq_some {coefficient : Nat} (h : onGrid? tie units exponent = some coefficient) :
    (Interval.of units).holds (4 * coefficient * (unitsPerOne * tenTo exponent.toNat))
        (tenTo (-exponent).toNat) = true ∧
      coefficient ≤
        units * tenTo (-exponent).toNat / (unitsPerOne * tenTo exponent.toNat) + 1 := by
  unfold onGrid? at h
  dsimp only at h
  generalize units * tenTo (-exponent).toNat / (unitsPerOne * tenTo exponent.toNat) = below at *
  split at h
  · next hbelow habove =>
    obtain rfl := Option.some.inj h
    split
    · exact ⟨hbelow, Nat.le_succ below⟩
    · exact ⟨habove, Nat.le_refl _⟩
  · next hbelow _ =>
    obtain rfl := Option.some.inj h
    exact ⟨hbelow, Nat.le_succ below⟩
  · next _ habove =>
    obtain rfl := Option.some.inj h
    exact ⟨habove, Nat.le_refl _⟩
  · cases h

/-- The interval of a positive number does not reach down to zero. -/
theorem Interval.not_holds_zero (h : 0 < units) (den : Nat) (hden : 0 < den) :
    (Interval.of units).holds 0 den = false := by
  have hgap := twoTo_spacing_le_self h
  have hlow : 0 < (Interval.of units).low := by
    unfold Interval.of
    dsimp only
    split <;> omega
  have hproduct := Nat.mul_pos hlow hden
  unfold Interval.holds
  split
  · rw [decide_eq_false (by omega), Bool.false_and]
  · rw [decide_eq_false (by omega), Bool.false_and]

/-- A number has a digit more before the places of a grid than before those of the next coarser
one. -/
theorem exists_finer (units : Nat) (exponent : Int) (places : Nat) :
    ∃ factor, 0 < factor ∧
      units * tenTo (-(exponent - 1)).toNat = factor * (units * tenTo (-exponent).toNat) ∧
      unitsPerOne * tenTo (exponent - 1).toNat * tenTo (places + 1) =
        factor * (unitsPerOne * tenTo exponent.toNat * tenTo places) := by
  have hten : ∀ n, tenTo (n + 1) = 10 * tenTo n := fun n => Nat.pow_succ'
  by_cases hpositive : 0 < exponent
  · have hwhole : exponent.toNat = (exponent - 1).toNat + 1 := by omega
    have hnone : (-(exponent - 1)).toNat = (-exponent).toNat := by omega
    refine ⟨1, Nat.one_pos, by rw [hnone, Nat.one_mul], ?_⟩
    rw [hwhole, hten, hten]
    ring
  · have hnone : (exponent - 1).toNat = exponent.toNat := by omega
    have hfraction : (-(exponent - 1)).toNat = (-exponent).toNat + 1 := by omega
    refine ⟨10, by decide, ?_, ?_⟩
    · rw [hfraction, hten]
      ring
    · rw [hnone, hten]
      ring

/-- A number has some digits before the places of a grid: it is below the power of ten behind
them, and not below the one before. -/
structure HasPlaces (units : Nat) (exponent : Int) (places : Nat) : Prop where
  lt : units * tenTo (-exponent).toNat < unitsPerOne * tenTo exponent.toNat * tenTo places
  le : unitsPerOne * tenTo exponent.toNat * tenTo places ≤ 10 * (units * tenTo (-exponent).toNat)

theorem HasPlaces.succ {places : Nat} (h : HasPlaces units exponent places) :
    HasPlaces units (exponent - 1) (places + 1) := by
  obtain ⟨factor, hfactor, hnum, hden⟩ := exists_finer units exponent places
  constructor
  · rw [hnum, hden]
    exact Nat.mul_lt_mul_of_pos_left h.lt hfactor
  · rw [hnum, hden, Nat.mul_left_comm 10]
    exact Nat.mul_le_mul_left factor h.le

/-- Wherever the search ends, it ends near the number. -/
theorem isNear_searchGrids (grids : Nat) {places : Nat} (hplaces : places + grids = 18)
    (h : HasPlaces units exponent places) :
    (searchGrids tie units grids exponent).IsNear units := by
  induction grids generalizing places exponent with
  | zero =>
    obtain rfl : places = 18 := hplaces
    refine ⟨Nat.le_of_lt (Nat.div_lt_of_lt_mul h.lt), fun _ => ?_, ?_⟩
    · have hten : tenTo 18 = tenTo 17 * 10 := tenTo_add 17 1
      have hden : 0 < unitsPerOne * tenTo exponent.toNat :=
        Nat.mul_pos unitsPerOne_pos (tenTo_pos _)
      have hmany := h.le
      rw [hten, ← Nat.mul_assoc] at hmany
      refine Nat.div_pos (Nat.le_trans (Nat.le_mul_of_pos_right _ (tenTo_pos 17)) ?_) hden
      omega
    · calc 4 * (units * tenTo (-exponent).toNat / (unitsPerOne * tenTo exponent.toNat) *
              (unitsPerOne * tenTo exponent.toNat))
          ≤ 4 * (units * tenTo (-exponent).toNat) :=
            Nat.mul_le_mul_left 4 (Nat.div_mul_le_self _ _)
        _ = 4 * units * tenTo (-exponent).toNat := by ring
        _ ≤ (4 * units + 2 * twoTo (spacing units)) * tenTo (-exponent).toNat :=
            Nat.mul_le_mul_right _ (Nat.le_add_right _ _)
  | succ grids ih =>
    rw [searchGrids]
    cases hgrid : onGrid? tie units exponent with
    | none => exact ih (by omega) h.succ
    | some coefficient =>
      obtain ⟨hholds, hbelow⟩ := onGrid?_eq_some hgrid
      have hfew : coefficient ≤ tenTo places :=
        Nat.le_trans hbelow (Nat.div_lt_of_lt_mul h.lt)
      refine ⟨Nat.le_trans hfew (tenTo_le_tenTo (by omega)), fun hunits => ?_, ?_⟩
      · refine Nat.pos_of_ne_zero ?_
        rintro rfl
        rw [Nat.mul_zero, Nat.zero_mul, Interval.not_holds_zero hunits _ (tenTo_pos _)] at hholds
        cases hholds
      · rw [← Nat.mul_assoc]
        exact Interval.le_of_holds hholds

/-! ## Where the search begins -/

theorem digitCount_ne_zero {n : Nat} (h : n ≠ 0) : digitCount n ≠ 0 := by
  intro hcount
  obtain ⟨-, hhigh⟩ := digitCount_spec h
  rw [hcount] at hhigh
  exact h (Nat.lt_one_iff.1 hhigh)

theorem tenTo_eq_ten_mul {n : Nat} (h : n ≠ 0) : tenTo n = 10 * tenTo (n - 1) := by
  obtain ⟨n, rfl⟩ := Nat.exists_eq_succ_of_ne_zero h
  exact Nat.pow_succ'

theorem hasPlaces_zero_iff :
    HasPlaces units exponent 0 ↔
      units * tenTo (-exponent).toNat < unitsPerOne * tenTo exponent.toNat ∧
        unitsPerOne * tenTo exponent.toNat ≤ 10 * (units * tenTo (-exponent).toNat) := by
  constructor
  · rintro ⟨hlt, hle⟩
    rw [tenTo_zero, Nat.mul_one] at hlt hle
    exact ⟨hlt, hle⟩
  · rintro ⟨hlt, hle⟩
    constructor <;> rwa [tenTo_zero, Nat.mul_one]

/-- The leading digit of a number below one is found from its inverse. -/
theorem hasPlaces_below_one (h : 0 < units) (hless : units < unitsPerOne) :
    HasPlaces units (-(digitCount ((unitsPerOne - 1) / units) : Int) + 1) 0 := by
  have hinverse : (unitsPerOne - 1) / units ≠ 0 :=
    (Nat.div_pos (Nat.le_sub_one_of_lt hless) h).ne'
  have hcount := digitCount_ne_zero hinverse
  obtain ⟨hlow, hhigh⟩ := digitCount_spec hinverse
  generalize digitCount ((unitsPerOne - 1) / units) = count at *
  have hplaces : (-(-(count : Int) + 1)).toNat = count - 1 := by omega
  have hnone : (-(count : Int) + 1).toNat = 0 := by omega
  rw [hasPlaces_zero_iff, hplaces, hnone, tenTo_zero, Nat.mul_one]
  constructor
  · calc units * tenTo (count - 1)
        ≤ units * ((unitsPerOne - 1) / units) := Nat.mul_le_mul_left units hlow
      _ ≤ unitsPerOne - 1 := Nat.mul_div_le _ _
      _ < unitsPerOne := Nat.sub_lt unitsPerOne_pos Nat.one_pos
  · rw [Nat.mul_left_comm, ← tenTo_eq_ten_mul hcount]
    have habove : unitsPerOne - 1 < units * tenTo count :=
      (Nat.div_lt_iff_lt_mul h).1 hhigh |>.trans_eq (Nat.mul_comm ..)
    omega

theorem hasPlaces_from_one (h : units / unitsPerOne ≠ 0) :
    HasPlaces units ((digitCount (units / unitsPerOne) : Int) - 1 + 1) 0 := by
  have hcount := digitCount_ne_zero h
  obtain ⟨hlow, hhigh⟩ := digitCount_spec h
  generalize digitCount (units / unitsPerOne) = count at *
  have hplaces : ((count : Int) - 1 + 1).toNat = count := by omega
  have hnone : (-((count : Int) - 1 + 1)).toNat = 0 := by omega
  rw [hasPlaces_zero_iff, hplaces, hnone, tenTo_zero, Nat.mul_one]
  constructor
  · exact Nat.lt_of_lt_of_le (Nat.lt_mul_div_succ units unitsPerOne_pos)
      (Nat.mul_le_mul_left unitsPerOne hhigh)
  · rw [tenTo_eq_ten_mul hcount, Nat.mul_left_comm]
    refine Nat.mul_le_mul_left 10 ?_
    calc unitsPerOne * tenTo (count - 1)
        ≤ unitsPerOne * (units / unitsPerOne) := Nat.mul_le_mul_left unitsPerOne hlow
      _ ≤ units := Nat.mul_div_le _ _

/-- A positive number has no digits before the place in front of its leading digit. -/
theorem hasPlaces_leadingExponent (h : 0 < units) :
    HasPlaces units (leadingExponent units + 1) 0 := by
  unfold leadingExponent
  dsimp only
  by_cases hwhole : units / unitsPerOne = 0
  · rw [if_pos hwhole]
    have hless : units < unitsPerOne := by
      simpa [Nat.div_eq_zero_iff, unitsPerOne_pos.ne'] using hwhole
    exact hasPlaces_below_one h hless
  · rw [if_neg hwhole]
    exact hasPlaces_from_one hwhole

/-- The decimal that is written for a number is near it. -/
theorem isNear_shortest (tie : Tie) (units : Nat) : (shortest tie units).IsNear units := by
  rcases Nat.eq_zero_or_pos units with rfl | hunits
  · have hzero : shortest tie 0 = ⟨0, 0⟩ := rfl
    rw [hzero]
    exact ⟨Nat.zero_le _, fun h => absurd h (Nat.lt_irrefl 0), by simp⟩
  · rw [shortest, if_neg hunits.ne']
    exact isNear_searchGrids 18 (Nat.zero_add 18) (hasPlaces_leadingExponent hunits)

theorem exponent_shortest (h : (shortest tie units).coefficient = 0) :
    (shortest tie units).exponent = 0 := by
  rcases Nat.eq_zero_or_pos units with rfl | hunits
  · rfl
  · exact absurd h ((isNear_shortest tie units).coefficient_pos hunits).ne'

end StepScript.Decimal
