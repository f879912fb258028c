import StepScript.Proofs.Number.Shortest

/-!
# Decimals that are read back

A number is written as a decimal of its interval, and each decimal of the interval is read as that
number. So is every other decimal of the same value.
-/

namespace StepScript

/-! ## Rounding to a number -/

namespace Binary64

open Decimal

variable {num den units n : Nat}

/-- A quotient is rounded to the natural number that it is at most a half away from; an odd one does
not include the ends. -/
theorem divideToEven_eq (hden : 0 < den) (hlow : 2 * (n * den) ≤ 2 * num + den)
    (hhigh : 2 * num ≤ 2 * (n * den) + den)
    (hends : n % 2 = 0 ∨ (2 * (n * den) < 2 * num + den ∧ 2 * num < 2 * (n * den) + den)) :
    divideToEven num den = n := by
  have hdivision : num / den * den + num % den = num := Nat.div_add_mod' num den
  have hrest : num % den < den := Nat.mod_lt num hden
  unfold divideToEven
  dsimp only
  generalize num / den = quotient at *
  generalize num % den = rest at *
  rcases Nat.lt_trichotomy n quotient with hless | rfl | hmore
  · have hscaled : (n + 1) * den ≤ quotient * den := Nat.mul_le_mul_right den hless
    rw [Nat.succ_mul] at hscaled
    omega
  · split
    · rfl
    · split <;> omega
  · have hscaled : (quotient + 1) * den ≤ n * den := Nat.mul_le_mul_right den hmore
    rw [Nat.succ_mul] at hscaled
    have hnext : n = quotient + 1 := by
      by_contra hother
      have hfar : (quotient + 2) * den ≤ n * den := Nat.mul_le_mul_right den (by omega)
      rw [Nat.add_mul] at hfar
      omega
    have hsucc : n * den = quotient * den + den := hnext ▸ Nat.succ_mul ..
    rw [if_neg (by omega)]
    split <;> omega

/-- A number has at most 53 bits before its neighbours differ. -/
theorem lt_mul_twoTo_spacing (units : Nat) : units < twoTo 53 * twoTo (spacing units) := by
  refine Nat.lt_of_lt_of_le (lt_twoTo_log2 units) ?_
  rw [← twoTo_add]
  refine twoTo_le_twoTo ?_
  unfold spacing
  omega

/-- The same for a quotient. -/
theorem lt_mul_twoTo_spacing_div (num : Nat) (hden : 0 < den) :
    num < twoTo 53 * twoTo (spacing (num / den)) * den :=
  (Nat.div_lt_iff_lt_mul hden).1 (lt_mul_twoTo_spacing (num / den))

/-- The distance, in quarter units, from a number to the lower end of its interval. -/
def lowerGap (units : Nat) : Nat :=
  let gap := twoTo (spacing units)
  if units = twoTo 52 * gap ∧ 1 < gap then gap else 2 * gap

theorem lowerGap_mul_le (units den : Nat) :
    lowerGap units * den ≤ 2 * (twoTo (spacing units) * den) := by
  rw [← Nat.mul_assoc]
  refine Nat.mul_le_mul_right den ?_
  unfold lowerGap
  dsimp only
  split <;> omega

theorem low_mul (units den : Nat) :
    (Interval.of units).low * den = 4 * (units * den) - lowerGap units * den := by
  rw [← Nat.mul_assoc, ← Nat.sub_mul]
  rfl

theorem high_mul (units den : Nat) :
    (Interval.of units).high * den = 4 * (units * den) + 2 * (twoTo (spacing units) * den) := by
  rw [← Nat.mul_assoc, ← Nat.mul_assoc, ← Nat.add_mul]
  rfl

/-- What it means to lie in the interval of a number, without differences. -/
theorem bounds_of_holds (h : (Interval.of units).holds (4 * num) den = true) :
    4 * (units * den) ≤ 4 * num + lowerGap units * den ∧
      4 * num ≤ 4 * (units * den) + 2 * (twoTo (spacing units) * den) ∧
      (units / twoTo (spacing units) % 2 = 0 ∨
        (4 * (units * den) < 4 * num + lowerGap units * den ∧
          4 * num < 4 * (units * den) + 2 * (twoTo (spacing units) * den))) := by
  have hclosed : (Interval.of units).closed = (units / twoTo (spacing units) % 2 == 0) := rfl
  rw [Interval.holds, low_mul, high_mul, hclosed] at h
  split at h
  · next heven =>
    simp only [Bool.and_eq_true, decide_eq_true_eq] at h
    exact ⟨by omega, h.2, .inl (beq_iff_eq.1 heven)⟩
  · simp only [Bool.and_eq_true, decide_eq_true_eq] at h
    exact ⟨by omega, by omega, .inr ⟨by omega, h.2⟩⟩

theorem twoTo_spacing_of_pos {units : Nat} (h : 0 < spacing units) :
    twoTo 52 * twoTo (spacing units) ≤ units := by
  rcases twoTo_spacing_le units with hone | hgap
  · have hmore : twoTo 0 < twoTo (spacing units) := twoTo_lt_twoTo h
    exact absurd hone (Nat.ne_of_gt hmore)
  · rwa [Nat.mul_comm]

theorem twoTo_succ (n : Nat) : twoTo (n + 1) = 2 * twoTo n := Nat.pow_succ'

section

variable (hden : 0 < den)

include hden

/-- What lies in the interval of a number has no greater distance to its neighbours. -/
theorem spacing_div_le (hfits : Fits units)
    (hhigh : 4 * num ≤ 4 * (units * den) + 2 * (twoTo (spacing units) * den)) :
    spacing (num / den) ≤ spacing units := by
  by_contra hmore
  have hmore := Nat.lt_of_not_le hmore
  obtain ⟨m, hm⟩ := Nat.dvd_of_mod_eq_zero hfits.1
  have hunits := lt_mul_twoTo_spacing units
  have hgap := twoTo_pos (spacing units)
  have hquotient : twoTo 53 * twoTo (spacing units) ≤ num / den := by
    refine Nat.le_trans ?_ (twoTo_spacing_of_pos (Nat.zero_lt_of_lt hmore))
    rw [twoTo_succ 52, Nat.mul_assoc, Nat.mul_left_comm, ← twoTo_succ]
    exact Nat.mul_le_mul_left _ (twoTo_le_twoTo hmore)
  generalize twoTo (spacing units) = gap at *
  -- the number below the next power of two is a whole distance below it
  have hm53 : m + 1 ≤ twoTo 53 := by
    rw [hm, Nat.mul_comm (twoTo 53)] at hunits
    exact Nat.lt_of_mul_lt_mul_left hunits
  have hbelow : units * den + gap * den ≤ twoTo 53 * gap * den := by
    rw [← Nat.add_mul, hm]
    refine Nat.mul_le_mul_right den ?_
    calc gap * m + gap = (m + 1) * gap := by ring
      _ ≤ twoTo 53 * gap := Nat.mul_le_mul_right gap hm53
  have habove : twoTo 53 * gap * den ≤ num :=
    Nat.le_trans (Nat.mul_le_mul_right den hquotient) (Nat.div_mul_le_self num den)
  have := Nat.mul_pos hgap hden
  omega

/-- Only a power of two has numbers in its interval whose neighbours are nearer, half as far away. -/
theorem power_of_spacing_div_lt (hfits : Fits units)
    (hlow : 4 * (units * den) ≤ 4 * num + lowerGap units * den)
    (hless : spacing (num / den) < spacing units) :
    units = twoTo 52 * twoTo (spacing units) ∧ lowerGap units = twoTo (spacing units) ∧
      twoTo (spacing units) = 2 * twoTo (spacing (num / den)) := by
  obtain ⟨m, hm⟩ := Nat.dvd_of_mod_eq_zero hfits.1
  have hunits := twoTo_spacing_of_pos (Nat.zero_lt_of_lt hless)
  have hgap := twoTo_pos (spacing units)
  have hlower := lowerGap_mul_le units den
  have hscaled : 0 < twoTo (spacing units) * den := Nat.mul_pos hgap hden
  have hbelow : ∀ k, spacing (num / den) + k ≤ spacing units →
      twoTo k * num < 2 * (twoTo 52 * (twoTo (spacing units) * den)) := by
    intro k hk
    calc twoTo k * num
        < twoTo k * (twoTo 53 * twoTo (spacing (num / den)) * den) :=
          Nat.mul_lt_mul_of_pos_left (lt_mul_twoTo_spacing_div num hden) (twoTo_pos k)
      _ = twoTo 53 * (twoTo (spacing (num / den) + k) * den) := by rw [twoTo_add]; ring
      _ ≤ twoTo 53 * (twoTo (spacing units) * den) :=
          Nat.mul_le_mul_left _ (Nat.mul_le_mul_right den (twoTo_le_twoTo hk))
      _ = 2 * (twoTo 52 * (twoTo (spacing units) * den)) := by rw [twoTo_succ 52, Nat.mul_assoc]
  have hpower : units = twoTo 52 * twoTo (spacing units) := by
    refine Nat.le_antisymm (Nat.le_of_not_lt fun hmore => ?_) hunits
    have hm52 : twoTo 52 < m := by
      rw [Nat.mul_comm] at hmore
      exact Nat.lt_of_mul_lt_mul_left (hmore.trans_eq hm)
    have hnext : (twoTo 52 + 1) * (twoTo (spacing units) * den) ≤ units * den := by
      rw [← Nat.mul_assoc, Nat.mul_comm (twoTo 52 + 1)]
      exact Nat.mul_le_mul_right den ((Nat.mul_le_mul_left _ hm52).trans_eq hm.symm)
    have hnear : 2 * num < _ := hbelow 1 hless
    rw [Nat.succ_mul] at hnext
    omega
  have hlowerGap : lowerGap units = twoTo (spacing units) :=
    if_pos ⟨hpower, twoTo_lt_twoTo (Nat.zero_lt_of_lt hless)⟩
  have hspacing : spacing units = spacing (num / den) + 1 := by
    by_contra hother
    have hnearer : 4 * num < _ := hbelow 2 (by omega)
    have hvalue : units * den = twoTo 52 * (twoTo (spacing units) * den) := by
      rw [← Nat.mul_assoc, ← hpower]
    have hlarge : 1 < twoTo 52 := twoTo_lt_twoTo (Nat.zero_lt_succ 51)
    have hmany := Nat.mul_le_mul_right (twoTo (spacing units) * den) hlarge
    rw [hlowerGap, hvalue] at hlow
    omega
  exact ⟨hpower, hlowerGap, by rw [hspacing, twoTo_succ]⟩

end

/-- What is near enough to a number lies in its interval. -/
theorem holds_of_bounds (hunits : 0 < units)
    (hlow : 4 * (units * den) < 4 * num + lowerGap units * den)
    (hhigh : 4 * num < 4 * (units * den) + 2 * (twoTo (spacing units) * den)) :
    (Interval.of units).holds (4 * num) den = true := by
  have hgap := Nat.mul_le_mul_right den (twoTo_spacing_le_self hunits)
  have hlower := lowerGap_mul_le units den
  rw [Interval.holds, low_mul, high_mul]
  split
  · simp only [Bool.and_eq_true, decide_eq_true_eq]
    omega
  · simp only [Bool.and_eq_true, decide_eq_true_eq]
    omega

/-- What lies in the interval of a number is rounded to it. -/
theorem roundQuotient_of_holds (hfits : Fits units) (hden : 0 < den)
    (h : (Interval.of units).holds (4 * num) den = true) : roundQuotient num den = units := by
  obtain ⟨hlow, hhigh, hends⟩ := bounds_of_holds h
  rcases Nat.lt_or_eq_of_le (spacing_div_le hden hfits hhigh) with hless | hsame
  · -- on the finer grid below it, a power of two is `2 ^ 53` steps from zero, an even number
    obtain ⟨hpower, hlowerGap, hgap⟩ := power_of_spacing_div_lt hden hfits hlow hless
    have hscale := twoTo_pos (spacing (num / den))
    have hbelow := lt_mul_twoTo_spacing_div num hden
    rw [hlowerGap, hgap, Nat.mul_assoc] at hlow
    rw [hgap] at hpower
    rw [roundQuotient]
    generalize twoTo (spacing (num / den)) = scale at *
    have hvalue : units * den = twoTo 53 * (scale * den) := by
      rw [hpower, twoTo_succ 52]
      ring
    have heven : twoTo 53 % 2 = 0 := rfl
    have hround : divideToEven num (scale * den) = twoTo 53 := by
      rw [Nat.mul_assoc] at hbelow
      refine divideToEven_eq (Nat.mul_pos hscale hden) ?_ ?_ (.inl heven)
      · rw [← hvalue]
        omega
      · omega
    rw [Nat.mul_comm den, hround, hpower, twoTo_succ 52, Nat.mul_assoc, Nat.mul_left_comm]
  · have hgap := twoTo_pos (spacing units)
    have hlower := lowerGap_mul_le units den
    have hquotient : units / twoTo (spacing units) * twoTo (spacing units) = units :=
      Nat.div_mul_cancel (Nat.dvd_of_mod_eq_zero hfits.1)
    have hround : divideToEven num (twoTo (spacing units) * den) =
        units / twoTo (spacing units) := by
      have hvalue : units / twoTo (spacing units) * (twoTo (spacing units) * den) = units * den := by
        rw [← Nat.mul_assoc, hquotient]
      refine divideToEven_eq (Nat.mul_pos hgap hden) ?_ ?_ (hends.imp_right ?_)
      all_goals
        rw [hvalue]
        omega
    rw [roundQuotient, hsame, Nat.mul_comm den, hround, hquotient]

end Binary64

namespace Decimal

open Binary64

variable {tie : Tie} {units : Nat} {exponent : Int} {d d' : Decimal}

def Lies (units : Nat) (d : Decimal) : Prop :=
  (Interval.of units).holds (4 * d.coefficient * (unitsPerOne * tenTo d.exponent.toNat))
    (tenTo (-d.exponent).toNat) = true

/-! ## Reading -/

/-- What lies in the interval of a number is read as it. -/
theorem toBinary64_of_lies (negative : Bool) (hfits : Fits units) (hunits : 0 < units)
    (h : d.Lies units) : d.toBinary64 negative = .finite ⟨negative, units, hfits⟩ := by
  have hden := tenTo_pos (-d.exponent).toNat
  have hzero : d.coefficient ≠ 0 := by
    intro hzero
    rw [Lies, hzero, Nat.mul_zero, Nat.zero_mul, Interval.not_holds_zero hunits _ hden] at h
    cases h
  have hvalue : 4 * d.coefficient * (unitsPerOne * tenTo d.exponent.toNat) =
      4 * (d.coefficient * tenTo d.exponent.toNat * unitsPerOne) := by ring
  rw [Lies, hvalue] at h
  obtain ⟨hlow, hhigh, -⟩ := bounds_of_holds h
  have hlower := lowerGap_mul_le units (tenTo (-d.exponent).toNat)
  have hgap : twoTo (spacing units) * tenTo (-d.exponent).toNat ≤
      units * tenTo (-d.exponent).toNat :=
    Nat.mul_le_mul_right _ (twoTo_spacing_le_self hunits)
  have hone := Nat.le_mul_of_pos_left (tenTo (-d.exponent).toNat) hunits
  have hrange := Nat.mul_lt_mul_of_pos_right hfits.2 hden
  rw [toBinary64_eq_ofQuotient hzero negative, ofQuotient, roundQuotient_of_holds hfits hden h,
    ofUnits_of_fits negative hfits]
  · omega
  · rw [Nat.mul_assoc 2]
    omega

/-! ## Writing -/

/-- A grid with no number in the interval is hardly finer than the interval. -/
theorem gap_le_of_onGrid?_eq_none (hunits : 0 < units)
    (h : onGrid? tie units exponent = none) :
    lowerGap units * tenTo (-exponent).toNat +
        2 * (twoTo (spacing units) * tenTo (-exponent).toNat) ≤
      4 * (unitsPerOne * tenTo exponent.toNat) := by
  have hden : 0 < unitsPerOne * tenTo exponent.toNat := Nat.mul_pos unitsPerOne_pos (tenTo_pos _)
  have hgap := Nat.mul_pos (twoTo_pos (spacing units)) (tenTo_pos (-exponent).toNat)
  unfold onGrid? at h
  dsimp only at h
  generalize unitsPerOne * tenTo exponent.toNat = den at *
  generalize tenTo (-exponent).toNat = scale at *
  have hdivision : units * scale / den * den + units * scale % den = units * scale :=
    Nat.div_add_mod' _ _
  have hrest := Nat.mod_lt (units * scale) hden
  generalize units * scale / den = below at *
  have hnext : (below + 1) * den = below * den + den := Nat.succ_mul ..
  split at h
  · cases h
  · cases h
  · cases h
  · next hbelow habove =>
    -- both neighbours on the grid are too far away, one on each side
    rw [Nat.mul_assoc] at hbelow habove
    have hfar : ¬ 4 * (units * scale) < 4 * (below * den) + lowerGap units * scale := by
      intro hlow
      rw [holds_of_bounds hunits hlow (by omega)] at hbelow
      cases hbelow
    have hfar' : ¬ 4 * ((below + 1) * den) <
        4 * (units * scale) + 2 * (twoTo (spacing units) * scale) := by
      intro hhigh
      rw [holds_of_bounds hunits (by omega) hhigh] at habove
      cases habove
    omega

/-- With seventeen digits there is always a number of the grid in the interval. -/
theorem onGrid?_ne_none (hunits : 0 < units) (h : HasPlaces units exponent 17) :
    onGrid? tie units exponent ≠ none := by
  intro hnone
  have hfar := gap_le_of_onGrid?_eq_none hunits hnone
  have hgap := Nat.mul_pos (twoTo_pos (spacing units)) (tenTo_pos (-exponent).toNat)
  have hfine : 10000000000000000 * (unitsPerOne * tenTo exponent.toNat) ≤
      units * tenTo (-exponent).toNat := by
    have hten : tenTo 17 = 10 * 10000000000000000 := rfl
    have hle := h.le
    rw [hten] at hle
    omega
  by_cases hpower : units = twoTo 52 * twoTo (spacing units) ∧ 1 < twoTo (spacing units)
  · have hlower : lowerGap units = twoTo (spacing units) := if_pos hpower
    have hvalue : units * tenTo (-exponent).toNat =
        4503599627370496 * (twoTo (spacing units) * tenTo (-exponent).toNat) := by
      rw [← Nat.mul_assoc]
      exact congrArg (· * _) hpower.1
    omega
  · have hlower : lowerGap units = 2 * twoTo (spacing units) := if_neg hpower
    have hvalue : units * tenTo (-exponent).toNat <
        9007199254740992 * (twoTo (spacing units) * tenTo (-exponent).toNat) := by
      rw [← Nat.mul_assoc]
      exact Nat.mul_lt_mul_of_pos_right (lt_mul_twoTo_spacing units) (tenTo_pos _)
    rw [hlower, Nat.mul_assoc] at hfar
    omega

/-- The search ends at a decimal that lies in the interval. -/
theorem lies_searchGrids (hunits : 0 < units) (grids : Nat) {places : Nat}
    (hplaces : places + grids = 17) (h : HasPlaces units exponent places) :
    (searchGrids tie units (grids + 1) exponent).Lies units := by
  induction grids generalizing places exponent with
  | zero =>
    obtain rfl : places = 17 := hplaces
    obtain ⟨coefficient, hgrid⟩ := Option.ne_none_iff_exists'.1 (onGrid?_ne_none hunits h)
    rw [searchGrids, hgrid]
    exact (onGrid?_eq_some hgrid).1
  | succ grids ih =>
    rw [searchGrids]
    cases hgrid : onGrid? tie units exponent with
    | none => exact ih (by omega) h.succ
    | some coefficient => exact (onGrid?_eq_some hgrid).1

/-- The decimal that is written for a number lies in its interval. -/
theorem lies_shortest (tie : Tie) (hunits : 0 < units) : (shortest tie units).Lies units := by
  rw [shortest, if_neg hunits.ne']
  exact lies_searchGrids hunits 17 (Nat.zero_add 17) (hasPlaces_leadingExponent hunits)

/-! ## Equal decimals -/

def SameValue (d d' : Decimal) : Prop :=
  d.coefficient * tenTo d.exponent.toNat * tenTo (-d'.exponent).toNat =
    d'.coefficient * tenTo d'.exponent.toNat * tenTo (-d.exponent).toNat

theorem SameValue.refl (d : Decimal) : SameValue d d := rfl

/-- Equal quotients lie in the same intervals. -/
theorem Interval.holds_congr {interval : Interval} {num den num' den' : Nat} (hden : 0 < den)
    (hden' : 0 < den') (h : num * den' = num' * den) :
    interval.holds num den = interval.holds num' den' := by
  have hlow : ∀ low, low * den ≤ num ↔ low * den' ≤ num' := fun low =>
    calc low * den ≤ num ↔ low * den * den' ≤ num * den' := (Nat.mul_le_mul_right_iff hden').symm
      _ ↔ low * den' * den ≤ num' * den := by rw [h, Nat.mul_right_comm]
      _ ↔ low * den' ≤ num' := Nat.mul_le_mul_right_iff hden
  have hhigh : ∀ high, num ≤ high * den ↔ num' ≤ high * den' := fun high =>
    calc num ≤ high * den ↔ num * den' ≤ high * den * den' := (Nat.mul_le_mul_right_iff hden').symm
      _ ↔ num' * den ≤ high * den' * den := by rw [h, Nat.mul_right_comm high]
      _ ↔ num' ≤ high * den' := Nat.mul_le_mul_right_iff hden
  simp only [holds, ← Nat.not_le, hlow, hhigh]

theorem SameValue.lies (h : SameValue d d') (hlies : d'.Lies units) : d.Lies units := by
  rw [Lies, Interval.holds_congr (tenTo_pos _) (tenTo_pos (-d'.exponent).toNat)]
  · exact hlies
  · calc 4 * d.coefficient * (unitsPerOne * tenTo d.exponent.toNat) * tenTo (-d'.exponent).toNat
        = 4 * unitsPerOne *
          (d.coefficient * tenTo d.exponent.toNat * tenTo (-d'.exponent).toNat) := by ring
      _ = 4 * unitsPerOne *
          (d'.coefficient * tenTo d'.exponent.toNat * tenTo (-d.exponent).toNat) := by rw [h]
      _ = 4 * d'.coefficient * (unitsPerOne * tenTo d'.exponent.toNat) *
          tenTo (-d.exponent).toNat := by ring

/-- A number is read back from each decimal of the value that is written for it. -/
theorem toBinary64_shortest (tie : Tie) (x : Binary64.Finite)
    (h : SameValue d (shortest tie x.units)) : d.toBinary64 x.negative = .finite x := by
  rcases Nat.eq_zero_or_pos x.units with hzero | hunits
  · have hnothing : shortest tie x.units = ⟨0, 0⟩ := if_pos hzero
    rw [hnothing, SameValue, Nat.zero_mul, Nat.zero_mul] at h
    have hcoefficient := (Nat.mul_eq_zero.1 h).resolve_right (tenTo_pos _).ne'
    refine toBinary64_exact x.negative x.fits ?_
    rw [hcoefficient, hzero, Nat.zero_mul, Nat.zero_mul]
  · exact toBinary64_of_lies x.negative x.fits hunits (h.lies (lies_shortest tie hunits))

end Decimal

end StepScript
