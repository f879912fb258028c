import StepScript.Proofs.Json.Scalars
import StepScript.Proofs.Json.Scaling

/-!
# Real numbers in JSON texts

The text of a real number is always read as some real number, although it need not be the same one.
-/

namespace StepScript.Json

open Numeral

/-! ## Digits -/

theorem not_digit_nil : ∀ c rest, ([] : List Char) = c :: rest → c.isDigit = false := nofun

section

variable {whole places tail : List Char}

theorem someDigits_append (hdigits : ∀ c ∈ whole, c.isDigit = true) (hne : whole ≠ [])
    (htail : ∀ c rest, tail = c :: rest → c.isDigit = false) :
    someDigits (whole ++ tail) = .ok (whole, tail) := by
  have hempty : whole.isEmpty = false := by simp [hne]
  rw [someDigits, takeDigits_append hdigits htail, hempty]
  rfl

/-- Digits with a point among them are one coefficient. -/
theorem scanUnsigned_point (negative : Bool) (hwhole : ∀ c ∈ whole, c.isDigit = true)
    (hne : whole ≠ []) (hplain : (whole.head? == some '0' && 1 < whole.length) = false)
    (hplaces : ∀ c ∈ places, c.isDigit = true) (hsome : places ≠ [])
    (htail : ∀ c rest, tail = c :: rest → c.isDigit = false)
    (hsize : natOfDigits (whole ++ places) < wordLimit) :
    scanUnsigned negative (whole ++ '.' :: (places ++ tail)) =
      scanRealEnd negative (natOfDigits (whole ++ places)) (-(places.length : Int)) tail := by
  have hpoint : ∀ c rest, '.' :: (places ++ tail) = c :: rest → c.isDigit = false := by
    rintro c rest ⟨⟩
    rfl
  rw [natOfDigits, List.foldl_append] at hsize
  have hfirst : accumulate 0 whole = (natOfDigits whole, []) :=
    accumulate_of_lt (Nat.lt_of_le_of_lt (le_foldl_digits places _) hsize)
  have hboth : accumulate (natOfDigits whole) places = (natOfDigits (whole ++ places), []) := by
    rw [natOfDigits, natOfDigits, List.foldl_append]
    exact accumulate_of_lt hsize
  rw [scanUnsigned_eq]
  dsimp only
  rw [someDigits_append hwhole hne hpoint]
  show scanWhole negative whole ('.' :: (places ++ tail)) = _
  rw [scanWhole, hfirst, hplain]
  show scanFraction negative (natOfDigits whole) 0 (places ++ tail) = _
  rw [scanFraction_eq]
  dsimp only
  rw [someDigits_append hplaces hsome htail]
  show scanRealEnd negative (accumulate (natOfDigits whole) places).1
    (0 - (places.length - (accumulate (natOfDigits whole) places).2.length)) tail = _
  rw [hboth]
  congr 1
  simp

end

/-! ## Exponents -/

theorem scanExponent_signed (exponent : Int) :
    scanExponent ((if exponent < 0 then '-' else '+') :: digitsOfNat exponent.natAbs) =
      .ok (exponent, []) := by
  have htake : takeDigits (digitsOfNat exponent.natAbs ++ []) = (digitsOfNat exponent.natAbs, []) :=
    takeDigits_append isDigit_of_mem_digitsOfNat nofun
  have hempty : (digitsOfNat exponent.natAbs).isEmpty = false := by simp [digitsOfNat_ne_nil]
  rw [List.append_nil] at htake
  by_cases hneg : exponent < 0
  · rw [if_pos hneg]
    have hsign : takeSign ('-' :: digitsOfNat exponent.natAbs) =
        (true, digitsOfNat exponent.natAbs) := rfl
    simp only [scanExponent, hsign, htake, hempty, natOfDigits_digitsOfNat]
    have hvalue : -(exponent.natAbs : Int) = exponent := by omega
    exact congrArg (fun value => Except.ok (value, [])) hvalue
  · rw [if_neg hneg]
    have hsign : takeSign ('+' :: digitsOfNat exponent.natAbs) =
        (false, digitsOfNat exponent.natAbs) := rfl
    simp only [scanExponent, hsign, htake, hempty, natOfDigits_digitsOfNat]
    have hvalue : (exponent.natAbs : Int) = exponent := by omega
    exact congrArg (fun value => Except.ok (value, [])) hvalue

/-- A number without a point, up to its exponent. -/
theorem scanUnsigned_mark (negative : Bool) {whole : List Char}
    (hwhole : ∀ c ∈ whole, c.isDigit = true) (hne : whole ≠ [])
    (hplain : (whole.head? == some '0' && 1 < whole.length) = false)
    (hsize : natOfDigits whole < wordLimit) (tail : List Char) :
    scanUnsigned negative (whole ++ 'e' :: tail) =
      scanRealEnd negative (natOfDigits whole) 0 ('e' :: tail) := by
  have hmark : ∀ c rest, 'e' :: tail = c :: rest → c.isDigit = false := by
    rintro c rest ⟨⟩
    rfl
  have hcoefficient : accumulate 0 whole = (natOfDigits whole, []) := accumulate_of_lt hsize
  rw [scanUnsigned_eq]
  dsimp only
  rw [someDigits_append hwhole hne hmark]
  show scanWhole negative whole ('e' :: tail) = _
  rw [scanWhole, hcoefficient, hplain]
  rfl

theorem scanRealEnd_nil (negative : Bool) (coefficient : Nat) (scale : Int) :
    scanRealEnd negative coefficient scale [] =
      (realOfParts negative coefficient scale).map fun number => (number, []) := by
  rw [scanRealEnd]
  cases realOfParts negative coefficient scale <;> rfl

theorem scanRealEnd_exponent (negative : Bool) (coefficient : Nat) (scale exponent : Int) :
    scanRealEnd negative coefficient scale
        ('e' :: (if exponent < 0 then '-' else '+') :: digitsOfNat exponent.natAbs) =
      (realOfParts negative coefficient (scale + exponent)).map fun number => (number, []) := by
  rw [scanRealEnd, if_pos (.inl rfl), scanExponent_signed]
  show (realOfParts negative coefficient (scale + exponent) >>= fun number => _) = _
  cases realOfParts negative coefficient (scale + exponent) <;> rfl

/-! ## Decimals -/

/-- A text is read as the real number of some parts. -/
def ReadsParts (negative : Bool) (text : List Char) (coefficient : Nat) (exponent : Int) : Prop :=
  scanUnsigned negative text =
    (realOfParts negative coefficient exponent).map fun number => (number, [])

section

variable {negative : Bool} {n : Nat} {exponent : Int}

theorem head_digitsOfNat (n : Nat) :
    ((digitsOfNat n).head? == some '0' && 1 < (digitsOfNat n).length) = false := by
  obtain ⟨c, rest, hdigits⟩ := List.exists_cons_of_ne_nil (digitsOfNat_ne_nil n)
  by_cases hc : c = '0'
  · obtain rfl := eq_zero_of_digitsOfNat (hc ▸ hdigits)
    rfl
  · simp [hdigits, hc]

/-- A whole number is written with a point and a zero behind it. -/
theorem readsParts_plain_whole (h : 0 ≤ exponent) (hzero : n = 0 → exponent = 0)
    (hsize : n * tenTo (exponent.toNat + 1) < wordLimit) :
    ReadsParts negative (NumberFormat.plain true (digitsOfNat n) exponent)
      (n * tenTo (exponent.toNat + 1)) (-1) := by
  have hvalue : natOfDigits (digitsOfNat n ++ List.replicate exponent.toNat '0' ++ ['0']) =
      n * tenTo (exponent.toNat + 1) := by
    rw [List.append_assoc, ← List.replicate_succ', natOfDigits_append_zeros,
      natOfDigits_digitsOfNat]
  have hdigits : ∀ c ∈ digitsOfNat n ++ List.replicate exponent.toNat '0', c.isDigit = true := by
    intro c hc
    rcases List.mem_append.1 hc with hc | hc
    · exact isDigit_of_mem_digitsOfNat c hc
    · exact isDigit_of_mem_zeros _ c hc
  have hplain : ((digitsOfNat n ++ List.replicate exponent.toNat '0').head? == some '0' &&
      1 < (digitsOfNat n ++ List.replicate exponent.toNat '0').length) = false := by
    obtain ⟨c, rest, hchars⟩ := List.exists_cons_of_ne_nil (digitsOfNat_ne_nil n)
    by_cases hc : c = '0'
    · obtain rfl := eq_zero_of_digitsOfNat (hc ▸ hchars)
      rw [hzero rfl]
      rfl
    · simp [hchars, hc]
  have hone : ∀ c ∈ ['0'], c.isDigit = true := List.forall_mem_singleton.2 rfl
  have hscan := scanUnsigned_point negative hdigits (by simp [digitsOfNat_ne_nil]) hplain hone
    (List.cons_ne_nil '0' []) not_digit_nil (by rwa [hvalue])
  unfold ReadsParts NumberFormat.plain
  rw [if_pos h, if_pos rfl, ← hvalue]
  exact hscan.trans (scanRealEnd_nil ..)

/-- A number with places behind the point is read from its digits. -/
theorem readsParts_plain_fraction (keepsPoint : Bool) (h : exponent < 0) (hsize : n < wordLimit) :
    ReadsParts negative (NumberFormat.plain keepsPoint (digitsOfNat n) exponent) n exponent := by
  obtain ⟨whole, places, htext, hwhole, hplaces, hdigits, hvalue, hlength, hshape⟩ :=
    NumberFormat.exists_plain_point keepsPoint (digitsOfNat_ne_nil n) isDigit_of_mem_digitsOfNat h
  rw [natOfDigits_digitsOfNat] at hvalue
  have hplain : (whole.head? == some '0' && 1 < whole.length) = false := by
    rcases hshape with rfl | hprefix
    · rfl
    · -- several of the first digits do not begin with a zero
      have hhead : whole.head? = (digitsOfNat n).head? := by
        obtain ⟨c, tail, rfl⟩ := List.exists_cons_of_ne_nil hwhole
        obtain ⟨rest, hrest⟩ := hprefix
        rw [← hrest]
        rfl
      have hshorter := hprefix.length_le
      have hfirst := head_digitsOfNat n
      rw [← hhead] at hfirst
      simp only [Bool.and_eq_false_iff, decide_eq_false_iff_not] at hfirst ⊢
      exact hfirst.imp_right (by omega)
  have hscan := scanUnsigned_point negative (fun c hc => hdigits c (List.mem_append_left _ hc)) hwhole
    hplain (fun c hc => hdigits c (List.mem_append_right _ hc)) hplaces not_digit_nil
    (by rwa [hvalue])
  rw [List.append_nil, hvalue, hlength, Int.neg_neg] at hscan
  rw [ReadsParts, htext]
  exact hscan.trans (scanRealEnd_nil ..)

/-- In scientific form the point stands behind the first digit, if there are others. -/
theorem readsParts_scientific (hsize : n < wordLimit) :
    ReadsParts negative
      (NumberFormat.scientific (digitsOfNat n) (exponent + (digitsOfNat n).length - 1)) n
      exponent := by
  have hvalue := natOfDigits_digitsOfNat n
  have hdigits : ∀ c ∈ digitsOfNat n, c.isDigit = true := isDigit_of_mem_digitsOfNat
  have hne := digitsOfNat_ne_nil n
  unfold ReadsParts NumberFormat.scientific
  dsimp only
  generalize digitsOfNat n = digits at *
  split
  · next first second rest =>
    obtain ⟨hfirst, hothers⟩ := List.forall_mem_cons.1 hdigits
    have hmark : ∀ tail, ∀ c rest, 'e' :: tail = c :: rest → c.isDigit = false := by
      rintro tail c rest ⟨⟩
      rfl
    have hboth : natOfDigits ([first] ++ second :: rest) = n := hvalue
    have hscan := scanUnsigned_point negative (List.forall_mem_singleton.2 hfirst)
      (List.cons_ne_nil first []) (Bool.and_false _) hothers (List.cons_ne_nil second rest)
      (hmark ((if exponent + (first :: second :: rest).length - 1 < 0 then '-' else '+') ::
        digitsOfNat (exponent + (first :: second :: rest).length - 1).natAbs)) (by rwa [hboth])
    rw [hboth] at hscan
    refine hscan.trans ?_
    rw [scanRealEnd_exponent]
    congr 2
    simp only [List.length_cons]
    omega
  · next hshort =>
    obtain ⟨digit, rfl⟩ : ∃ digit, digits = [digit] := by
      match digits, hne, hshort with
      | [digit], _, _ => exact ⟨digit, rfl⟩
      | first :: second :: rest, _, hshort => exact absurd rfl (hshort first second rest)
    have hscan := scanUnsigned_mark negative hdigits hne (Bool.and_false _) (by rwa [hvalue])
      ((if exponent + [digit].length - 1 < 0 then '-' else '+') ::
        digitsOfNat (exponent + [digit].length - 1).natAbs)
    rw [hvalue] at hscan
    rw [hscan, scanRealEnd_exponent]
    congr 2
    simp only [List.length_singleton]
    omega

/-- The text of a decimal is read as that decimal, or as one with a negative exponent. -/
theorem readsParts_renderDecimal (negative : Bool) {d : Decimal}
    (hzero : d.coefficient = 0 → d.exponent = 0) (hsize : d.coefficient ≤ tenTo 18) :
    ReadsParts negative (realFormat.renderDecimal d) d.coefficient d.exponent ∨
      ∃ coefficient ≤ tenTo 308, ∃ exponent < 0,
        ReadsParts negative (realFormat.renderDecimal d) coefficient exponent := by
  obtain ⟨n, exponent⟩ := d
  dsimp only at hzero hsize
  have hword : n < wordLimit := Nat.lt_of_le_of_lt hsize (by decide +kernel)
  unfold NumberFormat.renderDecimal
  dsimp only
  split
  · next hplain =>
    by_cases hneg : exponent < 0
    · exact .inl (readsParts_plain_fraction _ hneg hword)
    · have hlength : n < tenTo (digitsOfNat n).length :=
        (Nat.length_toDigits_le_iff (by decide) Nat.length_toDigits_pos).1 (Nat.le_refl _)
      have hleading : exponent + (digitsOfNat n).length - 1 < 16 := by
        simp only [realFormat, Bool.and_eq_true, decide_eq_true_eq] at hplain
        exact hplain.2
      -- sixteen places before the point leave room for the zero behind it
      have hroom : n * tenTo (exponent.toNat + 1) ≤ tenTo 17 :=
        calc n * tenTo (exponent.toNat + 1)
            ≤ tenTo (digitsOfNat n).length * tenTo (exponent.toNat + 1) :=
              Nat.mul_le_mul_right _ (Nat.le_of_lt hlength)
          _ = tenTo ((digitsOfNat n).length + (exponent.toNat + 1)) := (tenTo_add ..).symm
          _ ≤ tenTo 17 := tenTo_le_tenTo (by omega)
      refine .inr ⟨_, Nat.le_trans hroom (tenTo_le_tenTo (by decide)), -1, by decide, ?_⟩
      exact readsParts_plain_whole (by omega) hzero (Nat.lt_of_le_of_lt hroom (by decide +kernel))
  · exact .inl (readsParts_scientific hword)

end

/-! ## Numbers -/

/-- The digits of a real number are read as a real number, whatever its sign. -/
theorem scanUnsigned_shortest (negative : Bool) (x : Binary64.Finite) :
    ∃ y, scanUnsigned negative
      (realFormat.renderDecimal (Decimal.shortest realFormat.tie x.units)) = .ok (.real y, []) := by
  have hnear := Decimal.isNear_shortest realFormat.tie x.units
  have hparts : ∃ coefficient exponent y,
      ReadsParts negative (realFormat.renderDecimal (Decimal.shortest realFormat.tie x.units))
        coefficient exponent ∧ realOfParts negative coefficient exponent = .ok (.real y) := by
    rcases readsParts_renderDecimal negative Decimal.exponent_shortest hnear.coefficient_le with
      hreads | ⟨coefficient, hcoefficient, exponent, hexponent, hreads⟩
    · by_cases hneg : (Decimal.shortest realFormat.tie x.units).exponent < 0
      · have hsize := Nat.le_trans hnear.coefficient_le (tenTo_le_tenTo (show 18 ≤ 308 by decide))
        obtain ⟨y, hy⟩ := realOfParts_of_negative negative hsize hneg
        exact ⟨_, _, y, hreads, hy⟩
      · obtain ⟨y, hy⟩ := realOfParts_shortest negative x.fits (Int.not_lt.1 hneg)
        exact ⟨_, _, y, hreads, hy⟩
    · obtain ⟨y, hy⟩ := realOfParts_of_negative negative hcoefficient hexponent
      exact ⟨coefficient, exponent, y, hreads, hy⟩
  obtain ⟨coefficient, exponent, y, hreads, hy⟩ := hparts
  exact ⟨y, by rw [hreads, hy]; rfl⟩

/-- Every real number is read from its own text as some real number. -/
theorem Number.exists_isReadAs (x : Binary64.Finite) :
    ∃ y, (Number.real x).IsReadAs (.real y) := by
  obtain ⟨y, hy⟩ := scanUnsigned_shortest x.negative x
  obtain ⟨c, tail, htext, hc⟩ := exists_digit_of_scanUnsigned hy
  refine ⟨y, ?_⟩
  unfold Number.IsReadAs Number.chars NumberFormat.render
  dsimp only
  cases hnegative : x.negative with
  | true =>
    rw [hnegative] at hy
    exact ⟨'-', _, rfl, .inl rfl, hy⟩
  | false =>
    have hminus : c ≠ '-' := by
      rintro rfl
      exact absurd hc (by decide)
    refine ⟨c, tail, htext, .inr hc, ?_⟩
    rw [if_neg hminus, decide_eq_false hminus, ← htext, ← hnegative]
    exact hy

end StepScript.Json
