import StepScript.Proofs.Expr.Scanning
import StepScript.Proofs.Json.Bounds
import StepScript.Proofs.Json.Reals

/-!
# Numbers in JSON texts

The scanner of numbers takes the numbers of the grammar and no others, as long as it can represent
them. Below `10 ^ 308` it can.
-/

namespace StepScript.Json

open Numeral (takeDigits)

/-! ## Texts -/

/-- A number without its sign. No zero stands in front of its other digits. -/
structure UnsignedText (numeral : Numeral) (text : List Char) : Prop where
  number : Expr.NumberText numeral text
  plain : numeral.whole.head? = some '0' → numeral.whole = ['0']

/-- The coefficient of a number, and the digits behind its point that it cannot hold. -/
def coefficientOf (numeral : Numeral) : Nat × List Char :=
  accumulate (accumulate 0 numeral.whole).1 numeral.fraction

/-- The power of ten that goes with the coefficient of a number. -/
def scaleOf (numeral : Numeral) : Int :=
  (accumulate 0 numeral.whole).2.length -
    (numeral.fraction.length - (coefficientOf numeral).2.length) + numeral.exponent

/-- What is read of a number. If it has neither a fraction nor an exponent, it may be an integer. -/
def readNumeral (negative : Bool) (numeral : Numeral) (text : List Char) : Except Malformed Number :=
  if text = numeral.whole then
    wholeNumber negative (accumulate 0 numeral.whole).1 (accumulate 0 numeral.whole).2.length
  else realOfParts negative (coefficientOf numeral).1 (scaleOf numeral)

/-- A number, with or without a minus sign, that can be represented. -/
inductive NumberText (n : Number) : List Char → Prop where
  | unsigned {numeral : Numeral} {text : List Char} (h : UnsignedText numeral text)
      (hread : readNumeral false numeral text = .ok n) : NumberText n text
  | negative {numeral : Numeral} {text : List Char} (h : UnsignedText numeral text)
      (hread : readNumeral true numeral text = .ok n) : NumberText n ('-' :: text)

/-! ## Exponents -/

section

variable {negative : Bool} {coefficient : Nat} {scale exponent : Int} {text rest : List Char}

/-- Behind its mark an exponent is scanned as in an expression. -/
theorem scanExponent_eq_ok_iff {mark : Char} {found : Int × List Char}
    (hmark : mark = 'e' ∨ mark = 'E') :
    scanExponent text = .ok found ↔ Numeral.scanExponent? (mark :: text) = some found := by
  rw [scanExponent, Numeral.scanExponent?, if_pos hmark]
  dsimp only
  split <;> simp

theorem scanExponent_append (h : Expr.ExponentText exponent text) (hne : text ≠ [])
    (hrest : ∀ c tail, rest = c :: tail → c.isDigit = false) :
    ∃ mark inner, text = mark :: inner ∧ (mark = 'e' ∨ mark = 'E') ∧
      scanExponent (inner ++ rest) = .ok (exponent, rest) := by
  cases h with
  | none => exact absurd rfl hne
  | unsigned hmark h =>
    exact ⟨_, _, rfl, hmark, (scanExponent_eq_ok_iff hmark).2
      (Expr.scanExponent?_cons hmark (Expr.takeSign_digits h) h hrest)⟩
  | plus hmark h | minus hmark h =>
    refine ⟨_, _, rfl, hmark, ?_⟩
    rw [List.cons_append, scanExponent_eq_ok_iff hmark, Expr.scanExponent?_cons hmark rfl h hrest]
    rfl

theorem scanRealEnd_append (h : Expr.ExponentText exponent text) (hrest : EndsNumber rest) :
    scanRealEnd negative coefficient scale (text ++ rest) =
      (realOfParts negative coefficient (scale + exponent)).map fun number => (number, rest) := by
  rcases eq_or_ne text [] with rfl | hne
  · have hnone : rest.head?.any marksExponent = false :=
      hrest.head_any fun _ _ => EndsNumber.not_marksExponent
    cases h
    rw [List.nil_append, scanRealEnd_eq, Int.add_zero]
    simp only [hnone, Bool.false_eq_true, if_false]
    cases realOfParts negative coefficient scale <;> rfl
  · obtain ⟨mark, inner, rfl, hmark, hscan⟩ := scanExponent_append h hne hrest.not_digit
    rw [List.cons_append, scanRealEnd, if_pos hmark, hscan]
    show (realOfParts negative coefficient (scale + exponent) >>= _) = _
    cases realOfParts negative coefficient (scale + exponent) <;> rfl

theorem exists_of_scanRealEnd {n : Number}
    (h : scanRealEnd negative coefficient scale text = .ok (n, rest)) :
    ∃ exponent inner, Expr.ExponentText exponent inner ∧ text = inner ++ rest ∧
      realOfParts negative coefficient (scale + exponent) = .ok n ∧
      (text.head?.any marksExponent = true → inner ≠ []) := by
  rw [scanRealEnd_eq] at h
  dsimp only at h
  split at h
  · next hany =>
    obtain ⟨⟨exponent, after⟩, hscan, hlater⟩ := exists_of_bind_eq_ok h
    obtain ⟨found, hreal, hpure⟩ := exists_of_bind_eq_ok hlater
    obtain ⟨rfl, rfl⟩ := Prod.mk.inj (Except.ok.inj hpure)
    cases text with
    | nil => exact absurd hany Bool.false_ne_true
    | cons mark text =>
      have hmark : mark = 'e' ∨ mark = 'E' := by simpa [marksExponent] using hany
      obtain ⟨inner, hinner, htext⟩ :=
        Expr.exponentText_of_scan? ((scanExponent_eq_ok_iff hmark).1 hscan)
      refine ⟨exponent, inner, hinner, htext, hreal, fun _ => ?_⟩
      -- the mark at least is taken off the text
      rintro rfl
      have hshorter := (isLocal_scanExponent _ _ _ hscan).1.length_le
      have hlength := congrArg List.length htext
      simp only [List.tail_cons, List.length_cons, List.nil_append] at hshorter hlength
      omega
  · next hany =>
    obtain ⟨found, hreal, hpure⟩ := exists_of_bind_eq_ok h
    obtain ⟨rfl, rfl⟩ := Prod.mk.inj (Except.ok.inj hpure)
    exact ⟨0, [], .none, rfl, by rwa [Int.add_zero], fun hmark => absurd hmark hany⟩

end

/-! ## Numbers -/

section

variable {negative : Bool} {numeral : Numeral} {n : Number} {text rest : List Char}

theorem UnsignedText.not_leadingZero (h : UnsignedText numeral text) :
    (numeral.whole.head? == some '0' && 1 < numeral.whole.length) = false := by
  by_cases hzero : numeral.whole.head? = some '0'
  · rw [h.plain hzero]
    rfl
  · simp [hzero]

section

variable {whole : List Char} (hzero : (whole.head? == some '0' && 1 < whole.length) = false)

include hzero

theorem scanWhole_end (hrest : EndsNumber rest) :
    scanWhole negative whole rest =
      (wholeNumber negative (accumulate 0 whole).1 (accumulate 0 whole).2.length).map
        fun number => (number, rest) := by
  have hpoint : rest.head?.any (· == '.') = false :=
    hrest.head_any fun c tail hends => by simpa using (hends c tail rfl).2.1
  have hmark : rest.head?.any marksExponent = false :=
    hrest.head_any fun _ _ => EndsNumber.not_marksExponent
  rw [scanWhole, hzero, hpoint, hmark]
  show (wholeNumber negative (accumulate 0 whole).1 (accumulate 0 whole).2.length >>= _) = _
  cases wholeNumber negative (accumulate 0 whole).1 (accumulate 0 whole).2.length <;> rfl

theorem scanWhole_mark {mark : Char} (hmark : mark = 'e' ∨ mark = 'E') :
    scanWhole negative whole (mark :: text) =
      scanRealEnd negative (accumulate 0 whole).1 (accumulate 0 whole).2.length (mark :: text) := by
  rw [scanWhole, hzero]
  rcases hmark with rfl | rfl <;> rfl

theorem scanWhole_point :
    scanWhole negative whole ('.' :: text) =
      scanFraction negative (accumulate 0 whole).1 (accumulate 0 whole).2.length text := by
  rw [scanWhole, hzero]
  rfl

end

/-- Where an exponent begins, or numbers end, there is no digit. -/
theorem not_digit_of_exponentText {exponent : Int} (h : Expr.ExponentText exponent text)
    (hrest : EndsNumber rest) :
    ∀ c tail, text ++ rest = c :: tail → c.isDigit = false := by
  intro c tail heq
  cases h with
  | none => exact hrest.not_digit c tail heq
  | unsigned hmark | plus hmark | minus hmark =>
    obtain ⟨rfl, -⟩ := List.cons.inj heq
    rcases hmark with rfl | rfl <;> rfl

/-- A number is scanned if what follows cannot belong to it. -/
theorem UnsignedText.scanUnsigned_append (h : UnsignedText numeral text) (hrest : EndsNumber rest)
    (negative : Bool) :
    scanUnsigned negative (text ++ rest) =
      (readNumeral negative numeral text).map fun number => (number, rest) := by
  have hzero := h.not_leadingZero
  obtain @⟨whole, fraction, fractionText, exponentText, exponent, ⟨hne, hdigits⟩, hfraction,
    hexponent⟩ := h.number
  have hbehind := not_digit_of_exponentText hexponent hrest
  rw [scanUnsigned_eq]
  dsimp only at hzero ⊢
  cases hfraction with
  | none =>
    rw [List.nil_append, List.append_assoc, someDigits_append hdigits hne hbehind]
    show scanWhole negative whole (exponentText ++ rest) = _
    rcases eq_or_ne exponentText [] with rfl | hsome
    · rw [List.nil_append, scanWhole_end hzero hrest, List.append_nil, readNumeral, if_pos rfl]
    · obtain ⟨mark, inner, rfl, hmark, -⟩ := scanExponent_append hexponent hsome hrest.not_digit
      have hlonger : whole ++ mark :: inner ≠ whole := by simp
      rw [List.cons_append, scanWhole_mark hzero hmark, ← List.cons_append,
        scanRealEnd_append hexponent hrest, readNumeral, if_neg hlonger]
      simp [coefficientOf, scaleOf, accumulate]
  | point hplaces =>
    have hpoint : ∀ c tail, '.' :: (fraction ++ (exponentText ++ rest)) = c :: tail →
        c.isDigit = false := by
      rintro c tail ⟨⟩
      rfl
    have hlonger : whole ++ ('.' :: fraction ++ exponentText) ≠ whole := by simp
    rw [readNumeral, if_neg hlonger, List.append_assoc, List.append_assoc, List.cons_append,
      someDigits_append hdigits hne hpoint]
    show scanWhole negative whole _ = _
    rw [scanWhole_point hzero, scanFraction_eq]
    dsimp only
    rw [someDigits_append hplaces.2 hplaces.1 hbehind]
    exact scanRealEnd_append hexponent hrest

theorem digits_of_someDigits {digits : List Char} (h : someDigits text = .ok (digits, rest)) :
    text = digits ++ rest ∧ Expr.Digits digits := by
  by_cases hempty : (takeDigits text).1.isEmpty = true
  · simp [someDigits, hempty] at h
  · rw [someDigits, if_neg hempty, Except.ok.injEq] at h
    obtain ⟨htext, hdigits⟩ := takeDigits_spec text
    rw [h] at htext hdigits hempty
    exact ⟨htext, by simpa using hempty, hdigits⟩

theorem plain_of_not_leadingZero {whole : List Char}
    (hzero : ¬ (whole.head? == some '0' && decide (1 < whole.length)) = true)
    (hfirst : whole.head? = some '0') : whole = ['0'] := by
  cases whole with
  | nil => cases hfirst
  | cons c whole =>
    obtain rfl := Option.some.inj hfirst
    cases whole with
    | nil => rfl
    | cons => simp at hzero

/-- What is scanned as a number is one. -/
theorem exists_of_scanUnsigned (h : scanUnsigned negative text = .ok (n, rest)) :
    ∃ numeral read, text = read ++ rest ∧ UnsignedText numeral read ∧
      readNumeral negative numeral read = .ok n := by
  rw [scanUnsigned_eq] at h
  obtain ⟨⟨whole, after⟩, hsome, hwhole⟩ := exists_of_bind_eq_ok h
  obtain ⟨rfl, hdigits⟩ := digits_of_someDigits hsome
  dsimp only [scanWhole] at hwhole
  split at hwhole
  · cases hwhole
  next hzero =>
  have hplain := plain_of_not_leadingZero hzero
  split at hwhole
  · next hpoint =>
    obtain ⟨text, rfl⟩ : ∃ text, after = '.' :: text := by
      cases after with
      | nil => cases hpoint
      | cons c text => exact ⟨text, by simpa using hpoint⟩
    rw [scanFraction_eq] at hwhole
    obtain ⟨⟨places, later⟩, hplaces, hend⟩ := exists_of_bind_eq_ok hwhole
    obtain ⟨htext, hfraction⟩ := digits_of_someDigits hplaces
    obtain ⟨exponent, inner, hexponent, rfl, hreal, -⟩ := exists_of_scanRealEnd hend
    have hlonger : whole ++ ('.' :: places ++ inner) ≠ whole := by simp
    refine ⟨⟨whole, places, exponent⟩, _, ?_, ⟨.mk hdigits (.point hfraction) hexponent, hplain⟩, ?_⟩
    · rw [List.tail_cons] at htext
      simp [htext]
    · rw [readNumeral, if_neg hlonger]
      exact hreal
  split at hwhole
  · next hmark =>
    obtain ⟨exponent, inner, hexponent, rfl, hreal, hne⟩ := exists_of_scanRealEnd hwhole
    have hlonger : whole ++ ([] ++ inner) ≠ whole := by simpa using hne hmark
    refine ⟨⟨whole, [], exponent⟩, _, ?_, ⟨.mk hdigits .none hexponent, hplain⟩, ?_⟩
    · simp
    · rw [readNumeral, if_neg hlonger]
      simpa [coefficientOf, scaleOf, accumulate] using hreal
  · obtain ⟨found, hread, hpure⟩ := exists_of_bind_eq_ok hwhole
    obtain ⟨rfl, rfl⟩ := Prod.mk.inj (Except.ok.inj hpure)
    refine ⟨⟨whole, [], 0⟩, _, ?_, ⟨.mk hdigits .none .none, hplain⟩, ?_⟩
    · simp
    · rw [readNumeral, if_pos (by simp)]
      exact hread

/-! ## Range -/

theorem toNat_sub_zero_le {c : Char} (h : c.isDigit = true) : c.toNat - '0'.toNat ≤ 9 := by
  have hlast : c.val ≤ 57 := by
    simp only [Char.isDigit, Bool.and_eq_true, decide_eq_true_eq] at h
    exact h.2
  have hbound : c.toNat ≤ 57 := UInt32.le_iff_toNat_le.1 hlast
  have hzero : '0'.toNat = 48 := rfl
  omega

/-- The coefficient has no more digits than it was made of. -/
theorem exists_kept (start : Nat) {digits : List Char} (hdigits : ∀ c ∈ digits, c.isDigit = true) :
    ∃ kept, digits.length = kept + (accumulate start digits).2.length ∧
      (accumulate start digits).1 < (start + 1) * tenTo kept := by
  induction digits generalizing start with
  | nil => exact ⟨0, rfl, by simp [accumulate, tenTo]⟩
  | cons c digits ih =>
    obtain ⟨hc, hothers⟩ := List.forall_mem_cons.1 hdigits
    have hnine := toNat_sub_zero_le hc
    rw [accumulate]
    split
    · obtain ⟨kept, hlength, hless⟩ := ih (10 * start + (c.toNat - '0'.toNat)) hothers
      refine ⟨kept + 1, by rw [List.length_cons, hlength, Nat.add_right_comm], ?_⟩
      refine Nat.lt_of_lt_of_le hless ?_
      calc (10 * start + (c.toNat - '0'.toNat) + 1) * tenTo kept
          ≤ ((start + 1) * 10) * tenTo kept := Nat.mul_le_mul_right _ (by omega)
        _ = (start + 1) * (tenTo kept * 10) := by ring
        _ = (start + 1) * tenTo (kept + 1) := by rw [tenTo_add]; rfl
    · exact ⟨0, (Nat.zero_add _).symm, by simp [tenTo]⟩

theorem UnsignedText.digits (h : UnsignedText numeral text) :
    (∀ c ∈ numeral.whole, c.isDigit = true) ∧ ∀ c ∈ numeral.fraction, c.isDigit = true := by
  obtain @⟨whole, fraction, fractionText, exponentText, exponent, hwhole, hfraction, -⟩ := h.number
  refine ⟨hwhole.2, ?_⟩
  cases hfraction with
  | none => exact List.forall_mem_nil _
  | point hplaces => exact hplaces.2

theorem UnsignedText.exponent_eq_zero (h : UnsignedText numeral numeral.whole) :
    numeral.exponent = 0 := by
  obtain ⟨whole, fraction, exponent⟩ := numeral
  generalize htext : Numeral.whole ⟨whole, fraction, exponent⟩ = text at h
  obtain @⟨_, _, fractionText, exponentText, _, -, -, hexponent⟩ := h.number
  have hnone : exponentText = [] := by
    have hlength := congrArg List.length htext
    simp only [List.length_append] at hlength
    exact List.eq_nil_of_length_eq_zero (by omega)
  subst hnone
  cases hexponent
  rfl

/-- Digits that do not go further than `10 ^ 308` are read. -/
theorem realOfParts_of_digits {coefficient digits : Nat} {exponent : Int}
    (hword : coefficient < wordLimit) (hdigits : coefficient < tenTo digits)
    (hsize : digits + exponent ≤ 308) :
    ∃ x, realOfParts negative coefficient exponent = .ok (.real x) := by
  have hlimit : wordLimit < tenTo 308 := by decide +kernel
  refine realOfParts_of_lt negative (Nat.le_of_lt (Nat.lt_trans hword hlimit)) ?_
  by_cases hexponent : exponent < 0
  · have hnone : exponent.toNat = 0 := by omega
    rw [hnone, tenTo_zero, Nat.mul_one]
    exact Nat.lt_trans hword hlimit
  · calc coefficient * tenTo exponent.toNat
        < tenTo digits * tenTo exponent.toNat :=
          Nat.mul_lt_mul_of_pos_right hdigits (tenTo_pos _)
      _ = tenTo (digits + exponent.toNat) := (tenTo_add ..).symm
      _ ≤ tenTo 308 := tenTo_le_tenTo (by omega)

theorem exists_wholeNumber {coefficient scale : Nat}
    (h : ∃ x, realOfParts negative coefficient scale = .ok (.real x)) :
    ∃ n, wholeNumber negative coefficient scale = .ok n := by
  unfold wholeNumber
  dsimp only
  generalize (if negative = true then -(coefficient : Int) else coefficient) = value
  split
  · exact ⟨_, rfl⟩
  · obtain ⟨x, hx⟩ := h
    exact ⟨_, hx⟩

/-- A number is read if its first digit stands for less than `10 ^ 308`. -/
theorem UnsignedText.exists_readNumeral (h : UnsignedText numeral text)
    (hsize : numeral.whole.length + numeral.exponent ≤ 308) (negative : Bool) :
    ∃ n, readNumeral negative numeral text = .ok n := by
  obtain ⟨hwhole, hfraction⟩ := h.digits
  obtain ⟨kept, hlength, hless⟩ := exists_kept 0 hwhole
  have hword := accumulate_lt (show 0 < wordLimit from twoTo_pos 64) numeral.whole
  rw [Nat.zero_add, Nat.one_mul] at hless
  unfold readNumeral
  split
  · next htext =>
    subst htext
    have hexponent := h.exponent_eq_zero
    exact exists_wholeNumber (realOfParts_of_digits hword hless (by omega))
  · obtain ⟨places, hplaces, hmore⟩ := exists_kept (accumulate 0 numeral.whole).1 hfraction
    have hboth : (coefficientOf numeral).1 < tenTo (kept + places) :=
      calc (coefficientOf numeral).1
          < ((accumulate 0 numeral.whole).1 + 1) * tenTo places := hmore
        _ ≤ tenTo kept * tenTo places := Nat.mul_le_mul_right _ hless
        _ = tenTo (kept + places) := (tenTo_add ..).symm
    have hscale : ((kept + places : Nat) : Int) + scaleOf numeral =
        numeral.whole.length + numeral.exponent := by
      unfold scaleOf coefficientOf
      omega
    obtain ⟨x, hx⟩ := realOfParts_of_digits (accumulate_lt hword numeral.fraction) hboth
      (by rw [hscale]; exact hsize)
    exact ⟨_, hx⟩

/-- There is no other reason for not reading a number than that it is too large. -/
theorem eq_numberOutOfRange_of_readNumeral {cause : Malformed}
    (h : readNumeral negative numeral text = .error cause) : cause = .numberOutOfRange := by
  have hreal : ∀ coefficient exponent, realOfParts negative coefficient exponent = .error cause →
      cause = .numberOutOfRange := by
    intro coefficient exponent h
    unfold realOfParts at h
    dsimp only at h
    split at h <;> cases h
    rfl
  unfold readNumeral at h
  split at h
  · unfold wholeNumber at h
    dsimp only at h
    generalize (if negative = true then _ else _) = value at h
    split at h
    · cases h
    · exact hreal _ _ h
  · exact hreal _ _ h

end

end StepScript.Json
