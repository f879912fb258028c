import StepScript.Proofs.Json.Values
import StepScript.Proofs.Number.Digits

/-!
# Strings and numbers in JSON texts

A string is read back from its quoted form, and a number from its digits, whatever text goes on
behind them, as long as a number cannot swallow it.
-/

namespace StepScript.Json

/-! ## Strings -/

theorem hexValue?_digitChar : ∀ d < 16, hexValue? d.digitChar = some d := by decide

/-- A control character is written by its code unit. -/
theorem scanUnicode_hexPair {c : Char} (h : c.toNat < 0x20) (rest : List Char) :
    scanUnicode ('0' :: '0' :: (hexPair c ++ rest)) = .ok (c, rest) := by
  have hhigh := hexValue?_digitChar (c.toNat / 16 % 16) (by omega)
  have hlow := hexValue?_digitChar (c.toNat % 16) (by omega)
  have hzero : hexValue? '0' = some 0 := rfl
  have hunit : ((0 * 16 + 0) * 16 + c.toNat / 16 % 16) * 16 + c.toNat % 16 = c.toNat := by omega
  have hscan : scanHex ('0' :: '0' :: (hexPair c ++ rest)) = .ok (c.toNat, rest) := by
    simp only [scanHex, hexPair, List.cons_append, List.nil_append, hhigh, hlow, hzero, hunit]
  have htrailing : isTrailing c.toNat = false := by simp [isTrailing]; omega
  have hleading : isLeading c.toNat = false := by simp [isLeading]; omega
  rw [scanUnicode, hscan]
  simp [bind, Except.bind, htrailing, hleading, Char.ofNat_toNat, pure, Except.pure]

/-- A character is read back from its form inside quotes. -/
theorem scanString_escapeChar (fuel : Nat) (before : List Char) (c : Char) (rest : List Char) :
    scanString (fuel + 1) before (escapeChar c ++ rest) =
      scanString fuel (c :: before) rest := by
  by_cases hshort : c = '"' ∨ c = '\\' ∨ c = '\n' ∨ c = '\r' ∨ c = '\t' ∨ c = '\x08' ∨ c = '\x0c'
  · rcases hshort with rfl | rfl | rfl | rfl | rfl | rfl | rfl <;> rfl
  · simp only [not_or] at hshort
    obtain ⟨hquote, hbackslash, hline, hreturn, htab, hback, hfeed⟩ := hshort
    by_cases hcontrol : c.toNat < 0x20
    · simp only [escapeChar, hquote, hbackslash, hline, hreturn, htab, hback, hfeed, hcontrol,
        if_true, if_false, List.cons_append, List.nil_append, scanString, scanEscape,
        scanUnicode_hexPair hcontrol]
      rfl
    · simp [escapeChar, scanString, *]

theorem scanString_flatMap {fuel : Nat} (before text rest : List Char) (h : text.length < fuel) :
    scanString fuel before (text.flatMap escapeChar ++ '"' :: rest) =
      .ok (String.ofList (before.reverse ++ text), rest) := by
  induction text generalizing fuel before with
  | nil =>
    obtain ⟨fuel, rfl⟩ := Nat.exists_eq_succ_of_ne_zero (Nat.ne_of_gt h)
    simp [scanString]
  | cons c text ih =>
    obtain ⟨fuel, rfl⟩ := Nat.exists_eq_succ_of_ne_zero (Nat.ne_of_gt (Nat.zero_lt_of_lt h))
    rw [List.flatMap_cons, List.append_assoc, scanString_escapeChar,
      ih (c :: before) (Nat.lt_of_succ_lt_succ h)]
    simp

theorem length_le_length_flatMap_escapeChar (text : List Char) :
    text.length ≤ (text.flatMap escapeChar).length := by
  have hpos : ∀ c, 1 ≤ (escapeChar c).length := by
    intro c
    unfold escapeChar
    repeat' split
    all_goals simp
  induction text with
  | nil => simp
  | cons c text ih =>
    have := hpos c
    simp only [List.flatMap_cons, List.length_cons, List.length_append]
    omega

theorem scanString_quote {fuel : Nat} {text : String} {rest body : List Char}
    (hbody : quote text ++ rest = '"' :: body) (h : body.length ≤ fuel) :
    scanString fuel [] body = .ok (text, rest) := by
  obtain rfl : body = text.toList.flatMap escapeChar ++ '"' :: rest := by
    simpa [quote] using hbody.symm
  have hlength := length_le_length_flatMap_escapeChar text.toList
  simp only [List.length_append, List.length_cons] at h
  rw [scanString_flatMap [] text.toList rest (by omega)]
  simp

/-! ## What ends a number -/

/-- A text that no number in front of it could swallow. -/
def EndsNumber (rest : List Char) : Prop :=
  ∀ c tail, rest = c :: tail → c.isDigit = false ∧ c ≠ '.' ∧ c ≠ 'e' ∧ c ≠ 'E'

theorem EndsNumber.nil : EndsNumber [] := nofun

theorem EndsNumber.cons {c : Char} {tail : List Char} (h : c = ',' ∨ c = ']' ∨ c = '\x7d') :
    EndsNumber (c :: tail) := by
  rintro _ _ ⟨⟩
  rcases h with rfl | rfl | rfl <;> decide

theorem EndsNumber.not_digit {rest : List Char} (h : EndsNumber rest) :
    ∀ c tail, rest = c :: tail → c.isDigit = false :=
  fun c tail heq => (h c tail heq).1

/-- Nothing that numbers are tested for stands where they end. -/
theorem EndsNumber.head_any {rest : List Char} {mark : Char → Bool} (h : EndsNumber rest)
    (hmark : ∀ c tail, EndsNumber (c :: tail) → mark c = false) : rest.head?.any mark = false := by
  cases rest with
  | nil => rfl
  | cons c tail => exact hmark c tail h

/-- What the scanner reads from a text it also reads if something follows that ends numbers, and it
passes over a part at the start of the text. -/
def IsLocal {α : Type} (scan : List Char → Except Malformed (α × List Char)) : Prop :=
  ∀ text value rest, scan text = .ok (value, rest) →
    rest <:+ text ∧ ∀ more, EndsNumber more → scan (text ++ more) = .ok (value, rest ++ more)

section

variable {α β : Type} {scan other : List Char → Except Malformed (α × List Char)}

theorem isLocal_const (result : Except Malformed α) :
    IsLocal fun text => (do
      let value ← result
      return (value, text)) := by
  intro text value rest h
  obtain ⟨value, rfl, hpure⟩ := exists_of_bind_eq_ok h
  obtain ⟨rfl, rfl⟩ := Prod.mk.inj (Except.ok.inj hpure)
  exact ⟨List.suffix_rfl, fun _ _ => rfl⟩

theorem IsLocal.bind {next : α → List Char → Except Malformed (β × List Char)}
    (hscan : IsLocal scan) (hnext : ∀ value, IsLocal (next value)) :
    IsLocal fun text => (do
      let (value, rest) ← scan text
      next value rest) := by
  intro text value rest h
  obtain ⟨⟨first, middle⟩, hfirst, h⟩ := exists_of_bind_eq_ok h
  obtain ⟨hmiddle, hfirstMore⟩ := hscan text first middle hfirst
  obtain ⟨hrest, hmore⟩ := hnext first middle value rest h
  refine ⟨hrest.trans hmiddle, fun more hends => ?_⟩
  show (scan (text ++ more) >>= fun read => next read.1 read.2) = _
  rw [hfirstMore more hends]
  exact hmore more hends

/-- A scanner that goes on behind the first character, of which there must be one. -/
theorem IsLocal.tail (hscan : IsLocal scan) (hnil : ∀ read, scan [] ≠ .ok read) :
    IsLocal fun text => scan text.tail := by
  intro text value rest h
  cases text with
  | nil => exact absurd h (hnil _)
  | cons c text =>
    obtain ⟨hrest, hmore⟩ := hscan text value rest h
    exact ⟨hrest.trans (List.suffix_cons ..), hmore⟩

/-- A choice by the first character, where nothing that ends numbers is chosen. -/
theorem IsLocal.ite {mark : Char → Bool} (hscan : IsLocal scan) (hother : IsLocal other)
    (hmark : ∀ c tail, EndsNumber (c :: tail) → mark c = false) :
    IsLocal fun text => if text.head?.any mark then scan text else other text := by
  intro text value rest h
  cases text with
  | nil =>
    obtain ⟨hrest, hmore⟩ := hother [] value rest h
    refine ⟨hrest, fun more hends => ?_⟩
    simp only [List.nil_append, hends.head_any hmark, Bool.false_eq_true, if_false]
    exact hmore more hends
  | cons c text =>
    cases hc : mark c with
    | true =>
      simp only [List.head?_cons, Option.any_some, hc, if_true] at h
      simpa [hc] using hscan (c :: text) value rest h
    | false =>
      simp only [List.head?_cons, Option.any_some, hc, Bool.false_eq_true, if_false] at h
      simpa [hc] using hother (c :: text) value rest h

end

def someDigits (text : List Char) : Except Malformed (List Char × List Char) :=
  if (Numeral.takeDigits text).1.isEmpty then
    .error (if text.isEmpty then .endInValue else .badNumber)
  else .ok (Numeral.takeDigits text)

theorem isLocal_someDigits : IsLocal someDigits := by
  intro text digits rest h
  by_cases hempty : (Numeral.takeDigits text).1.isEmpty = true
  · simp [someDigits, hempty] at h
  · rw [someDigits, if_neg hempty, Except.ok.injEq] at h
    have hsuffix : (Numeral.takeDigits text).2 <:+ text := List.dropWhile_suffix _
    rw [h] at hsuffix
    refine ⟨hsuffix, fun more hends => ?_⟩
    rw [someDigits, takeDigits_append_stop text hends.not_digit, if_neg hempty, h]

theorem takeSign_append {text more : List Char} (hne : text ≠ []) :
    Numeral.takeSign (text ++ more) =
      ((Numeral.takeSign text).1, (Numeral.takeSign text).2 ++ more) := by
  obtain ⟨c, tail, rfl⟩ := List.exists_cons_of_ne_nil hne
  by_cases hminus : c = '-'
  · subst hminus; rfl
  · by_cases hplus : c = '+'
    · subst hplus; rfl
    · simp [Numeral.takeSign, hminus, hplus]

theorem takeSign_suffix (text : List Char) : (Numeral.takeSign text).2 <:+ text := by
  unfold Numeral.takeSign
  split
  · exact List.suffix_cons ..
  · exact List.suffix_cons ..
  · exact List.suffix_rfl

theorem scanExponent_nil (read : Int × List Char) : scanExponent [] ≠ .ok read := by
  simp [scanExponent, Numeral.takeSign, Numeral.takeDigits]

theorem isLocal_scanExponent : IsLocal scanExponent := by
  intro text exponent rest h
  have hne : text ≠ [] := by
    rintro rfl
    exact scanExponent_nil _ h
  -- The digits are those of a text behind the sign, which is there before anything is put behind.
  have hdigits : (Numeral.takeDigits (Numeral.takeSign text).2).1.isEmpty = false := by
    by_contra hempty
    simp only [Bool.not_eq_false] at hempty
    simp [scanExponent, hempty] at h
  simp only [scanExponent, hdigits] at h
  obtain ⟨rfl, rfl⟩ := Prod.mk.inj (Except.ok.inj h)
  refine ⟨(List.dropWhile_suffix _).trans (takeSign_suffix text), fun more hmore => ?_⟩
  simp [scanExponent, takeSign_append hne, takeDigits_append_stop _ hmore.not_digit, hdigits]

def marksExponent (c : Char) : Bool := c = 'e' ∨ c = 'E'

theorem EndsNumber.not_marksExponent {c : Char} {tail : List Char} (h : EndsNumber (c :: tail)) :
    marksExponent c = false := by
  obtain ⟨-, -, he, hE⟩ := h c tail rfl
  simp [marksExponent, he, hE]

theorem scanRealEnd_eq (negative : Bool) (coefficient : Nat) (scale : Int) :
    scanRealEnd negative coefficient scale = fun text =>
      if text.head?.any marksExponent then do
        let (exponent, rest) ← scanExponent text.tail
        let number ← realOfParts negative coefficient (scale + exponent)
        return (number, rest)
      else do
        let number ← realOfParts negative coefficient scale
        return (number, text) := by
  funext text
  cases text with
  | nil => rfl
  | cons c text => simp [scanRealEnd, marksExponent]

theorem isLocal_scanRealEnd (negative : Bool) (coefficient : Nat) (scale : Int) :
    IsLocal (scanRealEnd negative coefficient scale) := by
  rw [scanRealEnd_eq]
  have hexponent := isLocal_scanExponent.tail scanExponent_nil
  exact IsLocal.ite
    (hexponent.bind fun exponent => isLocal_const (realOfParts negative coefficient (scale + exponent)))
    (isLocal_const _) fun _ _ => EndsNumber.not_marksExponent

theorem scanFraction_eq (negative : Bool) (coefficient : Nat) (scale : Int) :
    scanFraction negative coefficient scale = fun text => (do
      let (digits, rest) ← someDigits text
      scanRealEnd negative (accumulate coefficient digits).1
        (scale - (digits.length - (accumulate coefficient digits).2.length)) rest) := by
  funext text
  simp only [scanFraction, someDigits]
  split <;> rfl

theorem isLocal_scanFraction (negative : Bool) (coefficient : Nat) (scale : Int) :
    IsLocal (scanFraction negative coefficient scale) := by
  rw [scanFraction_eq]
  exact isLocal_someDigits.bind fun digits =>
    isLocal_scanRealEnd negative (accumulate coefficient digits).1
      (scale - (digits.length - (accumulate coefficient digits).2.length))

def scanWhole (negative : Bool) (digits text : List Char) :
    Except Malformed (Number × List Char) :=
  let (coefficient, dropped) := accumulate 0 digits
  if digits.head? == some '0' && 1 < digits.length then .error .badNumber
  else if text.head?.any (· == '.') then
    scanFraction negative coefficient dropped.length text.tail
  else if text.head?.any marksExponent then scanRealEnd negative coefficient dropped.length text
  else do
    let number ← wholeNumber negative coefficient dropped.length
    return (number, text)

theorem scanUnsigned_eq (negative : Bool) :
    scanUnsigned negative = fun text => (do
      let (digits, rest) ← someDigits text
      scanWhole negative digits rest) := by
  funext text
  simp only [scanUnsigned, someDigits, scanWhole]
  split
  · rfl
  · show _ = ite _ _ _
    split
    · rfl
    · cases (Numeral.takeDigits text).2 with
      | nil => rfl
      | cons c rest =>
        by_cases hpoint : c = '.'
        · subst hpoint
          rfl
        · simp [hpoint, marksExponent]

/-- A number without a sign begins with a digit. -/
theorem exists_digit_of_scanUnsigned {negative : Bool} {text rest : List Char} {n : Number}
    (h : scanUnsigned negative text = .ok (n, rest)) :
    ∃ c tail, text = c :: tail ∧ c.isDigit = true := by
  rw [scanUnsigned_eq] at h
  obtain ⟨⟨digits, after⟩, hdigits, -⟩ := exists_of_bind_eq_ok h
  cases text with
  | nil => simp [someDigits, Numeral.takeDigits] at hdigits
  | cons c tail =>
    refine ⟨c, tail, rfl, ?_⟩
    by_contra hc
    simp [someDigits, Numeral.takeDigits, hc] at hdigits

theorem isLocal_scanWhole (negative : Bool) (digits : List Char) :
    IsLocal (scanWhole negative digits) := by
  unfold scanWhole
  dsimp only
  split
  · intro text value rest h
    cases h
  · have hfraction := (isLocal_scanFraction negative (accumulate 0 digits).1
      (accumulate 0 digits).2.length).tail (by simp [scanFraction, Numeral.takeDigits])
    refine hfraction.ite (IsLocal.ite (isLocal_scanRealEnd _ _ _) (isLocal_const _)
      fun _ _ => EndsNumber.not_marksExponent) fun c tail hends => ?_
    obtain ⟨-, hpoint, -⟩ := hends c tail rfl
    simpa using hpoint

/-- What is read of a number depends on its own text only. -/
theorem isLocal_scanUnsigned (negative : Bool) : IsLocal (scanUnsigned negative) := by
  rw [scanUnsigned_eq]
  exact isLocal_someDigits.bind fun digits => isLocal_scanWhole negative digits

/-! ## Integers -/

theorem le_foldl_digits (digits : List Char) (start : Nat) :
    start ≤ digits.foldl (fun n c => 10 * n + (c.toNat - '0'.toNat)) start := by
  induction digits generalizing start with
  | nil => exact Nat.le_refl _
  | cons c digits ih =>
    have := ih (10 * start + (c.toNat - '0'.toNat))
    rw [List.foldl_cons]
    omega

/-- Digits that stand for a number of 64 bits all find room in the coefficient. -/
theorem accumulate_of_lt {digits : List Char} {start : Nat}
    (h : digits.foldl (fun n c => 10 * n + (c.toNat - '0'.toNat)) start < wordLimit) :
    accumulate start digits =
      (digits.foldl (fun n c => 10 * n + (c.toNat - '0'.toNat)) start, []) := by
  induction digits generalizing start with
  | nil => rfl
  | cons c digits ih =>
    have hnext := le_foldl_digits digits (10 * start + (c.toNat - '0'.toNat))
    rw [List.foldl_cons] at h
    rw [accumulate, if_pos (Nat.lt_of_le_of_lt hnext h), ih h, List.foldl_cons]

theorem scanUnsigned_digitsOfNat {negative : Bool} {n : Nat} (h : n < wordLimit) :
    scanUnsigned negative (digitsOfNat n) =
      (wholeNumber negative n 0).map fun number => (number, []) := by
  have htake : Numeral.takeDigits (digitsOfNat n ++ []) = (digitsOfNat n, []) :=
    takeDigits_append isDigit_of_mem_digitsOfNat nofun
  rw [List.append_nil] at htake
  have hempty : (digitsOfNat n).isEmpty = false := by simp [digitsOfNat_ne_nil]
  have hzero : ((digitsOfNat n).head? == some '0' && decide (1 < (digitsOfNat n).length)) =
      false := by
    obtain ⟨c, rest, hdigits⟩ := List.exists_cons_of_ne_nil (digitsOfNat_ne_nil n)
    by_cases hc : c = '0'
    · obtain rfl := eq_zero_of_digitsOfNat (hc ▸ hdigits)
      rfl
    · simp [hdigits, hc]
  have haccumulate : accumulate 0 (digitsOfNat n) = (n, []) := by
    have hvalue := natOfDigits_digitsOfNat n
    rw [natOfDigits] at hvalue
    rw [accumulate_of_lt (by rwa [hvalue]), hvalue]
  simp only [scanUnsigned, htake, hempty, hzero, haccumulate]
  cases wholeNumber negative n 0 <;> rfl

/-- A number that is found where its text begins. -/
def Number.IsFound (n : Number) : Prop :=
  ∃ c tail, n.chars = c :: tail ∧ (c = '-' ∨ c.isDigit = true) ∧
    scanUnsigned (c = '-') (if c = '-' then tail else c :: tail) = .ok (n, [])

/-- The text of a number is read as a number. -/
def Number.IsReadAs (n read : Number) : Prop :=
  ∃ c tail, n.chars = c :: tail ∧ (c = '-' ∨ c.isDigit = true) ∧
    scanUnsigned (c = '-') (if c = '-' then tail else c :: tail) = .ok (read, [])

/-- A whole number of 64 bits stays an integer; only negative zero does not. -/
theorem wholeNumber_integer {negative : Bool} {coefficient : Nat} {value : Int}
    (hvalue : (if negative then -(coefficient : Int) else coefficient) = value)
    (hleast : leastInteger ≤ value) (hzero : ¬ (negative = true ∧ coefficient = 0)) :
    wholeNumber negative coefficient 0 = .ok (.integer value) := by
  subst hvalue
  rw [wholeNumber, if_pos ⟨rfl, hleast, hzero⟩]

theorem Number.isFound_integer {n : Int} (hleast : leastInteger ≤ n) (hlimit : n < wordLimit) :
    Number.IsFound (.integer n) := by
  have habs : n.natAbs < wordLimit := by
    have hsigned : signedLimit < wordLimit := by decide
    unfold leastInteger at hleast
    omega
  by_cases hneg : n < 0
  · -- Only the digits of a negative integer are scanned, so that its least value fits as well.
    refine ⟨'-', digitsOfNat n.natAbs, by simp only [Number.chars, integerChars, hneg, if_true],
      .inl rfl, ?_⟩
    have hwhole : wholeNumber true n.natAbs 0 = .ok (.integer n) :=
      wholeNumber_integer (by rw [if_pos rfl]; omega) hleast (by omega)
    show scanUnsigned true (digitsOfNat n.natAbs) = _
    rw [scanUnsigned_digitsOfNat habs, hwhole]
    rfl
  · obtain ⟨c, tail, hdigits⟩ := List.exists_cons_of_ne_nil (digitsOfNat_ne_nil n.natAbs)
    have hc : c.isDigit = true :=
      isDigit_of_mem_digitsOfNat c (by rw [hdigits]; exact List.mem_cons_self ..)
    have hminus : c ≠ '-' := by
      rintro rfl
      exact absurd hc (by decide)
    refine ⟨c, tail, by simp only [Number.chars, integerChars, hneg, if_false, hdigits], .inr hc,
      ?_⟩
    have hwhole : wholeNumber false n.natAbs 0 = .ok (.integer n) :=
      wholeNumber_integer (by rw [if_neg nofun]; omega) hleast nofun
    rw [if_neg hminus, decide_eq_false hminus, ← hdigits, scanUnsigned_digitsOfNat habs, hwhole]
    rfl

/-! ## Real numbers -/

def IsNumberChar (c : Char) : Prop := c.isDigit = true ∨ c ∈ ['.', 'e', '+', '-']

theorem IsNumberChar.not_space {c : Char} (h : IsNumberChar c) : isSpace c = false := by
  by_contra hspace
  have hblank : ((c = ' ' ∨ c = '\n') ∨ c = '\t') ∨ c = '\r' := by
    simpa only [Bool.not_eq_false, isSpace, Bool.or_eq_true, beq_iff_eq] using hspace
  rcases hblank with ((rfl | rfl) | rfl) | rfl <;> revert h <;> unfold IsNumberChar <;> decide

section

variable {digits : List Char}

theorem isNumberChar_of_mem_plain (keepsPoint : Bool) (exponent : Int)
    (h : ∀ c ∈ digits, IsNumberChar c) :
    ∀ c ∈ NumberFormat.plain keepsPoint digits exponent, IsNumberChar c := by
  have hzero : IsNumberChar '0' := .inl rfl
  have hpoint : IsNumberChar '.' := .inr (by decide)
  intro c hc
  unfold NumberFormat.plain at hc
  dsimp only at hc
  split at hc
  · simp only [List.mem_append, List.mem_replicate] at hc
    rcases hc with (hc | ⟨-, rfl⟩) | hc
    · exact h c hc
    · exact hzero
    · cases keepsPoint with
      | false => cases hc
      | true =>
        simp only [if_true, List.mem_cons, List.not_mem_nil, or_false] at hc
        rcases hc with rfl | rfl
        · exact hpoint
        · exact hzero
  · split at hc
    · simp only [List.mem_append, List.mem_cons] at hc
      rcases hc with hc | rfl | hc
      · exact h c (List.mem_of_mem_take hc)
      · exact hpoint
      · exact h c (List.mem_of_mem_drop hc)
    · simp only [List.mem_append, List.mem_cons, List.mem_replicate] at hc
      rcases hc with (rfl | rfl | ⟨-, rfl⟩) | hc
      · exact hzero
      · exact hpoint
      · exact hzero
      · exact h c hc

theorem isNumberChar_of_mem_scientific (leading : Int) (h : ∀ c ∈ digits, IsNumberChar c) :
    ∀ c ∈ NumberFormat.scientific digits leading, IsNumberChar c := by
  intro c hc
  unfold NumberFormat.scientific at hc
  simp only [List.mem_append, List.mem_cons] at hc
  rcases hc with hc | rfl | hc | hc
  · split at hc
    · next first second rest =>
      simp only [List.mem_cons] at hc
      rcases hc with rfl | rfl | hc
      · exact h c (List.mem_cons_self ..)
      · exact .inr (by decide)
      · exact h c (List.mem_cons_of_mem _ (List.mem_cons.2 hc))
    · exact h c hc
  · exact .inr (by decide)
  · rw [hc]
    split <;> exact .inr (by decide)
  · exact .inl (isDigit_of_mem_digitsOfNat c hc)

end

theorem isNumberChar_of_mem_render {format : NumberFormat} {x : Binary64.Finite} :
    ∀ c ∈ format.render x, IsNumberChar c := by
  have hmagnitude : ∀ d, ∀ c ∈ format.renderDecimal d, IsNumberChar c := by
    intro d
    have hdigits : ∀ c ∈ digitsOfNat d.coefficient, IsNumberChar c :=
      fun c hc => .inl (isDigit_of_mem_digitsOfNat c hc)
    unfold NumberFormat.renderDecimal
    dsimp only
    split
    · exact isNumberChar_of_mem_plain _ _ hdigits
    · exact isNumberChar_of_mem_scientific _ hdigits
  unfold NumberFormat.render
  dsimp only
  split
  · exact List.forall_mem_cons.2 ⟨.inr (by decide), hmagnitude _⟩
  · exact hmagnitude _

theorem dropSpace_of_forall {text : List Char} (h : ∀ c ∈ text, isSpace c = false) :
    dropSpace text = text := by
  cases text with
  | nil => rfl
  | cons c text => simp [dropSpace, h c (List.mem_cons_self ..)]

/-- Only a text that begins like a number is scanned as one. -/
theorem scanValue_eq_number {fuel levels : Nat} {text : List Char} {n : Number}
    {after : Option (List Char)} (h : scanValue fuel levels text = (.number n, after)) :
    ∃ c tail rest, dropSpace text = c :: tail ∧ (c = '-' ∨ c.isDigit = true) ∧
      scanUnsigned (c = '-') (if c = '-' then tail else c :: tail) = .ok (n, rest) ∧
      after = some rest := by
  have hnamed : ∀ value word rest, value ≠ .number n →
      scanNamed value word rest ≠ (.number n, after) := by
    intro value word rest hvalue hscan
    unfold scanNamed at hscan
    split at hscan
    · exact hvalue (Prod.mk.inj hscan).1
    · cases hscan
  cases fuel with
  | zero => simp [scanValue] at h
  | succ fuel =>
    unfold scanValue at h
    split at h
    · cases h
    · next c tail htext =>
      split at h
      · exact absurd h (hnamed _ _ _ (by rintro ⟨⟩))
      split at h
      · exact absurd h (hnamed _ _ _ (by rintro ⟨⟩))
      split at h
      · exact absurd h (hnamed _ _ _ (by rintro ⟨⟩))
      split at h
      · split at h <;> cases h
      split at h
      · next hc =>
        split at h
        · next value rest hscan =>
          cases h
          exact ⟨c, tail, rest, htext, hc, hscan, rfl⟩
        · cases h
      split at h
      · split at h <;> cases h
      split at h
      · split at h <;> cases h
      · cases h

theorem Document.eq_number_of_toJson {document : Document} {n : Number}
    (h : document.toJson = .ok (.number n)) : document = .number n := by
  cases document with
  | number m =>
    simp only [toJson, Except.ok.injEq, Json.number.injEq] at h
    rw [h]
  | array items fault =>
    rw [toJson] at h
    obtain ⟨_, -, h⟩ := exists_of_bind_eq_ok h
    cases fault <;> cases h
  | object members fault =>
    rw [toJson] at h
    obtain ⟨_, -, h⟩ := exists_of_bind_eq_ok h
    cases fault <;> cases h
  | _ => simp [toJson] at h

/-- A real number that is read back from a text of its own is found. -/
theorem Number.isFound_real {x : Binary64.Finite}
    (h : parse (Json.number (.real x)).render = .ok (.number (.real x))) :
    Number.IsFound (.real x) := by
  have hchars : ∀ c ∈ realFormat.render x, isSpace c = false :=
    fun c hc => (isNumberChar_of_mem_render c hc).not_space
  have htext : (Json.number (.real x)).render.toList = realFormat.render x :=
    String.toList_ofList
  obtain ⟨value, hvalue, hafter⟩ := exists_of_bind_eq_ok h
  rw [scan, htext] at hvalue hafter
  generalize hscan : scanValue (enoughFuel (realFormat.render x)) nestingLimit
    (realFormat.render x) = scanned at hvalue hafter
  obtain ⟨document, after⟩ := scanned
  have hend : faultAfter after = none ∧ value = .number (.real x) := by
    dsimp only at hafter
    split at hafter
    · cases hafter
    · next hnone => exact ⟨hnone, Except.ok.inj hafter⟩
  obtain ⟨hend, rfl⟩ := hend
  obtain rfl := Document.eq_number_of_toJson hvalue
  obtain ⟨c, tail, rest, hstart, hc, hnumber, rfl⟩ := scanValue_eq_number hscan
  rw [dropSpace_of_forall hchars] at hstart
  -- Behind the number there could only be blanks, of which the text has none.
  have hrest : rest = [] := by
    have hsuffix : rest <:+ realFormat.render x := by
      have hlocal := (isLocal_scanUnsigned _ _ _ _ hnumber).1
      rw [hstart]
      split at hlocal
      · exact hlocal.trans (List.suffix_cons ..)
      · exact hlocal
    have hblank : dropSpace rest = [] := by
      by_contra hne
      simp [faultAfter, hne] at hend
    rwa [dropSpace_of_forall fun d hd => hchars d (hsuffix.subset hd)] at hblank
  subst hrest
  exact ⟨c, tail, hstart, hc, hnumber⟩

end StepScript.Json
