import StepScript.Number.Decimal

/-!
# Numerals

Decimal numerals in text: digits, an optional fraction and an optional exponent.
-/

namespace StepScript

def natOfDigits (digits : List Char) : Nat :=
  digits.foldl (fun n c => 10 * n + (c.toNat - '0'.toNat)) 0

def digitsOfNat (n : Nat) : List Char := Nat.toDigits 10 n

def natText (n : Nat) : String := String.ofList (digitsOfNat n)

/-- The parts of a numeral without a sign. -/
structure Numeral where
  whole : List Char
  fraction : List Char
  exponent : Int
deriving DecidableEq, Repr

namespace Numeral

def toDecimal (numeral : Numeral) : Decimal where
  coefficient := natOfDigits (numeral.whole ++ numeral.fraction)
  exponent := numeral.exponent - numeral.fraction.length

/-- Splits off the digits at the start of a text. -/
def takeDigits (text : List Char) : List Char × List Char :=
  (text.takeWhile Char.isDigit, text.dropWhile Char.isDigit)

/-- A sign and the text after it; no sign counts as plus. -/
def takeSign : List Char → Bool × List Char
  | '-' :: rest => (true, rest)
  | '+' :: rest => (false, rest)
  | text => (false, text)

def scanExponent? : List Char → Option (Int × List Char)
  | c :: text =>
    if c = 'e' ∨ c = 'E' then
      let (negative, unsigned) := takeSign text
      let (digits, rest) := takeDigits unsigned
      if digits.isEmpty then none
      else some (if negative then -(natOfDigits digits : Int) else natOfDigits digits, rest)
    else none
  | [] => none

def withExponent (whole fraction text : List Char) : Numeral × List Char :=
  match scanExponent? text with
  | some (exponent, rest) => (⟨whole, fraction, exponent⟩, rest)
  | none => (⟨whole, fraction, 0⟩, text)

/-- The longest numeral at the start of a text, with the text after it. A point without digits
after it, and an exponent mark without digits, do not belong to the numeral. -/
def scan? (text : List Char) : Option (Numeral × List Char) :=
  let (whole, rest) := takeDigits text
  if whole.isEmpty then none
  else
    match rest with
    | '.' :: afterPoint =>
      let (fraction, afterFraction) := takeDigits afterPoint
      if fraction.isEmpty then some (withExponent whole [] rest)
      else some (withExponent whole fraction afterFraction)
    | _ => some (withExponent whole [] rest)

/-- An unsigned numeral that is the whole text; digits may be missing on one side of the
point. -/
def ofUnsignedText? (text : List Char) : Option Numeral :=
  let (whole, rest) := takeDigits text
  let (fraction, afterFraction) :=
    match rest with
    | '.' :: afterPoint => takeDigits afterPoint
    | _ => ([], rest)
  if whole.isEmpty && fraction.isEmpty then none
  else
    let (numeral, remains) := withExponent whole fraction afterFraction
    if remains.isEmpty then some numeral else none

/-- The number that is the whole text: a numeral or a name of infinity or not-a-number in any
case, with an optional sign. -/
def ofWholeText? (text : List Char) : Option Binary64 :=
  let (negative, unsigned) := takeSign text
  let word := String.ofList (unsigned.map Char.toLower)
  if word = "inf" ∨ word = "infinity" then some (.infinite negative)
  else if word = "nan" then some .nan
  else (ofUnsignedText? unsigned).map fun numeral => numeral.toDecimal.toBinary64 negative

/-- The natural number that is the whole text: digits with an optional plus sign. -/
def natOfWholeText? (text : List Char) : Option Nat :=
  let unsigned := match text with
    | '+' :: rest => rest
    | _ => text
  if unsigned.isEmpty then none
  else if unsigned.all Char.isDigit then some (natOfDigits unsigned)
  else none

/-! ## Each numeral has a digit -/

theorem length_takeDigits (text : List Char) : (takeDigits text).2.length ≤ text.length :=
  (List.dropWhile_sublist _).length_le

theorem length_takeSign (text : List Char) : (takeSign text).2.length ≤ text.length := by
  unfold takeSign
  split <;> simp

theorem length_scanExponent? {text rest : List Char} {exponent : Int}
    (h : scanExponent? text = some (exponent, rest)) : rest.length ≤ text.length := by
  cases text with
  | nil => simp [scanExponent?] at h
  | cons c text =>
    have hsign := length_takeSign text
    have hdigits := length_takeDigits (takeSign text).2
    grind [scanExponent?]

theorem length_withExponent (whole fraction text : List Char) :
    (withExponent whole fraction text).2.length ≤ text.length := by
  unfold withExponent
  split
  · next h => exact length_scanExponent? h
  · exact Nat.le_refl _

theorem length_dropDigits_lt {text : List Char} (h : (takeDigits text).1.isEmpty = false) :
    (takeDigits text).2.length < text.length := by
  cases text with
  | nil => simp [takeDigits] at h
  | cons c text =>
    by_cases hc : c.isDigit
    · have := length_takeDigits text
      simp only [takeDigits] at this
      simp [takeDigits, hc]
      omega
    · simp [takeDigits, hc] at h

theorem length_scan? {text rest : List Char} {numeral : Numeral}
    (h : scan? text = some (numeral, rest)) : rest.length < text.length := by
  unfold scan? at h
  have hwhole := @length_dropDigits_lt text
  cases hempty : (takeDigits text).1.isEmpty with
  | true => simp [hempty] at h
  | false =>
    replace hwhole := hwhole hempty
    simp only [hempty] at h
    split at h
    · simp at h
    · split at h
      · next afterPoint hpoint =>
        have hfraction := length_takeDigits afterPoint
        have hrest : rest.length ≤ (takeDigits text).2.length := by
          split at h
          · have := length_withExponent (takeDigits text).1 [] (takeDigits text).2
            grind
          · have := length_withExponent (takeDigits text).1 (takeDigits afterPoint).1
              (takeDigits afterPoint).2
            grind
        omega
      · have := length_withExponent (takeDigits text).1 [] (takeDigits text).2
        grind

end Numeral

end StepScript
