import StepScript.Number.Numeral

/-!
# Formats for binary64 numbers

A format says which decimal exponents are written positionally and how a tie between two
shortest decimals goes; the digits are those of `Decimal.shortest`.
-/

namespace StepScript

structure NumberFormat where
  /-- Which of two equally near decimals is written. -/
  tie : Tie
  /-- The exponents of a leading digit for which the number has no exponent mark. -/
  isPlain : Int → Bool
  /-- Whether a whole number in plain form ends in `.0`. -/
  keepsPoint : Bool

namespace NumberFormat

/-- Digits times `10 ^ exponent`, without an exponent mark. -/
def plain (keepsPoint : Bool) (digits : List Char) (exponent : Int) : List Char :=
  if 0 ≤ exponent then
    digits ++ List.replicate exponent.toNat '0' ++ (if keepsPoint then ['.', '0'] else [])
  else
    let places := (-exponent).toNat
    if places < digits.length then
      digits.take (digits.length - places) ++ '.' :: digits.drop (digits.length - places)
    else '0' :: '.' :: List.replicate (places - digits.length) '0' ++ digits

/-- Digits with the point after the first one, times `10 ^ leading`. -/
def scientific (digits : List Char) (leading : Int) : List Char :=
  let mantissa := match digits with
    | first :: second :: rest => first :: '.' :: second :: rest
    | _ => digits
  mantissa ++ 'e' :: (if leading < 0 then '-' else '+') :: digitsOfNat leading.natAbs

def renderDecimal (format : NumberFormat) (d : Decimal) : List Char :=
  let digits := digitsOfNat d.coefficient
  let leading := d.exponent + digits.length - 1
  if format.isPlain leading then plain format.keepsPoint digits d.exponent
  else scientific digits leading

def render (format : NumberFormat) (x : Binary64.Finite) : List Char :=
  let magnitude := format.renderDecimal (Decimal.shortest format.tie x.units)
  if x.negative then '-' :: magnitude else magnitude

end NumberFormat

end StepScript
