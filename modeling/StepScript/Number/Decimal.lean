import StepScript.Number.Binary64

/-!
# Decimal numbers

A decimal is a natural coefficient and a power of ten. A decimal is read as the binary64 number
nearest to it; a finite binary64 number is written as the decimal of the fewest digits that reads
back as that number.
-/

namespace StepScript

/-- The number `coefficient * 10 ^ exponent`. -/
structure Decimal where
  coefficient : Nat
  exponent : Int
deriving DecidableEq, Repr

/-- How many decimal digits a natural number has; zero has none. -/
def digitCount (n : Nat) : Nat :=
  if n = 0 then 0 else (Nat.toDigits 10 n).length

/-- Which of two equally near neighbours to take. -/
inductive Tie where
  | toEven
  | up
deriving DecidableEq

namespace Decimal

/-! ## Reading -/

/-- The binary64 number nearest to a decimal. Decimals beyond `10 ^ 310` and below `10 ^ -330`
are far outside the format and are not computed with. -/
def toBinary64 (negative : Bool) (d : Decimal) : Binary64 :=
  let magnitude := digitCount d.coefficient + d.exponent
  if d.coefficient = 0 ∨ magnitude < -330 then .ofUnits negative 0
  else if 310 < magnitude then .infinite negative
  else
    .ofQuotient negative (d.coefficient * tenTo d.exponent.toNat * Binary64.unitsPerOne)
      (tenTo (-d.exponent).toNat)

/-! ## Writing -/

/-- The real numbers that round to a number of `units` units, in quarter units: the ends are
the midpoints to both neighbours and belong to it if its significand is even. -/
structure Interval where
  low : Nat
  high : Nat
  closed : Bool

/-- The interval of a positive number. The lower neighbour of a power of two may be nearer. -/
def Interval.of (units : Nat) : Interval :=
  let gap := twoTo (Binary64.spacing units)
  let lowerGap := if units = twoTo 52 * gap ∧ 1 < gap then gap else 2 * gap
  { low := 4 * units - lowerGap
    high := 4 * units + 2 * gap
    closed := units / gap % 2 == 0 }

def Interval.holds (interval : Interval) (num den : Nat) : Bool :=
  if interval.closed then interval.low * den ≤ num && num ≤ interval.high * den
  else interval.low * den < num && num < interval.high * den

/-- The exponent of the leading digit of a positive number: `10 ^ e` is the greatest power of
ten that is not above it. -/
def leadingExponent (units : Nat) : Int :=
  let whole := units / Binary64.unitsPerOne
  if whole = 0 then -(digitCount ((Binary64.unitsPerOne - 1) / units) : Int)
  else digitCount whole - 1

/-- The neighbour of the number on the grid `10 ^ exponent` that rounds to the number, if one
does; of two the nearer, and of two equally near the one that `tie` names. -/
def onGrid? (tie : Tie) (units : Nat) (exponent : Int) : Option Nat :=
  let num := units * tenTo (-exponent).toNat
  let den := Binary64.unitsPerOne * tenTo exponent.toNat
  let below := num / den
  let twice := 2 * (num % den)
  let interval := Interval.of units
  let hits (coefficient : Nat) : Bool :=
    interval.holds (4 * coefficient * den) (tenTo (-exponent).toNat)
  let nearerIsBelow : Bool :=
    twice < den || (twice == den && tie == .toEven && below % 2 == 0)
  match hits below, hits (below + 1) with
  | true, true => some (if nearerIsBelow then below else below + 1)
  | true, false => some below
  | false, true => some (below + 1)
  | false, false => none

/-- Tries the grids from `10 ^ exponent` on, each ten times finer than the one before. -/
def searchGrids (tie : Tie) (units : Nat) : Nat → Int → Decimal
  | 0, exponent =>
    ⟨units * tenTo (-exponent).toNat / (Binary64.unitsPerOne * tenTo exponent.toNat), exponent⟩
  | grids + 1, exponent =>
    match onGrid? tie units exponent with
    | some coefficient => ⟨coefficient, exponent⟩
    | none => searchGrids tie units grids (exponent - 1)

/-- The decimal of the fewest digits that rounds to the number of `units` units; of those the
nearest. Seventeen digits always suffice. -/
def shortest (tie : Tie) (units : Nat) : Decimal :=
  if units = 0 then ⟨0, 0⟩ else searchGrids tie units 18 (leadingExponent units + 1)

end Decimal

end StepScript
