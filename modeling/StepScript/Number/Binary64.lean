import StepScript.Number.Power

/-!
# Binary64 numbers

A finite binary64 number is a sign and a whole number of *units* of `2 ^ -1074`, the smallest
positive number of the format. Each operation computes its exact result in units and rounds
once, to the nearest number that fits, ties to the even one.
-/

namespace StepScript

namespace Binary64

/-- The number one is `2 ^ 1074` units. -/
def unitsPerOne : Nat := twoTo 1074

/-- Numbers of this many units or more are out of range. -/
def unitsLimit : Nat := twoTo 2098

/-- Neighbours of a number of `units` units are `2 ^ spacing units` units apart: a number has 53
significant bits. -/
def spacing (units : Nat) : Nat := Nat.log2 units - 52

/-- A count of units is a number of the format if it lies on the grid of its neighbours and in
range. -/
def Fits (units : Nat) : Prop :=
  units % twoTo (spacing units) = 0 ∧ units < unitsLimit

instance (units : Nat) : Decidable (Fits units) :=
  inferInstanceAs (Decidable (_ ∧ _))

/-- A finite number: `units` units, below zero if `negative`. There are two zeros. -/
structure Finite where
  negative : Bool
  units : Nat
  fits : Fits units
deriving DecidableEq

end Binary64

inductive Binary64 where
  | finite (value : Binary64.Finite)
  | infinite (negative : Bool)
  | nan
deriving DecidableEq

namespace Binary64

/-! ## Rounding -/

/-- The natural number nearest to `num / den`; a tie goes to the even one. -/
def divideToEven (num den : Nat) : Nat :=
  let quotient := num / den
  let twice := 2 * (num % den)
  if twice < den then quotient
  else if twice = den then quotient + quotient % 2
  else quotient + 1

/-- The count of 53 significant bits nearest to `num / den`; a tie goes to the even one. -/
def roundQuotient (num den : Nat) : Nat :=
  let scale := twoTo (spacing (num / den))
  divideToEven num (den * scale) * scale

/-- The number of that many units; a count out of range is an infinity. -/
def ofUnits (negative : Bool) (units : Nat) : Binary64 :=
  if h : Fits units then .finite ⟨negative, units, h⟩ else .infinite negative

def ofQuotient (negative : Bool) (num den : Nat) : Binary64 :=
  ofUnits negative (roundQuotient num den)

/-- The number nearest to a whole number of units; an exact zero has the sign `zeroSign`. -/
def ofSignedUnits (zeroSign : Bool) (units : Int) : Binary64 :=
  if units = 0 then ofUnits zeroSign 0
  else ofQuotient (decide (units < 0)) units.natAbs 1

def ofInt (n : Int) : Binary64 :=
  ofSignedUnits false (n * unitsPerOne)

def zero : Binary64 := ofInt 0

def one : Binary64 := ofInt 1

instance : Inhabited Binary64 := ⟨zero⟩

/-! ## Views -/

def Finite.signedUnits (x : Finite) : Int :=
  if x.negative then -(x.units : Int) else x.units

def isZero : Binary64 → Bool
  | .finite x => x.units == 0
  | _ => false

def isNaN : Binary64 → Bool
  | .nan => true
  | _ => false

/-- The sign; not-a-number has none. -/
def isNegative : Binary64 → Bool
  | .finite x => x.negative
  | .infinite negative => negative
  | .nan => false

/-- The whole number that a finite number stands for, if it is one. -/
def Finite.toInt? (x : Finite) : Option Int :=
  if x.units % unitsPerOne = 0 then
    let n := x.units / unitsPerOne
    some (if x.negative then -(n : Int) else n)
  else none

/-! ## Arithmetic -/

def neg : Binary64 → Binary64
  | .finite x => .finite { x with negative := !x.negative }
  | .infinite negative => .infinite (!negative)
  | .nan => .nan

/-- The sum. Two zeros add up to a negative zero only if both are negative. -/
def add : Binary64 → Binary64 → Binary64
  | .nan, _ | _, .nan => .nan
  | .infinite a, .infinite b => if a = b then .infinite a else .nan
  | .infinite a, .finite _ => .infinite a
  | .finite _, .infinite b => .infinite b
  | .finite x, .finite y =>
    ofSignedUnits (x.negative && y.negative) (x.signedUnits + y.signedUnits)

def sub (x y : Binary64) : Binary64 := x.add y.neg

def mul : Binary64 → Binary64 → Binary64
  | .nan, _ | _, .nan => .nan
  | .finite x, .finite y => ofQuotient (x.negative != y.negative) (x.units * y.units) unitsPerOne
  | x, y =>
    if x.isZero || y.isZero then .nan else .infinite (x.isNegative != y.isNegative)

/-- The quotient. A number other than zero divided by zero is infinite. -/
def div : Binary64 → Binary64 → Binary64
  | .nan, _ | _, .nan => .nan
  | .infinite _, .infinite _ => .nan
  | .infinite a, .finite y => .infinite (a != y.negative)
  | .finite x, .infinite b => ofUnits (x.negative != b) 0
  | .finite x, .finite y =>
    if y.units = 0 then
      if x.units = 0 then .nan else .infinite (x.negative != y.negative)
    else ofQuotient (x.negative != y.negative) (x.units * unitsPerOne) y.units

/-- The remainder of the division that truncates; it has the sign of the dividend. -/
def rem : Binary64 → Binary64 → Binary64
  | .nan, _ | _, .nan | .infinite _, _ => .nan
  | .finite x, .infinite _ => .finite x
  | .finite x, .finite y =>
    if y.units = 0 then .nan else ofUnits x.negative (x.units % y.units)

/-! ## Order -/

/-- The order of two numbers; not-a-number is not comparable, and the two zeros are equal. -/
def compare? : Binary64 → Binary64 → Option Ordering
  | .nan, _ | _, .nan => none
  | .infinite a, .infinite b => some (compare b.toNat a.toNat)
  | .infinite a, .finite _ => some (if a then .lt else .gt)
  | .finite _, .infinite b => some (if b then .gt else .lt)
  | .finite x, .finite y => some (compare x.signedUnits y.signedUnits)

def equal (x y : Binary64) : Bool :=
  x.compare? y == some .eq

/-! ## Encoding -/

/-- The magnitude part of the encoding: the biased exponent above the 52 stored bits. -/
def Finite.magnitudeBits (x : Finite) : Nat :=
  spacing x.units * twoTo 52 + x.units / twoTo (spacing x.units)

/-- The 64 bits of the interchange format. -/
def toBits : Binary64 → Nat
  | .finite x => (if x.negative then signedLimit else 0) + x.magnitudeBits
  | .infinite negative => (if negative then signedLimit else 0) + 2047 * twoTo 52
  | .nan => 2047 * twoTo 52 + twoTo 51

end Binary64

end StepScript
