/-!
# Powers of two and ten

The powers that word sizes, binary64 numbers and decimals are made of.
-/

namespace StepScript

def twoTo (exponent : Nat) : Nat := Nat.pow 2 exponent

def tenTo (exponent : Nat) : Nat := Nat.pow 10 exponent

/-- How many unsigned words of 64 bits there are; each is below this number. -/
def wordLimit : Nat := twoTo 64

/-- The number of signed words of 64 bits that are not negative. -/
def signedLimit : Nat := twoTo 63

end StepScript
