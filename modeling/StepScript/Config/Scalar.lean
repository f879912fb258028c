import StepScript.Config.Quoted
import StepScript.Config.Value
import StepScript.Timestamp

/-!
# Scalars of configuration files

Texts, truth values, numbers, dates and times as they stand in a line of a file. The digits of a
number may be grouped by single underscores. A date or a time counts as a text in its usual form.
-/

namespace StepScript.Config

/-! ## Numbers -/

/-- Digits without the underscores between them. -/
def joinDigits? (isDigit : Char → Bool) : List Char → Option (List Char)
  | [] => none
  | [c] => if isDigit c then some [c] else none
  | c :: '_' :: rest => if isDigit c then (joinDigits? isDigit rest).map (c :: ·) else none
  | c :: rest => if isDigit c then (joinDigits? isDigit rest).map (c :: ·) else none

/-- Digits of a whole number; only zero itself begins with a zero. -/
def wholeDigits? (text : List Char) : Option (List Char) := do
  let digits ← joinDigits? Char.isDigit text
  match digits with
  | '0' :: _ :: _ => none
  | digits => some digits

def integerOfBase? (base : Nat) (text : List Char) : Option Int := do
  let digits ← joinDigits? (fun c => (digitValue? base c).isSome) text
  let n ← natOfBase? base digits
  return n

def integerOfDecimal? (text : List Char) : Option Int := do
  let (negative, unsigned) := Numeral.takeSign text
  let digits ← wholeDigits? unsigned
  return if negative then -(natOfDigits digits : Int) else natOfDigits digits

/-- The integer that a word stands for: decimal digits with an optional sign, or digits of a base
that is named before them. -/
def integerOfWord? (word : List Char) : Option Int :=
  let n? := match word with
    | '0' :: 'x' :: digits => integerOfBase? 16 digits
    | '0' :: 'o' :: digits => integerOfBase? 8 digits
    | '0' :: 'b' :: digits => integerOfBase? 2 digits
    | _ => integerOfDecimal? word
  n?.filter fitsSigned

def fractionDigits? : List Char → Option (List Char)
  | [] => some []
  | _ :: digits => joinDigits? Char.isDigit digits

def exponent? : List Char → Option Int
  | [] => some 0
  | _ :: text => do
    let (negative, unsigned) := Numeral.takeSign text
    let digits ← joinDigits? Char.isDigit unsigned
    return if negative then -(natOfDigits digits : Int) else natOfDigits digits

def isExponentMark (c : Char) : Bool := c == 'e' || c == 'E'

def numeralOfWord? (text : List Char) : Option Numeral := do
  let mantissa := text.takeWhile (!isExponentMark ·)
  let afterMantissa := text.dropWhile (!isExponentMark ·)
  let afterWhole := mantissa.dropWhile (· != '.')
  let whole ← wholeDigits? (mantissa.takeWhile (· != '.'))
  let fraction ← fractionDigits? afterWhole
  let exponent ← exponent? afterMantissa
  if afterWhole.isEmpty && afterMantissa.isEmpty then none else return ⟨whole, fraction, exponent⟩

/-- The number that a word stands for: a numeral with a fraction or an exponent, infinity or
not-a-number, with an optional sign. A numeral above all finite numbers is refused. -/
def realOfWord? (word : List Char) : Option Binary64 :=
  let (negative, unsigned) := Numeral.takeSign word
  if unsigned = ['i', 'n', 'f'] then some (.infinite negative)
  else if unsigned = ['n', 'a', 'n'] then some .nan
  else do
    let numeral ← numeralOfWord? unsigned
    match numeral.toDecimal.toBinary64 negative with
    | .infinite false => none
    | x => some x

/-! ## Dates and times -/

/-- Whether two digits stand for a number in a range. -/
def isPair (least greatest : Nat) (a b : Char) : Bool :=
  a.isDigit && b.isDigit && least ≤ natOfDigits [a, b] && natOfDigits [a, b] ≤ greatest

def scanDate : List Char → Option (List Char × List Char)
  | a :: b :: c :: d :: '-' :: e :: f :: '-' :: g :: h :: rest =>
    let year := [a, b, c, d]
    if year.all Char.isDigit ∧ isPair 1 12 e f
        ∧ isPair 1 (Timestamp.daysInMonth (natOfDigits year) (natOfDigits [e, f])) g h then
      some (year ++ ['-', e, f, '-', g, h], rest)
    else none
  | _ => none

/-- The fraction of a second of which nine digits are kept, without zeros at the end. -/
def fractionOfDigits (digits : List Char) : List Char :=
  let kept := ((digits.take 9).reverse.dropWhile (· == '0')).reverse
  if kept.isEmpty then [] else '.' :: kept

def scanTime : List Char → Option (List Char × List Char)
  | a :: b :: ':' :: c :: d :: ':' :: e :: f :: rest =>
    if isPair 0 23 a b ∧ isPair 0 59 c d ∧ isPair 0 60 e f then
      let time := [a, b, ':', c, d, ':', e, f]
      match rest with
      | '.' :: rest =>
        let (digits, rest) := Numeral.takeDigits rest
        if digits.isEmpty then none else some (time ++ fractionOfDigits digits, rest)
      | rest => some (time, rest)
    else none
  | _ => none

/-- The offset from universal time that a word stands for, if it is not empty. -/
def offsetOfWord? : List Char → Option (List Char)
  | [] => some []
  | [c] => if c = 'Z' ∨ c = 'z' then some ['Z'] else none
  | [sign, a, b, ':', c, d] =>
    if (sign = '+' ∨ sign = '-') ∧ isPair 0 23 a b ∧ isPair 0 59 c d then
      let isZero := natOfDigits [a, b, c, d] == 0
      some ((if isZero then '+' else sign) :: [a, b, ':', c, d])
    else none
  | _ => none

/-- The date, the time of day, or both, that a word stands for. -/
def momentOfWord? (word : List Char) : Option (List Char) :=
  match scanDate word with
  | some (date, []) => some date
  | some (date, c :: rest) =>
    if c = 'T' ∨ c = 't' ∨ c = ' ' then do
      let (time, rest) ← scanTime rest
      let offset ← offsetOfWord? rest
      return date ++ 'T' :: time ++ offset
    else none
  | none =>
    match scanTime word with
    | some (time, []) => some time
    | _ => none

/-! ## Scalars -/

def isWordChar (c : Char) : Bool :=
  c.isAlphanum || c == '+' || c == '-' || c == '.' || c == '_' || c == ':'

/-- A word at the start of a line, and what follows it. A space may stand between a date and a
time. -/
def scanWord (text : List Char) : List Char × List Char :=
  let word := text.takeWhile isWordChar
  let rest := text.dropWhile isWordChar
  match scanDate word, rest with
  | some (_, []), ' ' :: more =>
    if (scanTime (more.takeWhile isWordChar)).isSome then
      (word ++ ' ' :: more.takeWhile isWordChar, more.dropWhile isWordChar)
    else (word, rest)
  | _, _ => (word, rest)

def valueOfWord? (word : List Char) : Option Value :=
  if word = ['t', 'r', 'u', 'e'] then some (.bool true)
  else if word = ['f', 'a', 'l', 's', 'e'] then some (.bool false)
  else
    match momentOfWord? word, integerOfWord? word with
    | some moment, _ => some (.text (String.ofList moment))
    | none, some n => some (.integer n)
    | none, none => (realOfWord? word).map .real

def scanScalar (text : List Char) : Option (Value × List Char) :=
  match scanText text with
  | some (content, rest) => some (.text (String.ofList content), rest)
  | none =>
    let (word, rest) := scanWord text
    (valueOfWord? word).map fun value => (value, rest)

end StepScript.Config
