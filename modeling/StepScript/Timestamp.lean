import StepScript.Number.Numeral
import StepScript.Text.Blank

/-!
# Timestamps

Moments in time to the nanosecond, with the dates and times of day that name them. A leap second
is the second before it, with a billion nanoseconds or more.
-/

namespace StepScript

/-- A moment: the second since the start of 1970 in universal time, and the nanoseconds in it. -/
structure Timestamp where
  second : Int
  nanos : Nat
deriving DecidableEq, Repr

inductive TimestampError where
  | outOfRange
  | badCharacter
  | tooShort
  | tooLong
  | impossible
deriving DecidableEq, Repr

def TimestampError.message : TimestampError → String
  | .outOfRange => "input is out of range"
  | .badCharacter => "input contains invalid characters"
  | .tooShort => "premature end of input"
  | .tooLong => "trailing input"
  | .impossible => "no possible date and time matching input"

namespace Timestamp

/-! ## Dates -/

/-- The days from the start of 1970 to a date. Years are counted from March, so that the day that
leap years add is the last one. -/
def daysOfDate (year : Int) (month day : Nat) : Int :=
  let marchYear := if month ≤ 2 then year - 1 else year
  let era := marchYear / 400
  let yearOfEra := marchYear % 400
  let dayOfYear : Int := ((153 * ((month + 9) % 12) + 2) / 5 + day - 1 : Nat)
  era * 146097 + (yearOfEra * 365 + yearOfEra / 4 - yearOfEra / 100 + dayOfYear) - 719468

/-- The year, month and day of a number of days since the start of 1970. -/
def dateOfDays (days : Int) : Int × Nat × Nat :=
  let shifted := days + 719468
  let era := shifted / 146097
  let dayOfEra := (shifted % 146097).toNat
  let yearOfEra :=
    (dayOfEra - dayOfEra / 1460 + dayOfEra / 36524 - dayOfEra / 146096) / 365
  let dayOfYear := dayOfEra - (365 * yearOfEra + yearOfEra / 4 - yearOfEra / 100)
  let marchMonth := (5 * dayOfYear + 2) / 153
  let day := dayOfYear - (153 * marchMonth + 2) / 5 + 1
  let month := if marchMonth < 10 then marchMonth + 3 else marchMonth - 9
  let year := era * 400 + yearOfEra
  (if month ≤ 2 then year + 1 else year, month, day)

def isLeapYear (year : Int) : Bool :=
  year % 4 == 0 && (year % 100 != 0 || year % 400 == 0)

def daysInMonth (year : Int) (month : Nat) : Nat :=
  if month = 2 then (if isLeapYear year then 29 else 28)
  else if month = 4 ∨ month = 6 ∨ month = 9 ∨ month = 11 then 30
  else 31

/-! ## Reading -/

def dropBlanks (text : List Char) : List Char := text.dropWhile Text.isBlank

/-- Reads one to `width` digits and checks the range of their number. -/
def readDigits (width least greatest : Nat) (text : List Char) :
    Except TimestampError (Nat × List Char) :=
  let digits := (text.take width).takeWhile Char.isDigit
  if text.isEmpty then .error .tooShort
  else if digits.isEmpty then .error .badCharacter
  else
    let n := natOfDigits digits
    if n < least ∨ greatest < n then .error .outOfRange
    else .ok (n, text.drop digits.length)

def readNumber (width least greatest : Nat) (text : List Char) :
    Except TimestampError (Nat × List Char) :=
  readDigits width least greatest (dropBlanks text)

/-- Reads a year: four digits, or any number of them after a sign. -/
def readYear (text : List Char) : Except TimestampError (Int × List Char) :=
  match dropBlanks text with
  | '-' :: rest => do
    let (n, rest) ← readDigits rest.length 0 (twoTo 31) rest
    return (-(n : Int), rest)
  | '+' :: rest => do
    let (n, rest) ← readDigits rest.length 0 (twoTo 31 - 1) rest
    return (n, rest)
  | unsigned => do
    let (n, rest) ← readDigits 4 0 9999 unsigned
    return (n, rest)

/-- Passes over blanks and one character. -/
def readMark (mark : Char) (text : List Char) : Except TimestampError (List Char) :=
  match dropBlanks text with
  | [] => .error .tooShort
  | c :: rest => if c = mark then .ok rest else .error .badCharacter

/-- Reads the fraction of a second in nanoseconds, if there is one. Digits beyond the ninth are
passed over. -/
def readFraction : List Char → Except TimestampError (Nat × List Char)
  | '.' :: text =>
    let digits := text.takeWhile Char.isDigit
    if text.isEmpty then .error .tooShort
    else if digits.isEmpty then .error .badCharacter
    else
      let kept := digits.take 9
      .ok (natOfDigits kept * tenTo (9 - kept.length), text.dropWhile Char.isDigit)
  | text => .ok (0, text)

def readPair (greatestTens : Char) : List Char → Except TimestampError (Nat × List Char)
  | a :: b :: rest =>
    if a.isDigit ∧ b.isDigit then
      if greatestTens < a then .error .outOfRange else .ok (natOfDigits [a, b], rest)
    else .error .badCharacter
  | [c] => .error (if 1 < c.utf8Size then .badCharacter else .tooShort)
  | [] => .error .tooShort

/-- Reads the offset from universal time in seconds, after its sign. -/
def readOffset (negative : Bool) (text : List Char) : Except TimestampError (Int × List Char) := do
  let (hours, rest) ← readPair '9' text
  let (minutes, rest) ← readPair '5' (rest.dropWhile fun c => c == ':' || Text.isBlank c)
  let seconds : Int := hours * 3600 + minutes * 60
  return (if negative then -seconds else seconds, rest)

/-- Reads the zone: universal time by name, or an offset. -/
def readZone (text : List Char) : Except TimestampError (Int × List Char) :=
  if (text.take 3).map Char.toUpper = ['U', 'T', 'C'] then .ok (0, text.drop 3)
  else
    match text with
    | [] => .error .tooShort
    | c :: rest =>
      if c = 'Z' ∨ c = 'z' then .ok (0, rest)
      else if c = '+' then readOffset false rest
      else if c = '-' ∨ c = '\u2212' then readOffset true rest
      else .error .badCharacter

/-- Whether dates of a year can be named. -/
def isYearInRange (year : Int) : Bool := -262143 ≤ year && year ≤ 262142

/-- The moment of a date, a time of day and an offset, if there is such a date and the date of the
moment in universal time can be named too. -/
def ofParts (year : Int) (month day hour minute second nanos : Nat) (offset : Int) :
    Except TimestampError Timestamp :=
  if daysInMonth year month < day then .error .outOfRange
  else if !isYearInRange year ∨ offset ≤ -86400 ∨ 86400 ≤ offset then .error .outOfRange
  else
    let leap := if second = 60 then 1000000000 else 0
    let secondOfDay := hour * 3600 + minute * 60 + min second 59
    let universal := daysOfDate year month day * 86400 + secondOfDay - offset
    if isYearInRange (dateOfDays (universal / 86400)).1 then .ok ⟨universal, nanos + leap⟩
    else .error .impossible

def parse (text : String) : Except TimestampError Timestamp := do
  let (year, rest) ← readYear text.toList
  let rest ← readMark '-' rest
  let (month, rest) ← readNumber 2 1 12 rest
  let rest ← readMark '-' rest
  let (day, rest) ← readNumber 2 1 31 rest
  match rest with
  | [] => throw .tooShort
  | separator :: rest =>
    if separator ≠ 'T' ∧ separator ≠ 't' ∧ separator ≠ ' ' then throw .badCharacter
    let (hour, rest) ← readNumber 2 0 23 rest
    let rest ← readMark ':' rest
    let (minute, rest) ← readNumber 2 0 59 rest
    let rest ← readMark ':' rest
    let (second, rest) ← readNumber 2 0 60 rest
    let (nanos, rest) ← readFraction rest
    let (offset, rest) ← readZone (dropBlanks rest)
    if !(dropBlanks rest).isEmpty then throw .tooLong
    ofParts year month day hour minute second nanos offset

/-! ## Writing -/

/-- The number with zeros in front, of at least `width` digits. -/
def padded (width n : Nat) : List Char :=
  let digits := digitsOfNat n
  List.replicate (width - digits.length) '0' ++ digits

/-- The fraction of a second: of three, six and nine digits the fewest that show it in full. -/
def fractionChars (nanos : Nat) : List Char :=
  if nanos = 0 then []
  else if nanos % 1000000 = 0 then '.' :: padded 3 (nanos / 1000000)
  else if nanos % 1000 = 0 then '.' :: padded 6 (nanos / 1000)
  else '.' :: padded 9 nanos

/-- A year of four digits, and any other year with its sign. -/
def yearChars (year : Int) : List Char :=
  if 0 ≤ year ∧ year ≤ 9999 then padded 4 year.toNat
  else (if year < 0 then '-' else '+') :: padded 4 year.natAbs

def render (t : Timestamp) : String :=
  let (year, month, day) := dateOfDays (t.second / 86400)
  let secondOfDay := (t.second % 86400).toNat
  let leap := t.nanos / 1000000000
  String.ofList (yearChars year ++ '-' :: padded 2 month ++ '-' :: padded 2 day
    ++ 'T' :: padded 2 (secondOfDay / 3600) ++ ':' :: padded 2 (secondOfDay / 60 % 60)
    ++ ':' :: padded 2 (secondOfDay % 60 + leap) ++ fractionChars (t.nanos % 1000000000) ++ ['Z'])

/-! ## Differences -/

/-- The nanoseconds from `start` to `stop`. A leap second within the same day of either end counts
if it lies between them. -/
def nanosUntil (start stop : Timestamp) : Int :=
  let days := stop.second / 86400 - start.second / 86400
  let startSecond := start.second % 86400
  let stopSecond := stop.second % 86400
  let adjust : Int :=
    if startSecond < stopSecond then (if 1000000000 ≤ start.nanos then 1 else 0)
    else if stopSecond < startSecond then (if 1000000000 ≤ stop.nanos then -1 else 0)
    else 0
  (days * 86400 + stopSecond - startSecond + adjust) * 1000000000 + stop.nanos - start.nanos

/-- The whole milliseconds from `start` to `stop`, without the rest. -/
def millisUntil (start stop : Timestamp) : Int :=
  (nanosUntil start stop).tdiv 1000000

end Timestamp

end StepScript
