import StepScript.Dictionary
import StepScript.Number.Format

/-!
# JSON values

Numbers are integers of 64 bits or finite binary64 numbers, and the two are different values even
if they are equal as numbers. The members of an object are kept in the order of their keys.
-/

namespace StepScript

inductive Json.Number where
  | integer (value : Int)
  | real (value : Binary64.Finite)
deriving DecidableEq

inductive Json where
  | null
  | bool (value : Bool)
  | number (value : Json.Number)
  | string (value : String)
  | array (items : List Json)
  | object (members : List (String × Json))

namespace Json

instance : Inhabited Json := ⟨.null⟩

def ofInt (n : Int) : Json := .number (.integer n)

def ofNat (n : Nat) : Json := .ofInt n

/-- The object of some members, in any order. -/
def ofMembers (members : List (String × Json)) : Json :=
  .object (Dictionary.ofList members)

def leastInteger : Int := -signedLimit

/-! ## Text -/

/-- Real numbers show their point, and an exponent beyond sixteen digits before and five places
after it. A tie goes to the even digit. -/
def realFormat : NumberFormat where
  tie := .toEven
  isPlain leading := -5 ≤ leading && leading < 16
  keepsPoint := true

def integerChars (n : Int) : List Char :=
  if n < 0 then '-' :: digitsOfNat n.natAbs else digitsOfNat n.natAbs

def Number.chars : Number → List Char
  | .integer n => integerChars n
  | .real x => realFormat.render x

/-- The two lower hexadecimal digits of a character. -/
def hexPair (c : Char) : List Char :=
  [Nat.digitChar (c.toNat / 16 % 16), Nat.digitChar (c.toNat % 16)]

/-- The form of a character inside quotes: quotes, backslashes and controls are escaped. -/
def escapeChar (c : Char) : List Char :=
  if c = '"' then ['\\', '"']
  else if c = '\\' then ['\\', '\\']
  else if c = '\n' then ['\\', 'n']
  else if c = '\r' then ['\\', 'r']
  else if c = '\t' then ['\\', 't']
  else if c = '\x08' then ['\\', 'b']
  else if c = '\x0c' then ['\\', 'f']
  else if c.toNat < 0x20 then ['\\', 'u', '0', '0'] ++ hexPair c
  else [c]

def quote (text : String) : List Char :=
  '"' :: text.toList.flatMap escapeChar ++ ['"']

mutual

/-- The compact text of a value. -/
def chars : Json → List Char
  | .null => ['n', 'u', 'l', 'l']
  | .bool true => ['t', 'r', 'u', 'e']
  | .bool false => ['f', 'a', 'l', 's', 'e']
  | .number n => n.chars
  | .string text => quote text
  | .array items => '[' :: itemsChars items ++ [']']
  | .object members => '\x7b' :: membersChars members ++ ['\x7d']

def itemsChars : List Json → List Char
  | [] => []
  | [item] => item.chars
  | item :: next :: rest => item.chars ++ ',' :: itemsChars (next :: rest)

def membersChars : List (String × Json) → List Char
  | [] => []
  | [(key, value)] => quote key ++ ':' :: value.chars
  | (key, value) :: next :: rest =>
    quote key ++ ':' :: value.chars ++ ',' :: membersChars (next :: rest)

end

def render (value : Json) : String := String.ofList value.chars

end Json

end StepScript
