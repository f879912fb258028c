import StepScript.Json.Error

/-!
# JSON documents

A document is the outcome of scanning a text once from left to right: the values that were read,
in the order of the text and with repeated members, down to the first fault. A reader that walks
a document in its order meets the faults of the text and those of the values in the order in which
they stand in the text.
-/

namespace StepScript.Json

/-- A value as far as it could be read. A list or an object that is not closed properly carries
the fault behind its last element. -/
inductive Document where
  | null
  | bool (value : Bool)
  | number (value : Number)
  | string (value : String)
  | array (items : List Document) (fault : Option Malformed)
  | object (members : List (String × Document)) (fault : Option Malformed)
  | broken (cause : Malformed)
  | skipped

instance : Inhabited Document := ⟨.null⟩

/-! ## Blanks and words -/

def isSpace (c : Char) : Bool :=
  c == ' ' || c == '\n' || c == '\t' || c == '\r'

def dropSpace (text : List Char) : List Char := text.dropWhile isSpace

/-- Passes over the letters of a word. -/
def scanWord : List Char → List Char → Except Malformed (List Char)
  | [], rest => .ok rest
  | _ :: _, [] => .error .endInValue
  | c :: word, d :: rest => if c = d then scanWord word rest else .error .identExpected

/-! ## Strings -/

def hexValue? (c : Char) : Option Nat :=
  if '0' ≤ c ∧ c ≤ '9' then some (c.toNat - '0'.toNat)
  else if 'a' ≤ c ∧ c ≤ 'f' then some (c.toNat - 'a'.toNat + 10)
  else if 'A' ≤ c ∧ c ≤ 'F' then some (c.toNat - 'A'.toNat + 10)
  else none

def byteCount (text : List Char) : Nat :=
  text.foldl (fun n c => n + c.utf8Size) 0

/-- The number that four hexadecimal digits stand for. A text of fewer than four bytes ends within
the escape. -/
def scanHex (text : List Char) : Except Malformed (Nat × List Char) :=
  let fault := if byteCount (text.take 4) < 4 then Malformed.endInString else .badEscape
  match text with
  | a :: b :: c :: d :: rest =>
    match hexValue? a, hexValue? b, hexValue? c, hexValue? d with
    | some a, some b, some c, some d => .ok (((a * 16 + b) * 16 + c) * 16 + d, rest)
    | _, _, _, _ => .error fault
  | _ => .error fault

/-- Whether a code unit is the first half of a pair. -/
def isLeading (unit : Nat) : Bool := 0xD800 ≤ unit && unit ≤ 0xDBFF

/-- Whether a code unit is the second half of a pair. -/
def isTrailing (unit : Nat) : Bool := 0xDC00 ≤ unit && unit ≤ 0xDFFF

/-- The second half of a pair, after the first half `leading`. -/
def scanTrailing (leading : Nat) : List Char → Except Malformed (Char × List Char)
  | [] => .error .endInString
  | '\\' :: [] => .error .endInString
  | '\\' :: 'u' :: text => do
    let (trailing, rest) ← scanHex text
    if isTrailing trailing then
      return (Char.ofNat ((leading - 0xD800) * 0x400 + (trailing - 0xDC00) + 0x10000), rest)
    else throw .loneSurrogate
  | _ => .error .endOfHexEscape

/-- The character of an escape by code unit, whose digits begin the text. -/
def scanUnicode (text : List Char) : Except Malformed (Char × List Char) := do
  let (unit, rest) ← scanHex text
  if isTrailing unit then throw .loneSurrogate
  else if isLeading unit then scanTrailing unit rest
  else return (Char.ofNat unit, rest)

def shortEscape? (c : Char) : Option Char :=
  if c = '"' ∨ c = '\\' ∨ c = '/' then some c
  else if c = 'b' then some '\x08'
  else if c = 'f' then some '\x0c'
  else if c = 'n' then some '\n'
  else if c = 'r' then some '\r'
  else if c = 't' then some '\t'
  else none

def scanEscape : List Char → Except Malformed (Char × List Char)
  | [] => .error .endInString
  | 'u' :: rest => scanUnicode rest
  | c :: rest =>
    match shortEscape? c with
    | some d => .ok (d, rest)
    | none => .error .badEscape

/-- The characters of a string up to its closing quote, read after `before`, which is reversed.
More `fuel` than the text has characters always suffices. -/
def scanString : Nat → List Char → List Char → Except Malformed (String × List Char)
  | 0, _, _ => .error .endInString
  | _, _, [] => .error .endInString
  | fuel + 1, before, c :: rest =>
    if c = '"' then .ok (String.ofList before.reverse, rest)
    else if c = '\\' then do
      let (d, rest) ← scanEscape rest
      scanString fuel (d :: before) rest
    else if c.toNat < 0x20 then .error .controlCharacter
    else scanString fuel (c :: before) rest

/-! ## Numbers -/

/-- Adds digits to a coefficient as long as it stays below `2 ^ 64`. Returns the coefficient and
the digits that did not fit any more. -/
def accumulate : Nat → List Char → Nat × List Char
  | coefficient, [] => (coefficient, [])
  | coefficient, digit :: rest =>
    let next := 10 * coefficient + (digit.toNat - '0'.toNat)
    if next < wordLimit then accumulate next rest else (coefficient, digit :: rest)

def powerOfTen (exponent : Nat) : Binary64 := Decimal.toBinary64 false ⟨1, exponent⟩

/-- Divides by `10 ^ exponent`, by at most `10 ^ 308` at a time. Zero stays as it is. -/
def scaleDown (x : Binary64) (exponent : Nat) : Binary64 :=
  if exponent ≤ 308 then x.div (powerOfTen exponent)
  else if x.isZero then x
  else scaleDown (x.div (powerOfTen 308)) (exponent - 308)
termination_by exponent

/-- The real number `coefficient * 10 ^ exponent`, rounded once for the coefficient and once for
each scaling. -/
def realOfParts (negative : Bool) (coefficient : Nat) (exponent : Int) :
    Except Malformed Number :=
  let start := Binary64.ofInt coefficient
  let scaled :=
    if exponent < 0 then scaleDown start exponent.natAbs
    else if start.isZero then start
    else if 308 < exponent then .infinite false
    else start.mul (powerOfTen exponent.toNat)
  match if negative then scaled.neg else scaled with
  | .finite x => .ok (.real x)
  | _ => .error .numberOutOfRange

def scanExponent (text : List Char) : Except Malformed (Int × List Char) :=
  let (negative, unsigned) := Numeral.takeSign text
  let (digits, rest) := Numeral.takeDigits unsigned
  if digits.isEmpty then .error (if unsigned.isEmpty then .endInValue else .badNumber)
  else .ok (if negative then -(natOfDigits digits : Int) else natOfDigits digits, rest)

/-- The real number with the digits read so far, which may go on with an exponent. -/
def scanRealEnd (negative : Bool) (coefficient : Nat) (scale : Int) :
    List Char → Except Malformed (Number × List Char)
  | c :: text =>
    if c = 'e' ∨ c = 'E' then do
      let (exponent, rest) ← scanExponent text
      let number ← realOfParts negative coefficient (scale + exponent)
      return (number, rest)
    else do
      let number ← realOfParts negative coefficient scale
      return (number, c :: text)
  | [] => do
    let number ← realOfParts negative coefficient scale
    return (number, [])

/-- The real number whose digits after the point begin the text. Digits that the coefficient
cannot hold are dropped. -/
def scanFraction (negative : Bool) (coefficient : Nat) (scale : Int) (text : List Char) :
    Except Malformed (Number × List Char) :=
  let (digits, rest) := Numeral.takeDigits text
  if digits.isEmpty then .error (if text.isEmpty then .endInValue else .badNumber)
  else
    let (longer, dropped) := accumulate coefficient digits
    scanRealEnd negative longer (scale - (digits.length - dropped.length)) rest

/-- The number without fraction and exponent. Negative zero and integers of more than 64 bits are
real numbers. -/
def wholeNumber (negative : Bool) (coefficient : Nat) (scale : Nat) : Except Malformed Number :=
  let value : Int := if negative then -(coefficient : Int) else coefficient
  if scale = 0 ∧ leastInteger ≤ value ∧ ¬ (negative ∧ coefficient = 0) then .ok (.integer value)
  else realOfParts negative coefficient scale

def scanUnsigned (negative : Bool) (text : List Char) : Except Malformed (Number × List Char) :=
  let (digits, rest) := Numeral.takeDigits text
  let leadingZero := digits.head? == some '0' && 1 < digits.length
  if digits.isEmpty then .error (if text.isEmpty then .endInValue else .badNumber)
  else if leadingZero then .error .badNumber
  else
    let (coefficient, dropped) := accumulate 0 digits
    let scale := dropped.length
    match rest with
    | '.' :: afterPoint => scanFraction negative coefficient scale afterPoint
    | c :: _ =>
      if c = 'e' ∨ c = 'E' then scanRealEnd negative coefficient scale rest
      else do
        let number ← wholeNumber negative coefficient scale
        return (number, rest)
    | [] => do
      let number ← wholeNumber negative coefficient scale
      return (number, rest)

/-! ## Values -/

/-- How many lists and objects may be open at once. -/
def nestingLimit : Nat := 127

/-- A document and the text after it, if the text can be read on there. -/
abbrev Scanned := Document × Option (List Char)

def scanNamed (value : Document) (word text : List Char) : Scanned :=
  match scanWord word text with
  | .ok rest => (value, some rest)
  | .error cause => (.broken cause, none)

/-- The number of calls that scanning a text never exceeds. -/
def enoughFuel (text : List Char) : Nat := 3 * text.length + 3

mutual

/-- The value at the start of a text, in which `levels` more lists and objects may be opened.
Of three calls in a row one reads a character, so that `enoughFuel` suffices. -/
def scanValue : Nat → Nat → List Char → Scanned
  | 0, _, _ => (.broken .endInValue, none)
  | fuel + 1, levels, text =>
    match dropSpace text with
    | [] => (.broken .endInValue, none)
    | c :: rest =>
      if c = 'n' then scanNamed .null ['u', 'l', 'l'] rest
      else if c = 't' then scanNamed (.bool true) ['r', 'u', 'e'] rest
      else if c = 'f' then scanNamed (.bool false) ['a', 'l', 's', 'e'] rest
      else if c = '"' then
        match scanString fuel [] rest with
        | .ok (value, rest) => (.string value, some rest)
        | .error cause => (.broken cause, none)
      else if c = '-' ∨ c.isDigit then
        match scanUnsigned (c = '-') (if c = '-' then rest else c :: rest) with
        | .ok (value, rest) => (.number value, some rest)
        | .error cause => (.broken cause, none)
      else if c = '[' then
        match levels with
        | 0 => (.broken .nestingTooDeep, none)
        | levels + 1 =>
          let (items, fault, after) := scanItems fuel levels true rest
          (.array items fault, after)
      else if c = '\x7b' then
        match levels with
        | 0 => (.broken .nestingTooDeep, none)
        | levels + 1 =>
          let (members, fault, after) := scanMembers fuel levels true rest
          (.object members fault, after)
      else (.broken .valueExpected, none)

/-- The items of a list from the next one, or from a comma if this is not the `first`. -/
def scanItems : Nat → Nat → Bool → List Char →
    List Document × Option Malformed × Option (List Char)
  | 0, _, _, _ => ([], some .endInList, none)
  | fuel + 1, levels, first, text =>
    match dropSpace text with
    | [] => ([], some .endInList, none)
    | c :: rest =>
      if c = ']' then ([], none, some rest)
      else if first then scanItem fuel levels (c :: rest)
      else if c = ',' then
        match dropSpace rest with
        | [] => ([.broken .endInValue], none, none)
        | ']' :: _ => ([], some .trailingComma, none)
        | next => scanItem fuel levels next
      else ([], some .listCommaExpected, none)

def scanItem : Nat → Nat → List Char →
    List Document × Option Malformed × Option (List Char)
  | 0, _, _ => ([], some .endInList, none)
  | fuel + 1, levels, text =>
    match scanValue fuel levels text with
    | (item, none) => ([item], none, none)
    | (item, some rest) =>
      let (items, fault, after) := scanItems fuel levels false rest
      (item :: items, fault, after)

/-- The members of an object from the next one, or from a comma if this is not the `first`. -/
def scanMembers : Nat → Nat → Bool → List Char →
    List (String × Document) × Option Malformed × Option (List Char)
  | 0, _, _, _ => ([], some .endInObject, none)
  | fuel + 1, levels, first, text =>
    match dropSpace text with
    | [] => ([], some .endInObject, none)
    | c :: rest =>
      if c = '\x7d' then ([], none, some rest)
      else if first then scanMember fuel levels (c :: rest)
      else if c = ',' then
        match dropSpace rest with
        | [] => ([], some .endInValue, none)
        | '\x7d' :: _ => ([], some .trailingComma, none)
        | next => scanMember fuel levels next
      else ([], some .objectCommaExpected, none)

/-- A member of an object and those after it. A key without a colon behind it is a member whose
value is broken. -/
def scanMember : Nat → Nat → List Char →
    List (String × Document) × Option Malformed × Option (List Char)
  | 0, _, _ => ([], some .endInObject, none)
  | fuel + 1, levels, text =>
    match text with
    | '"' :: rest =>
      match scanString fuel [] rest with
      | .error cause => ([], some cause, none)
      | .ok (key, rest) =>
        match dropSpace rest with
        | [] => ([(key, .broken .endInObject)], none, none)
        | ':' :: rest =>
          match scanValue fuel levels rest with
          | (value, none) => ([(key, value)], none, none)
          | (value, some rest) =>
            let (members, fault, after) := scanMembers fuel levels false rest
            ((key, value) :: members, fault, after)
        | _ => ([(key, .broken .colonExpected)], none, none)
    | _ => ([], some .keyExpected, none)

end

/-! ## Values that nobody reads -/

/-- Passes over the rest of a string. Escapes by code unit need not form pairs. -/
def skipString : Nat → List Char → Except Malformed (List Char)
  | 0, _ => .error .endInString
  | _, [] => .error .endInString
  | fuel + 1, c :: rest =>
    if c = '"' then .ok rest
    else if c = '\\' then
      match rest with
      | 'u' :: rest => do
        let (_, rest) ← scanHex rest
        skipString fuel rest
      | _ => do
        let (_, rest) ← scanEscape rest
        skipString fuel rest
    else if c.toNat < 0x20 then .error .controlCharacter
    else skipString fuel rest

/-- Passes over digits, of which there must be one. -/
def skipDigits (text : List Char) : Except Malformed (List Char) :=
  let (digits, rest) := Numeral.takeDigits text
  if digits.isEmpty then .error .badNumber else .ok rest

def skipExponent : List Char → Except Malformed (List Char)
  | c :: text =>
    if c = 'e' ∨ c = 'E' then skipDigits (Numeral.takeSign text).2 else .ok (c :: text)
  | [] => .ok []

/-- Passes over a number of any size. -/
def skipUnsigned (text : List Char) : Except Malformed (List Char) := do
  let (digits, _) := Numeral.takeDigits text
  if digits.head? == some '0' && 1 < digits.length then throw .badNumber
  match ← skipDigits text with
  | '.' :: afterPoint =>
    let rest ← skipDigits afterPoint
    skipExponent rest
  | rest => skipExponent rest

mutual

/-- Passes over a value of any depth. -/
def skipValue : Nat → List Char → Except Malformed (List Char)
  | 0, _ => .error .endInValue
  | fuel + 1, text =>
    match dropSpace text with
    | [] => .error .endInValue
    | c :: rest =>
      if c = 'n' then scanWord ['u', 'l', 'l'] rest
      else if c = 't' then scanWord ['r', 'u', 'e'] rest
      else if c = 'f' then scanWord ['a', 'l', 's', 'e'] rest
      else if c = '"' then skipString fuel rest
      else if c = '-' then skipUnsigned rest
      else if c.isDigit then skipUnsigned (c :: rest)
      else if c = '[' then skipItems fuel true rest
      else if c = '\x7b' then skipMembers fuel true rest
      else .error .valueExpected

def skipItems : Nat → Bool → List Char → Except Malformed (List Char)
  | 0, _, _ => .error .endInList
  | fuel + 1, first, text =>
    match dropSpace text with
    | [] => .error .endInList
    | c :: rest =>
      if c = ']' then .ok rest
      else if first then do
        let rest ← skipValue fuel (c :: rest)
        skipItems fuel false rest
      else if c = ',' then do
        let rest ← skipValue fuel rest
        skipItems fuel false rest
      else .error .listCommaExpected

def skipMembers : Nat → Bool → List Char → Except Malformed (List Char)
  | 0, _, _ => .error .endInObject
  | fuel + 1, first, text =>
    match dropSpace text with
    | [] => .error .endInObject
    | c :: rest =>
      if c = '\x7d' then .ok rest
      else if first then skipMember fuel (c :: rest)
      else if c = ',' then skipMember fuel (dropSpace rest)
      else .error .objectCommaExpected

def skipMember : Nat → List Char → Except Malformed (List Char)
  | 0, _ => .error .endInObject
  | fuel + 1, text =>
    match text with
    | [] => .error .endInObject
    | '"' :: rest => do
      let rest ← skipString fuel rest
      match dropSpace rest with
      | [] => throw .endInObject
      | ':' :: rest =>
        let rest ← skipValue fuel rest
        skipMembers fuel false rest
      | _ => throw .colonExpected
    | _ => .error .keyExpected

end

/-! ## Texts -/

/-- A scanned text: a document and the fault in the text after it. -/
structure Scan where
  document : Document
  after : Option Malformed

def faultAfter : Option (List Char) → Option Malformed
  | some rest => if (dropSpace rest).isEmpty then none else some .trailingCharacters
  | none => none

/-- Scans a text whose value is read as a whole. -/
def scan (text : String) : Scan :=
  let (document, after) := scanValue (enoughFuel text.toList) nestingLimit text.toList
  ⟨document, faultAfter after⟩

/-- Scans the members of the outermost object, of which only those with a `known` key are
read. -/
def scanKnownMembers (known : List String) : Nat → Bool → List Char →
    List (String × Document) × Option Malformed × Option (List Char)
  | 0, _, _ => ([], some .endInObject, none)
  | fuel + 1, first, text =>
    let member (text : List Char) :=
      match text with
      | '"' :: rest =>
        match scanString fuel [] rest with
        | .error cause => ([], some cause, none)
        | .ok (key, rest) =>
          match dropSpace rest with
          | [] => ([(key, .broken .endInObject)], none, none)
          | ':' :: rest =>
            let (value, after) : Scanned :=
              if known.contains key then
                scanValue fuel (nestingLimit - 1) rest
              else
                match skipValue fuel rest with
                | .ok rest => (.skipped, some rest)
                | .error cause => (.broken cause, none)
            match after with
            | none => ([(key, value)], none, none)
            | some rest =>
              let (members, fault, after) := scanKnownMembers known fuel false rest
              ((key, value) :: members, fault, after)
          | _ => ([(key, .broken .colonExpected)], none, none)
      | _ => ([], some .keyExpected, none)
    match dropSpace text with
    | [] => ([], some .endInObject, none)
    | c :: rest =>
      if c = '\x7d' then ([], none, some rest)
      else if first then member (c :: rest)
      else if c = ',' then
        match dropSpace rest with
        | [] => ([], some .endInValue, none)
        | '\x7d' :: _ => ([], some .trailingComma, none)
        | next => member next
      else ([], some .objectCommaExpected, none)

/-- Scans a text whose outermost object is read for `known` members only. -/
def scanKnown (known : List String) (text : String) : Scan :=
  match dropSpace text.toList with
  | '\x7b' :: rest =>
    let (members, fault, after) := scanKnownMembers known (enoughFuel rest) true rest
    ⟨.object members fault, faultAfter after⟩
  | _ => scan text

/-! ## Whole values -/

mutual

/-- The value of a document, or the first fault in it. Of members with one key the last stays. -/
def Document.toJson : Document → Except Malformed Json
  | .null | .skipped => .ok .null
  | .bool value => .ok (.bool value)
  | .number value => .ok (.number value)
  | .string value => .ok (.string value)
  | .broken cause => .error cause
  | .array items fault => do
    let items ← Document.itemsToJson items
    match fault with
    | some cause => throw cause
    | none => return .array items
  | .object members fault => do
    let members ← Document.membersToJson members
    match fault with
    | some cause => throw cause
    | none => return .ofMembers members

def Document.itemsToJson : List Document → Except Malformed (List Json)
  | [] => .ok []
  | item :: rest => do
    let item ← item.toJson
    let rest ← Document.itemsToJson rest
    return item :: rest

def Document.membersToJson : List (String × Document) → Except Malformed (List (String × Json))
  | [] => .ok []
  | (key, value) :: rest => do
    let value ← value.toJson
    let rest ← Document.membersToJson rest
    return (key, value) :: rest

end

mutual

/-- The document of a value, which has no faults. -/
def Document.ofJson : Json → Document
  | .null => .null
  | .bool value => .bool value
  | .number value => .number value
  | .string value => .string value
  | .array items => .array (Document.ofItems items) none
  | .object members => .object (Document.ofMembers members) none

def Document.ofItems : List Json → List Document
  | [] => []
  | item :: rest => Document.ofJson item :: Document.ofItems rest

def Document.ofMembers : List (String × Json) → List (String × Document)
  | [] => []
  | (key, value) :: rest => (key, Document.ofJson value) :: Document.ofMembers rest

end

/-- Reads a scanned text: faults in the document come before the one behind it. -/
def Scan.read {α : Type} (s : Scan) (reader : Document → Except ReadError α) :
    Except ReadError α := do
  let value ← reader s.document
  match s.after with
  | some cause => throw (.malformed cause)
  | none => return value

def parse (text : String) : Except Malformed Json := do
  let s := scan text
  let value ← s.document.toJson
  match s.after with
  | some cause => throw cause
  | none => return value

end StepScript.Json
