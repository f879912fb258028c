import StepScript.Number.Numeral

/-!
# Quoted texts of configuration files

A text stands in double quotes, where a backslash begins an escape, or in single quotes, where every
character stands for itself. One quote at each end holds a text in one line. Three of them hold a
text of several lines; a line break right behind the opening quotes does not count, and up to two
more quotes may stand in front of the closing ones.
-/

namespace StepScript.Config

/-! ## Digits of any base -/

def digitValue? (base : Nat) (c : Char) : Option Nat :=
  let value :=
    if c.isDigit then c.toNat - '0'.toNat
    else if 'a' ≤ c.toLower ∧ c.toLower ≤ 'f' then c.toLower.toNat - 'a'.toNat + 10
    else base
  if value < base then some value else none

def natOfBase? (base : Nat) (digits : List Char) : Option Nat :=
  digits.foldlM (fun n c => (digitValue? base c).map (base * n + ·)) 0

/-! ## Characters -/

/-- Whether a character must not stand in a line. -/
def isControl (c : Char) : Bool := (c.toNat < 32 && c != '\t') || c.toNat == 127

def isSpace (c : Char) : Bool := c == ' ' || c == '\t'

def skipSpaces (text : List Char) : List Char := text.dropWhile isSpace

theorem length_skipSpaces (text : List Char) : (skipSpaces text).length ≤ text.length :=
  (List.dropWhile_sublist _).length_le

def charOfHex? (digits : List Char) : Option Char := do
  let code ← natOfBase? 16 digits
  if code.isValidChar then some (Char.ofNat code) else none

/-- The character that stands behind a backslash for another one. -/
def unescaped? : Char → Option Char
  | 'b' => some '\x08'
  | 't' => some '\t'
  | 'n' => some '\n'
  | 'f' => some '\x0c'
  | 'r' => some '\r'
  | '"' => some '"'
  | '\\' => some '\\'
  | _ => none

/-! ## Bodies -/

/-- Where a text ends: what belongs to it of the quotes at hand, and what follows them. -/
abbrev Closing : Type := List Char → Option (List Char × List Char)

/-- A text of one line ends at the next quote. -/
def closesLine (quote : Char) : Closing
  | [] => none
  | c :: rest => if c = quote then some ([], rest) else none

/-- A text of several lines ends at three quotes in a row; of up to five of them the last three. -/
def closesLines (quote : Char) : Closing := fun text =>
  let quotes := text.takeWhile (· == quote)
  if quotes.length < 3 then none
  else
    let kept := min (quotes.length - 3) 2
    some (List.replicate kept quote, text.drop (kept + 3))

def precede (c : Char) (scanned : List Char × List Char) : List Char × List Char :=
  (c :: scanned.1, scanned.2)

/-- The text up to where it ends, and what follows it. With escapes, the character behind a
backslash does not end it; `escaped` tells whether the first one stands there. -/
def bodyUntil (closing : Closing) (escapes escaped : Bool) :
    List Char → Option (List Char × List Char)
  | [] => none
  | c :: rest =>
    if escaped then (bodyUntil closing escapes false rest).map (precede c)
    else
      match closing (c :: rest) with
      | some ends => some ends
      | none => (bodyUntil closing escapes (escapes && c == '\\') rest).map (precede c)

/-- Whether nothing but spaces stands before the next line break. -/
def endsLine (text : List Char) : Bool := (skipSpaces text).head? == some '\n'

/-- The text that a text with escapes stands for. A backslash at the end of a line is left out,
together with all spaces and line breaks behind it; `skipping` tells whether they go on here. -/
def unescape (skipping : Bool) : List Char → Option (List Char)
  | [] => some []
  | '\\' :: 'u' :: a :: b :: c :: d :: rest => do
    let char ← charOfHex? [a, b, c, d]
    let text ← unescape false rest
    return char :: text
  | '\\' :: 'U' :: a :: b :: c :: d :: e :: f :: g :: h :: rest => do
    let char ← charOfHex? [a, b, c, d, e, f, g, h]
    let text ← unescape false rest
    return char :: text
  | '\\' :: c :: rest =>
    match unescaped? c with
    | some char => (unescape false rest).map (char :: ·)
    | none => if endsLine (c :: rest) then unescape true rest else none
  | c :: rest =>
    if skipping && (isSpace c || c == '\n') then unescape true rest
    else if c = '\\' then none
    else (unescape false rest).map (c :: ·)

/-! ## Quoted texts -/

/-- The text that a body stands for, all of whose characters must be allowed. -/
def contentOf? (allowed : Char → Bool) (escapes : Bool) (body : List Char) : Option (List Char) :=
  if !body.all allowed then none
  else if escapes then unescape false body
  else some body

def scanBody (closing : Closing) (allowed : Char → Bool) (escapes : Bool) (text : List Char) :
    Option (List Char × List Char) := do
  let (body, rest) ← bodyUntil closing escapes false text
  let content ← contentOf? allowed escapes body
  return (content, rest)

def scanQuoted : List Char → Option (List Char × List Char)
  | [] => none
  | quote :: rest =>
    if quote = '"' ∨ quote = '\'' then
      scanBody (closesLine quote) (!isControl ·) (quote == '"') rest
    else none

def isLineChar (c : Char) : Bool := c == '\n' || !isControl c

def withoutFirstBreak : List Char → List Char
  | '\n' :: rest => rest
  | text => text

def scanText (text : List Char) : Option (List Char × List Char) :=
  match text with
  | a :: b :: c :: rest =>
    if a = b ∧ b = c ∧ (a = '"' ∨ a = '\'') then
      scanBody (closesLines a) isLineChar (a == '"') (withoutFirstBreak rest)
    else scanQuoted text
  | text => scanQuoted text

/-! ## What is scanned is used up -/

theorem length_bodyUntil {closing : Closing} {escapes escaped : Bool}
    (shorter : ∀ text ends, closing text = some ends → ends.2.length < text.length)
    {text : List Char} {scanned : List Char × List Char}
    (h : bodyUntil closing escapes escaped text = some scanned) :
    scanned.2.length < text.length := by
  induction text generalizing escaped scanned with
  | nil => simp [bodyUntil] at h
  | cons c rest ih =>
    simp only [bodyUntil] at h
    split at h
    · obtain ⟨inner, hinner, rfl⟩ := Option.map_eq_some_iff.1 h
      exact Nat.lt_succ_of_lt (show inner.2.length < rest.length from ih hinner)
    · split at h
      · next ends hends =>
        cases h
        exact shorter _ _ hends
      · obtain ⟨inner, hinner, rfl⟩ := Option.map_eq_some_iff.1 h
        exact Nat.lt_succ_of_lt (show inner.2.length < rest.length from ih hinner)

theorem length_closesLine {quote : Char} (text : List Char) (ends : List Char × List Char)
    (h : closesLine quote text = some ends) : ends.2.length < text.length := by
  cases text with
  | nil => simp [closesLine] at h
  | cons c rest => grind [closesLine]

theorem length_scanBody {closing : Closing} {allowed : Char → Bool} {escapes : Bool}
    (shorter : ∀ text ends, closing text = some ends → ends.2.length < text.length)
    {text : List Char} {scanned : List Char × List Char}
    (h : scanBody closing allowed escapes text = some scanned) :
    scanned.2.length < text.length := by
  unfold scanBody at h
  simp only [Option.bind_eq_bind, Option.bind_eq_some_iff] at h
  obtain ⟨_, hbody, _, _, h⟩ := h
  have := length_bodyUntil shorter hbody
  cases h
  exact this

theorem length_scanQuoted {text : List Char} {scanned : List Char × List Char}
    (h : scanQuoted text = some scanned) : scanned.2.length < text.length := by
  cases text with
  | nil => simp [scanQuoted] at h
  | cons quote rest =>
    simp only [scanQuoted] at h
    split at h
    · exact Nat.lt_succ_of_lt (length_scanBody length_closesLine h)
    · simp at h

end StepScript.Config
