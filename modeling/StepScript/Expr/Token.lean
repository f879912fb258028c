import StepScript.Expr.Basic
import StepScript.Number.Numeral

/-!
# Tokens of expressions

What may stand where an operand is due, and what may stand after one. Each scanner takes the
longest token at the start of a text that does not begin with a blank.
-/

namespace StepScript.Expr

def isBlank (c : Char) : Bool :=
  c == ' ' || c == '\t' || c == '\r' || c == '\n'

def dropBlanks (text : List Char) : List Char := text.dropWhile isBlank

/-! ## Leaves -/

def isWordStart (c : Char) : Bool := c.isAlpha || c == '_' || c == '$'

def isWordChar (c : Char) : Bool := c.isAlphanum || c == '_' || c == '$'

/-- What a word stands for: four words are literals, any other is an identifier. -/
def ofWord (word : String) : Expr :=
  if word = "true" then .literal (.boolean true)
  else if word = "false" then .literal (.boolean false)
  else if word = "null" ∨ word = "undefined" then .literal .null
  else .identifier word

/-- The character that stands for `c` after a backslash. -/
def escaped (c : Char) : Char :=
  if c = 'n' then '\n' else if c = 't' then '\t' else if c = 'r' then '\r' else c

/-- The content of a quoted text up to its closing quote. A backslash takes the next character
with it. -/
def scanQuoted (quote : Char) : List Char → Option (List Char × List Char)
  | [] => none
  | c :: rest =>
    if c = '\\' then
      match rest with
      | [] => none
      | d :: rest => (scanQuoted quote rest).map fun (content, rest) => (escaped d :: content, rest)
    else if c = quote then some ([], rest)
    else (scanQuoted quote rest).map fun (content, rest) => (c :: content, rest)

/-! ## Operands -/

/-- A token where an operand is due. -/
inductive OperandToken where
  | sign (op : UnaryOp)
  | opening
  | leaf (value : Expr)
deriving DecidableEq

def scanLeaf? (text : List Char) : Option (Expr × List Char) :=
  match text with
  | [] => none
  | c :: rest =>
    if c.isDigit then
      (Numeral.scan? text).map fun (numeral, rest) =>
        (.literal (.number (numeral.toDecimal.toBinary64 false)), rest)
    else if c = '"' ∨ c = '\'' then
      (scanQuoted c rest).map fun (content, rest) =>
        (.literal (.text (String.ofList content)), rest)
    else if isWordStart c then
      some (ofWord (String.ofList (text.takeWhile isWordChar)), text.dropWhile isWordChar)
    else none

def scanOperand? : List Char → Option (OperandToken × List Char)
  | '!' :: rest => some (.sign .not, rest)
  | '-' :: rest => some (.sign .neg, rest)
  | '+' :: rest => some (.sign .plus, rest)
  | '(' :: rest => some (.opening, rest)
  | text => (scanLeaf? text).map fun (value, rest) => (.leaf value, rest)

/-! ## Operators -/

def scanOperator? : List Char → Option (BinaryOp × List Char)
  | '|' :: '|' :: rest => some (.or, rest)
  | '&' :: '&' :: rest => some (.and, rest)
  | '=' :: '=' :: '=' :: rest => some (.identical, rest)
  | '!' :: '=' :: '=' :: rest => some (.notIdentical, rest)
  | '=' :: '=' :: rest => some (.equal, rest)
  | '!' :: '=' :: rest => some (.notEqual, rest)
  | '<' :: '=' :: rest => some (.atMost, rest)
  | '>' :: '=' :: rest => some (.atLeast, rest)
  | '<' :: rest => some (.less, rest)
  | '>' :: rest => some (.greater, rest)
  | '+' :: rest => some (.add, rest)
  | '-' :: rest => some (.sub, rest)
  | '*' :: rest => some (.mul, rest)
  | '/' :: rest => some (.div, rest)
  | '%' :: rest => some (.rem, rest)
  | _ => none

/-! ## Each token has a character -/

theorem length_dropBlanks_le (text : List Char) : (dropBlanks text).length ≤ text.length :=
  (List.dropWhile_sublist _).length_le

theorem length_scanQuoted {quote : Char} {text content rest : List Char}
    (h : scanQuoted quote text = some (content, rest)) : rest.length < text.length := by
  fun_induction scanQuoted quote text generalizing content rest with
  | case1 => simp at h
  | case2 => simp at h
  | case3 d tail ih =>
    obtain ⟨⟨_, _⟩, hrest, heq⟩ := Option.map_eq_some_iff.1 h
    have := ih hrest
    simp only [Prod.mk.injEq] at heq
    simp only [List.length_cons, ← heq.2]
    omega
  | case4 =>
    simp only [Option.some.injEq, Prod.mk.injEq] at h
    simp [← h.2]
  | case5 c tail _ _ ih =>
    obtain ⟨⟨_, _⟩, hrest, heq⟩ := Option.map_eq_some_iff.1 h
    have := ih hrest
    simp only [Prod.mk.injEq] at heq
    simp only [List.length_cons, ← heq.2]
    omega

theorem length_scanLeaf? {text rest : List Char} {value : Expr}
    (h : scanLeaf? text = some (value, rest)) : rest.length < text.length := by
  cases text with
  | nil => simp [scanLeaf?] at h
  | cons c text =>
    simp only [scanLeaf?] at h
    split at h
    · obtain ⟨⟨numeral, after⟩, hscan, heq⟩ := Option.map_eq_some_iff.1 h
      have := Numeral.length_scan? hscan
      simp_all
    · split at h
      · obtain ⟨⟨content, after⟩, hscan, heq⟩ := Option.map_eq_some_iff.1 h
        have := length_scanQuoted hscan
        simp only [Prod.mk.injEq] at heq
        simp only [List.length_cons, ← heq.2]
        omega
      · split at h
        · next hstart =>
          simp only [Option.some.injEq, Prod.mk.injEq] at h
          have hword : isWordChar c = true := by
            simp only [isWordStart, Bool.or_eq_true] at hstart
            simp only [isWordChar, Char.isAlphanum, Bool.or_eq_true]
            grind
          have hle : (text.dropWhile isWordChar).length ≤ text.length :=
            (List.dropWhile_sublist _).length_le
          simp only [List.dropWhile_cons, hword, if_true] at h
          simp only [← h.2, List.length_cons]
          omega
        · simp at h

theorem length_scanOperand? {text rest : List Char} {token : OperandToken}
    (h : scanOperand? text = some (token, rest)) : rest.length < text.length := by
  unfold scanOperand? at h
  split at h <;> try (simp at h; simp [← h.2])
  obtain ⟨⟨value, after⟩, hscan, heq⟩ := Option.map_eq_some_iff.1 h
  have := length_scanLeaf? hscan
  simp_all

theorem length_scanOperator? {text rest : List Char} {op : BinaryOp}
    (h : scanOperator? text = some (op, rest)) : rest.length < text.length := by
  unfold scanOperator? at h
  split at h <;> simp at h <;> simp [← h.2] <;> omega

end StepScript.Expr
