/-!
# Nesting

Before a text is parsed, its nesting is measured character by character: the open parentheses and
the run of prefix operators before the next operand. Quoted text does not count.
-/

namespace StepScript

structure Nesting where
  parens : Nat
  signs : Nat
  quote : Option Char
  escaped : Bool
deriving DecidableEq, Repr

namespace Nesting

def start : Nesting := ⟨0, 0, none, false⟩

/-- Whether a character begins or continues an operand. -/
def isOperandChar (c : Char) : Bool :=
  c.isAlphanum || c == '_' || c == '$' || c == '.'

def step (n : Nesting) (c : Char) : Nesting :=
  match n.quote with
  | some q =>
    if n.escaped then { n with escaped := false }
    else if c = '\\' then { n with escaped := true }
    else if c = q then { n with quote := none }
    else n
  | none =>
    if c = '(' then { n with parens := n.parens + 1 }
    else if c = ')' then { n with parens := n.parens - 1, signs := 0 }
    else if c = '!' ∨ c = '-' ∨ c = '+' then { n with signs := n.signs + 1 }
    else if c = '"' ∨ c = '\'' then { n with quote := some c, signs := 0 }
    else if isOperandChar c then { n with signs := 0 }
    else n

def steps (n : Nesting) (text : List Char) : Nesting := text.foldl step n

/-- How many levels are open. -/
def depth (n : Nesting) : Nat := n.parens + n.signs

/-- Whether more than `limit` levels are open after some character of the text. -/
def exceeds (limit : Nat) (n : Nesting) : List Char → Bool
  | [] => false
  | c :: text => limit < (n.step c).depth || exceeds limit (n.step c) text

end Nesting

end StepScript
