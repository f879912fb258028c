import StepScript.Proofs.Expr.Numbers
import StepScript.Proofs.Expr.Phrases

/-!
# The levels of operands

Each operand of a phrase has a place: the parentheses around it and the prefix operators in front of
it. The measure of the nesting passes a limit where some operand is that deep. A prefix operator
counts for the operand behind it only, although it may apply to what contains later operands too.
-/

namespace StepScript

/-! ## Passing a limit -/

namespace Nesting

variable {limit : Nat} {n : Nesting} {text more : List Char}

/-- More than `limit` levels are open before the text or after some character of it. -/
def Passes (limit : Nat) (n : Nesting) (text : List Char) : Prop :=
  limit < n.depth ∨ n.exceeds limit text = true

theorem passes_nil : Passes limit n [] ↔ limit < n.depth := or_iff_left Bool.false_ne_true

theorem passes_cons {c : Char} :
    Passes limit n (c :: text) ↔ limit < n.depth ∨ Passes limit (n.step c) text := by
  rw [Passes, Passes, exceeds, Bool.or_eq_true, decide_eq_true_iff]

theorem passes_append :
    Passes limit n (text ++ more) ↔ Passes limit n text ∨ Passes limit (n.steps text) more := by
  induction text generalizing n with
  | nil =>
    have hstart : limit < n.depth → Passes limit n more := .inl
    rw [List.nil_append, passes_nil]
    exact (or_iff_right_of_imp hstart).symm
  | cons c text ih => rw [List.cons_append, passes_cons, ih, passes_cons, or_assoc]; rfl

/-- Where a character opens a level or none, only the levels behind it matter. -/
theorem passes_cons_of_le {c : Char} (h : n.depth ≤ (n.step c).depth) :
    Passes limit n (c :: text) ↔ Passes limit (n.step c) text :=
  passes_cons.trans (or_iff_right_of_imp fun hlimit => .inl (Nat.lt_of_lt_of_le hlimit h))

theorem passes_of_end (h : limit < (n.steps text).depth) : Passes limit n text := by
  have hboth := (@passes_append limit n text []).2 (.inr (passes_nil.2 h))
  rwa [List.append_nil] at hboth

/-- Where characters close levels or none, only the levels in front of them matter. -/
theorem passes_append_of_le (h : Passes limit (n.steps text) more → limit < (n.steps text).depth) :
    Passes limit n (text ++ more) ↔ Passes limit n text :=
  passes_append.trans (or_iff_left_of_imp fun hmore => passes_of_end (h hmore))

end Nesting

namespace Expr

open Nesting

/-! ## Places -/

/-- Where an operand stands: how many parentheses are around it, how many prefix operators apply to
what it is in, how many of these stand behind the operand in front of it, and the binary operator
that stands there. -/
structure Place where
  parens : Nat
  signs : Nat
  run : Nat
  behind : Option BinaryOp
deriving DecidableEq

def Place.start : Place := ⟨0, 0, 0, none⟩

def Place.enclosed (place : Place) : Place := { place with parens := place.parens + 1 }

def Place.signed (place : Place) : Place :=
  { place with signs := place.signs + 1, run := place.run + 1 }

/-- The place behind an operand and a binary operator, or behind the operand alone. -/
def Place.next (place : Place) (op : Option BinaryOp) : Place :=
  { place with run := 0, behind := op }

structure Operand where
  place : Place
  text : List Char
deriving DecidableEq

mutual

/-- The operands of a phrase that stands in a place. -/
def Phrase.operands (place : Place) : Phrase → List Operand
  | .leaf _ text => [⟨place, text⟩]
  | .group inner => inner.operands place.enclosed
  | .sign _ operand => operand.operands place.signed
  | .chain first links => first.operands place ++ links.operands place

def Links.operands (place : Place) : Links → List Operand
  | .nil => []
  | .cons op operand rest => operand.operands (place.next (some op)) ++ rest.operands place

end

/-! ## Literals and identifiers -/

/-- A number with a sign in its exponent. -/
def IsSignedNumber (text : List Char) : Prop :=
  ∃ numeral, NumberText numeral text ∧ ('+' ∈ text ∨ '-' ∈ text)

section

variable {n : Nesting} (hn : n.IsOutside) {limit : Nat} {text : List Char}

include hn

theorem step_blank {c : Char} (hc : isBlank c = true) : n.step c = n := by
  simp only [isBlank, Bool.or_eq_true, beq_iff_eq] at hc
  rw [Nesting.step, hn.quote]
  rcases hc with ((rfl | rfl) | rfl) | rfl <;> rfl

theorem Blanks.steps (h : Blanks text) : n.steps text = n := by
  induction text with
  | nil => rfl
  | cons c text ih =>
    obtain ⟨hc, htext⟩ := List.forall_mem_cons.1 h
    change (n.step c).steps text = n
    rw [step_blank hn hc, ih htext]

theorem Blanks.passes (h : Blanks text) (more : List Char) :
    Passes limit n (text ++ more) ↔ Passes limit n more := by
  induction text with
  | nil => rfl
  | cons c text ih =>
    obtain ⟨hc, htext⟩ := List.forall_mem_cons.1 h
    have hstep := step_blank hn hc
    rw [List.cons_append, passes_cons_of_le (Nat.le_of_eq (by rw [hstep])), hstep, ih htext]

/-- The characters of an operand open no level. -/
theorem passes_operandChars (h : ∀ c ∈ text, isOperandChar c = true) :
    Passes limit n text ↔ limit < n.depth := by
  refine ⟨fun hpasses => ?_, .inl⟩
  induction text generalizing n with
  | nil => exact passes_nil.1 hpasses
  | cons c text ih =>
    obtain ⟨hc, hmore⟩ := List.forall_mem_cons.1 h
    rw [passes_cons, step_operandChar hn hc] at hpasses
    rcases hpasses with hlimit | hpasses
    · exact hlimit
    · have hunsigned : IsOutside { n with signs := 0 } := ⟨hn.quote, hn.escaped⟩
      exact Nat.lt_of_lt_of_le (ih hunsigned hmore hpasses) (Nat.add_le_add_left (Nat.zero_le _) _)

end

theorem FractionText.isOperandChar {fraction text : List Char} (h : FractionText fraction text) :
    ∀ c ∈ text, Nesting.isOperandChar c = true := by
  cases h with
  | none => exact List.forall_mem_nil _
  | point h => exact List.forall_mem_cons.2 ⟨by decide, h.isOperandChar⟩

theorem not_sign_of_isOperandChar {c : Char} (h : isOperandChar c = true) : c ≠ '+' ∧ c ≠ '-' := by
  constructor <;> rintro rfl <;> exact absurd h (by decide)

/-- A number with a sign in its exponent, taken apart at the sign. -/
inductive SplitsAtSign : List Char → Prop
  | mk {front digits : List Char} {sign : Char} (hsign : sign = '+' ∨ sign = '-') (hne : front ≠ [])
      (hfront : ∀ c ∈ front, isOperandChar c = true) (hdigits : Digits digits) :
      SplitsAtSign (front ++ sign :: digits)

theorem NumberText.isOperandChar_or {numeral : Numeral} {text : List Char}
    (h : NumberText numeral text) :
    (∀ c ∈ text, isOperandChar c = true) ∨ SplitsAtSign text := by
  have hletter : ∀ mark : Char, mark = 'e' ∨ mark = 'E' → isOperandChar mark = true := by
    rintro mark (rfl | rfl) <;> decide
  cases h with
  | @mk whole _ fractionText _ _ hwhole hfraction hexponent =>
    have hfront : ∀ c ∈ whole ++ fractionText, isOperandChar c = true :=
      List.forall_mem_append.2 ⟨hwhole.isOperandChar, hfraction.isOperandChar⟩
    have hsigned : ∀ mark sign digits, mark = 'e' ∨ mark = 'E' → sign = '+' ∨ sign = '-' →
        Digits digits → SplitsAtSign (whole ++ (fractionText ++ mark :: sign :: digits)) := by
      intro mark sign digits hmark hsign hdigits
      have hchars : ∀ c ∈ whole ++ fractionText ++ [mark], isOperandChar c = true :=
        List.forall_mem_append.2 ⟨hfront, List.forall_mem_singleton.2 (hletter _ hmark)⟩
      simpa using SplitsAtSign.mk hsign (by simp) hchars hdigits
    cases hexponent with
    | none =>
      left
      rwa [List.append_nil]
    | unsigned hmark hdigits =>
      left
      rw [← List.append_assoc]
      exact List.forall_mem_append.2 ⟨hfront,
        List.forall_mem_cons.2 ⟨hletter _ hmark, hdigits.isOperandChar⟩⟩
    | plus hmark hdigits => exact .inr (hsigned _ _ _ hmark (.inl rfl) hdigits)
    | minus hmark hdigits => exact .inr (hsigned _ _ _ hmark (.inr rfl) hdigits)

theorem not_isSignedNumber {text : List Char} (h : ∀ c ∈ text, isOperandChar c = true) :
    ¬ IsSignedNumber text := by
  rintro ⟨-, -, hplus | hminus⟩
  · exact (not_sign_of_isOperandChar (h _ hplus)).1 rfl
  · exact (not_sign_of_isOperandChar (h _ hminus)).2 rfl

theorem not_isSignedNumber_quoted {quote : Char} {text : List Char}
    (hquote : quote = '"' ∨ quote = '\'') : ¬ IsSignedNumber (quote :: text) := by
  rintro ⟨_, hnumber, -⟩
  obtain ⟨c, rest, hstart, hdigit⟩ := hnumber.starts
  obtain ⟨rfl, -⟩ := List.cons.inj hstart
  rcases hquote with rfl | rfl <;> exact absurd hdigit (by decide)

/-- The shapes of literals and identifiers, as the measure sees them. -/
inductive LeafShape : List Char → Prop
  | plain {text : List Char} (hne : text ≠ []) (h : ∀ c ∈ text, isOperandChar c = true) :
      LeafShape text
  | signed {text : List Char} (h : SplitsAtSign text) (hsigned : IsSignedNumber text) :
      LeafShape text
  | quoted {quote : Char} {content text : List Char} (hquote : quote = '"' ∨ quote = '\'')
      (h : QuotedText quote content text) : LeafShape (quote :: (text ++ [quote]))

theorem LeafText.shape {e : Expr} {text : List Char} (h : LeafText e text) : LeafShape text := by
  have hword : ∀ {text : List Char}, Word text → LeafShape text := by
    intro text hword
    have hchars : ∀ c ∈ text, isOperandChar c = true := by
      intro c hc
      have hc := hword.all c hc
      rw [isWordChar] at hc
      rw [isOperandChar, hc, Bool.true_or]
    obtain ⟨c, rest, rfl, -⟩ := hword
    exact .plain (List.cons_ne_nil _ _) hchars
  cases h with
  | number h =>
    rcases h.isOperandChar_or with hplain | hsplit
    · obtain ⟨c, rest, rfl, -⟩ := h.starts
      exact .plain (List.cons_ne_nil _ _) hplain
    · refine .signed hsplit ⟨_, h, ?_⟩
      obtain ⟨rfl | rfl, -, -, -⟩ := hsplit <;> simp
  | quoted hquote h => exact .quoted hquote h
  | trueWord | falseWord | nullWord | undefinedWord =>
    exact hword (word_of_mem_keywords (by decide))
  | identifier h => exact hword h

section

variable {n : Nesting} (hn : n.IsOutside) {limit : Nat} {text : List Char}

include hn

theorem step_sign {sign : Char} (hsign : sign = '+' ∨ sign = '-') :
    n.step sign = { n with signs := n.signs + 1 } := by
  rw [step_numeric hn (by rcases hsign with rfl | rfl <;> decide)]
  rcases hsign with rfl | rfl <;> rfl

/-- Behind a literal or identifier no sign is open. -/
theorem LeafShape.steps (h : LeafShape text) : n.steps text = { n with signs := 0 } := by
  have hunsigned : IsOutside { n with signs := 0 } := ⟨hn.quote, hn.escaped⟩
  cases h with
  | plain hne h => exact steps_operandChars hn hne h
  | signed h =>
    obtain ⟨hsign, hne, hfront, hdigits⟩ := h
    rw [steps_append, steps_operandChars hn hne hfront]
    have houtside : IsOutside { n with signs := 1 } := ⟨hn.quote, hn.escaped⟩
    change (Nesting.step _ _).steps _ = _
    rw [step_sign hunsigned hsign]
    exact steps_digits houtside hdigits
  | quoted hquote h => exact h.steps hquote hn

/-- A literal or identifier opens no level, but the sign in an exponent counts as one. -/
theorem LeafShape.passes (h : LeafShape text) : Passes limit n text ↔
    limit < n.depth ∨ (IsSignedNumber text ∧ limit < n.parens + 1) := by
  have hunsigned : IsOutside { n with signs := 0 } := ⟨hn.quote, hn.escaped⟩
  have hparens : n.parens ≤ n.depth := Nat.le_add_right _ _
  cases h with
  | plain hne h =>
    rw [passes_operandChars hn h, or_iff_left]
    exact fun hsigned => not_isSignedNumber h hsigned.1
  | signed h hsigned =>
    rw [and_iff_right hsigned]
    obtain ⟨hsign, hne, hfront, hdigits⟩ := h
    have houtside : IsOutside { n with signs := 1 } := ⟨hn.quote, hn.escaped⟩
    rw [passes_append, passes_operandChars hn hfront, steps_operandChars hn hne hfront,
      passes_cons_of_le (by rw [step_sign hunsigned hsign]; exact Nat.le_succ _),
      step_sign hunsigned hsign]
    exact or_congr_right (passes_operandChars houtside hdigits.isOperandChar)
  | quoted hquote h =>
    rw [Passes, h.exceeds hquote hn, decide_eq_true_iff]
    constructor
    · exact fun hpasses => .inl (hpasses.elim id fun hlimit => Nat.lt_of_lt_of_le hlimit hparens)
    · refine fun hpasses => .inl (hpasses.resolve_right fun hsigned => ?_)
      exact not_isSignedNumber_quoted hquote hsigned.1

end

/-! ## Phrases -/

/-- Whether a binary operator begins with the character of a prefix operator. -/
def startsLikeSign : BinaryOp → Bool
  | .add | .sub | .notEqual | .notIdentical => true
  | _ => false

/-- How many signs the measure sees in front of an operand that are none. -/
def Place.mistaken (place : Place) : Nat :=
  match place.behind with
  | some op => (startsLikeSign op).toNat
  | none => 0

/-- What the measure makes of a place. -/
def Place.measure (place : Place) : Nesting :=
  ⟨place.parens, place.run + place.mistaken, none, false⟩

def Operand.Passes (limit : Nat) (o : Operand) : Prop :=
  limit < o.place.measure.depth ∨ (IsSignedNumber o.text ∧ limit < o.place.parens + 1)

theorem Place.isOutside (place : Place) : place.measure.IsOutside := ⟨rfl, rfl⟩

theorem Place.step_opening (place : Place) :
    place.measure.step '(' = place.enclosed.measure := StepScript.Expr.step_opening place.isOutside

theorem Place.step_closing (place : Place) :
    (place.enclosed.next none).measure.step ')' = (place.next none).measure :=
  StepScript.Expr.step_closing (place.enclosed.next none).isOutside

/-- A prefix operator is one character, and it counts as one sign. -/
theorem exists_step_symbol (op : UnaryOp) :
    ∃ c, op.symbol.toList = [c] ∧ ∀ place : Place, place.measure.step c = place.signed.measure := by
  have hsigned : ∀ place : Place, place.signed.measure =
      { place.measure with signs := place.measure.signs + 1 } := by
    intro place
    have hrun : place.run + 1 + place.mistaken = place.run + place.mistaken + 1 :=
      Nat.add_right_comm ..
    rw [Place.measure, Place.measure, ← hrun]
    rfl
  cases op with
  | not => exact ⟨'!', rfl, fun place => (hsigned place).symm⟩
  | neg => exact ⟨'-', rfl, fun place => (hsigned place).symm⟩
  | plus => exact ⟨'+', rfl, fun place => (hsigned place).symm⟩

/-- A binary operator in front of an operand counts as a sign just if it starts like one. -/
theorem Place.steps_symbol (place : Place) (op : BinaryOp) :
    (place.next none).measure.steps op.symbol.toList = (place.next (some op)).measure := by
  cases op <;> rfl

theorem Place.passes_symbol {limit : Nat} (place : Place) (op : BinaryOp) (text : List Char) :
    Nesting.Passes limit (place.next none).measure (op.symbol.toList ++ text) ↔
      Nesting.Passes limit (place.next (some op)).measure text := by
  have hsame {n : Nesting} {c : Char} {text : List Char} (h : (n.step c).depth = n.depth) :
      Nesting.Passes limit n (c :: text) ↔ Nesting.Passes limit (n.step c) text :=
    passes_cons_of_le (Nat.le_of_eq h.symm)
  cases op with
  | add | sub => exact passes_cons_of_le (Nat.le_succ _)
  | less | greater | mul | div | rem => exact hsame rfl
  | or | and | equal | atMost | atLeast => exact (hsame rfl).trans (hsame rfl)
  | identical => exact (hsame rfl).trans ((hsame rfl).trans (hsame rfl))
  | notEqual => exact (passes_cons_of_le (Nat.le_succ _)).trans (hsame rfl)
  | notIdentical =>
    exact (passes_cons_of_le (Nat.le_succ _)).trans ((hsame rfl).trans (hsame rfl))

mutual

/-- Behind a phrase the parentheses around it are open, and no sign. -/
theorem Phrase.Writes.steps : ∀ {p : Phrase} {level : Nat} {text : List Char},
    p.Writes level text → ∀ place : Place, place.measure.steps text = (place.next none).measure
  | _, _, _, .leaf h, place => h.shape.steps place.isOutside
  | _, _, _, @Phrase.Writes.group _ before text after hbefore h hafter, place => by
    calc place.measure.steps ('(' :: (before ++ (text ++ (after ++ [')']))))
        = place.enclosed.measure.steps (before ++ (text ++ (after ++ [')']))) := by
          rw [← place.step_opening]
          rfl
      _ = (place.enclosed.next none).measure.steps (after ++ [')']) := by
          rw [steps_append, hbefore.steps place.enclosed.isOutside, steps_append, h.steps]
      _ = (place.enclosed.next none).measure.step ')' := by
          rw [steps_append, hafter.steps (place.enclosed.next none).isOutside]
          rfl
      _ = (place.next none).measure := place.step_closing
  | _, _, _, @Phrase.Writes.sign op _ _ _ hbetween h, place => by
    obtain ⟨c, hsymbol, hstep⟩ := exists_step_symbol op
    rw [hsymbol, List.singleton_append]
    change (place.measure.step c).steps _ = _
    rw [hstep, steps_append, hbetween.steps place.signed.isOutside, h.steps]
    rfl
  | _, _, _, .chain _ h hlinks, place => by
    rw [steps_append, h.steps, hlinks.steps]

theorem Links.Writes.steps : ∀ {links : Links} {level : Nat} {text : List Char},
    links.Writes level text → ∀ place : Place,
      (place.next none).measure.steps text = (place.next none).measure
  | _, _, _, .nil, _ => rfl
  | _, _, _, .cons _ hbefore hafter h hrest, place => by
    rw [steps_append, hbefore.steps (place.next none).isOutside, steps_append, place.steps_symbol,
      steps_append, hafter.steps (place.next _).isOutside, steps_append, h.steps]
    exact hrest.steps place

end

mutual

/-- The measure passes a limit in a phrase just if it does so at one of the operands. -/
theorem Phrase.Writes.passes {limit : Nat} : ∀ {p : Phrase} {level : Nat} {text : List Char},
    p.Writes level text → ∀ place : Place,
      (Nesting.Passes limit place.measure text ↔ ∃ o ∈ p.operands place, o.Passes limit)
  | _, _, _, .leaf h, place => by
    rw [h.shape.passes place.isOutside, Phrase.operands]
    simp only [List.mem_singleton, exists_eq_left]
    rfl
  | _, _, _, @Phrase.Writes.group _ before text after hbefore h hafter, place => by
    have hopening : place.measure.depth ≤ (place.measure.step '(').depth := by
      rw [place.step_opening]
      exact Nat.add_le_add_right (Nat.le_succ _) _
    -- behind the inner phrase levels are only closed
    have hclosing : Nesting.Passes limit (place.enclosed.next none).measure (after ++ [')']) →
        limit < (place.enclosed.next none).measure.depth := by
      rw [hafter.passes (place.enclosed.next none).isOutside, passes_cons, place.step_closing,
        passes_nil]
      exact fun hlimit => hlimit.elim id Nat.lt_succ_of_lt
    rw [passes_cons_of_le hopening, place.step_opening, hbefore.passes place.enclosed.isOutside,
      passes_append_of_le (by rw [h.steps]; exact hclosing), h.passes place.enclosed]
    rfl
  | _, _, _, @Phrase.Writes.sign op _ _ _ hbetween h, place => by
    obtain ⟨c, hsymbol, hstep⟩ := exists_step_symbol op
    have hle : place.measure.depth ≤ (place.measure.step c).depth := by
      rw [hstep]
      exact Nat.add_le_add_left (Nat.add_le_add_right (Nat.le_succ _) _) _
    rw [hsymbol, List.singleton_append, passes_cons_of_le hle, hstep,
      hbetween.passes place.signed.isOutside, h.passes place.signed]
    rfl
  | _, _, _, @Phrase.Writes.chain _ _ _ text _ _ h hlinks, place => by
    have hend : limit < place.parens → Nesting.Passes limit place.measure text := by
      intro hlimit
      refine passes_of_end ?_
      rw [h.steps]
      exact hlimit
    rw [passes_append, h.steps, hlinks.passes, ← or_assoc, or_iff_left_of_imp hend, h.passes]
    simp only [Phrase.operands, List.mem_append, or_and_right, exists_or]

theorem Links.Writes.passes {limit : Nat} : ∀ {links : Links} {level : Nat} {text : List Char},
    links.Writes level text → ∀ place : Place,
      (Nesting.Passes limit (place.next none).measure text ↔
        limit < place.parens ∨ ∃ o ∈ links.operands place, o.Passes limit)
  | _, _, _, .nil, place => by
    simp only [passes_nil, Links.operands, List.not_mem_nil, false_and, exists_false, or_false]
    rfl
  | _, _, _, .cons _ hbefore hafter h hrest, place => by
    rw [hbefore.passes (place.next none).isOutside, place.passes_symbol,
      hafter.passes (place.next _).isOutside, passes_append, h.steps, h.passes]
    refine (or_congr_right (hrest.passes place)).trans ?_
    rw [or_left_comm]
    simp only [Links.operands, List.mem_append, or_and_right, exists_or]

end

/-- The levels of a text are those of the operands in it. -/
theorem Phrase.IsProgram.exceeds_iff {p : Phrase} {text : List Char} (h : p.IsProgram text)
    (limit : Nat) :
    Nesting.start.exceeds limit text = true ↔ ∃ o ∈ p.operands .start, o.Passes limit := by
  obtain ⟨before, inner, after, rfl, hbefore, hafter, hinner⟩ := h
  have hstart : Nesting.start = Place.start.measure := rfl
  have hpasses : Nesting.Passes limit Nesting.start (before ++ (inner ++ after)) ↔
      Nesting.start.exceeds limit (before ++ (inner ++ after)) = true :=
    or_iff_right (Nat.not_lt_zero limit)
  have hend : Nesting.Passes limit (Place.start.measure.steps inner) after →
      limit < (Place.start.measure.steps inner).depth := by
    rw [hinner.steps, ← List.append_nil after, hafter.passes (Place.start.next none).isOutside,
      passes_nil]
    exact id
  rw [← hpasses, hstart, hbefore.passes Place.start.isOutside, passes_append_of_le hend]
  exact hinner.passes .start

-- In as many parentheses as are allowed, a binary operator that begins like a prefix operator, or the
-- sign of an exponent, makes the measure pass the limit. Other operators and quoted text do not.
example : ["1+1", "1-1", "1!=1", "1!==1", "1e+1", "1E-1"].all (fun text =>
    Nesting.start.exceeds nestingLimit
      (List.replicate nestingLimit '(' ++ text.toList ++ List.replicate nestingLimit ')')) = true := by
  decide +kernel

example : ["1*1", "1==1", "1e1", "'+'"].any (fun text =>
    Nesting.start.exceeds nestingLimit
      (List.replicate nestingLimit '(' ++ text.toList ++ List.replicate nestingLimit ')')) = false := by
  decide +kernel

/-! ## The limit for the nesting -/

theorem parse_eq_nestedTooDeep_iff {text : String} :
    parse text = .error .nestedTooDeep ↔ Nesting.start.exceeds nestingLimit text.toList = true := by
  rw [parse]
  split
  · next hexceeds => exact iff_of_true rfl hexceeds
  · next hfits =>
    refine iff_of_false ?_ hfits
    split
    · nofun
    · split <;> nofun

/-- How deep the measure takes an operand to be: the parentheses around it, and the prefix operators
between the operand in front of it and itself. -/
def Operand.levels (o : Operand) : Nat := o.place.parens + o.place.run

/-- An operand where the measure takes something else for a prefix operator: a binary operator in
front of it, or the sign of its exponent. -/
def Operand.IsMistakable (o : Operand) : Prop :=
  (∃ op, o.place.behind = some op ∧ startsLikeSign op = true) ∨ IsSignedNumber o.text

theorem Place.mistaken_cases (place : Place) : place.mistaken = 0 ∨
    (place.mistaken = 1 ∧ ∃ op, place.behind = some op ∧ startsLikeSign op = true) := by
  unfold mistaken
  cases place.behind with
  | none => exact .inl rfl
  | some op =>
    cases hop : startsLikeSign op with
    | false => exact .inl (congrArg Bool.toNat hop)
    | true => exact .inr ⟨congrArg Bool.toNat hop, op, rfl, hop⟩

theorem Operand.depth_measure (o : Operand) :
    o.place.measure.depth = o.levels + o.place.mistaken :=
  (Nat.add_assoc ..).symm

theorem passes_of_levels {limit : Nat} {o : Operand} (h : limit < o.levels) : o.Passes limit := by
  left
  rw [o.depth_measure]
  exact Nat.lt_add_right _ h

theorem levels_of_passes {limit : Nat} {o : Operand} (h : o.Passes limit) :
    limit < o.levels ∨ (o.levels = limit ∧ o.IsMistakable) := by
  have hparens : o.place.parens ≤ o.levels := Nat.le_add_right _ _
  by_cases hlevels : limit < o.levels
  · exact .inl hlevels
  · right
    rcases h with hlimit | ⟨hsigned, hlimit⟩
    · rw [o.depth_measure] at hlimit
      rcases o.place.mistaken_cases with hzero | ⟨hone, hbehind⟩
      · omega
      · exact ⟨by omega, .inl hbehind⟩
    · exact ⟨by omega, .inr hsigned⟩

/-- A text of the grammar is nested too deep if some operand is in more parentheses, and behind more
prefix operators since the operand in front of it, than the limit allows. Otherwise it is not,
unless an operand that is just as deep as is allowed is mistakable. -/
theorem parse_nested {text : String} {e : Expr} (h : Program e text.toList) :
    ParseError.nestedTooDeep.detail text = "nesting deeper than 32 levels" ∧
      (∃ p : Phrase, p.IsProgram text.toList ∧ p.tree = e) ∧
      ∀ p : Phrase, p.IsProgram text.toList →
        ((∃ o ∈ p.operands .start, nestingLimit < o.levels) → parse text = .error .nestedTooDeep) ∧
        (parse text = .error .nestedTooDeep → ∃ o ∈ p.operands .start, nestingLimit < o.levels ∨
          (o.levels = nestingLimit ∧ o.IsMistakable)) := by
  refine ⟨rfl, program_iff_phrase.1 h, fun p hp => ?_⟩
  rw [parse_eq_nestedTooDeep_iff, hp.exceeds_iff]
  constructor
  · rintro ⟨o, ho, hlevels⟩
    exact ⟨o, ho, passes_of_levels hlevels⟩
  · rintro ⟨o, ho, hpasses⟩
    exact ⟨o, ho, levels_of_passes hpasses⟩

/-! ## Texts at the limit -/

/-- A phrase in rows without operators, `k` levels down. -/
def Phrase.lowered : Nat → Phrase → Phrase
  | 0, p => p
  | k + 1, p => .chain (p.lowered k) .nil

def Phrase.enclosed : Nat → Phrase → Phrase
  | 0, p => p
  | n + 1, p => .group ((p.enclosed n).lowered unaryLevel)

theorem Phrase.Writes.lowered {p : Phrase} {text : List Char} {level k : Nat}
    (h : p.Writes unaryLevel text) (hlevel : level + k = unaryLevel) :
    (p.lowered k).Writes level text := by
  induction k generalizing level with
  | zero => rwa [← hlevel] at h
  | succ k ih =>
    have hrow := Phrase.Writes.chain (by omega) (@ih (level + 1) (by omega)) .nil
    rwa [List.append_nil] at hrow

theorem Phrase.Writes.enclosed {p : Phrase} {text : List Char} (h : p.Writes unaryLevel text)
    (n : Nat) : (p.enclosed n).Writes unaryLevel
      (List.replicate n '(' ++ (text ++ List.replicate n ')')) := by
  induction n with
  | zero =>
    rw [List.replicate_zero, List.nil_append, List.replicate_zero, List.append_nil]
    exact h
  | succ n ih =>
    have htext : List.replicate (n + 1) '(' ++ (text ++ List.replicate (n + 1) ')') =
        '(' :: ([] ++ ((List.replicate n '(' ++ (text ++ List.replicate n ')')) ++
          ([] ++ [')']))) := by
      rw [List.replicate_succ, List.replicate_succ']
      simp
    have hinner : ((p.enclosed n).lowered unaryLevel).Writes 0 _ := ih.lowered rfl
    rw [htext]
    exact .group Blanks.nil hinner Blanks.nil

theorem Phrase.operands_lowered (p : Phrase) (k : Nat) (place : Place) :
    (p.lowered k).operands place = p.operands place := by
  induction k with
  | zero => rfl
  | succ k ih => rw [lowered, operands, Links.operands, List.append_nil, ih]

theorem Phrase.operands_enclosed (p : Phrase) (n : Nat) (place : Place) :
    (p.enclosed n).operands place = p.operands { place with parens := place.parens + n } := by
  induction n generalizing place with
  | zero => rfl
  | succ n ih =>
    rw [enclosed, operands, operands_lowered, ih, Place.enclosed, Nat.add_assoc, Nat.add_comm 1]

/-- Two prefix operators in front of thirty-one parentheses. -/
def signedPhrase : Phrase :=
  .sign .not (.sign .neg ((Phrase.leaf (.literal (.boolean true)) "true".toList).enclosed 31))

def signedText : String := "!-(((((((((((((((((((((((((((((((true)))))))))))))))))))))))))))))))"

theorem parse_nested_signed :
    Program (signedPhrase.lowered unaryLevel).tree signedText.toList ∧
      parse signedText = .error .nestedTooDeep := by
  have htrue : (Phrase.leaf _ _).Writes unaryLevel "true".toList := .leaf .trueWord
  have hneg := @Phrase.Writes.sign .neg _ [] _ Blanks.nil (htrue.enclosed 31)
  have hnot := @Phrase.Writes.sign .not _ [] _ Blanks.nil hneg
  have hprogram : (signedPhrase.lowered unaryLevel).IsProgram signedText.toList :=
    ⟨[], _, [], rfl, Blanks.nil, Blanks.nil, hnot.lowered rfl⟩
  have hderived := program_iff_phrase.2 ⟨_, hprogram, rfl⟩
  refine ⟨hderived, ((parse_nested hderived).2.2 _ hprogram).1 ?_⟩
  refine ⟨⟨⟨31, 2, 2, none⟩, "true".toList⟩, ?_, by decide⟩
  rw [Phrase.operands_lowered, signedPhrase, Phrase.operands, Phrase.operands,
    Phrase.operands_enclosed]
  exact List.mem_singleton_self _

/-- A prefix operator that applies to parentheses with two operands in them. The second operand is
in thirty-two parentheses. -/
def forgottenPhrase : Phrase :=
  .sign .not (.group (.chain ((Phrase.leaf (.literal (.boolean false)) "false".toList).lowered 5)
    (.cons .or (((Phrase.leaf (.literal (.boolean true)) "true".toList).enclosed 31).lowered 5)
      .nil)))

def forgottenText : String :=
  "!(false||(((((((((((((((((((((((((((((((true))))))))))))))))))))))))))))))))"

/-- Behind the first operand the prefix operator is forgotten, although it applies to the second one
too. -/
theorem parse_forgotten :
    (forgottenPhrase.lowered unaryLevel).IsProgram forgottenText.toList ∧
      ¬ (parse forgottenText = .error .nestedTooDeep ↔
        ∃ o ∈ (forgottenPhrase.lowered unaryLevel).operands .start,
          nestingLimit < o.place.parens + o.place.signs) := by
  have htrue : (Phrase.leaf _ _).Writes unaryLevel "true".toList := .leaf .trueWord
  have hfalse : (Phrase.leaf _ _).Writes unaryLevel "false".toList := .leaf .falseWord
  have hlinks : Links.Writes 0 (.cons .or _ .nil) _ :=
    .cons rfl Blanks.nil Blanks.nil (@Phrase.Writes.lowered _ _ _ 5 (htrue.enclosed 31) rfl) .nil
  have hrow := Phrase.Writes.chain (by decide) (@Phrase.Writes.lowered _ _ _ 5 hfalse rfl) hlinks
  have hnot := @Phrase.Writes.sign .not _ [] _ Blanks.nil (.group Blanks.nil hrow Blanks.nil)
  have hfits : Nesting.start.exceeds nestingLimit forgottenText.toList = false := by decide
  refine ⟨⟨[], _, [], rfl, Blanks.nil, Blanks.nil, hnot.lowered rfl⟩, fun hiff => ?_⟩
  have hreported := hiff.2 ⟨⟨⟨32, 1, 0, some .or⟩, "true".toList⟩, ?_, by decide⟩
  · rw [parse_eq_nestedTooDeep_iff, hfits] at hreported
    cases hreported
  · rw [Phrase.operands_lowered, forgottenPhrase]
    simp only [Phrase.operands, Links.operands, Phrase.operands_lowered, Phrase.operands_enclosed]
    exact List.mem_cons_of_mem _ (List.mem_singleton_self _)

end Expr

end StepScript
