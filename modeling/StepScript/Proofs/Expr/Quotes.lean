import StepScript.Proofs.Expr.Scanning

/-!
# Quotes and nesting

How the measure of the nesting passes over the tokens of an expression. It knows at every place
whether it is inside quotes, and it leaves the quotes where the grammar ends a quoted text.
-/

namespace StepScript

/-! ## One text after another -/

namespace Nesting

theorem steps_append (n : Nesting) (text more : List Char) :
    n.steps (text ++ more) = (n.steps text).steps more :=
  List.foldl_append

theorem exceeds_append (limit : Nat) (n : Nesting) (text more : List Char) :
    exceeds limit n (text ++ more) = (exceeds limit n text || exceeds limit (n.steps text) more) := by
  induction text generalizing n with
  | nil => rfl
  | cons c text ih => rw [List.cons_append, exceeds, exceeds, ih, Bool.or_assoc]; rfl

theorem exceeds_append_eq_false {limit : Nat} {n : Nesting} {text more : List Char} :
    exceeds limit n (text ++ more) = false ↔
      exceeds limit n text = false ∧ exceeds limit (n.steps text) more = false := by
  rw [exceeds_append, Bool.or_eq_false_iff]

theorem exceeds_cons_eq_false {limit : Nat} {n : Nesting} {c : Char} {text : List Char} :
    exceeds limit n (c :: text) = false ↔
      (n.step c).depth ≤ limit ∧ exceeds limit (n.step c) text = false := by
  rw [exceeds, Bool.or_eq_false_iff, decide_eq_false_iff_not, Nat.not_lt]

/-! ## Outside of quotes -/

structure IsOutside (n : Nesting) : Prop where
  quote : n.quote = none
  escaped : n.escaped = false

theorem isOutside_start : start.IsOutside := ⟨rfl, rfl⟩

/-- Outside of quotes no backslash waits for its character. -/
theorem escaped_step {n : Nesting} (h : n.quote = none → n.escaped = false) (c : Char)
    (hquote : (n.step c).quote = none) : (n.step c).escaped = false := by
  obtain ⟨parens, signs, quote, escaped⟩ := n
  cases quote with
  | none =>
    obtain rfl : escaped = false := h rfl
    simp only [step]
    repeat' split
    all_goals rfl
  | some q =>
    cases escaped with
    | true => rfl
    | false =>
      simp only [step, Bool.false_eq_true, if_false] at hquote ⊢
      by_cases hescape : c = '\\'
      · rw [if_pos hescape] at hquote
        cases hquote
      · rw [if_neg hescape]
        split <;> rfl

theorem isOutside_steps {n : Nesting} {text : List Char} (h : n.quote = none → n.escaped = false)
    (hquote : (n.steps text).quote = none) : (n.steps text).IsOutside := by
  induction text generalizing n with
  | nil => exact ⟨hquote, h hquote⟩
  | cons c text ih => exact ih (escaped_step h c) hquote

/-- No quote: the character changes nothing but the levels. -/
theorem IsOutside.step {n : Nesting} (h : n.IsOutside) {c : Char} (hc : c ≠ '"' ∧ c ≠ '\'') :
    (n.step c).IsOutside := by
  obtain ⟨parens, signs, quote, escaped⟩ := n
  obtain ⟨rfl, rfl⟩ : quote = none ∧ escaped = false := ⟨h.quote, h.escaped⟩
  simp only [Nesting.step, hc.1, hc.2, or_self, if_false]
  repeat' split
  all_goals exact ⟨rfl, rfl⟩

theorem IsOutside.steps {n : Nesting} (h : n.IsOutside) {text : List Char}
    (htext : ∀ c ∈ text, c ≠ '"' ∧ c ≠ '\'') : (n.steps text).IsOutside := by
  induction text generalizing n with
  | nil => exact h
  | cons c text ih =>
    exact ih (h.step (htext c (List.mem_cons_self ..)))
      fun d hd => htext d (List.mem_cons_of_mem _ hd)

/-! ## Inside of quotes -/

/-- The measure is inside of quotes, and no backslash waits. -/
structure IsInside (quote : Char) (n : Nesting) : Prop where
  quote : n.quote = some quote
  escaped : n.escaped = false

variable {quote : Char} {n : Nesting}

theorem IsOutside.step_quote (h : n.IsOutside) (hquote : quote = '"' ∨ quote = '\'') :
    n.step quote = { n with quote := some quote, signs := 0 } := by
  unfold Nesting.step
  rcases hquote with rfl | rfl <;> simp [h.quote]

theorem IsInside.step_plain (h : n.IsInside quote) {c : Char} (hescape : c ≠ '\\')
    (hc : c ≠ quote) : n.step c = n := by
  simp [Nesting.step, h.quote, h.escaped, hescape, hc]

theorem IsInside.step_escape (h : n.IsInside quote) : n.step '\\' = { n with escaped := true } := by
  simp [Nesting.step, h.quote, h.escaped]

theorem IsInside.steps_escape (h : n.IsInside quote) (c : Char) : (n.step '\\').step c = n := by
  obtain ⟨parens, signs, q, escaped⟩ := n
  obtain ⟨rfl, rfl⟩ : q = some quote ∧ escaped = false := ⟨h.quote, h.escaped⟩
  simp [Nesting.step]

theorem IsInside.step_quote (h : n.IsInside quote) (hquote : quote = '"' ∨ quote = '\'') :
    n.step quote = { n with quote := none } := by
  have hescape : quote ≠ '\\' := by rcases hquote with rfl | rfl <;> decide
  simp [Nesting.step, h.quote, h.escaped, hescape]

end Nesting

namespace Expr

open Nesting

/-- The measure of the nesting is outside of quotes behind the text. -/
def EndsOutsideQuotes (text : String) : Prop := (Nesting.start.steps text.toList).quote = none

theorem EndsOutsideQuotes.isOutside {text : String} (h : EndsOutsideQuotes text) :
    (Nesting.start.steps text.toList).IsOutside :=
  isOutside_steps (fun _ => rfl) h

/-! ## Quoted texts -/

section

variable {quote : Char} {content text : List Char} {n : Nesting}

/-- The measure does not change between the quotes. -/
theorem QuotedText.steps_inside (h : QuotedText quote content text) (hn : n.IsInside quote) :
    n.steps text = n := by
  induction h with
  | nil => rfl
  | plain hescape hquote _ ih =>
    change (n.step _).steps _ = n
    rw [hn.step_plain hescape hquote, ih]
  | escape _ ih =>
    change ((n.step '\\').step _).steps _ = n
    rw [hn.steps_escape, ih]

theorem QuotedText.exceeds_inside (h : QuotedText quote content text) (hn : n.IsInside quote)
    {limit : Nat} (hdepth : n.depth ≤ limit) : exceeds limit n text = false := by
  induction h with
  | nil => rfl
  | plain hescape hquote _ ih =>
    rw [exceeds_cons_eq_false, hn.step_plain hescape hquote]
    exact ⟨hdepth, ih⟩
  | escape _ ih =>
    rw [exceeds_cons_eq_false, exceeds_cons_eq_false, hn.steps_escape, hn.step_escape]
    exact ⟨hdepth, hdepth, ih⟩

/-- Everywhere between the quotes the measure is inside of them. -/
theorem QuotedText.quote_steps (h : QuotedText quote content text) (hn : n.IsInside quote)
    {before after : List Char} {c : Char} (hsplit : text ++ [quote] = before ++ c :: after) :
    (n.steps before).quote = some quote := by
  induction h generalizing before with
  | nil =>
    cases before with
    | nil => exact hn.quote
    | cons d before => simp at hsplit
  | plain hescape hquote _ ih =>
    cases before with
    | nil => exact hn.quote
    | cons d before =>
      obtain ⟨rfl, hrest⟩ := List.cons.inj hsplit
      change ((n.step _).steps before).quote = some quote
      rw [hn.step_plain hescape hquote]
      exact ih hrest
  | escape _ ih =>
    match before with
    | [] => exact hn.quote
    | [d] =>
      obtain ⟨rfl, -⟩ := List.cons.inj hsplit
      change (n.step '\\').quote = some quote
      rw [hn.step_escape]
      exact hn.quote
    | d :: d' :: before =>
      obtain ⟨rfl, hsecond⟩ := List.cons.inj hsplit
      obtain ⟨rfl, hrest⟩ := List.cons.inj hsecond
      change (((n.step '\\').step _).steps before).quote = some quote
      rw [hn.steps_escape]
      exact ih hrest

variable (hquote : quote = '"' ∨ quote = '\'')

include hquote

theorem isInside_step (hn : n.IsOutside) : (n.step quote).IsInside quote := by
  rw [hn.step_quote hquote]
  exact ⟨rfl, hn.escaped⟩

/-- Behind a quoted text the measure is outside of quotes again, whatever was quoted. -/
theorem QuotedText.steps (h : QuotedText quote content text) (hn : n.IsOutside) :
    n.steps (quote :: (text ++ [quote])) = { n with signs := 0 } := by
  have hinside := isInside_step hquote hn
  change (n.step quote).steps (text ++ [quote]) = _
  rw [steps_append, h.steps_inside hinside]
  change (n.step quote).step quote = _
  rw [hinside.step_quote hquote, hn.step_quote hquote, ← hn.quote]

/-- A quoted text nests like an empty one. -/
theorem QuotedText.exceeds (h : QuotedText quote content text) (hn : n.IsOutside) (limit : Nat) :
    Nesting.exceeds limit n (quote :: (text ++ [quote])) = decide (limit < n.parens) := by
  have hinside := isInside_step hquote hn
  have hdepth : (n.step quote).depth = n.parens := by rw [hn.step_quote hquote]; rfl
  by_cases hlimit : limit < n.parens
  · rw [Nesting.exceeds, hdepth, decide_eq_true hlimit, Bool.true_or]
  · have hfits : (n.step quote).depth ≤ limit := by omega
    rw [decide_eq_false hlimit, exceeds_cons_eq_false, exceeds_append_eq_false,
      h.steps_inside hinside, exceeds_cons_eq_false, hinside.step_quote hquote]
    exact ⟨hfits, h.exceeds_inside hinside hfits, hfits, rfl⟩

end

/-! ## Literals and identifiers -/

def isNumeric (c : Char) : Bool := isOperandChar c || c == '+' || c == '-'

theorem isNumeric_of_isDigit {c : Char} (h : c.isDigit = true) : isNumeric c = true := by
  simp [isNumeric, isOperandChar, Char.isAlphanum, h]

theorem isNumeric_of_isWordChar {c : Char} (h : isWordChar c = true) : isNumeric c = true := by
  simp only [isWordChar, Bool.or_eq_true] at h
  simp only [isNumeric, isOperandChar, Bool.or_eq_true]
  exact .inl (.inl (.inl h))

theorem not_special_of_isNumeric {c : Char} (h : isNumeric c = true) :
    c ≠ '(' ∧ c ≠ '"' ∧ c ≠ '\'' := by
  refine ⟨?_, ?_, ?_⟩ <;> rintro rfl <;> exact absurd h (by decide)

theorem Digits.isNumeric {text : List Char} (h : Digits text) :
    ∀ c ∈ text, isNumeric c = true :=
  fun c hc => isNumeric_of_isDigit (h.2 c hc)

theorem FractionText.isNumeric {fraction text : List Char} (h : FractionText fraction text) :
    ∀ c ∈ text, isNumeric c = true := by
  cases h with
  | none => exact List.forall_mem_nil _
  | point h => exact List.forall_mem_cons.2 ⟨by decide, h.isNumeric⟩

theorem ExponentText.isNumeric {exponent : Int} {text : List Char}
    (h : ExponentText exponent text) : ∀ c ∈ text, isNumeric c = true := by
  have hletter : ∀ mark : Char, mark = 'e' ∨ mark = 'E' → Expr.isNumeric mark = true := by
    rintro mark (rfl | rfl) <;> decide
  cases h with
  | none => exact List.forall_mem_nil _
  | unsigned hmark h => exact List.forall_mem_cons.2 ⟨hletter _ hmark, h.isNumeric⟩
  | plus hmark h | minus hmark h =>
    exact List.forall_mem_cons.2 ⟨hletter _ hmark,
      List.forall_mem_cons.2 ⟨by decide, h.isNumeric⟩⟩

theorem NumberText.isNumeric {numeral : Numeral} {text : List Char} (h : NumberText numeral text) :
    ∀ c ∈ text, isNumeric c = true := by
  obtain ⟨hwhole, hfraction, hexponent⟩ := h
  rw [List.forall_mem_append, List.forall_mem_append]
  exact ⟨hwhole.isNumeric, hfraction.isNumeric, hexponent.isNumeric⟩

/-- A literal or identifier is a number, a word or a quoted text. -/
theorem LeafText.isNumeric_or_quoted {e : Expr} {text : List Char} (h : LeafText e text) :
    (∀ c ∈ text, isNumeric c = true) ∨
      ∃ quote content inner, (quote = '"' ∨ quote = '\'') ∧ QuotedText quote content inner ∧
        text = quote :: (inner ++ [quote]) := by
  have hword : ∀ text : List Char, Word text → ∀ c ∈ text, isNumeric c = true :=
    fun text hword c hc => isNumeric_of_isWordChar (hword.all c hc)
  cases h with
  | number h => exact .inl h.isNumeric
  | quoted hquote h => exact .inr ⟨_, _, _, hquote, h, rfl⟩
  | trueWord | falseWord | nullWord | undefinedWord =>
    exact .inl (hword _ (word_of_mem_keywords (by decide)))
  | identifier h => exact .inl (hword _ h)

/-- Behind a literal or identifier the measure is outside of quotes. -/
theorem LeafText.isOutside {e : Expr} {text : List Char} (h : LeafText e text) {n : Nesting}
    (hn : n.IsOutside) : (n.steps text).IsOutside := by
  rcases h.isNumeric_or_quoted with hnumeric | ⟨quote, content, inner, hquote, hinner, rfl⟩
  · exact hn.steps fun c hc => (not_special_of_isNumeric (hnumeric c hc)).2
  · rw [hinner.steps hquote hn]
    exact ⟨hn.quote, hn.escaped⟩

/-- If a quote or a parenthesis follows behind a text outside of quotes, a literal or identifier
at the start of the text has ended there. -/
theorem LeafText.isPrefix {e : Expr} {inner text rest after : List Char} {c : Char} {n : Nesting}
    (h : LeafText e inner) (hn : n.IsOutside) (hquote : (n.steps text).quote = none)
    (hc : c = '(' ∨ c = '"' ∨ c = '\'') (hne : text ≠ [])
    (hsplit : text ++ c :: rest = inner ++ after) :
    ∃ more, text = inner ++ more ∧ after = more ++ c :: rest := by
  rcases List.append_eq_append_iff.1 hsplit with ⟨beyond, rfl, hrest⟩ | ⟨more, rfl, hafter⟩
  · cases beyond with
    | nil => exact ⟨[], by simp, hrest.symm⟩
    | cons d beyond =>
      obtain ⟨rfl, -⟩ := List.cons.inj hrest
      exfalso
      rcases h.isNumeric_or_quoted with hnumeric | ⟨quote, content, quoted, hq, hquoted, heq⟩
      · obtain ⟨hparen, hdouble, hsingle⟩ := not_special_of_isNumeric (hnumeric c (by simp))
        rcases hc with hc | hc | hc
        · exact hparen hc
        · exact hdouble hc
        · exact hsingle hc
      · obtain ⟨first, text, rfl⟩ := List.exists_cons_of_ne_nil hne
        obtain ⟨rfl, hsplit⟩ := List.cons.inj heq
        have hstays := hquoted.quote_steps (isInside_step hq hn) hsplit.symm
        change ((n.step first).steps text).quote = none at hquote
        rw [hstays] at hquote
        cases hquote
  · exact ⟨more, rfl, hafter⟩

end Expr

end StepScript
