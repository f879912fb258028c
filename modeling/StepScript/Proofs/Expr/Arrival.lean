import StepScript.Proofs.Expr.Parsing
import StepScript.Proofs.Expr.Quotes

/-!
# The way to an operand

Where a text is read successfully and a quoted text or a parenthesis begins behind some part of it,
the machine comes to this place where an operand is due. What it has read until then does not depend
on the operand that stands there.
-/

namespace StepScript.Expr

open Nesting

/-- How a text goes on behind an operand if it is read successfully. -/
theorem readOperator_eq_ok_cases {stack : List Frame} {e value : Expr} {text : List Char}
    (h : readOperator stack e text = .ok value) :
    (∃ op rest, scanOperator? (dropBlanks text) = some (op, rest)) ∨
    dropBlanks text = [] ∨
    ∃ outer operand rest, closeOperators 0 stack e = (.group :: outer, operand) ∧
      dropBlanks text = ')' :: rest := by
  cases hscan : scanOperator? (dropBlanks text) with
  | some found => exact .inl ⟨found.1, found.2, rfl⟩
  | none =>
    by_contra hnone
    simp only [not_or, not_exists, not_and] at hnone
    obtain ⟨-, hend, hclose⟩ := hnone
    rw [readOperator_fault hscan (fun _ htext => hend htext) fun outer rest hstack htext =>
      hclose outer _ rest (Prod.ext hstack rfl) htext] at h
    cases h

/-- Where an operand has been read successfully, it has ended. -/
theorem ends_of_readOperator {stack : List Frame} {e value : Expr} {text : List Char}
    (h : readOperator stack e text = .ok value) : Ends text := by
  obtain ⟨blanks, hblanks, htext⟩ := dropBlanks_spec text
  rw [htext]
  refine .blanks hblanks ?_
  rcases readOperator_eq_ok_cases h with ⟨op, rest, hscan⟩ | hend | ⟨_, _, rest, -, hclose⟩
  · rw [symbol_of_scanOperator? hscan]
    exact .symbol op rest
  · rw [hend]
    exact .nil
  · rw [hclose]
    exact .cons (by decide) (by decide)

/-- An expression does not begin with an equals sign. -/
theorem readOperand_equals (stack : List Frame) (rest : List Char) (value : Expr) :
    readOperand stack ('=' :: rest) ≠ .ok value := by
  intro h
  have hblank : dropBlanks ('=' :: rest) = '=' :: rest := rfl
  have hscan : scanOperand? (dropBlanks ('=' :: rest)) = none := by rw [hblank]; rfl
  rw [readOperand_none hscan] at h
  cases h

/-! ## Two texts with a common start -/

def OpensOperand (rest : List Char) : Prop :=
  ∃ c tail, rest = c :: tail ∧ (c = '(' ∨ c = '"' ∨ c = '\'')

/-- A text that begins like an expression. -/
def StartsOperand (rest : List Char) : Prop :=
  ∃ c tail, rest = c :: tail ∧ isExprStart c = true

theorem OpensOperand.starts {rest : List Char} (h : OpensOperand rest) : StartsOperand rest := by
  obtain ⟨c, tail, rfl, hc⟩ := h
  exact ⟨c, tail, rfl, by rcases hc with rfl | rfl | rfl <;> decide⟩

theorem dropBlanks_before {rest : List Char} (h : StartsOperand rest) (text : List Char) :
    dropBlanks (text ++ rest) = dropBlanks text ++ rest := by
  obtain ⟨c, tail, rfl, hstart⟩ := h
  simp only [isExprStart, Bool.and_eq_true, Bool.not_eq_true'] at hstart
  induction text with
  | nil => simp [dropBlanks, hstart.1]
  | cons d text ih =>
    by_cases hd : isBlank d
    · simpa [dropBlanks, hd] using ih
    · simp [dropBlanks, hd]

/-- No operand ends in front of a parenthesis or a quote. -/
theorem readOperator_opens (stack : List Frame) (e : Expr) {text rest : List Char}
    (h : OpensOperand rest) (htext : dropBlanks text = []) (value : Expr) :
    readOperator stack e (text ++ rest) ≠ .ok value := by
  intro hread
  have hdrop := dropBlanks_before h.starts text
  obtain ⟨c, tail, rfl, hc⟩ := h
  rw [htext, List.nil_append] at hdrop
  rcases readOperator_eq_ok_cases hread with ⟨op, after, hscan⟩ | hend | ⟨_, _, after, -, hclose⟩
  · rw [hdrop] at hscan
    rcases hc with rfl | rfl | rfl <;> cases hscan
  · rw [hdrop] at hend
    cases hend
  · rw [hdrop] at hclose
    obtain ⟨rfl, -⟩ := List.cons.inj hclose
    rcases hc with hc | hc | hc <;> cases hc

/-- Reading comes to where an operand is due, whatever operand stands there. -/
def Arrives (read : List Char → Except Fault Expr) : Prop :=
  ∃ stack, ∀ rest, StartsOperand rest → read rest = readOperand stack rest

theorem Arrives.of_eq {read read' : List Char → Except Fault Expr} (h : Arrives read')
    (heq : ∀ rest, StartsOperand rest → read rest = read' rest) : Arrives read := by
  obtain ⟨stack, hread⟩ := h
  exact ⟨stack, fun rest hrest => (heq rest hrest).trans (hread rest hrest)⟩

variable {rest : List Char}

/-- From both states the machine arrives behind the text, which ends outside of quotes, if it can
read on from there. -/
def AllArrive (rest text : List Char) : Prop :=
  ∀ (n : Nesting) (stack : List Frame) (value : Expr), n.IsOutside → (n.steps text).quote = none →
    (readOperand stack (text ++ rest) = .ok value →
      Arrives fun rest => readOperand stack (text ++ rest)) ∧
    ∀ e, readOperator stack e (text ++ rest) = .ok value →
      Arrives fun rest => readOperator stack e (text ++ rest)

/-- A token where an operand is due is part of the text in front of a parenthesis or a quote, and
the measure is outside of quotes behind it. -/
theorem OperandText.isPrefix {token : OperandToken} {inner text after : List Char} {n : Nesting}
    (h : OperandText token inner) (hn : n.IsOutside) (hquote : (n.steps text).quote = none)
    (hrest : OpensOperand rest) (hne : text ≠ []) (hsplit : text ++ rest = inner ++ after) :
    (n.steps inner).IsOutside ∧ ∃ more, text = inner ++ more ∧ after = more ++ rest := by
  obtain ⟨c, tail, rfl, hc⟩ := hrest
  obtain ⟨first, text, rfl⟩ := List.exists_cons_of_ne_nil hne
  cases h with
  | sign op =>
    cases op
    all_goals
      obtain ⟨rfl, rfl⟩ := List.cons.inj hsplit
      exact ⟨hn.step (by decide), text, rfl, rfl⟩
  | opening =>
    obtain ⟨rfl, rfl⟩ := List.cons.inj hsplit
    exact ⟨hn.step (by decide), text, rfl, rfl⟩
  | leaf h => exact ⟨h.isOutside hn, h.isPrefix hn hquote hc hne hsplit⟩

/-- So is a binary operator. -/
theorem symbol_isPrefix {op : BinaryOp} {text after : List Char} {n : Nesting} (hn : n.IsOutside)
    (hrest : OpensOperand rest) (hsplit : text ++ rest = op.symbol.toList ++ after) :
    (n.steps op.symbol.toList).IsOutside ∧
      ∃ more, text = op.symbol.toList ++ more ∧ after = more ++ rest := by
  obtain ⟨c, tail, rfl, hc⟩ := hrest
  have hall : op.symbol.toList.all (fun d => decide (d ≠ '(' ∧ d ≠ '"' ∧ d ≠ '\'')) = true := by
    cases op <;> rfl
  have hsymbol : ∀ d ∈ op.symbol.toList, d ≠ '(' ∧ d ≠ '"' ∧ d ≠ '\'' :=
    fun d hd => of_decide_eq_true (List.all_eq_true.1 hall d hd)
  refine ⟨hn.steps fun d hd => (hsymbol d hd).2, ?_⟩
  rcases List.append_eq_append_iff.1 hsplit with ⟨beyond, hop, hbeyond⟩ | ⟨more, htext, hafter⟩
  · cases beyond with
    | nil => exact ⟨[], by simpa using hop.symm, hbeyond.symm⟩
    | cons d beyond =>
      obtain ⟨rfl, -⟩ := List.cons.inj hbeyond
      obtain ⟨hparen, hdouble, hsingle⟩ := hsymbol c (by simp [hop])
      rcases hc with hc | hc | hc
      · exact absurd hc hparen
      · exact absurd hc hdouble
      · exact absurd hc hsingle
  · exact ⟨more, htext, hafter⟩

/-- Blanks change nothing but the levels. -/
theorem isOutside_dropBlanks {n : Nesting} (hn : n.IsOutside) (text : List Char) :
    ∃ m : Nesting, m.IsOutside ∧ m.steps (dropBlanks text) = n.steps text := by
  obtain ⟨blanks, hblanks, htext⟩ := dropBlanks_spec text
  refine ⟨n.steps blanks, hn.steps fun c hc => ?_, ?_⟩
  · have hblank := hblanks c hc
    constructor <;> rintro rfl <;> exact absurd hblank (by decide)
  · conv_rhs => rw [htext]
    exact (steps_append n _ _).symm

section

variable {text : List Char} {n : Nesting} {stack : List Frame} {value : Expr}
  (ih : ∀ more : List Char, more.length < text.length → AllArrive rest more)
  (hrest : OpensOperand rest) (hn : n.IsOutside) (hquote : (n.steps text).quote = none)

include ih hrest hn hquote

theorem readOperand_arrives_of_shorter (hread : readOperand stack (text ++ rest) = .ok value) :
    Arrives fun rest => readOperand stack (text ++ rest) := by
  obtain ⟨blanks, hblanks, htext⟩ := dropBlanks_spec text
  by_cases hall : dropBlanks text = []
  · rw [hall, List.append_nil] at htext
    rw [htext]
    exact ⟨stack, fun rest _ => readOperand_blanks hblanks stack rest⟩
  · obtain ⟨m, hm, hsteps⟩ := isOutside_dropBlanks hn text
    cases hscan : scanOperand? (dropBlanks (text ++ rest)) with
    | none =>
      rw [readOperand_none hscan] at hread
      cases hread
    | some found =>
      obtain ⟨token, after⟩ := found
      obtain ⟨inner, hinner, hsplit⟩ := operandText_of_scanOperand? hscan
      rw [dropBlanks_before hrest.starts] at hsplit
      obtain ⟨hinside, more, hmore, rfl⟩ :=
        hinner.isPrefix hm (hsteps ▸ hquote) hrest hall hsplit
      have hlength : more.length < text.length := by
        have hdropped := length_scanOperand? hscan
        have hle := length_dropBlanks_le text
        rw [dropBlanks_before hrest.starts, List.length_append, List.length_append] at hdropped
        omega
      have hmoreQuote : ((m.steps inner).steps more).quote = none := by
        rw [← steps_append, ← hmore, hsteps]
        exact hquote
      have hdrop : ∀ rest, StartsOperand rest →
          dropBlanks (text ++ rest) = inner ++ (more ++ rest) := by
        intro rest hrest
        rw [dropBlanks_before hrest, hmore, List.append_assoc]
      cases hinner with
      | sign op =>
        have hsign : ∀ rest, StartsOperand rest →
            scanOperand? (dropBlanks (text ++ rest)) = some (.sign op, more ++ rest) := by
          intro rest hrest
          rw [hdrop rest hrest]
          cases op <;> rfl
        rw [readOperand_sign hscan] at hread
        exact ((ih more hlength _ _ _ hinside hmoreQuote).1 hread).of_eq
          fun rest hrest => readOperand_sign (hsign rest hrest)
      | opening =>
        have hopening : ∀ rest, StartsOperand rest →
            scanOperand? (dropBlanks (text ++ rest)) = some (.opening, more ++ rest) := by
          intro rest hrest
          rw [hdrop rest hrest]
          rfl
        rw [readOperand_opening hscan] at hread
        exact ((ih more hlength _ _ _ hinside hmoreQuote).1 hread).of_eq
          fun rest hrest => readOperand_opening (hopening rest hrest)
      | @leaf e _ hleaf =>
        rw [readOperand_leaf hscan] at hread
        -- no operand ends in front of a parenthesis or a quote, so the leaf is followed by more
        have hne : more ≠ [] := by
          rintro rfl
          exact readOperator_opens _ _ hrest rfl _ hread
        have hends : ∀ rest, Ends (more ++ rest) := by
          intro rest
          obtain ⟨c, tail, rfl⟩ := List.exists_cons_of_ne_nil hne
          obtain ⟨hword, hpoint⟩ := ends_of_readOperator hread c _ rfl
          exact .cons hword hpoint
        have hscanned : ∀ rest, StartsOperand rest →
            scanOperand? (dropBlanks (text ++ rest)) = some (.leaf e, more ++ rest) := by
          intro rest hrest
          rw [hdrop rest hrest]
          exact scanOperand?_leaf hleaf (hends rest)
        exact ((ih more hlength _ _ _ hinside hmoreQuote).2 _ hread).of_eq
          fun rest hrest => readOperand_leaf (hscanned rest hrest)

theorem readOperator_arrives_of_shorter {e : Expr}
    (hread : readOperator stack e (text ++ rest) = .ok value) :
    Arrives fun rest => readOperator stack e (text ++ rest) := by
  have hall : dropBlanks text ≠ [] := fun hall => readOperator_opens stack e hrest hall _ hread
  have hle := length_dropBlanks_le text
  obtain ⟨m, hm, hsteps⟩ := isOutside_dropBlanks hn text
  rcases readOperator_eq_ok_cases hread with
    ⟨op, after, hscan⟩ | hend | ⟨outer, operand, after, hgroup, hclose⟩
  · have hsplit := symbol_of_scanOperator? hscan
    rw [dropBlanks_before hrest.starts] at hsplit
    obtain ⟨hinside, more, hmore, rfl⟩ := symbol_isPrefix hm hrest hsplit
    have hlength : more.length < text.length := by
      have hdropped := length_scanOperator? hscan
      rw [dropBlanks_before hrest.starts, List.length_append, List.length_append] at hdropped
      omega
    have hmoreQuote : ((m.steps op.symbol.toList).steps more).quote = none := by
      rw [← steps_append, ← hmore, hsteps]
      exact hquote
    rw [readOperator_symbol hscan] at hread
    -- no operand that stands behind the operator makes it longer
    have hequals : ∀ rest, StartsOperand rest → ∀ tail, more ++ rest ≠ '=' :: tail := by
      rintro rest ⟨c, after, rfl, hstart⟩ tail heq
      cases more with
      | nil =>
        obtain ⟨rfl, -⟩ := List.cons.inj heq
        exact absurd hstart (by decide)
      | cons d more =>
        obtain ⟨rfl, -⟩ := List.cons.inj heq
        exact readOperand_equals _ _ _ hread
    refine ((ih more hlength _ _ _ hinside hmoreQuote).1 hread).of_eq
      fun rest hrest => readOperator_symbol ?_
    rw [dropBlanks_before hrest, hmore, List.append_assoc, scanOperator?_symbol op (hequals rest hrest)]
  · rw [dropBlanks_before hrest.starts] at hend
    exact absurd (List.append_eq_nil_iff.1 hend).1 hall
  · obtain ⟨first, more, hmore⟩ := List.exists_cons_of_ne_nil hall
    rw [dropBlanks_before hrest.starts, hmore] at hclose
    obtain ⟨rfl, -⟩ := List.cons.inj hclose
    have hclosing : ∀ rest, StartsOperand rest →
        dropBlanks (text ++ rest) = ')' :: (more ++ rest) := by
      intro rest hrest
      rw [dropBlanks_before hrest, hmore]
      rfl
    have hlength : more.length < text.length := by
      rw [hmore, List.length_cons] at hle
      omega
    have hmoreQuote : ((m.step ')').steps more).quote = none := by
      rw [show (m.step ')').steps more = m.steps (')' :: more) from rfl, ← hmore, hsteps]
      exact hquote
    rw [readOperator_close (hclosing rest hrest.starts) hgroup] at hread
    exact ((ih more hlength _ _ _ (hm.step (by decide)) hmoreQuote).2 _ hread).of_eq
      fun rest hrest => readOperator_close (hclosing rest hrest) hgroup

end

theorem allArrive (hrest : OpensOperand rest) (text : List Char) : AllArrive rest text := by
  induction hlength : text.length using Nat.strongRecOn generalizing text with
  | ind length ih =>
    subst hlength
    have hshorter : ∀ more : List Char, more.length < text.length → AllArrive rest more :=
      fun more hmore => ih more.length hmore more rfl
    intro n stack value hn hquote
    exact ⟨fun hread => readOperand_arrives_of_shorter hshorter hrest hn hquote hread,
      fun e hread => readOperator_arrives_of_shorter hshorter hrest hn hquote hread⟩

/-- If a text is read that goes on with a parenthesis or a quote outside of quotes, the machine comes
there where an operand is due, and so it does with any other operand in this place. -/
theorem readOperand_arrives {before : String} (hbefore : EndsOutsideQuotes before)
    (hrest : OpensOperand rest) {value : Expr}
    (hread : readOperand [] (before.toList ++ rest) = .ok value) :
    ∃ stack, ∀ rest, StartsOperand rest →
      readOperand [] (before.toList ++ rest) = readOperand stack rest :=
  (allArrive hrest before.toList .start [] value Nesting.isOutside_start hbefore).1 hread

end StepScript.Expr
