import StepScript.Proofs.Expr.Scanning

/-!
# The parser and the grammar

The machine of the parser finds the expression of every text of the grammar, and what it finds is
one. In one direction a derivation is followed: the machine reads an operand of a level and comes out
with something that closes to that operand. In the other direction the stack is read as a text: it
spells what has been read so far.

## Main definitions

- `Expr.Ready` — a stack on which an operand of a level may be put
- `Expr.Spells` — the text that a stack stands for

## Main results

- `Expr.Derives.read` — the machine reads what the grammar derives
- `Expr.findsBehind` — what the machine reads is derived
- `Expr.Program.unique` — the grammar is not ambiguous
- `Expr.parse_iff_program` — the parser and the grammar agree
-/

namespace StepScript.Expr

/-! ## Moves of the machine -/

section

variable {stack outer : List Frame} {e value : Expr} {text rest : List Char}

theorem readOperand_sign {op : UnaryOp}
    (h : scanOperand? (dropBlanks text) = some (.sign op, rest)) :
    readOperand stack text = readOperand (.sign op :: stack) rest := by
  rw [readOperand]
  split <;> simp_all

theorem readOperand_opening (h : scanOperand? (dropBlanks text) = some (.opening, rest)) :
    readOperand stack text = readOperand (.group :: stack) rest := by
  rw [readOperand]
  split <;> simp_all

theorem readOperand_leaf (h : scanOperand? (dropBlanks text) = some (.leaf value, rest)) :
    readOperand stack text =
      readOperator (closeSigns stack value).1 (closeSigns stack value).2 rest := by
  rw [readOperand]
  split <;> simp_all

theorem readOperand_none (h : scanOperand? (dropBlanks text) = none) :
    readOperand stack text = .error (.operandDue (dropBlanks text)) := by
  rw [readOperand]
  split <;> simp_all

theorem readOperator_symbol {op : BinaryOp}
    (h : scanOperator? (dropBlanks text) = some (op, rest)) :
    readOperator stack e text =
      readOperand (.left (closeOperators op.level stack e).2 op ::
        (closeOperators op.level stack e).1) rest := by
  rw [readOperator]
  split <;> simp_all

theorem readOperator_end (h : dropBlanks text = [])
    (hclose : closeOperators 0 stack e = ([], value)) :
    readOperator stack e text = .ok value := by
  have hnone : scanOperator? (dropBlanks text) = none := by rw [h]; rfl
  rw [readOperator]
  split
  · simp_all
  · simp only [hclose]
    split <;> simp_all

theorem readOperator_close (h : dropBlanks text = ')' :: rest)
    (hclose : closeOperators 0 stack e = (.group :: outer, value)) :
    readOperator stack e text =
      readOperator (closeSigns outer value).1 (closeSigns outer value).2 rest := by
  have hnone : scanOperator? (dropBlanks text) = none := by rw [h]; rfl
  rw [readOperator]
  split
  · simp_all
  · simp only [hclose]
    split <;> simp_all

theorem readOperator_fault (h : scanOperator? (dropBlanks text) = none)
    (hend : (closeOperators 0 stack e).1 = [] → dropBlanks text = [] → False)
    (hgroup : ∀ outer rest, (closeOperators 0 stack e).1 = .group :: outer →
      dropBlanks text = ')' :: rest → False) :
    readOperator stack e text = .error (.operatorDue (insideGroup stack) (dropBlanks text)) := by
  rw [readOperator]
  split
  · simp_all
  · split
    all_goals simp_all

end

/-! ## Reading a derivation -/

/-- A stack on which an operand of a level may be put: no sign and no operator that binds as tightly
waits for it. -/
def Ready (level : Nat) : List Frame → Prop
  | .sign _ :: _ => False
  | .left _ op :: _ => op.level < level
  | _ => True

theorem Ready.mono {level level' : Nat} {stack : List Frame} (h : Ready level stack)
    (hle : level ≤ level') : Ready level' stack := by
  match stack with
  | [] | .group :: _ => trivial
  | .left _ _ :: _ => exact Nat.lt_of_lt_of_le h hle

theorem Ready.closeSigns_eq {level : Nat} {stack : List Frame} (h : Ready level stack) (e : Expr) :
    closeSigns stack e = (stack, e) := by
  match stack with
  | [] | .group :: _ | .left _ _ :: _ => rfl

theorem Ready.closeOperators_eq {level : Nat} {stack : List Frame} (h : Ready level stack)
    (e : Expr) : closeOperators level stack e = (stack, e) := by
  match stack with
  | [] | .group :: _ => rfl
  | .left _ _ :: _ => exact if_neg (Nat.not_le_of_lt h)

/-- No blank and no end of an operator is in front of an expression. -/
theorem Derives.not_blank {level : Nat} {e : Expr} {text : List Char} (h : Derives level e text)
    (rest : List Char) :
    ∀ c tail, text ++ rest = c :: tail → isBlank c = false ∧ c ≠ '=' := by
  obtain ⟨c, tail, rfl, hstart⟩ := h.starts
  rintro d after ⟨⟩
  simpa [isExprStart] using hstart

theorem dropBlanks_blanks {blanks : List Char} (h : Blanks blanks) (text : List Char) :
    dropBlanks (blanks ++ text) = dropBlanks text :=
  List.dropWhile_append_of_pos h

theorem readOperand_blanks {blanks : List Char} (h : Blanks blanks) (stack : List Frame)
    (text : List Char) : readOperand stack (blanks ++ text) = readOperand stack text := by
  rw [readOperand, readOperand, dropBlanks_blanks h]

theorem readOperator_blanks {blanks : List Char} (h : Blanks blanks) (stack : List Frame) (e : Expr)
    (text : List Char) : readOperator stack e (blanks ++ text) = readOperator stack e text := by
  rw [readOperator, readOperator, dropBlanks_blanks h]

theorem dropBlanks_of_not_blank {text : List Char}
    (h : ∀ c tail, text = c :: tail → isBlank c = false) : dropBlanks text = text :=
  dropBlanks_append Blanks.nil h

theorem dropBlanks_symbol (op : BinaryOp) (rest : List Char) :
    dropBlanks (op.symbol.toList ++ rest) = op.symbol.toList ++ rest := by
  cases op <;> rfl

/-- A stack and an operand that close to the same as the operand `e` on the stack `stack`, however
many levels up to `level` are closed. -/
def ClosesLike (level : Nat) (stack : List Frame) (e : Expr) (stack' : List Frame) (e' : Expr) :
    Prop :=
  ∀ k ≤ level, closeOperators k stack' e' =
    closeOperators k (closeSigns stack e).1 (closeSigns stack e).2

/-- The machine reads an expression of a level as an operand of this level. -/
theorem Derives.read {level : Nat} {e : Expr} {text : List Char} (h : Derives level e text)
    (stack : List Frame) {rest : List Char} (hready : level < unaryLevel → Ready level stack)
    (hrest : Ends rest) :
    ∃ stack' e', readOperand stack (text ++ rest) = readOperator stack' e' rest ∧
      ClosesLike level stack e stack' e' := by
  -- only the operators of a level up to that of the derivation close behind it, so it is enough to
  -- know the stack and the operand up to these
  induction h generalizing stack rest with
  | @leaf e text h =>
    refine ⟨(closeSigns stack e).1, (closeSigns stack e).2, ?_, fun k _ => rfl⟩
    refine readOperand_leaf ?_
    rw [dropBlanks_of_not_blank fun c tail heq =>
      ((Derives.leaf h).not_blank rest c tail heq).1]
    exact scanOperand?_leaf h hrest
  | @group e before text after hbefore h hafter ih =>
    refine ⟨(closeSigns stack e).1, (closeSigns stack e).2, ?_, fun k _ => rfl⟩
    have hafter' : Ends (after ++ ')' :: rest) :=
      .blanks hafter (.cons (by decide) (by decide))
    obtain ⟨stack', e', hread, hcloses⟩ := ih (.group :: stack) (fun _ => trivial) hafter'
    have hgroup : closeOperators 0 stack' e' = (.group :: stack, e) := hcloses 0 (Nat.le_refl 0)
    calc readOperand stack ('(' :: (before ++ (text ++ (after ++ [')']))) ++ rest)
        = readOperand (.group :: stack) (before ++ (text ++ (after ++ ')' :: rest))) := by
          simpa using readOperand_opening rfl
      _ = readOperator stack' e' (after ++ ')' :: rest) := by
          rw [readOperand_blanks hbefore, hread]
      _ = readOperator (closeSigns stack e).1 (closeSigns stack e).2 rest := by
          rw [readOperator_blanks hafter, readOperator_close rfl hgroup]
  | @unary op e between text hbetween h ih =>
    obtain ⟨stack', e', hread, hcloses⟩ :=
      ih (.sign op :: stack) (fun hlevel => absurd hlevel (Nat.lt_irrefl _)) hrest
    have hsign : readOperand stack (op.symbol.toList ++ (between ++ (text ++ rest))) =
        readOperand (.sign op :: stack) (between ++ (text ++ rest)) :=
      readOperand_sign (by cases op <;> rfl)
    refine ⟨stack', e', ?_, hcloses⟩
    rw [List.append_assoc, List.append_assoc, hsign, readOperand_blanks hbetween, hread]
  | @binary op e e' left before after right h hbefore hafter h' ih ih' =>
    have hbinary := hready (level_lt_unaryLevel op)
    have hoperator : Ends (before ++ (op.symbol.toList ++ (after ++ (right ++ rest)))) :=
      .blanks hbefore (.symbol op _)
    obtain ⟨outer, operand, hread, hcloses⟩ := ih stack hready hoperator
    have hleft : closeOperators op.level outer operand = (stack, e) := by
      rw [hcloses _ (Nat.le_refl _), hbinary.closeSigns_eq, hbinary.closeOperators_eq]
    obtain ⟨stack', e'', hread', hcloses'⟩ :=
      ih' (.left e op :: stack) (fun _ => Nat.lt_succ_self _) hrest
    refine ⟨stack', e'', ?_, ?_⟩
    · -- the second character of an operator is none that an operand or a blank begins with
      have hnext : ∀ tail, after ++ (right ++ rest) ≠ '=' :: tail := by
        intro tail heq
        cases after with
        | nil => exact (h'.not_blank rest _ _ heq).2 rfl
        | cons c after =>
          obtain ⟨rfl, -⟩ := List.cons.inj heq
          exact absurd (hafter '=' (List.mem_cons_self ..)) (by decide)
      simp only [List.append_assoc]
      rw [hread, readOperator_blanks hbefore,
        readOperator_symbol (by rw [dropBlanks_symbol, scanOperator?_symbol op hnext]), hleft,
        readOperand_blanks hafter, hread']
    · intro k hk
      rw [hcloses' k (Nat.le_succ_of_le hk), hbinary.closeSigns_eq]
      exact if_pos hk
  | @operand level e text hlevel h ih =>
    have hlower := hready hlevel
    obtain ⟨stack', e', hread, hcloses⟩ := ih stack (fun _ => hlower.mono (Nat.le_succ _)) hrest
    exact ⟨stack', e', hread, fun k hk => hcloses k (Nat.le_succ_of_le hk)⟩

/-- Every text of the grammar is read as its expression. -/
theorem Program.read {e : Expr} {text : List Char} (h : Program e text) :
    readOperand [] text = .ok e := by
  obtain ⟨before, inner, after, rfl, hbefore, hafter, hinner⟩ := h
  have hends : Ends after := by
    rw [← List.append_nil after]
    exact .blanks hafter .nil
  obtain ⟨stack, e', hread, hcloses⟩ := hinner.read [] (fun _ => trivial) hends
  have hblank : dropBlanks after = [] := by
    rw [← List.append_nil after, dropBlanks_blanks hafter]
    rfl
  rw [readOperand_blanks hbefore, hread]
  exact readOperator_end hblank (hcloses 0 (Nat.le_refl 0))

/-! ## Reading a stack -/

/-- The text that a stack stands for. Each operator has an operand of its level on its left. -/
inductive Spells : List Frame → List Char → Prop
  | nil : Spells [] []
  | blanks {stack : List Frame} {text blanks : List Char} (h : Spells stack text)
      (hblanks : Blanks blanks) : Spells stack (text ++ blanks)
  | group {stack : List Frame} {text : List Char} (h : Spells stack text) :
      Spells (.group :: stack) (text ++ ['('])
  | sign {op : UnaryOp} {stack : List Frame} {text : List Char} (h : Spells stack text) :
      Spells (.sign op :: stack) (text ++ op.symbol.toList)
  | left {op : BinaryOp} {e : Expr} {stack : List Frame} {text inner blanks : List Char}
      (h : Spells stack text) (hready : Ready op.level stack) (hinner : Derives op.level e inner)
      (hblanks : Blanks blanks) :
      Spells (.left e op :: stack) (text ++ (inner ++ (blanks ++ op.symbol.toList)))

/-- A stack and an operand of a level on it stand for a text. -/
def SpellsWith (level : Nat) (stack : List Frame) (e : Expr) (text : List Char) : Prop :=
  ∃ before inner, text = before ++ inner ∧ Spells stack before ∧ Ready level stack ∧
    Derives level e inner

/-- Prefix operators become part of the operand behind them. -/
theorem Spells.closeSigns {stack : List Frame} {e : Expr} {before blanks inner : List Char}
    (h : Spells stack before) (hblanks : Blanks blanks) (hinner : Derives unaryLevel e inner) :
    SpellsWith unaryLevel (closeSigns stack e).1 (closeSigns stack e).2
      (before ++ (blanks ++ inner)) := by
  induction h generalizing e blanks inner with
  | blanks h hblanks' ih =>
    rw [List.append_assoc, ← List.append_assoc _ blanks]
    exact ih (hblanks'.append hblanks) hinner
  | @sign op stack before h ih =>
    rw [List.append_assoc]
    have hunary : Derives unaryLevel (.unary op e) (op.symbol.toList ++ (blanks ++ inner)) :=
      .unary hblanks hinner
    have hoperand := ih Blanks.nil hunary
    exact hoperand
  | nil => exact ⟨[] ++ blanks, inner, rfl, Spells.nil.blanks hblanks, trivial, hinner⟩
  | group h =>
    refine ⟨_, inner, (List.append_assoc ..).symm, h.group.blanks hblanks, trivial, hinner⟩
  | @left op _ _ _ _ _ h hready hleft hblanks' =>
    exact ⟨_, inner, (List.append_assoc ..).symm, (h.left hready hleft hblanks').blanks hblanks,
      level_lt_unaryLevel op, hinner⟩

/-- Operators that bind at least as tightly as a level become part of the operand behind them. -/
theorem Spells.closeOperators {k level : Nat} {stack : List Frame} {e : Expr}
    {before blanks inner : List Char} (h : Spells stack before) (hblanks : Blanks blanks)
    (hready : Ready level stack) (hinner : Derives level e inner) (hk : k ≤ level)
    (hlevel : level ≤ unaryLevel) :
    SpellsWith k (closeOperators k stack e).1 (closeOperators k stack e).2
      (before ++ (blanks ++ inner)) := by
  induction h generalizing level e blanks inner with
  | blanks h hblanks' ih =>
    rw [List.append_assoc, ← List.append_assoc _ blanks]
    exact ih (hblanks'.append hblanks) hready hinner hk hlevel
  | sign => exact hready.elim
  | nil =>
    exact ⟨[] ++ blanks, inner, rfl, Spells.nil.blanks hblanks, trivial, hinner.weaken hlevel hk⟩
  | group h =>
    exact ⟨_, inner, (List.append_assoc ..).symm, h.group.blanks hblanks, trivial,
      hinner.weaken hlevel hk⟩
  | @left op e' stack text inner' blanks' h hready' hleft hblanks' ih =>
    rw [StepScript.Expr.closeOperators]
    split
    · next hcloses =>
      have hright : Derives (op.level + 1) e inner := hinner.weaken hlevel hready
      have hbinary : Derives op.level (.binary op e' e)
          (inner' ++ (blanks' ++ (op.symbol.toList ++ (blanks ++ inner)))) :=
        .binary hleft hblanks' hblanks hright
      have hlower := ih Blanks.nil hready' hbinary hcloses
        (Nat.le_of_lt (level_lt_unaryLevel op))
      simpa only [List.append_assoc, List.nil_append] using hlower
    · next hopen =>
      exact ⟨_, inner, (List.append_assoc ..).symm, (h.left hready' hleft hblanks').blanks hblanks,
        Nat.lt_of_not_le hopen, hinner.weaken hlevel hk⟩

theorem Spells.blanks_of_nil {text : List Char} (h : Spells [] text) : Blanks text := by
  generalize hstack : ([] : List Frame) = stack at h
  induction h with
  | nil => exact Blanks.nil
  | blanks _ hblanks ih => exact (ih hstack).append hblanks
  | group | sign | left => cases hstack

theorem Spells.of_group {stack : List Frame} {text : List Char}
    (h : Spells (.group :: stack) text) :
    ∃ before blanks, text = before ++ ('(' :: blanks) ∧ Spells stack before ∧ Blanks blanks := by
  generalize hstack : Frame.group :: stack = whole at h
  induction h with
  | blanks _ hblanks ih =>
    obtain ⟨before, blanks, rfl, hspells, hblanks'⟩ := ih hstack
    exact ⟨before, _, by rw [List.append_assoc, List.cons_append], hspells, hblanks'.append hblanks⟩
  | group h =>
    cases hstack
    exact ⟨_, [], rfl, h, Blanks.nil⟩
  | nil | sign | left => cases hstack

/-! ## What is read is spelled -/

section

variable {stack outer : List Frame} {e value : Expr} {op : BinaryOp}
  {before blanks text rest : List Char}

theorem spellsWith_closeOperators (h : SpellsWith unaryLevel stack e before) {k : Nat}
    (hk : k ≤ unaryLevel) :
    SpellsWith k (closeOperators k stack e).1 (closeOperators k stack e).2 before := by
  obtain ⟨before, inner, rfl, hspells, hready, hinner⟩ := h
  exact hspells.closeOperators Blanks.nil hready hinner hk (Nat.le_refl _)

theorem exists_operandText {token : OperandToken}
    (h : scanOperand? (dropBlanks text) = some (token, rest)) :
    ∃ blanks inner, text = blanks ++ (inner ++ rest) ∧ Blanks blanks ∧ OperandText token inner := by
  obtain ⟨blanks, hblanks, htext⟩ := dropBlanks_spec text
  obtain ⟨inner, hinner, hafter⟩ := operandText_of_scanOperand? h
  exact ⟨blanks, inner, by rw [← hafter, ← htext], hblanks, hinner⟩

theorem spells_sign {op : UnaryOp} (h : Spells stack before)
    (hscan : scanOperand? (dropBlanks text) = some (.sign op, rest)) :
    ∃ read, text = read ++ rest ∧ Spells (.sign op :: stack) (before ++ read) := by
  obtain ⟨blanks, inner, rfl, hblanks, ⟨⟩⟩ := exists_operandText hscan
  refine ⟨blanks ++ op.symbol.toList, (List.append_assoc ..).symm, ?_⟩
  rw [← List.append_assoc]
  exact (h.blanks hblanks).sign

theorem spells_opening (h : Spells stack before)
    (hscan : scanOperand? (dropBlanks text) = some (.opening, rest)) :
    ∃ read, text = read ++ rest ∧ Spells (.group :: stack) (before ++ read) := by
  obtain ⟨blanks, inner, rfl, hblanks, ⟨⟩⟩ := exists_operandText hscan
  refine ⟨blanks ++ ['('], (List.append_assoc ..).symm, ?_⟩
  rw [← List.append_assoc]
  exact (h.blanks hblanks).group

theorem spellsWith_leaf (h : Spells stack before)
    (hscan : scanOperand? (dropBlanks text) = some (.leaf value, rest)) :
    ∃ read, text = read ++ rest ∧
      SpellsWith unaryLevel (closeSigns stack value).1 (closeSigns stack value).2
        (before ++ read) := by
  obtain ⟨blanks, inner, rfl, hblanks, hinner⟩ := exists_operandText hscan
  cases hinner with
  | leaf hleaf =>
    exact ⟨blanks ++ inner, (List.append_assoc ..).symm, h.closeSigns hblanks (.leaf hleaf)⟩

theorem spells_symbol (h : SpellsWith unaryLevel stack e before)
    (hscan : scanOperator? (dropBlanks text) = some (op, rest)) :
    ∃ read, text = read ++ rest ∧
      Spells (.left (closeOperators op.level stack e).2 op :: (closeOperators op.level stack e).1)
        (before ++ read) := by
  obtain ⟨blanks, hblanks, htext⟩ := dropBlanks_spec text
  obtain ⟨before, inner, rfl, hspells, hready, hinner⟩ :=
    spellsWith_closeOperators h (Nat.le_of_lt (level_lt_unaryLevel op))
  rw [symbol_of_scanOperator? hscan] at htext
  refine ⟨blanks ++ op.symbol.toList, by rw [htext, List.append_assoc], ?_⟩
  rw [List.append_assoc]
  exact hspells.left hready hinner hblanks

/-- Without an open parenthesis the operand is the whole expression. -/
theorem program_of_spellsWith (h : SpellsWith unaryLevel stack e before)
    (hclose : closeOperators 0 stack e = ([], value)) (hblanks : Blanks blanks) :
    Program value (before ++ blanks) := by
  have hclosed := spellsWith_closeOperators h (Nat.zero_le _)
  rw [hclose] at hclosed
  obtain ⟨before, inner, rfl, hspells, -, hinner⟩ := hclosed
  exact ⟨before, inner, blanks, List.append_assoc .., hspells.blanks_of_nil, hblanks, hinner⟩

/-- A closing parenthesis makes an operand of what stands in the parentheses. -/
theorem spellsWith_closing (h : SpellsWith unaryLevel stack e before)
    (hclose : closeOperators 0 stack e = (.group :: outer, value)) (hblanks : Blanks blanks) :
    SpellsWith unaryLevel (closeSigns outer value).1 (closeSigns outer value).2
      (before ++ (blanks ++ [')'])) := by
  have hclosed := spellsWith_closeOperators h (Nat.zero_le _)
  rw [hclose] at hclosed
  obtain ⟨before, inner, rfl, hspells, -, hinner⟩ := hclosed
  obtain ⟨before, blanks', rfl, hspells', hblanks'⟩ := hspells.of_group
  have hgroup := hspells'.closeSigns Blanks.nil (.group hblanks' hinner hblanks)
  simpa only [List.append_assoc, List.cons_append, List.nil_append] using hgroup

end

/-! ## What is found -/

/-- What the machine finds where an operand is due, behind what its stack stands for. -/
def FindsBehind (stack : List Frame) (text : List Char) : Prop :=
  ∀ before e, Spells stack before → readOperand stack text = .ok e → Program e (before ++ text)

/-- The same behind an operand. -/
def FindsBehindOperand (stack : List Frame) (operand : Expr) (text : List Char) : Prop :=
  ∀ before e, SpellsWith unaryLevel stack operand before → readOperator stack operand text = .ok e →
    Program e (before ++ text)

/-- What the machine finds is an expression whose text it has read. -/
theorem findsBehind : (∀ stack text, FindsBehind stack text) ∧
    ∀ stack operand text, FindsBehindOperand stack operand text := by
  -- one case for each way in which the machine goes on; cases 1 and 8 are its faults
  apply readOperand.mutual_induct FindsBehind FindsBehindOperand
  case case1 =>
    intro stack text hscan before e _ hread
    rw [readOperand_none hscan] at hread
    cases hread
  case case2 =>
    intro stack text op rest hscan ih before e hspells hread
    rw [readOperand_sign hscan] at hread
    obtain ⟨read, rfl, hspells⟩ := spells_sign hspells hscan
    rw [← List.append_assoc]
    exact ih _ e hspells hread
  case case3 =>
    intro stack text rest hscan ih before e hspells hread
    rw [readOperand_opening hscan] at hread
    obtain ⟨read, rfl, hspells⟩ := spells_opening hspells hscan
    rw [← List.append_assoc]
    exact ih _ e hspells hread
  case case4 =>
    intro stack text value rest hscan outer operand hclose ih before e hspells hread
    rw [readOperand_leaf hscan, hclose] at hread
    obtain ⟨read, rfl, hoperand⟩ := spellsWith_leaf hspells hscan
    rw [hclose] at hoperand
    rw [← List.append_assoc]
    exact ih _ e hoperand hread
  case case5 =>
    intro stack operand text op rest hscan outer left hclose ih before e hoperand hread
    rw [readOperator_symbol hscan, hclose] at hread
    obtain ⟨read, rfl, hspells⟩ := spells_symbol hoperand hscan
    rw [hclose] at hspells
    rw [← List.append_assoc]
    exact ih _ e hspells hread
  case case6 =>
    intro stack operand text _ value hend hclose before e hoperand hread
    rw [readOperator_end hend hclose] at hread
    cases hread
    obtain ⟨blanks, hblanks, htext⟩ := dropBlanks_spec text
    rw [htext, hend, List.append_nil]
    exact program_of_spellsWith hoperand hclose hblanks
  case case7 =>
    intro stack operand text _ value outer rest hend outer' value' hsigns hclose ih before e
      hoperand hread
    rw [readOperator_close hend hclose, hsigns] at hread
    obtain ⟨blanks, hblanks, htext⟩ := dropBlanks_spec text
    have hgroup := spellsWith_closing hoperand hclose hblanks
    rw [hsigns] at hgroup
    have hprogram := ih _ e hgroup hread
    rw [htext, hend]
    simpa only [List.append_assoc, List.singleton_append] using hprogram
  case case8 =>
    intro stack operand text hscan outer value hclose hend hgroup before e _ hread
    rw [readOperator_fault hscan (by rwa [hclose]) (by rwa [hclose])] at hread
    cases hread

/-- The machine finds an expression in exactly the texts of the grammar that stand for it. -/
theorem readOperand_eq_ok_iff {e : Expr} {text : List Char} :
    readOperand [] text = .ok e ↔ Program e text :=
  ⟨findsBehind.1 [] text [] e .nil, Program.read⟩

/-- A text stands for one expression only. -/
theorem Program.unique {e e' : Expr} {text : List Char} (h : Program e text)
    (h' : Program e' text) : e = e' := by
  have hread := h.read
  rw [h'.read] at hread
  exact (Except.ok.inj hread).symm

/-! ## The parser -/

theorem parse_eq_ok_iff {text : String} {e : Expr} :
    parse text = .ok e ↔ Nesting.start.exceeds nestingLimit text.toList = false ∧
      readOperand [] text.toList = .ok e ∧ e.height ≤ heightLimit := by
  unfold parse
  cases Nesting.start.exceeds nestingLimit text.toList with
  | true => simp
  | false =>
    simp only [Bool.false_eq_true, if_false, true_and]
    cases readOperand [] text.toList with
    | error cause => simp
    | ok found =>
      dsimp only
      split
      · next hheight =>
        constructor
        · rintro ⟨⟩
          exact ⟨rfl, hheight⟩
        · rintro ⟨⟨⟩, -⟩
          rfl
      · next hhigh =>
        constructor
        · nofun
        · rintro ⟨⟨⟩, hheight⟩
          exact absurd hheight hhigh

/-- Of a text that does not nest too deep, the parser finds the expression that the grammar derives,
if it is not too high, and no other; where the grammar derives nothing, the parser reports a
fault. -/
theorem parse_iff_program (text : String)
    (h : Nesting.start.exceeds nestingLimit text.toList = false) :
    (∀ e, parse text = .ok e ↔ Program e text.toList ∧ e.height ≤ heightLimit) ∧
    (parse text = .error .tooHigh ↔ ∃ e, Program e text.toList ∧ heightLimit < e.height) ∧
    (∀ e e', Program e text.toList → Program e' text.toList → e = e') ∧
    ((∃ cause, parse text = .error (.fault cause)) ↔ ∀ e, ¬ Program e text.toList) := by
  have hunique : ∀ e e', Program e text.toList → Program e' text.toList → e = e' :=
    fun _ _ hprogram hprogram' => hprogram.unique hprogram'
  unfold parse
  rw [if_neg (by rw [h]; exact Bool.false_ne_true)]
  cases hread : readOperand [] text.toList with
  | error cause =>
    have hnone : ∀ e, ¬ Program e text.toList := by
      intro e hprogram
      rw [hprogram.read] at hread
      cases hread
    refine ⟨fun e => ⟨nofun, fun hprogram => absurd hprogram.1 (hnone e)⟩, ⟨nofun, ?_⟩, hunique,
      fun _ => hnone, fun _ => ⟨cause, rfl⟩⟩
    rintro ⟨e, hprogram, -⟩
    exact absurd hprogram (hnone e)
  | ok found =>
    have hfound := readOperand_eq_ok_iff.1 hread
    have hsome : ¬ ∀ e, ¬ Program e text.toList := fun hnone => hnone found hfound
    dsimp only
    split
    · next hheight =>
      refine ⟨fun e => ⟨?_, fun hprogram => ?_⟩, ⟨nofun, ?_⟩, hunique, nofun, fun hnone =>
        absurd hnone hsome⟩
      · rintro ⟨⟩
        exact ⟨hfound, hheight⟩
      · rw [hprogram.1.unique hfound]
      · rintro ⟨e, hprogram, hhigh⟩
        rw [hprogram.unique hfound] at hhigh
        exact absurd hheight (Nat.not_le_of_lt hhigh)
    · next hhigh =>
      refine ⟨fun e => ⟨nofun, ?_⟩, ⟨fun _ => ?_, fun _ => rfl⟩, hunique, nofun, fun hnone =>
        absurd hnone hsome⟩
      · rintro ⟨hprogram, hheight⟩
        rw [hprogram.unique hfound] at hheight
        exact absurd hheight hhigh
      · exact ⟨found, hfound, Nat.lt_of_not_le hhigh⟩

theorem parse_atMost_neg :
    Nesting.start.exceeds nestingLimit "a <= -b".toList = false ∧
      parse "a <= -b" =
        .ok (.binary .atMost (.identifier "a") (.unary .neg (.identifier "b"))) := by
  have hname : ∀ name : String, Word name.toList → name ∉ keywords →
      Derives unaryLevel (.identifier name) name.toList :=
    fun name hword hkeyword => .leaf (.identifier hword hkeyword)
  have ha := hname "a" ⟨'a', [], rfl, by decide, List.forall_mem_nil _⟩ (by decide)
  have hb := hname "b" ⟨'b', [], rfl, by decide, List.forall_mem_nil _⟩ (by decide)
  have hneg : Derives unaryLevel (.unary .neg (.identifier "b")) "-b".toList :=
    @Derives.unary .neg _ [] _ Blanks.nil hb
  have hspace : Blanks [' '] := List.forall_mem_singleton.2 (by decide)
  have hless : Derives 3 (.binary .atMost (.identifier "a") (.unary .neg (.identifier "b")))
      "a <= -b".toList :=
    @Derives.binary .atMost _ _ _ _ _ _ (ha.weaken (by decide) (by decide)) hspace hspace
      (hneg.weaken (by decide) (by decide))
  have hprogram : Program _ "a <= -b".toList :=
    ⟨[], _, [], (List.append_nil _).symm, Blanks.nil, Blanks.nil,
      hless.weaken (by decide) (by decide)⟩
  have hnesting : Nesting.start.exceeds nestingLimit "a <= -b".toList = false := by decide
  exact ⟨hnesting, ((parse_iff_program "a <= -b" hnesting).1 _).2 ⟨hprogram, by decide⟩⟩

end StepScript.Expr
