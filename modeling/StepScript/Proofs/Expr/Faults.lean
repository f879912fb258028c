import StepScript.Proofs.Expr.Levels

/-!
# Where a text goes wrong

A text that the grammar does not derive is reported at the first place at which it cannot go on. In
front of that place it can be completed, with an operand if one is due and a closing parenthesis for
each open one, and no token that may stand there does.
-/

namespace StepScript.Expr

open Nesting

/-! ## No token -/

/-- A digit begins a number. -/
theorem scan?_ne_none {c : Char} (h : c.isDigit = true) (rest : List Char) :
    Numeral.scan? (c :: rest) ≠ none := by
  have hsome : (Numeral.takeDigits (c :: rest)).1.isEmpty = false := by
    simp [Numeral.takeDigits, h]
  unfold Numeral.scan?
  simp only [hsome, Bool.false_eq_true, if_false]
  split
  · split <;> exact Option.some_ne_none _
  · exact Option.some_ne_none _

/-- Every literal or identifier at the start of a text is found, or a longer one. -/
theorem scanLeaf?_ne_none {e : Expr} {text : List Char} (h : LeafText e text)
    (rest : List Char) : scanLeaf? (text ++ rest) ≠ none := by
  have hword : ∀ {text : List Char}, Word text → scanLeaf? (text ++ rest) ≠ none := by
    rintro _ ⟨c, tail, rfl, hstart, -⟩
    rw [List.cons_append, scanLeaf?, isDigit_of_isWordStart hstart, if_neg Bool.false_ne_true,
      if_neg (not_quote_of_isWordStart hstart), if_pos hstart]
    exact Option.some_ne_none _
  cases h with
  | number h =>
    obtain ⟨c, tail, rfl, hdigit⟩ := h.starts
    rw [List.cons_append, scanLeaf?, if_pos hdigit, Ne, Option.map_eq_none_iff]
    exact scan?_ne_none hdigit _
  | quoted hquote h =>
    rw [scanLeaf?_quoted rest hquote h]
    exact Option.some_ne_none _
  | trueWord | falseWord | nullWord | undefinedWord => exact hword (word_of_mem_keywords (by decide))
  | identifier h => exact hword h

/-- Where no token is found, no token stands. -/
theorem not_operandText {text : List Char} (h : scanOperand? text = none) (token : OperandToken)
    (inner : List Char) (hinner : OperandText token inner) : ¬ inner <+: text := by
  rintro ⟨rest, rfl⟩
  cases hinner with
  | sign op => cases op <;> cases h
  | opening => cases h
  | leaf hleaf =>
    unfold scanOperand? at h
    split at h
    · cases h
    · cases h
    · cases h
    · cases h
    · exact scanLeaf?_ne_none hleaf rest (Option.map_eq_none_iff.1 h)

theorem not_symbol {text : List Char} (h : scanOperator? text = none) (op : BinaryOp) :
    ¬ op.symbol.toList <+: text := by
  rintro ⟨rest, rfl⟩
  by_cases hnext : ∃ tail, rest = '=' :: tail
  · -- the operator that is found may be a longer one
    obtain ⟨tail, rfl⟩ := hnext
    cases op <;> cases h
  · rw [scanOperator?_symbol op fun tail heq => hnext ⟨tail, heq⟩] at h
    cases h

/-! ## Open parentheses -/

/-- How many parentheses are open behind a text; those in quotes do not count. -/
def openParens (text : List Char) : Nat := (Nesting.start.steps text).parens

/-- How many parentheses wait on a stack. -/
def groups (stack : List Frame) : Nat := stack.count .group

theorem groups_group (stack : List Frame) : groups (.group :: stack) = groups stack + 1 := by
  simp [groups]

theorem groups_sign (op : UnaryOp) (stack : List Frame) :
    groups (.sign op :: stack) = groups stack := by
  simp [groups]

theorem groups_left (operand : Expr) (op : BinaryOp) (stack : List Frame) :
    groups (.left operand op :: stack) = groups stack := by
  simp [groups]

theorem groups_closeSigns (stack : List Frame) (e : Expr) :
    groups (closeSigns stack e).1 = groups stack := by
  induction stack generalizing e with
  | nil => rfl
  | cons frame stack ih =>
    cases frame with
    | sign op => rw [groups_sign, ← ih, closeSigns]
    | group | left => rfl

theorem groups_closeOperators (level : Nat) (stack : List Frame) (e : Expr) :
    groups (closeOperators level stack e).1 = groups stack := by
  induction stack generalizing e with
  | nil => rfl
  | cons frame stack ih =>
    cases frame with
    | left operand op =>
      rw [closeOperators]
      split
      · rw [groups_left, ih]
      · rfl
    | group | sign => rfl

theorem insideGroup_eq (stack : List Frame) : insideGroup stack = decide (0 < groups stack) := by
  rw [insideGroup, List.contains_eq_mem, groups, decide_eq_decide, List.count_pos_iff]

/-- Behind what a stack stands for, the measure is that of a place in as many parentheses as wait on
the stack. -/
theorem Spells.exists_place {stack : List Frame} {text : List Char} (h : Spells stack text) :
    ∃ place : Place, place.parens = groups stack ∧ Nesting.start.steps text = place.measure := by
  induction h with
  | nil => exact ⟨.start, rfl, rfl⟩
  | blanks _ hblanks ih =>
    obtain ⟨place, hparens, hsteps⟩ := ih
    exact ⟨place, hparens, by rw [steps_append, hsteps, hblanks.steps place.isOutside]⟩
  | group _ ih =>
    obtain ⟨place, hparens, hsteps⟩ := ih
    refine ⟨place.enclosed, by rw [groups_group, ← hparens]; rfl, ?_⟩
    rw [steps_append, hsteps, ← place.step_opening]
    rfl
  | @sign op _ _ _ ih =>
    obtain ⟨place, hparens, hsteps⟩ := ih
    obtain ⟨c, hsymbol, hstep⟩ := exists_step_symbol op
    refine ⟨place.signed, by rw [groups_sign, ← hparens]; rfl, ?_⟩
    rw [steps_append, hsteps, hsymbol, ← hstep]
    rfl
  | @left op _ _ _ _ _ _ _ hinner hblanks ih =>
    obtain ⟨place, hparens, hsteps⟩ := ih
    refine ⟨place.next (some op), by rw [groups_left, ← hparens]; rfl, ?_⟩
    obtain ⟨p, hp, -⟩ := hinner.exists_phrase
    rw [steps_append, hsteps, steps_append, hp.steps, steps_append,
      hblanks.steps (place.next none).isOutside, place.steps_symbol]

/-- As many parentheses are open as wait on the stack. -/
theorem Spells.openParens_eq {stack : List Frame} {text : List Char} (h : Spells stack text) :
    openParens text = groups stack := by
  obtain ⟨place, hparens, hsteps⟩ := h.exists_place
  rw [openParens, hsteps, ← hparens]
  rfl

/-- Blanks behind an operand do not matter. -/
theorem openParens_of_spellsWith {level : Nat} {stack : List Frame} {e : Expr}
    {before blanks : List Char} (h : SpellsWith level stack e before) (hblanks : Blanks blanks) :
    openParens (before ++ blanks) = groups stack := by
  obtain ⟨before, inner, rfl, hspells, -, hinner⟩ := h
  obtain ⟨place, hparens, hsteps⟩ := hspells.exists_place
  obtain ⟨p, hp, -⟩ := hinner.exists_phrase
  rw [openParens, steps_append, steps_append, hsteps, hp.steps,
    hblanks.steps (place.next none).isOutside, ← hparens]
  rfl

/-! ## Completing a text -/

/-- An operand and a closing parenthesis for each open one make an expression of a text. -/
def Completes (before operand : List Char) : Prop :=
  ∃ e, Program e (before ++ (operand ++ List.replicate (openParens before) ')'))

/-- What is left on a stack when no operator waits any longer. -/
theorem Ready.eq_nil_or_group {stack : List Frame} (h : Ready 0 stack) :
    stack = [] ∨ ∃ outer, stack = .group :: outer := by
  match stack, h with
  | [], _ => exact .inl rfl
  | .group :: outer, _ => exact .inr ⟨outer, rfl⟩
  | .left _ _ :: _, h => exact absurd h (Nat.not_lt_zero _)

theorem closeOperators_zero {stack : List Frame} {e : Expr} {before : List Char}
    (h : SpellsWith unaryLevel stack e before) :
    ((closeOperators 0 stack e).1 = [] ∧ groups stack = 0) ∨
      ∃ outer, (closeOperators 0 stack e).1 = .group :: outer ∧
        groups stack = groups outer + 1 := by
  obtain ⟨_, _, -, -, hready, -⟩ := spellsWith_closeOperators h (Nat.zero_le _)
  have hgroups := groups_closeOperators 0 stack e
  rcases hready.eq_nil_or_group with hnil | ⟨outer, houter⟩
  · rw [hnil] at hgroups
    exact .inl ⟨hnil, hgroups.symm⟩
  · rw [houter, groups_group] at hgroups
    exact .inr ⟨outer, houter, hgroups.symm⟩

/-- Behind an operand, a closing parenthesis for each one that waits makes an expression. -/
theorem exists_program_of_spellsWith {stack : List Frame} {e : Expr} {before blanks : List Char}
    (h : SpellsWith unaryLevel stack e before) (hblanks : Blanks blanks) :
    ∃ e', Program e' (before ++ (blanks ++ List.replicate (groups stack) ')')) := by
  generalize hcount : groups stack = count
  induction count generalizing stack e before blanks with
  | zero =>
    rcases closeOperators_zero h with ⟨hnil, -⟩ | ⟨outer, -, hgroups⟩
    · refine ⟨(closeOperators 0 stack e).2, ?_⟩
      rw [List.replicate_zero, List.append_nil]
      exact program_of_spellsWith h (Prod.ext hnil rfl) hblanks
    · omega
  | succ count ih =>
    rcases closeOperators_zero h with ⟨-, hgroups⟩ | ⟨outer, houter, hgroups⟩
    · omega
    · have hclosed := spellsWith_closing h (Prod.ext houter rfl) hblanks
      obtain ⟨e', hprogram⟩ := ih hclosed Blanks.nil (by rw [groups_closeSigns]; omega)
      refine ⟨e', ?_⟩
      simpa [List.replicate_succ] using hprogram

/-! ## Where the machine stops -/

/-- What is reported about a place in a text. In front of the place the text can be completed, and no
token that may stand at the place does. -/
inductive StopsAt (before rest : List Char) : String → Prop
  | operandDue
      (hcompletes : ∀ e operand, Derives unaryLevel e operand → Completes before operand)
      (hnone : ∀ token text, OperandText token text → ¬ text <+: rest) :
      StopsAt before rest "unary_expr"
  | operatorDue (hcompletes : Completes before [])
      (hnone : ∀ op : BinaryOp, ¬ op.symbol.toList <+: rest)
      (hclosing : 0 < openParens before → ¬ [')'] <+: rest)
      (hend : openParens before = 0 → rest ≠ []) :
      StopsAt before rest
        (", ".intercalate
          (if openParens before = 0 then "EOI" :: operatorNames else operatorNames))

/-- A fault is reported about a place in a text that follows another one. -/
def StopsIn (before text : List Char) (fault : Fault) : Prop :=
  ∃ read, text = read ++ fault.rest ∧ StopsAt (before ++ read) fault.rest fault.expected

theorem StopsIn.prepend {before read rest : List Char} {fault : Fault}
    (h : StopsIn (before ++ read) rest fault) : StopsIn before (read ++ rest) fault := by
  obtain ⟨more, rfl, hstops⟩ := h
  exact ⟨read ++ more, (List.append_assoc ..).symm, by rwa [← List.append_assoc]⟩

/-- How the machine stops where an operand is due, behind what its stack stands for. -/
def StopsBehind (stack : List Frame) (text : List Char) : Prop :=
  ∀ before fault, Spells stack before → readOperand stack text = .error fault →
    StopsIn before text fault

/-- The same behind an operand. -/
def StopsBehindOperand (stack : List Frame) (operand : Expr) (text : List Char) : Prop :=
  ∀ before fault, SpellsWith unaryLevel stack operand before →
    readOperator stack operand text = .error fault → StopsIn before text fault

/-- Where an operand is due and none stands, any operand may be put. -/
theorem stopsAt_operandDue {stack : List Frame} {before blanks rest : List Char}
    (h : Spells stack before) (hblanks : Blanks blanks) (hscan : scanOperand? rest = none) :
    StopsAt (before ++ blanks) rest "unary_expr" := by
  refine .operandDue (fun e operand hoperand => ?_) (not_operandText hscan)
  have hspelled := h.closeSigns hblanks hoperand
  obtain ⟨e', hprogram⟩ := exists_program_of_spellsWith hspelled Blanks.nil
  rw [groups_closeSigns, ← (h.blanks hblanks).openParens_eq] at hprogram
  exact ⟨e', by simpa using hprogram⟩

/-- Behind an operand where the machine cannot go on, only closing parentheses are missing. -/
theorem stopsAt_operatorDue {stack : List Frame} {operand : Expr} {before blanks rest : List Char}
    (h : SpellsWith unaryLevel stack operand before) (hblanks : Blanks blanks)
    (hscan : scanOperator? rest = none)
    (hend : (closeOperators 0 stack operand).1 = [] → rest = [] → False)
    (hgroup : ∀ outer tail, (closeOperators 0 stack operand).1 = .group :: outer →
      rest = ')' :: tail → False) :
    StopsAt (before ++ blanks) rest (Fault.operatorDue (insideGroup stack) rest).expected := by
  have hparens := openParens_of_spellsWith h hblanks
  have hexpected : (Fault.operatorDue (insideGroup stack) rest).expected = ", ".intercalate
      (if openParens (before ++ blanks) = 0 then "EOI" :: operatorNames else operatorNames) := by
    rw [Fault.expected, insideGroup_eq, hparens]
    rcases Nat.eq_zero_or_pos (groups stack) with hzero | hpositive
    · rw [if_pos hzero, hzero]
      rfl
    · rw [if_neg hpositive.ne', if_pos (decide_eq_true hpositive)]
  rw [hexpected]
  refine .operatorDue ?_ (not_symbol hscan) ?_ ?_
  · obtain ⟨e, hprogram⟩ := exists_program_of_spellsWith h hblanks
    refine ⟨e, ?_⟩
    rwa [hparens, List.nil_append, List.append_assoc]
  · rw [hparens]
    rintro hopen ⟨tail, rfl⟩
    rcases closeOperators_zero h with ⟨-, hgroups⟩ | ⟨outer, houter, -⟩
    · omega
    · exact hgroup outer tail houter rfl
  · rw [hparens]
    rintro hclosed rfl
    rcases closeOperators_zero h with ⟨hnil, -⟩ | ⟨outer, -, hgroups⟩
    · exact hend hnil rfl
    · omega

/-- The machine stops where its text cannot go on. -/
theorem stopsBehind : (∀ stack text, StopsBehind stack text) ∧
    ∀ stack operand text, StopsBehindOperand stack operand text := by
  -- the cases are those of `findsBehind`; here cases 1 and 8 matter, and case 6 is no fault
  apply readOperand.mutual_induct StopsBehind StopsBehindOperand
  case case1 =>
    intro stack text hscan before fault hspells hread
    rw [readOperand_none hscan] at hread
    cases hread
    obtain ⟨blanks, hblanks, htext⟩ := dropBlanks_spec text
    exact ⟨blanks, htext, stopsAt_operandDue hspells hblanks hscan⟩
  case case2 =>
    intro stack text op rest hscan ih before fault hspells hread
    rw [readOperand_sign hscan] at hread
    obtain ⟨read, rfl, hspells⟩ := spells_sign hspells hscan
    exact .prepend (ih _ fault hspells hread)
  case case3 =>
    intro stack text rest hscan ih before fault hspells hread
    rw [readOperand_opening hscan] at hread
    obtain ⟨read, rfl, hspells⟩ := spells_opening hspells hscan
    exact .prepend (ih _ fault hspells hread)
  case case4 =>
    intro stack text value rest hscan outer operand hclose ih before fault hspells hread
    rw [readOperand_leaf hscan, hclose] at hread
    obtain ⟨read, rfl, hoperand⟩ := spellsWith_leaf hspells hscan
    rw [hclose] at hoperand
    exact .prepend (ih _ fault hoperand hread)
  case case5 =>
    intro stack operand text op rest hscan outer left hclose ih before fault hoperand hread
    rw [readOperator_symbol hscan, hclose] at hread
    obtain ⟨read, rfl, hspells⟩ := spells_symbol hoperand hscan
    rw [hclose] at hspells
    exact .prepend (ih _ fault hspells hread)
  case case6 =>
    intro stack operand text _ value hend hclose before fault _ hread
    rw [readOperator_end hend hclose] at hread
    cases hread
  case case7 =>
    intro stack operand text _ value outer rest hend outer' value' hsigns hclose ih before fault
      hoperand hread
    rw [readOperator_close hend hclose, hsigns] at hread
    obtain ⟨blanks, hblanks, htext⟩ := dropBlanks_spec text
    have hgroup := spellsWith_closing hoperand hclose hblanks
    rw [hsigns] at hgroup
    have hstops := StopsIn.prepend (ih _ fault hgroup hread)
    rw [htext, hend]
    simpa only [List.append_assoc, List.singleton_append] using hstops
  case case8 =>
    intro stack operand text hscan outer value hclose hend hgroup before fault hoperand hread
    obtain rfl : (closeOperators 0 stack operand).1 = outer := by rw [hclose]
    rw [readOperator_fault hscan hend hgroup] at hread
    cases hread
    obtain ⟨blanks, hblanks, htext⟩ := dropBlanks_spec text
    exact ⟨blanks, htext, stopsAt_operatorDue hoperand hblanks hscan hend hgroup⟩

/-! ## What the parser reports -/

/-- The last line of a text, up to which its lines are ended. -/
theorem exists_lastLine (text : List Char) :
    ∃ earlier line, text = earlier ++ line ∧ '\n' ∉ line ∧
      (earlier = [] ∨ earlier.getLast? = some '\n') ∧
      (text.reverse.takeWhile (· ≠ '\n')).length = line.length := by
  refine ⟨(text.reverse.dropWhile (· ≠ '\n')).reverse, (text.reverse.takeWhile (· ≠ '\n')).reverse,
    ?_, ?_, ?_, (List.length_reverse).symm⟩
  · rw [← List.reverse_append, List.takeWhile_append_dropWhile, List.reverse_reverse]
  · rw [List.mem_reverse]
    intro hmem
    simpa using forall_mem_takeWhile _ _ hmem
  · rw [List.getLast?_reverse, List.reverse_eq_nil_iff]
    cases hrest : text.reverse.dropWhile (· ≠ '\n') with
    | nil => exact .inl rfl
    | cons c rest =>
      have hhead := List.head?_dropWhile_not (· ≠ '\n') text.reverse
      rw [hrest] at hhead
      exact .inr (by simpa using hhead)

theorem columnBefore_append (before rest : List Char) :
    columnBefore (before ++ rest) rest = (before.reverse.takeWhile (· ≠ '\n')).length + 1 := by
  rw [columnBefore, List.length_append, Nat.add_sub_cancel, List.take_left]

theorem readOperand_of_parse {text : String} {fault : Fault}
    (h : parse text = .error (.fault fault)) : readOperand [] text.toList = .error fault := by
  unfold parse at h
  split at h
  · cases h
  · split at h
    · next hread =>
      cases h
      exact hread
    · split at h <;> cases h

/-- What the parser reports about a text that the grammar does not derive: the column of the first
place at which the text cannot go on, and what could stand there. -/
theorem parse_stopsAt (text : String)
    (hnesting : Nesting.start.exceeds nestingLimit text.toList = false)
    (hnone : ∀ e, ¬ Program e text.toList) :
    ∃ fault earlier line rest expected,
      parse text = .error (.fault fault) ∧
      (ParseError.fault fault).detail text =
        "expected " ++ expected ++ " at column " ++ natText (line.length + 1) ∧
      text.toList = earlier ++ (line ++ rest) ∧ '\n' ∉ line ∧
      (earlier = [] ∨ earlier.getLast? = some '\n') ∧
      StopsAt (earlier ++ line) rest expected := by
  obtain ⟨fault, hparse⟩ := (parse_iff_program text hnesting).2.2.2.2 hnone
  obtain ⟨before, htext, hstops⟩ :=
    stopsBehind.1 [] text.toList [] fault .nil (readOperand_of_parse hparse)
  obtain ⟨earlier, line, rfl, hline, hearlier, hlength⟩ := exists_lastLine before
  rw [List.nil_append] at hstops
  refine ⟨fault, earlier, line, fault.rest, fault.expected, hparse, ?_, ?_, hline, hearlier, hstops⟩
  · have hcolumn : columnBefore text.toList fault.rest = line.length + 1 := by
      rw [htext, columnBefore_append, hlength]
    rw [← hcolumn]
    rfl
  · rw [htext, List.append_assoc]

/-- Half an operator in the second line, with a parenthesis open. -/
theorem parse_stopsAt_halfOperator :
    Nesting.start.exceeds nestingLimit "(a\n = b".toList = false ∧
      (∀ e, ¬ Program e "(a\n = b".toList) ∧
      ∃ fault earlier line rest expected,
        parse "(a\n = b" = .error (.fault fault) ∧
        (ParseError.fault fault).detail "(a\n = b" =
          "expected " ++ expected ++ " at column " ++ natText (line.length + 1) ∧
        "(a\n = b".toList = earlier ++ (line ++ rest) ∧ '\n' ∉ line ∧
        (earlier = [] ∨ earlier.getLast? = some '\n') ∧
        StopsAt (earlier ++ line) rest expected := by
  have hnesting : Nesting.start.exceeds nestingLimit "(a\n = b".toList = false := by decide
  have hread : readOperand [] "(a\n = b".toList = .error (.operatorDue true "= b".toList) := by
    have hopening : scanOperand? (dropBlanks "(a\n = b".toList) =
        some (.opening, "a\n = b".toList) := by decide
    have hleaf : scanOperand? (dropBlanks "a\n = b".toList) =
        some (.leaf (.identifier "a"), "\n = b".toList) := by decide
    rw [readOperand_opening hopening, readOperand_leaf hleaf]
    exact readOperator_fault (by decide) (by decide) (by rintro _ _ - ⟨⟩)
  have hnone : ∀ e, ¬ Program e "(a\n = b".toList := by
    intro e hprogram
    rw [hprogram.read] at hread
    cases hread
  exact ⟨hnesting, hnone, parse_stopsAt "(a\n = b" hnesting hnone⟩

end StepScript.Expr
