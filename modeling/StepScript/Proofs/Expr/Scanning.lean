import StepScript.Proofs.Expr.Grammar
import StepScript.Proofs.Number.Digits

/-!
# Scanners and the texts of tokens

Each scanner finds a token of the grammar at the start of a text, and finds every token that cannot
be longer.
-/

namespace StepScript.Expr

/-- A text that no number or word in front of it could swallow. -/
def Ends (rest : List Char) : Prop := ∀ c tail, rest = c :: tail → isWordChar c = false ∧ c ≠ '.'

theorem Ends.nil : Ends [] := nofun

theorem Ends.cons {c : Char} {tail : List Char} (hword : isWordChar c = false) (hpoint : c ≠ '.') :
    Ends (c :: tail) := by
  rintro d rest ⟨⟩
  exact ⟨hword, hpoint⟩

/-- Blanks end a token in front of them, and if there are none, then what follows does. -/
theorem Ends.blanks {blanks rest : List Char} (h : Blanks blanks) (hrest : Ends rest) :
    Ends (blanks ++ rest) := by
  cases blanks with
  | nil => exact hrest
  | cons c blanks =>
    have hblank := h c (List.mem_cons_self ..)
    have hc : c = ' ' ∨ c = '\t' ∨ c = '\r' ∨ c = '\n' := by
      simpa [isBlank, or_assoc] using hblank
    rcases hc with rfl | rfl | rfl | rfl <;> exact .cons (by decide) (by decide)

/-! ## Numbers -/

theorem isDigit_of_isWordChar_eq_false {c : Char} (h : isWordChar c = false) :
    c.isDigit = false := by
  simp only [isWordChar, Char.isAlphanum, Bool.or_eq_false_iff] at h
  exact h.1.1.2

theorem Ends.not_digit {rest : List Char} (h : Ends rest) :
    ∀ c tail, rest = c :: tail → c.isDigit = false :=
  fun c tail heq => isDigit_of_isWordChar_eq_false (h c tail heq).1

theorem takeSign_digits {digits rest : List Char} (h : Digits digits) :
    Numeral.takeSign (digits ++ rest) = (false, digits ++ rest) := by
  obtain ⟨hne, hdigits⟩ := h
  obtain ⟨c, tail, rfl⟩ := List.exists_cons_of_ne_nil hne
  have hdigit := hdigits c (List.mem_cons_self ..)
  rw [List.cons_append]
  unfold Numeral.takeSign
  split
  · next heq =>
    obtain ⟨rfl, -⟩ := List.cons.inj heq
    exact absurd hdigit (by decide)
  · next heq =>
    obtain ⟨rfl, -⟩ := List.cons.inj heq
    exact absurd hdigit (by decide)
  · rfl

/-- A sign that may stand before the digits of an exponent. -/
theorem takeSign_spec (text : List Char) :
    (text = '-' :: (Numeral.takeSign text).2 ∧ (Numeral.takeSign text).1 = true) ∨
    (text = '+' :: (Numeral.takeSign text).2 ∧ (Numeral.takeSign text).1 = false) ∨
    (text = (Numeral.takeSign text).2 ∧ (Numeral.takeSign text).1 = false) := by
  unfold Numeral.takeSign
  split
  · exact .inl ⟨rfl, rfl⟩
  · exact .inr (.inl ⟨rfl, rfl⟩)
  · exact .inr (.inr ⟨rfl, rfl⟩)

theorem scanExponent?_of_ends {rest : List Char} (h : ∀ c tail, rest = c :: tail →
    isWordChar c = false ∨ c = '.') : Numeral.scanExponent? rest = none := by
  cases rest with
  | nil => rfl
  | cons c tail =>
    rw [Numeral.scanExponent?, if_neg]
    rintro (rfl | rfl) <;> exact absurd (h _ _ rfl) (by decide)

theorem scanExponent?_cons {mark : Char} {text digits rest : List Char} {negative : Bool}
    (hmark : mark = 'e' ∨ mark = 'E')
    (hsign : Numeral.takeSign text = (negative, digits ++ rest)) (h : Digits digits)
    (hrest : ∀ c tail, rest = c :: tail → c.isDigit = false) :
    Numeral.scanExponent? (mark :: text) =
      some (if negative then -(natOfDigits digits : Int) else natOfDigits digits, rest) := by
  obtain ⟨hne, hdigits⟩ := h
  rw [Numeral.scanExponent?, if_pos hmark, hsign]
  dsimp only
  rw [takeDigits_append hdigits hrest]
  simp [hne]

theorem withExponent_append {whole fraction text rest : List Char} {exponent : Int}
    (h : ExponentText exponent text) (hrest : Ends rest) :
    Numeral.withExponent whole fraction (text ++ rest) = (⟨whole, fraction, exponent⟩, rest) := by
  unfold Numeral.withExponent
  cases h with
  | none =>
    rw [List.nil_append, scanExponent?_of_ends fun c tail heq => .inl (hrest c tail heq).1]
  | unsigned hmark h =>
    rw [List.cons_append, scanExponent?_cons hmark (takeSign_digits h) h hrest.not_digit]
    rfl
  | plus hmark h =>
    rw [List.cons_append, List.cons_append,
      scanExponent?_cons hmark rfl h hrest.not_digit]
    rfl
  | minus hmark h =>
    rw [List.cons_append, List.cons_append,
      scanExponent?_cons hmark rfl h hrest.not_digit]
    rfl

theorem exponentText_of_scan? {text rest : List Char} {exponent : Int}
    (h : Numeral.scanExponent? text = some (exponent, rest)) :
    ∃ inner, ExponentText exponent inner ∧ text = inner ++ rest := by
  cases text with
  | nil => cases h
  | cons mark text =>
    obtain ⟨hdigits, hall⟩ := takeDigits_spec (Numeral.takeSign text).2
    rw [Numeral.scanExponent?] at h
    split at h
    · next hmark =>
      dsimp only at h
      split at h
      · cases h
      · next hne =>
        simp only [Option.some.injEq, Prod.mk.injEq] at h
        obtain ⟨rfl, rfl⟩ := h
        have hnumber : Digits (Numeral.takeDigits (Numeral.takeSign text).2).1 :=
          ⟨by simpa using hne, hall⟩
        rcases takeSign_spec text with ⟨htext, hsign⟩ | ⟨htext, hsign⟩ | ⟨htext, hsign⟩
        · rw [hsign, if_pos rfl]
          refine ⟨_, .minus hmark hnumber, ?_⟩
          rw [List.cons_append, List.cons_append, ← hdigits, ← htext]
        · rw [hsign, if_neg Bool.false_ne_true]
          refine ⟨_, .plus hmark hnumber, ?_⟩
          rw [List.cons_append, List.cons_append, ← hdigits, ← htext]
        · rw [hsign, if_neg Bool.false_ne_true]
          refine ⟨_, .unsigned hmark hnumber, ?_⟩
          rw [List.cons_append, ← hdigits, ← htext]
    · cases h

theorem exponentText_of_withExponent (whole fraction text : List Char) :
    ∃ exponent inner, (Numeral.withExponent whole fraction text).1 = ⟨whole, fraction, exponent⟩ ∧
      ExponentText exponent inner ∧
      text = inner ++ (Numeral.withExponent whole fraction text).2 := by
  unfold Numeral.withExponent
  split
  · next exponent rest hscan =>
    obtain ⟨inner, hinner, htext⟩ := exponentText_of_scan? hscan
    exact ⟨exponent, inner, rfl, hinner, htext⟩
  · exact ⟨0, [], rfl, .none, rfl⟩

/-- Every number that what follows does not make longer is found. -/
theorem scanNumber_append {numeral : Numeral} {text rest : List Char}
    (h : NumberText numeral text) (hrest : Ends rest) :
    Numeral.scan? (text ++ rest) = some (numeral, rest) := by
  obtain @⟨whole, fraction, fractionText, exponentText, exponent, hwhole, hfraction, hexponent⟩ := h
  obtain ⟨hne, hdigits⟩ := hwhole
  have hexponentStart : ∀ c tail, exponentText ++ rest = c :: tail →
      c.isDigit = false ∧ c ≠ '.' := by
    intro c tail heq
    cases hexponent with
    | none =>
      obtain ⟨hword, hpoint⟩ := hrest c tail heq
      exact ⟨isDigit_of_isWordChar_eq_false hword, hpoint⟩
    | unsigned hmark | plus hmark | minus hmark =>
      obtain ⟨rfl, -⟩ := List.cons.inj heq
      rcases hmark with rfl | rfl <;> decide
  rw [List.append_assoc, List.append_assoc]
  unfold Numeral.scan?
  cases hfraction with
  | none =>
    rw [List.nil_append,
      takeDigits_append hdigits fun c tail heq => (hexponentStart c tail heq).1]
    dsimp only
    rw [if_neg (by simpa using hne)]
    split
    · next heq => exact absurd rfl (hexponentStart _ _ heq).2
    · rw [withExponent_append hexponent hrest]
  | point h =>
    -- the point ends the digits before it, and the exponent or the rest the digits after it
    have hpoint : ∀ c tail, ('.' :: fraction) ++ (exponentText ++ rest) = c :: tail →
        c.isDigit = false := by
      rintro c tail ⟨⟩
      decide
    rw [takeDigits_append hdigits hpoint]
    dsimp only
    rw [if_neg (by simpa using hne), List.cons_append]
    split
    · next afterPoint heq =>
      obtain ⟨-, rfl⟩ := List.cons.inj heq
      rw [takeDigits_append h.2 fun c tail heq => (hexponentStart c tail heq).1]
      dsimp only
      rw [if_neg (by simpa using h.1), withExponent_append hexponent hrest]
    · next hno => exact absurd rfl (hno _)

/-- What is found as a number is one. -/
theorem numberText_of_scan? {text rest : List Char} {numeral : Numeral}
    (h : Numeral.scan? text = some (numeral, rest)) :
    ∃ inner, NumberText numeral inner ∧ text = inner ++ rest := by
  obtain ⟨htext, hdigits⟩ := takeDigits_spec text
  unfold Numeral.scan? at h
  dsimp only at h
  split at h
  · cases h
  · next hne =>
    have hwhole : Digits (Numeral.takeDigits text).1 := ⟨by simpa using hne, hdigits⟩
    -- the two ways to a number without a fraction
    have hwithout : ∀ tail, Numeral.withExponent (Numeral.takeDigits text).1 [] tail =
        (numeral, rest) → (Numeral.takeDigits text).2 = tail →
        ∃ inner, NumberText numeral inner ∧ text = inner ++ rest := by
      rintro _ hexponent rfl
      obtain ⟨exponent, inner, hnumeral, hinner, hafter⟩ :=
        exponentText_of_withExponent (Numeral.takeDigits text).1 [] (Numeral.takeDigits text).2
      rw [hexponent] at hnumeral hafter
      cases hnumeral
      refine ⟨_, .mk hwhole .none hinner, ?_⟩
      rw [List.nil_append, List.append_assoc, ← hafter, ← htext]
    split at h
    · next afterPoint hpoint =>
      split at h
      · exact hwithout _ (Option.some.inj h) rfl
      · next hfraction =>
        obtain ⟨hpointText, hpointDigits⟩ := takeDigits_spec afterPoint
        obtain ⟨exponent, inner, hnumeral, hinner, hafter⟩ :=
          exponentText_of_withExponent (Numeral.takeDigits text).1
            (Numeral.takeDigits afterPoint).1 (Numeral.takeDigits afterPoint).2
        rw [Option.some.inj h] at hnumeral hafter
        cases hnumeral
        refine ⟨_, .mk hwhole (.point ⟨by simpa using hfraction, hpointDigits⟩) hinner, ?_⟩
        rw [List.append_assoc, List.append_assoc, List.cons_append, ← hafter, ← hpointText,
          ← hpoint, ← htext]
    · exact hwithout _ (Option.some.inj h) rfl

/-! ## Quoted texts -/

theorem scanQuoted_append {quote : Char} {content text : List Char} (rest : List Char)
    (hquote : quote ≠ '\\') (h : QuotedText quote content text) :
    scanQuoted quote (text ++ quote :: rest) = some (content, rest) := by
  induction h with
  | nil => rw [List.nil_append, scanQuoted.eq_def]; simp [hquote]
  | plain hescape hne h ih =>
    rw [List.cons_append, scanQuoted.eq_def]
    simp [hescape, hne, ih]
  | escape h ih =>
    rw [List.cons_append, List.cons_append, scanQuoted.eq_def]
    simp [ih]

theorem quotedText_of_scanQuoted {quote : Char} {text content rest : List Char}
    (h : scanQuoted quote text = some (content, rest)) :
    ∃ inner, QuotedText quote content inner ∧ text = inner ++ quote :: rest := by
  fun_induction scanQuoted quote text generalizing content rest with
  | case1 => cases h
  | case2 => cases h
  | case3 c text ih =>
    obtain ⟨⟨content', rest'⟩, hscan, heq⟩ := Option.map_eq_some_iff.1 h
    obtain ⟨inner, hinner, rfl⟩ := ih hscan
    cases heq
    exact ⟨_, .escape hinner, rfl⟩
  | case4 =>
    cases h
    exact ⟨[], .nil, rfl⟩
  | case5 c text hescape hquote ih =>
    obtain ⟨⟨content', rest'⟩, hscan, heq⟩ := Option.map_eq_some_iff.1 h
    obtain ⟨inner, hinner, rfl⟩ := ih hscan
    cases heq
    exact ⟨_, .plain hescape hquote hinner, rfl⟩

/-! ## Words -/

theorem isWordChar_of_isWordStart {c : Char} (h : isWordStart c = true) :
    isWordChar c = true := by
  simp only [isWordStart, isWordChar, Char.isAlphanum, Bool.or_eq_true] at h ⊢
  rcases h with (h | h) | h
  · exact .inl (.inl (.inl h))
  · exact .inl (.inr h)
  · exact .inr h

theorem not_quote_of_isWordStart {c : Char} (h : isWordStart c = true) :
    ¬ (c = '"' ∨ c = '\'') := by
  rintro (rfl | rfl) <;> exact absurd h (by decide)

theorem isDigit_of_isWordStart {c : Char} (h : isWordStart c = true) : c.isDigit = false := by
  simp only [isWordStart, Bool.or_eq_true, beq_iff_eq] at h
  rcases h with (h | rfl) | rfl
  · -- letters and digits are ranges that do not meet
    change (decide (65 ≤ c.val ∧ c.val ≤ 90) ||
      (decide (97 ≤ c.val) && decide (c.val ≤ 122))) = true at h
    change (decide (48 ≤ c.val) && decide (c.val ≤ 57)) = false
    simp only [Bool.or_eq_true, Bool.and_eq_true, decide_eq_true_eq, Bool.and_eq_false_iff,
      decide_eq_false_iff_not] at h ⊢
    grind
  · decide
  · decide

theorem Word.all {text : List Char} (h : Word text) : ∀ c ∈ text, isWordChar c = true := by
  obtain ⟨c, rest, rfl, hstart, hrest⟩ := h
  intro d hd
  rcases List.mem_cons.1 hd with rfl | hd
  · exact isWordChar_of_isWordStart hstart
  · exact hrest d hd

theorem scanLeaf?_word {text rest : List Char} (h : Word text) (hrest : Ends rest) :
    scanLeaf? (text ++ rest) = some (ofWord (String.ofList text), rest) := by
  have hall := h.all
  obtain ⟨c, tail, rfl, hstart, -⟩ := h
  have hstop : ∀ d after, rest = d :: after → isWordChar d = false :=
    fun d after heq => (hrest d after heq).1
  have htake := takeWhile_append_stop hall hstop
  have hdrop := dropWhile_append_stop hall hstop
  rw [List.cons_append] at htake hdrop ⊢
  rw [scanLeaf?, isDigit_of_isWordStart hstart, if_neg Bool.false_ne_true,
    if_neg (not_quote_of_isWordStart hstart), if_pos hstart, htake, hdrop]

theorem leafText_ofWord {text : List Char} (h : Word text) :
    LeafText (ofWord (String.ofList text)) text := by
  generalize hname : String.ofList text = name
  obtain rfl : text = name.toList := by rw [← hname, String.toList_ofList]
  unfold ofWord
  split
  · next heq => rw [heq]; exact .trueWord
  · split
    · next heq => rw [heq]; exact .falseWord
    · split
      · next heq =>
        rcases heq with heq | heq <;> rw [heq]
        · exact .nullWord
        · exact .undefinedWord
      · next htrue hfalse hnull =>
        refine .identifier h ?_
        simp only [not_or] at hnull
        simp [keywords, htrue, hfalse, hnull]

theorem word_of_mem_keywords {name : String} (h : name ∈ keywords) : Word name.toList := by
  simp only [keywords, List.mem_cons, List.not_mem_nil, or_false] at h
  rcases h with rfl | rfl | rfl | rfl <;>
    exact ⟨_, _, rfl, by decide, List.all_eq_true.1 (by decide)⟩

theorem ofWord_identifier {name : String} (h : name ∉ keywords) :
    ofWord name = .identifier name := by
  simp only [keywords, List.mem_cons, List.not_mem_nil, or_false, not_or] at h
  simp [ofWord, h]

/-! ## Operands -/

/-- A quoted text is found whatever follows. -/
theorem scanLeaf?_quoted {quote : Char} {content text : List Char} (rest : List Char)
    (hquote : quote = '"' ∨ quote = '\'') (h : QuotedText quote content text) :
    scanLeaf? (quote :: (text ++ [quote]) ++ rest) =
      some (.literal (.text (String.ofList content)), rest) := by
  have hscan := scanQuoted_append rest (by rcases hquote with rfl | rfl <;> decide) h
  have hdigit : ¬ (quote.isDigit = true) := by rcases hquote with rfl | rfl <;> decide
  rw [List.cons_append, List.append_assoc, List.singleton_append, scanLeaf?, if_neg hdigit,
    if_pos hquote, hscan]
  rfl

/-- Every literal or identifier that what follows does not make longer is found. -/
theorem scanLeaf?_append {e : Expr} {text rest : List Char} (h : LeafText e text)
    (hrest : Ends rest) : scanLeaf? (text ++ rest) = some (e, rest) := by
  cases h with
  | number h =>
    have hscan := scanNumber_append h hrest
    obtain ⟨c, tail, rfl, hdigit⟩ := h.starts
    rw [List.cons_append] at hscan ⊢
    rw [scanLeaf?, if_pos hdigit, hscan]
    rfl
  | quoted hquote h => exact scanLeaf?_quoted rest hquote h
  | trueWord | falseWord | nullWord | undefinedWord =>
    rw [scanLeaf?_word (word_of_mem_keywords (by decide)) hrest]
    rfl
  | identifier h hkeyword =>
    rw [scanLeaf?_word h hrest, String.ofList_toList, ofWord_identifier hkeyword]

/-- What is found as a literal or identifier is one. -/
theorem leafText_of_scanLeaf? {e : Expr} {text rest : List Char}
    (h : scanLeaf? text = some (e, rest)) : ∃ inner, LeafText e inner ∧ text = inner ++ rest := by
  cases text with
  | nil => cases h
  | cons c text =>
    rw [scanLeaf?] at h
    split at h
    · obtain ⟨⟨numeral, rest'⟩, hscan, heq⟩ := Option.map_eq_some_iff.1 h
      obtain ⟨inner, hinner, htext⟩ := numberText_of_scan? hscan
      cases heq
      exact ⟨inner, .number hinner, htext⟩
    · split at h
      · next hquote =>
        obtain ⟨⟨content, rest'⟩, hscan, heq⟩ := Option.map_eq_some_iff.1 h
        obtain ⟨inner, hinner, rfl⟩ := quotedText_of_scanQuoted hscan
        cases heq
        refine ⟨_, .quoted hquote hinner, ?_⟩
        rw [List.cons_append, List.append_assoc, List.singleton_append]
      · split at h
        · next hstart =>
          cases h
          have htake : (c :: text).takeWhile isWordChar = c :: text.takeWhile isWordChar := by
            rw [List.takeWhile_cons, isWordChar_of_isWordStart hstart, if_pos rfl]
          refine ⟨_, leafText_ofWord ?_, List.takeWhile_append_dropWhile.symm⟩
          exact ⟨c, _, htake, hstart, forall_mem_takeWhile text⟩
        · cases h

inductive OperandText : OperandToken → List Char → Prop
  | sign (op : UnaryOp) : OperandText (.sign op) op.symbol.toList
  | opening : OperandText .opening ['(']
  | leaf {e : Expr} {text : List Char} (h : LeafText e text) : OperandText (.leaf e) text

theorem operandText_of_scanOperand? {token : OperandToken} {text rest : List Char}
    (h : scanOperand? text = some (token, rest)) :
    ∃ inner, OperandText token inner ∧ text = inner ++ rest := by
  unfold scanOperand? at h
  split at h
  · cases h
    exact ⟨_, .sign .not, rfl⟩
  · cases h
    exact ⟨_, .sign .neg, rfl⟩
  · cases h
    exact ⟨_, .sign .plus, rfl⟩
  · cases h
    exact ⟨_, .opening, rfl⟩
  · obtain ⟨⟨e, rest'⟩, hscan, heq⟩ := Option.map_eq_some_iff.1 h
    obtain ⟨inner, hinner, htext⟩ := leafText_of_scanLeaf? hscan
    cases heq
    exact ⟨inner, .leaf hinner, htext⟩

theorem scanOperand?_leaf {e : Expr} {text rest : List Char} (h : LeafText e text)
    (hrest : Ends rest) : scanOperand? (text ++ rest) = some (.leaf e, rest) := by
  have hleaf := scanLeaf?_append h hrest
  unfold scanOperand?
  split
  -- no literal or identifier begins with a sign or a parenthesis
  · next heq => rw [heq] at hleaf; cases hleaf
  · next heq => rw [heq] at hleaf; cases hleaf
  · next heq => rw [heq] at hleaf; cases hleaf
  · next heq => rw [heq] at hleaf; cases hleaf
  · rw [hleaf]
    rfl

/-! ## Operators -/

theorem symbol_of_scanOperator? {op : BinaryOp} {text rest : List Char}
    (h : scanOperator? text = some (op, rest)) : text = op.symbol.toList ++ rest := by
  unfold scanOperator? at h
  split at h <;> cases h <;> rfl

/-- An operator is found if what follows is not the last character of a longer one. -/
theorem scanOperator?_symbol (op : BinaryOp) {rest : List Char}
    (h : ∀ tail, rest ≠ '=' :: tail) :
    scanOperator? (op.symbol.toList ++ rest) = some (op, rest) := by
  cases op <;> simp [scanOperator?, BinaryOp.symbol]

theorem Ends.symbol (op : BinaryOp) (rest : List Char) : Ends (op.symbol.toList ++ rest) := by
  cases op <;> exact .cons (by decide) (by decide)

/-! ## Blanks -/

theorem dropBlanks_append {blanks rest : List Char} (h : Blanks blanks)
    (hrest : ∀ c tail, rest = c :: tail → isBlank c = false) :
    dropBlanks (blanks ++ rest) = rest :=
  dropWhile_append_stop h hrest

theorem dropBlanks_spec (text : List Char) :
    ∃ blanks, Blanks blanks ∧ text = blanks ++ dropBlanks text :=
  ⟨_, forall_mem_takeWhile text, List.takeWhile_append_dropWhile.symm⟩

end StepScript.Expr
