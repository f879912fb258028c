import StepScript.Expr.Evaluate
import StepScript.Proofs.Expr.Arrival
import StepScript.Proofs.Expr.Holes

/-!
# Quoting

A text that is put into an expression between quotes, with a backslash before each quote and each
backslash, is one literal there. It does not change the rest of the expression, whatever it contains.
-/

namespace StepScript.Expr

open Nesting

def escapeIn (quote c : Char) : List Char := if c = '\\' ∨ c = quote then ['\\', c] else [c]

/-- A text between quotes, as a literal of expressions. -/
def quoted (quote : Char) (text : String) : String :=
  String.ofList (quote :: (text.toList.flatMap (escapeIn quote) ++ [quote]))

theorem toList_quoted (quote : Char) (text : String) :
    (quoted quote text).toList = quote :: (text.toList.flatMap (escapeIn quote) ++ [quote]) :=
  String.toList_ofList

/-- A text without quotes and backslashes stays as it is between the quotes. -/
theorem flatMap_escapeIn_eq_self {quote : Char} {text : List Char} (hescape : '\\' ∉ text)
    (hquote : quote ∉ text) : text.flatMap (escapeIn quote) = text := by
  induction text with
  | nil => rfl
  | cons c text ih =>
    simp only [List.mem_cons, not_or] at hescape hquote
    rw [List.flatMap_cons, ih hescape.2 hquote.2, escapeIn, if_neg]
    · rfl
    · rintro (rfl | rfl)
      · exact hescape.1 rfl
      · exact hquote.1 rfl

section

variable {quote : Char} (hquote : quote = '"' ∨ quote = '\'')

include hquote

/-- What the grammar reads between the quotes is the text. -/
theorem quotedText_escape (text : List Char) :
    QuotedText quote text (text.flatMap (escapeIn quote)) := by
  induction text with
  | nil => exact .nil
  | cons c text ih =>
    rw [List.flatMap_cons, escapeIn]
    by_cases hc : c = '\\' ∨ c = quote
    · have hescaped : escaped c = c := by
        rcases hc with rfl | rfl
        · rfl
        · rcases hquote with rfl | rfl <;> rfl
      rw [if_pos hc]
      have hescape := ih.escape (c := c)
      rw [hescaped] at hescape
      exact hescape
    · rw [if_neg hc]
      exact .plain (fun h => hc (.inl h)) (fun h => hc (.inr h)) ih

/-- Where an operand is due, a quoted text is a literal. -/
theorem readOperand_quoted (stack : List Frame) (text : String) (rest : List Char) :
    readOperand stack ((quoted quote text).toList ++ rest) =
      readOperator (closeSigns stack (.literal (.text text))).1
        (closeSigns stack (.literal (.text text))).2 rest := by
  have hescape : quote ≠ '\\' := by rcases hquote with rfl | rfl <;> decide
  have hinner := scanQuoted_append rest hescape (quotedText_escape hquote text.toList)
  refine readOperand_leaf ?_
  rw [toList_quoted, List.cons_append, List.append_assoc, List.singleton_append]
  rcases hquote with rfl | rfl
  all_goals
    rw [dropBlanks_of_not_blank (by rintro _ _ ⟨⟩; decide)]
    simp [scanOperand?, scanLeaf?, hinner]

/-- A quoted text adds as much to the nesting as an empty one. -/
theorem exceeds_quoted {before : String} (hbefore : EndsOutsideQuotes before) (text : String)
    (after : String) (limit : Nat) :
    exceeds limit .start (before ++ quoted quote text ++ after).toList =
      (exceeds limit .start before.toList ||
        (decide (limit < (Nesting.start.steps before.toList).parens) ||
          exceeds limit { Nesting.start.steps before.toList with signs := 0 } after.toList)) := by
  have hinner := quotedText_escape hquote text.toList
  rw [String.toList_append, String.toList_append, List.append_assoc, exceeds_append, exceeds_append,
    toList_quoted, hinner.exceeds hquote hbefore.isOutside, hinner.steps hquote hbefore.isOutside]

end

theorem opensOperand_quoted {quote : Char} (hquote : quote = '"' ∨ quote = '\'') (text : String)
    (rest : List Char) : OpensOperand ((quoted quote text).toList ++ rest) := by
  rw [toList_quoted]
  exact ⟨quote, _, rfl, .inr hquote⟩

/-- If an expression contains a quoted text, it is an expression with any other quoted text, and the
two differ in this literal only. -/
theorem parse_quoted_of_ok {quote : Char} (hquote : quote = '"' ∨ quote = '\'') {before : String}
    (hbefore : EndsOutsideQuotes before) {text after : String} {e : Expr}
    (h : parse (before ++ quoted quote text ++ after) = .ok e) :
    ∃ around : Holed, e = around.fill (.literal (.text text)) ∧ ∀ other,
      parse (before ++ quoted quote other ++ after) = .ok (around.fill (.literal (.text other))) := by
  obtain ⟨hnesting, hread, hheight⟩ := parse_eq_ok_iff.1 h
  have hlist : ∀ other, (before ++ quoted quote other ++ after).toList =
      before.toList ++ ((quoted quote other).toList ++ after.toList) := by
    intro other
    rw [String.toList_append, String.toList_append, List.append_assoc]
  have hopens := fun other => opensOperand_quoted hquote other after.toList
  rw [hlist] at hread
  -- the machine comes to the literal with the same stack, whatever is quoted
  obtain ⟨stack, harrives⟩ := readOperand_arrives hbefore (hopens text) hread
  have hbehind : ∀ other, readOperand [] (before ++ quoted quote other ++ after).toList =
      readOperator (closeSigns stack (.literal (.text other))).1
        (closeSigns stack (.literal (.text other))).2 after.toList := by
    intro other
    rw [hlist, harrives _ (hopens other).starts, readOperand_quoted hquote]
  rw [← hlist, hbehind] at hread
  rcases readBehind_alike stack after.toList with ⟨cause, herror⟩ | ⟨around, hfill⟩
  · exact absurd (hread.symm.trans (herror _)) nofun
  have heq : e = around.fill (.literal (.text text)) :=
    Except.ok.inj (hread.symm.trans (hfill _))
  refine ⟨around, heq, fun other => parse_eq_ok_iff.2 ⟨?_, ?_, ?_⟩⟩
  · rw [exceeds_quoted hquote hbefore] at hnesting ⊢
    exact hnesting
  · exact (hbehind other).trans (hfill _)
  · have hsame : (Expr.literal (.text other)).height = (Expr.literal (.text text)).height := rfl
    rw [around.height_fill hsame, ← heq]
    exact hheight

/-- A quoted text alone is an expression. -/
theorem parse_quoted_alone {quote : Char} (hquote : quote = '"' ∨ quote = '\'') (text : String) :
    parse (quoted quote text) = .ok (.literal (.text text)) := by
  refine parse_eq_ok_iff.2 ⟨?_, ?_, Nat.zero_le _⟩
  · have hnesting := @exceeds_quoted quote hquote "" rfl text "" nestingLimit
    rw [String.empty_append, String.append_empty] at hnesting
    rw [hnesting]
    rfl
  · rw [← List.append_nil (quoted quote text).toList, readOperand_quoted hquote]
    exact readOperator_end (by decide) rfl

/-- A text between quotes that needs no backslash. -/
theorem quoted_eq {quote : Char} {text : String} (hescape : '\\' ∉ text.toList)
    (hquote : quote ∉ text.toList) :
    quoted quote text = String.ofList (quote :: (text.toList ++ [quote])) := by
  rw [quoted, flatMap_escapeIn_eq_self hescape hquote]

/-- A quoted text is a literal wherever quotes may open. There is an expression with it if and only
if there is one with empty quotes in its place, and the two differ in this literal only. -/
theorem parse_quoted {quote : Char} (hquote : quote = '"' ∨ quote = '\'') {before : String}
    (hbefore : EndsOutsideQuotes before) (after : String) :
    (∀ text, (∃ e, parse (before ++ quoted quote text ++ after) = .ok e) ↔
      ∃ e, parse (before ++ String.ofList [quote, quote] ++ after) = .ok e) ∧
    (∀ text e, parse (before ++ quoted quote text ++ after) = .ok e →
      ∃ around : Holed, e = around.fill (.literal (.text text)) ∧
        parse (before ++ String.ofList [quote, quote] ++ after) =
          .ok (around.fill (.literal (.text "")))) ∧
    (∀ text, evaluate (quoted quote text) = .ok (.text text)) ∧
    ∀ text, '\\' ∉ text.toList → quote ∉ text.toList →
      quoted quote text = String.ofList (quote :: (text.toList ++ [quote])) := by
  have hempty : String.ofList [quote, quote] = quoted quote "" := rfl
  rw [hempty]
  refine ⟨fun text => ⟨?_, ?_⟩, ?_, ?_, fun text => quoted_eq⟩
  · rintro ⟨e, he⟩
    obtain ⟨around, -, hfill⟩ := parse_quoted_of_ok hquote hbefore he
    exact ⟨_, hfill ""⟩
  · rintro ⟨e, he⟩
    obtain ⟨around, -, hfill⟩ := parse_quoted_of_ok hquote hbefore he
    exact ⟨_, hfill text⟩
  · intro text e he
    obtain ⟨around, heq, hfill⟩ := parse_quoted_of_ok hquote hbefore he
    exact ⟨around, heq, hfill ""⟩
  · intro text
    rw [evaluate, parse_quoted_alone hquote]
    rfl

/-- An answer that tries to leave its quotes is still one literal. -/
theorem parse_quoted_hostile : EndsOutsideQuotes "role == " ∧
    ∃ around : Holed,
      Expr.binary .and
        (.binary .equal (.identifier "role") (.literal (.text "x' || 'a' == 'a")))
        (.identifier "ok") = around.fill (.literal (.text "x' || 'a' == 'a")) ∧
      parse ("role == " ++ String.ofList ['\'', '\''] ++ " && ok") =
        .ok (around.fill (.literal (.text ""))) := by
  have hbefore : EndsOutsideQuotes "role == " := rfl
  exact ⟨hbefore, (parse_quoted (.inr rfl) hbefore " && ok").2.1 _ _ (by decide +kernel)⟩

end StepScript.Expr
