import StepScript.Proofs.Expr.Parsing

/-!
# Phrases

An expression as it is written: its tree does not show the parentheses, nor that the operators of
one level stand in a row. A phrase keeps both, and the texts of its operands.
-/

namespace StepScript.Expr

/-! ## Phrases and their trees -/

mutual

/-- An expression as it is written. The operators of a row are of one level; a row may have none. -/
inductive Phrase where
  | leaf (value : Expr) (text : List Char)
  | group (inner : Phrase)
  | sign (op : UnaryOp) (operand : Phrase)
  | chain (first : Phrase) (links : Links)

/-- The operators of a row, each with the operand on its right. -/
inductive Links where
  | nil
  | cons (op : BinaryOp) (operand : Phrase) (rest : Links)

end

def Links.length : Links → Nat
  | .nil => 0
  | .cons _ _ rest => rest.length + 1

def Links.concat : Links → BinaryOp → Phrase → Links
  | .nil, op, operand => .cons op operand .nil
  | .cons op' operand' rest, op, operand => .cons op' operand' (rest.concat op operand)

mutual

def Phrase.tree : Phrase → Expr
  | .leaf value _ => value
  | .group inner => inner.tree
  | .sign op operand => .unary op operand.tree
  | .chain first links => links.tree first.tree

/-- The tree of a row whose first operand is given. The operators apply from left to right. -/
def Links.tree : Links → Expr → Expr
  | .nil, left => left
  | .cons op operand rest, left => rest.tree (.binary op left operand.tree)

end

theorem Links.tree_concat (links : Links) (op : BinaryOp) (operand : Phrase) (left : Expr) :
    (links.concat op operand).tree left = .binary op (links.tree left) operand.tree := by
  match links with
  | .nil => rfl
  | .cons _ _ rest => exact tree_concat rest op operand _

/-! ## Texts -/

mutual

/-- The texts of a phrase at a level of the grammar. -/
inductive Phrase.Writes : Nat → Phrase → List Char → Prop
  | leaf {value : Expr} {text : List Char} (h : LeafText value text) :
      Phrase.Writes unaryLevel (.leaf value text) text
  | group {inner : Phrase} {before text after : List Char} (hbefore : Blanks before)
      (h : Phrase.Writes 0 inner text) (hafter : Blanks after) :
      Phrase.Writes unaryLevel (.group inner) ('(' :: (before ++ (text ++ (after ++ [')']))))
  | sign {op : UnaryOp} {operand : Phrase} {between text : List Char} (hbetween : Blanks between)
      (h : Phrase.Writes unaryLevel operand text) :
      Phrase.Writes unaryLevel (.sign op operand) (op.symbol.toList ++ (between ++ text))
  | chain {level : Nat} {first : Phrase} {links : Links} {text tail : List Char}
      (hlevel : level < unaryLevel) (h : Phrase.Writes (level + 1) first text)
      (hlinks : Links.Writes level links tail) :
      Phrase.Writes level (.chain first links) (text ++ tail)

/-- The texts of the operators of a row, with the operands on their right. -/
inductive Links.Writes : Nat → Links → List Char → Prop
  | nil {level : Nat} : Links.Writes level .nil []
  | cons {level : Nat} {op : BinaryOp} {operand : Phrase} {rest : Links}
      {before after right tail : List Char} (hop : op.level = level) (hbefore : Blanks before)
      (hafter : Blanks after) (h : Phrase.Writes (level + 1) operand right)
      (hrest : Links.Writes level rest tail) :
      Links.Writes level (.cons op operand rest)
        (before ++ (op.symbol.toList ++ (after ++ (right ++ tail))))

end

/-- A text that is a phrase, with blanks around it. -/
def Phrase.IsProgram (p : Phrase) (text : List Char) : Prop :=
  ∃ before inner after, text = before ++ (inner ++ after) ∧ Blanks before ∧ Blanks after ∧
    p.Writes 0 inner

theorem Links.Writes.concat {level : Nat} {op : BinaryOp} {operand : Phrase}
    {before after right : List Char} (hop : op.level = level) (hbefore : Blanks before)
    (hafter : Blanks after) (h : operand.Writes (level + 1) right) :
    ∀ {links : Links} {tail : List Char}, links.Writes level tail →
      (links.concat op operand).Writes level
        (tail ++ (before ++ (op.symbol.toList ++ (after ++ right))))
  | _, _, .nil => by
    have hlast := Links.Writes.cons hop hbefore hafter h .nil
    rwa [List.append_nil] at hlast
  | _, _, .cons hop' hbefore' hafter' h' hrest => by
    simp only [List.append_assoc]
    exact .cons hop' hbefore' hafter' h' (hrest.concat hop hbefore hafter h)

/-- An expression of a level is the tree of a phrase of this level. -/
theorem Derives.exists_phrase {level : Nat} {e : Expr} {text : List Char}
    (h : Derives level e text) : ∃ p : Phrase, p.Writes level text ∧ p.tree = e := by
  induction h with
  | leaf h => exact ⟨.leaf _ _, .leaf h, rfl⟩
  | group hbefore _ hafter ih =>
    obtain ⟨inner, hinner, rfl⟩ := ih
    exact ⟨.group inner, .group hbefore hinner hafter, rfl⟩
  | @unary op _ _ _ hbetween _ ih =>
    obtain ⟨operand, hoperand, rfl⟩ := ih
    exact ⟨.sign op operand, .sign hbetween hoperand, rfl⟩
  | @binary op _ _ _ _ _ _ _ hbefore hafter _ ihleft ihright =>
    obtain ⟨left, hleft, rfl⟩ := ihleft
    obtain ⟨right, hright, rfl⟩ := ihright
    -- the left operand is a row of the same level, which the operator makes longer
    generalize hlevel : op.level = level at hleft
    cases hleft with
    | chain _ hfirst hlinks =>
      subst hlevel
      rw [List.append_assoc]
      exact ⟨.chain _ _, .chain (level_lt_unaryLevel op) hfirst
        (hlinks.concat rfl hbefore hafter hright), Links.tree_concat ..⟩
    | leaf | group | sign => exact absurd hlevel (Nat.ne_of_lt (level_lt_unaryLevel op))
  | operand hlevel _ ih =>
    obtain ⟨first, hfirst, rfl⟩ := ih
    refine ⟨.chain first .nil, ?_, rfl⟩
    have hrow := Phrase.Writes.chain hlevel hfirst .nil
    rwa [List.append_nil] at hrow

mutual

theorem Phrase.Writes.derives : ∀ {p : Phrase} {level : Nat} {text : List Char},
    p.Writes level text → Derives level p.tree text
  | _, _, _, .leaf h => .leaf h
  | _, _, _, .group hbefore h hafter => .group hbefore h.derives hafter
  | _, _, _, .sign hbetween h => .unary hbetween h.derives
  | _, _, _, .chain hlevel h hlinks => hlinks.derives (.operand hlevel h.derives)

theorem Links.Writes.derives : ∀ {links : Links} {level : Nat} {left : Expr}
    {text tail : List Char}, links.Writes level tail → Derives level left text →
      Derives level (links.tree left) (text ++ tail)
  | _, _, _, _, _, .nil, hleft => by
    rw [List.append_nil]
    exact hleft
  | _, _, _, _, _, .cons hop hbefore hafter h hrest, hleft => by
    subst hop
    have hbinary := Derives.binary hleft hbefore hafter h.derives
    have hrow := hrest.derives hbinary
    simpa only [Links.tree, List.append_assoc] using hrow

end

/-- The texts of an expression are those of the phrases with its tree. -/
theorem program_iff_phrase {e : Expr} {text : List Char} :
    Program e text ↔ ∃ p : Phrase, p.IsProgram text ∧ p.tree = e := by
  constructor
  · rintro ⟨before, inner, after, htext, hbefore, hafter, hinner⟩
    obtain ⟨p, hp, htree⟩ := hinner.exists_phrase
    exact ⟨p, ⟨before, inner, after, htext, hbefore, hafter, hp⟩, htree⟩
  · rintro ⟨p, ⟨before, inner, after, htext, hbefore, hafter, hp⟩, rfl⟩
    exact ⟨before, inner, after, htext, hbefore, hafter, hp.derives⟩

end StepScript.Expr
