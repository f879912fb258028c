import StepScript.Proofs.Expr.Holes
import StepScript.Proofs.Expr.Phrases
import StepScript.Proofs.Expr.Quotes

/-!
# The height of expressions

A builder makes the tree of a phrase from the root down. It cannot see a node before its operands
are built, so it works out from the number of operators of a row how far below the root each operand
will stand, and hands the distance on. It gives up where the distance passes the limit. That is the
case just if the tree is too high, so the parser, which measures the tree, answers the same.
-/

namespace StepScript.Expr

/-! ## The builder -/

mutual

/-- Builds the tree of a phrase whose node is `depth` edges below the root. The builder gives up
unless each phrase fits at its depth. -/
def Phrase.build (fits : Nat → Phrase → Bool) (depth : Nat) (p : Phrase) : Except ParseError Expr :=
  if fits depth p then
    match p with
    | .leaf value _ => .ok value
    | .group inner => inner.build fits depth
    | .sign op operand => do return .unary op (← operand.build fits (depth + 1))
    | .chain first links =>
      -- the operators apply from left to right, so the first operand is below all of them
      if fits (depth + links.length) first then do
        links.build fits depth (← first.build fits (depth + links.length))
      else .error .tooHigh
  else .error .tooHigh

/-- Builds the tree of a row from the tree of its first operand. Below the root of the row there are
as many edges to an operand as there are operators from its own on. -/
def Links.build (fits : Nat → Phrase → Bool) (depth : Nat) : Links → Expr → Except ParseError Expr
  | .nil, left => .ok left
  | .cons op operand rest, left => do
    let right ← operand.build fits (depth + (rest.length + 1))
    rest.build fits depth (.binary op left right)

end

/-! ## Phrases in phrases -/

/-- How far below the root the hole is. -/
def Holed.depth : Holed → Nat
  | .hole => 0
  | .unary _ operand => operand.depth + 1
  | .onLeft _ left _ => left.depth + 1
  | .onRight _ _ right => right.depth + 1

def Links.around : Links → Holed → Holed
  | .nil, left => left
  | .cons op operand rest, left => rest.around (.onLeft op left operand.tree)

mutual

/-- A phrase, the tree around a phrase inside it, and that phrase. -/
inductive Phrase.Within : Phrase → Holed → Phrase → Prop
  | self {p : Phrase} : Phrase.Within p .hole p
  | group {inner q : Phrase} {around : Holed} (h : Phrase.Within inner around q) :
      Phrase.Within (.group inner) around q
  | sign {op : UnaryOp} {operand q : Phrase} {around : Holed}
      (h : Phrase.Within operand around q) :
      Phrase.Within (.sign op operand) (.unary op around) q
  | first {first q : Phrase} {links : Links} {around : Holed} (h : Phrase.Within first around q) :
      Phrase.Within (.chain first links) (links.around around) q
  | operand {first q : Phrase} {links : Links} {around : Holed}
      (h : Links.Within links first.tree around q) : Phrase.Within (.chain first links) around q

/-- The operators of a row, the tree of its first operand, the tree around a phrase inside an
operand on the right of an operator, and that phrase. -/
inductive Links.Within : Links → Expr → Holed → Phrase → Prop
  | here {op : BinaryOp} {operand q : Phrase} {rest : Links} {left : Expr} {around : Holed}
      (h : Phrase.Within operand around q) :
      Links.Within (.cons op operand rest) left (rest.around (.onRight op left around)) q
  | later {op : BinaryOp} {operand q : Phrase} {rest : Links} {left : Expr} {around : Holed}
      (h : Links.Within rest (.binary op left operand.tree) around q) :
      Links.Within (.cons op operand rest) left around q

end

theorem Links.depth_around (links : Links) (left : Holed) :
    (links.around left).depth = left.depth + links.length := by
  match links with
  | .nil => rfl
  | .cons op operand rest =>
    rw [around, depth_around rest, Holed.depth, length]
    omega

theorem Links.fill_around (links : Links) (left : Holed) (e : Expr) :
    (links.around left).fill e = links.tree (left.fill e) := by
  match links with
  | .nil => rfl
  | .cons op operand rest => exact fill_around rest _ e

mutual

/-- The tree of a phrase is that of an inner phrase and the tree around it. -/
theorem Phrase.Within.tree_eq : ∀ {p q : Phrase} {around : Holed}, p.Within around q →
    p.tree = around.fill q.tree
  | _, _, _, .self => rfl
  | _, _, _, .group h => h.tree_eq
  | _, _, _, .sign h => congrArg _ h.tree_eq
  | _, _, _, .first h => by rw [Links.fill_around, ← h.tree_eq, Phrase.tree]
  | _, _, _, .operand h => h.tree_eq

theorem Links.Within.tree_eq : ∀ {links : Links} {left : Expr} {q : Phrase} {around : Holed},
    links.Within left around q → links.tree left = around.fill q.tree
  | _, _, _, _, .here h => by rw [Links.fill_around, Holed.fill, ← h.tree_eq, Links.tree]
  | _, _, _, _, .later h => h.tree_eq

end

/-! ## What the builder asks -/

/-- Each phrase inside fits at the depth of its node. -/
def Phrase.Fits (fits : Nat → Phrase → Bool) (depth : Nat) (p : Phrase) : Prop :=
  ∀ around q, p.Within around q → fits (depth + around.depth) q = true

def Links.Fits (fits : Nat → Phrase → Bool) (depth : Nat) (links : Links) (left : Expr) : Prop :=
  ∀ around q, links.Within left around q → fits (depth + around.depth) q = true

section

variable {fits : Nat → Phrase → Bool} {depth : Nat}

theorem Phrase.fits_leaf {value : Expr} {text : List Char} :
    (leaf value text).Fits fits depth ↔ fits depth (.leaf value text) = true := by
  constructor
  · intro h
    exact h _ _ .self
  · rintro h _ _ ⟨⟩
    exact h

theorem Phrase.fits_group {inner : Phrase} :
    (group inner).Fits fits depth ↔ fits depth (.group inner) = true ∧ inner.Fits fits depth := by
  constructor
  · intro h
    exact ⟨h _ _ .self, fun around q hq => h _ _ (.group hq)⟩
  · rintro ⟨hself, hinner⟩ around q hq
    cases hq with
    | self => exact hself
    | group hq => exact hinner _ _ hq

theorem Phrase.fits_sign {op : UnaryOp} {operand : Phrase} :
    (sign op operand).Fits fits depth ↔
      fits depth (.sign op operand) = true ∧ operand.Fits fits (depth + 1) := by
  have hdepth : ∀ around : Holed, depth + (Holed.unary op around).depth = depth + 1 + around.depth :=
    fun around => by rw [Holed.depth]; omega
  constructor
  · intro h
    refine ⟨h _ _ .self, fun around q hq => ?_⟩
    rw [← hdepth]
    exact h _ _ (.sign hq)
  · rintro ⟨hself, hoperand⟩ around q hq
    cases hq with
    | self => exact hself
    | sign hq =>
      rw [hdepth]
      exact hoperand _ _ hq

theorem Phrase.fits_chain {first : Phrase} {links : Links} :
    (chain first links).Fits fits depth ↔ fits depth (.chain first links) = true ∧
      first.Fits fits (depth + links.length) ∧ links.Fits fits depth first.tree := by
  have hdepth : ∀ around, depth + (links.around around).depth = depth + links.length + around.depth :=
    fun around => by rw [Links.depth_around]; omega
  constructor
  · intro h
    refine ⟨h _ _ .self, fun around q hq => ?_, fun around q hq => h _ _ (.operand hq)⟩
    rw [← hdepth]
    exact h _ _ (.first hq)
  · rintro ⟨hself, hfirst, hlinks⟩ around q hq
    cases hq with
    | self => exact hself
    | first hq =>
      rw [hdepth]
      exact hfirst _ _ hq
    | operand hq => exact hlinks _ _ hq

theorem Links.fits_cons {op : BinaryOp} {operand : Phrase} {rest : Links} {left : Expr} :
    (cons op operand rest).Fits fits depth left ↔ operand.Fits fits (depth + (rest.length + 1)) ∧
      rest.Fits fits depth (.binary op left operand.tree) := by
  have hdepth : ∀ around, depth + (rest.around (.onRight op left around)).depth =
      depth + (rest.length + 1) + around.depth :=
    fun around => by rw [Links.depth_around, Holed.depth]; omega
  constructor
  · intro h
    refine ⟨fun around q hq => ?_, fun around q hq => h _ _ (.later hq)⟩
    rw [← hdepth]
    exact h _ _ (.here hq)
  · rintro ⟨hoperand, hrest⟩ around q hq
    cases hq with
    | here hq =>
      rw [hdepth]
      exact hoperand _ _ hq
    | later hq => exact hrest _ _ hq

end

/-- A builder that gives the tree just if a condition holds, and otherwise finds it too high. -/
structure BuildsIf (result : Except ParseError Expr) (e : Expr) (condition : Prop) : Prop where
  ok : condition → result = .ok e
  error : ¬ condition → result = .error .tooHigh

namespace BuildsIf

variable {result : Except ParseError Expr} {e e' : Expr} {condition condition' : Prop}

theorem congr (h : BuildsIf result e condition) (hiff : condition' ↔ condition) :
    BuildsIf result e condition' :=
  ⟨fun hc => h.ok (hiff.1 hc), fun hc => h.error fun hc' => hc (hiff.2 hc')⟩

theorem bind {next : Expr → Except ParseError Expr} (h : BuildsIf result e condition)
    (hnext : BuildsIf (next e) e' condition') :
    BuildsIf (result >>= next) e' (condition ∧ condition') := by
  constructor
  · rintro ⟨hc, hc'⟩
    rw [h.ok hc]
    exact hnext.ok hc'
  · intro hc
    by_cases hfirst : condition
    · rw [h.ok hfirst]
      exact hnext.error fun hc' => hc ⟨hfirst, hc'⟩
    · rw [h.error hfirst]
      rfl

theorem ite {fits : Bool} (h : BuildsIf result e condition) :
    BuildsIf (if fits then result else .error .tooHigh) e (fits = true ∧ condition) := by
  cases fits with
  | true => exact h.congr (by simp)
  | false => exact ⟨fun hc => absurd hc.1 (by decide), fun _ => rfl⟩

theorem pure : BuildsIf (.ok e) e True := ⟨fun _ => rfl, fun h => absurd trivial h⟩

end BuildsIf

mutual

/-- The builder asks of each phrase inside whether it fits as far below the root as its node is in
the tree. -/
theorem Phrase.build_eq (fits : Nat → Phrase → Bool) (depth : Nat) :
    ∀ p : Phrase, BuildsIf (p.build fits depth) p.tree (p.Fits fits depth)
  | .leaf value text => by
    rw [Phrase.build, Phrase.fits_leaf]
    exact BuildsIf.pure.ite.congr (by rw [and_true])
  | .group inner => by
    rw [Phrase.build, Phrase.fits_group]
    exact (inner.build_eq fits depth).ite
  | .sign op operand => by
    have hunary : BuildsIf (operand.build fits (depth + 1) >>= fun e => .ok (.unary op e))
        (.unary op operand.tree) (operand.Fits fits (depth + 1) ∧ True) :=
      (operand.build_eq fits (depth + 1)).bind .pure
    rw [Phrase.build, Phrase.fits_sign, ← and_true (operand.Fits ..)]
    exact hunary.ite
  | .chain first links => by
    have hrow := (first.build_eq fits (depth + links.length)).bind
      (links.build_eq fits depth first.tree)
    -- the first operand fits anyway if all inside it fit
    have hfirst : first.Fits fits (depth + links.length) → fits (depth + links.length) first = true :=
      fun h => h _ _ .self
    rw [Phrase.build, Phrase.fits_chain]
    refine (hrow.ite.ite).congr ?_
    exact ⟨fun ⟨hself, hinner, hlinks⟩ => ⟨hself, hfirst hinner, hinner, hlinks⟩,
      fun ⟨hself, _, hinner, hlinks⟩ => ⟨hself, hinner, hlinks⟩⟩

theorem Links.build_eq (fits : Nat → Phrase → Bool) (depth : Nat) :
    ∀ (links : Links) (left : Expr),
      BuildsIf (links.build fits depth left) (links.tree left) (links.Fits fits depth left)
  | .nil, left => ⟨fun _ => rfl, fun h => absurd nofun h⟩
  | .cons op operand rest, left => by
    rw [Links.build, Links.fits_cons]
    exact (operand.build_eq fits _).bind (rest.build_eq fits depth _)

end

/-! ## The limit for the height -/

/-- A tree is as high as an operand in it and what is above it. -/
theorem Holed.depth_add_height_le (around : Holed) (e : Expr) :
    around.depth + e.height ≤ (around.fill e).height := by
  induction around with
  | hole => exact Nat.le_of_eq (Nat.zero_add _)
  | unary op operand ih =>
    simp only [depth, fill, Expr.height]
    omega
  | onLeft op left right ih | onRight op left right ih =>
    simp only [depth, fill, Expr.height]
    omega

theorem LeafText.height_eq {e : Expr} {text : List Char} (h : LeafText e text) : e.height = 0 := by
  cases h <;> rfl

mutual

/-- Some operand is as far below the root as the tree is high. -/
theorem Phrase.Writes.exists_deepest : ∀ {p : Phrase} {level : Nat} {text : List Char},
    p.Writes level text → ∃ around q, p.Within around q ∧ around.depth = p.tree.height
  | _, _, _, .leaf h => ⟨.hole, _, .self, h.height_eq.symm⟩
  | _, _, _, .group _ h _ => by
    obtain ⟨around, q, hq, hdepth⟩ := h.exists_deepest
    exact ⟨around, q, .group hq, hdepth⟩
  | _, _, _, .sign _ h => by
    obtain ⟨around, q, hq, hdepth⟩ := h.exists_deepest
    exact ⟨.unary _ around, q, .sign hq, congrArg (· + 1) hdepth⟩
  | _, _, _, @Phrase.Writes.chain _ first _ _ _ _ h hlinks => by
    rcases hlinks.exists_deepest first.tree with hfirst | ⟨around, q, hq, hdepth⟩
    · obtain ⟨around, q, hq, hdepth⟩ := h.exists_deepest
      refine ⟨_, q, .first hq, ?_⟩
      rw [Links.depth_around, hdepth, Phrase.tree, hfirst]
    · exact ⟨around, q, .operand hq, hdepth⟩

/-- In a row that is either the first operand or one in an operand on the right. -/
theorem Links.Writes.exists_deepest : ∀ {links : Links} {level : Nat} {text : List Char},
    links.Writes level text → ∀ left : Expr,
      (links.tree left).height = left.height + links.length ∨
        ∃ around q, links.Within left around q ∧ around.depth = (links.tree left).height
  | _, _, _, .nil, _ => .inl rfl
  | _, _, _, @Links.Writes.cons _ op operand rest _ _ _ _ _ _ _ h hrest, left => by
    rcases hrest.exists_deepest (.binary op left operand.tree) with hrow | ⟨around, q, hq, hdepth⟩
    · rw [Expr.height] at hrow
      by_cases hle : operand.tree.height ≤ left.height
      · left
        rw [Links.tree, Links.length, hrow]
        omega
      · obtain ⟨around, q, hq, hdepth⟩ := h.exists_deepest
        refine .inr ⟨_, q, .here hq, ?_⟩
        rw [Links.depth_around, Holed.depth, Links.tree, hrow, hdepth]
        omega
    · exact .inr ⟨around, q, .later hq, hdepth⟩

end

/-- The limit for the height, as the builder asks for it. -/
def withinLimit (depth : Nat) (_ : Phrase) : Bool := depth ≤ heightLimit

/-- All depths are within the limit just if the tree is not too high. -/
theorem Phrase.Writes.fits_iff {p : Phrase} {level : Nat} {text : List Char}
    (h : p.Writes level text) : p.Fits withinLimit 0 ↔ p.tree.height ≤ heightLimit := by
  constructor
  · intro hfits
    obtain ⟨around, q, hq, hdepth⟩ := h.exists_deepest
    have hlimit := of_decide_eq_true (hfits around q hq)
    omega
  · intro hheight around q hq
    have hbelow := around.depth_add_height_le q.tree
    rw [← hq.tree_eq] at hbelow
    exact decide_eq_true (by omega)

/-- Of a text of the grammar that does not nest too deep, the parser gives the tree if it is no
higher than the limit, and otherwise says that it is too high. That is also what the builder answers
from the root on, and the depths at which it asks whether a phrase fits are the distances of their
nodes from the root of the tree. -/
theorem parse_height {text : String} {e : Expr}
    (hnesting : Nesting.start.exceeds nestingLimit text.toList = false)
    (h : Program e text.toList) :
    parse text = (if e.height ≤ heightLimit then .ok e else .error .tooHigh) ∧
      ParseError.tooHigh.detail text = "expression tree deeper than 256 levels" ∧
      (∃ p : Phrase, p.IsProgram text.toList) ∧
      ∀ p : Phrase, p.IsProgram text.toList → p.tree = e ∧ parse text = p.build withinLimit 0 ∧
        (∀ around q, p.Within around q → e = around.fill q.tree) ∧
        ∀ fits : Nat → Phrase → Bool,
          ((∀ around q, p.Within around q → fits around.depth q = true) → p.build fits 0 = .ok e) ∧
          ((∃ around q, p.Within around q ∧ fits around.depth q = false) →
            p.build fits 0 = .error .tooHigh) := by
  have hparse : parse text = (if e.height ≤ heightLimit then .ok e else .error .tooHigh) := by
    rw [parse, if_neg (by rw [hnesting]; exact Bool.false_ne_true), h.read]
  obtain ⟨p, hp, -⟩ := program_iff_phrase.1 h
  refine ⟨hparse, rfl, ⟨p, hp⟩, fun p hp => ?_⟩
  obtain rfl : p.tree = e := (program_iff_phrase.2 ⟨p, hp, rfl⟩).unique h
  obtain ⟨-, inner, -, -, -, -, hinner⟩ := hp
  have hbuild := fun fits => p.build_eq fits 0
  refine ⟨rfl, ?_, fun around q hq => hq.tree_eq, fun fits => ⟨fun hfits => ?_, ?_⟩⟩
  · rw [hparse]
    split
    · next hheight => exact ((hbuild _).ok (hinner.fits_iff.2 hheight)).symm
    · next hhigh => exact ((hbuild _).error (mt hinner.fits_iff.1 hhigh)).symm
  · refine (hbuild fits).ok fun around q hq => ?_
    rw [Nat.zero_add]
    exact hfits around q hq
  · rintro ⟨around, q, hq, hunfit⟩
    refine (hbuild fits).error fun hfits => ?_
    have hfit := hfits around q hq
    rw [Nat.zero_add, hunfit] at hfit
    cases hfit

/-- A sum whose first operand stands behind a prefix operator. -/
def signedSum : Nat → Expr
  | 0 => .unary .not (.identifier "a")
  | n + 1 => .binary .add (signedSum n) (.identifier "a")

def signedSumText : Nat → List Char
  | 0 => "!a".toList
  | n + 1 => signedSumText n ++ "+a".toList

theorem height_signedSum (n : Nat) : (signedSum n).height = n + 1 := by
  induction n with
  | zero => rfl
  | succ n ih => simp only [signedSum, Expr.height, ih, Nat.max_zero]

theorem derives_signedSum (n : Nat) : Derives 4 (signedSum n) (signedSumText n) := by
  have hname : Derives unaryLevel (.identifier "a") "a".toList :=
    .leaf (.identifier ⟨'a', [], rfl, by decide, List.forall_mem_nil _⟩ (by decide))
  induction n with
  | zero =>
    have hnot := @Derives.unary .not _ [] _ Blanks.nil hname
    exact hnot.weaken (by decide) (by decide)
  | succ n ih =>
    have hoperand : Derives 5 (.identifier "a") "a".toList := hname.weaken (by decide) (by decide)
    exact @Derives.binary .add _ _ _ [] [] _ ih Blanks.nil Blanks.nil hoperand

theorem steps_signedSum (n : Nat) :
    Nesting.start.steps (signedSumText n) = Nesting.start ∧
      Nesting.start.exceeds nestingLimit (signedSumText n) = false := by
  induction n with
  | zero => exact ⟨rfl, rfl⟩
  | succ n ih =>
    rw [signedSumText, Nesting.steps_append, Nesting.exceeds_append_eq_false, ih.1]
    exact ⟨rfl, ih.2, rfl⟩

/-- With the prefix operator the tree is one edge higher than there are operators in the row. -/
theorem parse_height_signedSum :
    Nesting.start.exceeds nestingLimit (String.ofList (signedSumText 256)).toList = false ∧
      Program (signedSum 256) (String.ofList (signedSumText 256)).toList ∧
      parse (String.ofList (signedSumText 256)) = .error .tooHigh ∧
      parse (String.ofList (signedSumText 255)) = .ok (signedSum 255) := by
  have hnesting : ∀ n, Nesting.start.exceeds nestingLimit
      (String.ofList (signedSumText n)).toList = false := by
    intro n
    rw [String.toList_ofList]
    exact (steps_signedSum n).2
  have hprogram : ∀ n, Program (signedSum n) (String.ofList (signedSumText n)).toList := by
    intro n
    rw [String.toList_ofList]
    exact ⟨[], _, [], (List.append_nil _).symm, Blanks.nil, Blanks.nil,
      (derives_signedSum n).weaken (by decide) (by decide)⟩
  refine ⟨hnesting 256, hprogram 256, ?_, ?_⟩
  · rw [(parse_height (hnesting 256) (hprogram 256)).1, height_signedSum]
    exact if_neg (by decide)
  · rw [(parse_height (hnesting 255) (hprogram 255)).1, height_signedSum]
    exact if_pos (by decide)

end StepScript.Expr
