import StepScript.Proofs.Expr.Numbers

/-!
# Enclosures

What the quotes and the parentheses of an expression enclose. A derivation tells where each quoted
text and each expression in parentheses begins and ends. The measure of the nesting does not know
the derivation: it goes from character to character and has a quote and a number to remember. In
front of every character they are those of the derivation.
-/

namespace StepScript.Expr

open Nesting

/-! ## Where quotes and parentheses stand -/

/-- The indices of two characters with others between them. -/
structure Enclosure where
  first : Nat
  last : Nat
deriving DecidableEq, Repr

/-- In front of the character at an index, the first character has been read and the last one has
not. -/
def Enclosure.isOpen (between : Enclosure) (index : Nat) : Bool :=
  between.first < index && index ≤ between.last

theorem Enclosure.isOpen_eq_true {between : Enclosure} {index : Nat} :
    between.isOpen index = true ↔ between.first < index ∧ index ≤ between.last := by
  simp [isOpen]

theorem Enclosure.isOpen_eq_false {between : Enclosure} {index : Nat} :
    between.isOpen index = false ↔ index ≤ between.first ∨ between.last < index := by
  rw [← Bool.not_eq_true, isOpen_eq_true]
  omega

/-- A quoted text: the indices of its quotes, and the quote. -/
structure Quotation extends Enclosure where
  quote : Char
deriving DecidableEq, Repr

/-- The expressions in parentheses and the quoted texts of an expression. -/
structure Enclosures where
  groups : List Enclosure
  quotations : List Quotation
deriving DecidableEq, Repr

namespace Enclosures

def empty : Enclosures := ⟨[], []⟩

def append (found more : Enclosures) : Enclosures :=
  ⟨found.groups ++ more.groups, found.quotations ++ more.quotations⟩

def inGroup (group : Enclosure) (found : Enclosures) : Enclosures :=
  { found with groups := group :: found.groups }

def parensAt (found : Enclosures) (index : Nat) : Nat := found.groups.countP (·.isOpen index)

def quoteAt (found : Enclosures) (index : Nat) : Option Char :=
  (found.quotations.find? (·.isOpen index)).map Quotation.quote

/-- The character at an index is in the content of a quoted text. -/
def IsContent (found : Enclosures) (index : Nat) : Prop :=
  ∃ quotation ∈ found.quotations, quotation.first < index ∧ index < quotation.last

theorem append_empty (found : Enclosures) : found.append empty = found := by
  simp [append, empty]

theorem parensAt_append (found more : Enclosures) (index : Nat) :
    (found.append more).parensAt index = found.parensAt index + more.parensAt index :=
  List.countP_append

theorem quoteAt_append (found more : Enclosures) (index : Nat) :
    (found.append more).quoteAt index = (found.quoteAt index).or (more.quoteAt index) := by
  rw [quoteAt, append, List.find?_append, Option.map_or]
  rfl

theorem parensAt_inGroup (group : Enclosure) (found : Enclosures) (index : Nat) :
    (found.inGroup group).parensAt index =
      found.parensAt index + (group.isOpen index).toNat := by
  rw [parensAt, inGroup, List.countP_cons]
  cases group.isOpen index <;> rfl

theorem quoteAt_inGroup (group : Enclosure) (found : Enclosures) (index : Nat) :
    (found.inGroup group).quoteAt index = found.quoteAt index := rfl

/-- Each enclosure is in a text that begins at `start` and ends in front of `stop`, and quoted texts
stand behind each other. -/
structure Within (found : Enclosures) (start stop : Nat) : Prop where
  groups : ∀ group ∈ found.groups, start ≤ group.first ∧ group.last < stop
  quotations : ∀ quotation ∈ found.quotations, start ≤ quotation.first ∧ quotation.last < stop
  apart : found.quotations.Pairwise fun quotation behind => quotation.last < behind.first

namespace Within

variable {found more : Enclosures} {start middle stop index : Nat}

theorem empty (start stop : Nat) : Enclosures.empty.Within start stop :=
  ⟨List.forall_mem_nil _, List.forall_mem_nil _, .nil⟩

theorem append (h : found.Within start middle) (h' : more.Within middle stop)
    (hstart : start ≤ middle) (hstop : middle ≤ stop) : (found.append more).Within start stop := by
  refine ⟨List.forall_mem_append.2 ⟨fun group hgroup => ?_, fun group hgroup => ?_⟩,
    List.forall_mem_append.2 ⟨fun quotation hquoted => ?_, fun quotation hquoted => ?_⟩,
    List.pairwise_append.2 ⟨h.apart, h'.apart, fun quotation hquoted behind hbehind => ?_⟩⟩
  · have := h.groups group hgroup
    omega
  · have := h'.groups group hgroup
    omega
  · have := h.quotations quotation hquoted
    omega
  · have := h'.quotations quotation hquoted
    omega
  · have := h.quotations quotation hquoted
    have := h'.quotations behind hbehind
    omega

/-- Outside of the text nothing is open. -/
theorem parensAt_eq_zero (h : found.Within start stop) (hindex : index ≤ start ∨ stop ≤ index) :
    found.parensAt index = 0 := by
  refine List.countP_eq_zero.2 fun group hgroup => ?_
  have := h.groups group hgroup
  rw [Enclosure.isOpen_eq_true]
  omega

theorem quoteAt_eq_none (h : found.Within start stop) (hindex : index ≤ start ∨ stop ≤ index) :
    found.quoteAt index = none := by
  rw [quoteAt, Option.map_eq_none_iff, List.find?_eq_none]
  intro quotation hquoted
  have := h.quotations quotation hquoted
  rw [Enclosure.isOpen_eq_true]
  omega

theorem inGroup (h : found.Within (start + 1) stop) :
    (found.inGroup ⟨start, stop⟩).Within start (stop + 1) := by
  refine ⟨List.forall_mem_cons.2 ⟨⟨Nat.le_refl _, Nat.lt_succ_self _⟩, fun group hgroup => ?_⟩,
    fun quotation hquoted => ?_, h.apart⟩
  · have := h.groups group hgroup
    omega
  · have := h.quotations quotation hquoted
    omega

end Within

end Enclosures

/-! ## The grammar with enclosures -/

/-- A literal or identifier that is not quoted, and its text. -/
def UnquotedText (e : Expr) (text : List Char) : Prop :=
  LeafText e text ∧ ∀ content, e ≠ .literal (.text content)

/-- An expression of a level, its text, which begins at an index, and the enclosures in it. -/
inductive DerivesAt : Nat → Expr → Nat → List Char → Enclosures → Prop
  | unquoted {e : Expr} {start : Nat} {text : List Char} (h : UnquotedText e text) :
      DerivesAt unaryLevel e start text .empty
  | quoted {quote : Char} {start : Nat} {content text : List Char}
      (hquote : quote = '"' ∨ quote = '\'') (h : QuotedText quote content text) :
      DerivesAt unaryLevel (.literal (.text (String.ofList content))) start
        (quote :: (text ++ [quote])) ⟨[], [⟨⟨start, start + 1 + text.length⟩, quote⟩]⟩
  | group {e : Expr} {start : Nat} {before text after : List Char} {found : Enclosures}
      (hbefore : Blanks before) (h : DerivesAt 0 e (start + 1 + before.length) text found)
      (hafter : Blanks after) :
      DerivesAt unaryLevel e start ('(' :: (before ++ (text ++ (after ++ [')']))))
        (found.inGroup ⟨start, start + 1 + (before ++ (text ++ after)).length⟩)
  | unary {op : UnaryOp} {e : Expr} {start : Nat} {between text : List Char} {found : Enclosures}
      (hbetween : Blanks between)
      (h : DerivesAt unaryLevel e (start + op.symbol.toList.length + between.length) text found) :
      DerivesAt unaryLevel (.unary op e) start (op.symbol.toList ++ (between ++ text)) found
  | binary {op : BinaryOp} {e e' : Expr} {start : Nat} {left before after right : List Char}
      {found more : Enclosures} (h : DerivesAt op.level e start left found)
      (hbefore : Blanks before) (hafter : Blanks after)
      (h' : DerivesAt (op.level + 1) e'
        (start + left.length + before.length + op.symbol.toList.length + after.length) right more) :
      DerivesAt op.level (.binary op e e') start
        (left ++ (before ++ (op.symbol.toList ++ (after ++ right)))) (found.append more)
  | operand {level : Nat} {e : Expr} {start : Nat} {text : List Char} {found : Enclosures}
      (hlevel : level < unaryLevel) (h : DerivesAt (level + 1) e start text found) :
      DerivesAt level e start text found

/-- A text that is an expression with blanks around it, and the enclosures in the text. -/
def ProgramWith (e : Expr) (text : List Char) (found : Enclosures) : Prop :=
  ∃ before inner after, text = before ++ (inner ++ after) ∧ Blanks before ∧ Blanks after ∧
    DerivesAt 0 e before.length inner found

theorem LeafText.unquoted_or {e : Expr} {text : List Char} (h : LeafText e text) :
    UnquotedText e text ∨ ∃ quote content inner, (quote = '"' ∨ quote = '\'') ∧
      QuotedText quote content inner ∧ e = .literal (.text (String.ofList content)) ∧
      text = quote :: (inner ++ [quote]) := by
  cases h with
  | quoted hquote h => exact .inr ⟨_, _, _, hquote, h, rfl, rfl⟩
  | number h => exact .inl ⟨.number h, nofun⟩
  | trueWord => exact .inl ⟨.trueWord, nofun⟩
  | falseWord => exact .inl ⟨.falseWord, nofun⟩
  | nullWord => exact .inl ⟨.nullWord, nofun⟩
  | undefinedWord => exact .inl ⟨.undefinedWord, nofun⟩
  | identifier h hkeyword => exact .inl ⟨.identifier h hkeyword, nofun⟩

/-- Wherever the text of an expression begins, its quotes and parentheses stand somewhere. -/
theorem Derives.exists_enclosures {level : Nat} {e : Expr} {text : List Char}
    (h : Derives level e text) (start : Nat) : ∃ found, DerivesAt level e start text found := by
  induction h generalizing start with
  | leaf h =>
    rcases h.unquoted_or with hunquoted | ⟨quote, content, inner, hquote, hinner, rfl, rfl⟩
    · exact ⟨_, .unquoted hunquoted⟩
    · exact ⟨_, .quoted hquote hinner⟩
  | group hbefore _ hafter ih =>
    obtain ⟨found, hinner⟩ := ih _
    exact ⟨_, .group hbefore hinner hafter⟩
  | unary hbetween _ ih =>
    obtain ⟨found, hoperand⟩ := ih _
    exact ⟨found, .unary hbetween hoperand⟩
  | binary _ hbefore hafter _ ih ih' =>
    obtain ⟨found, hleft⟩ := ih start
    obtain ⟨more, hright⟩ := ih' _
    exact ⟨_, .binary hleft hbefore hafter hright⟩
  | operand hlevel _ ih =>
    obtain ⟨found, hoperand⟩ := ih start
    exact ⟨found, .operand hlevel hoperand⟩

theorem DerivesAt.derives {level start : Nat} {e : Expr} {text : List Char} {found : Enclosures}
    (h : DerivesAt level e start text found) : Derives level e text := by
  induction h with
  | unquoted h => exact .leaf h.1
  | quoted hquote h => exact .leaf (.quoted hquote h)
  | group hbefore _ hafter ih => exact .group hbefore ih hafter
  | unary hbetween _ ih => exact .unary hbetween ih
  | binary _ hbefore hafter _ ih ih' => exact .binary ih hbefore hafter ih'
  | operand hlevel _ ih => exact .operand hlevel ih

theorem program_iff_enclosures {e : Expr} {text : List Char} :
    Program e text ↔ ∃ found, ProgramWith e text found := by
  constructor
  · rintro ⟨before, inner, after, htext, hbefore, hafter, hinner⟩
    obtain ⟨found, hfound⟩ := hinner.exists_enclosures before.length
    exact ⟨found, before, inner, after, htext, hbefore, hafter, hfound⟩
  · rintro ⟨found, before, inner, after, htext, hbefore, hafter, hfound⟩
    exact ⟨before, inner, after, htext, hbefore, hafter, hfound.derives⟩

/-! ## The measure over a text -/

/-- The measure has the quote and the parentheses that are open at an index, besides `parens` other
parentheses. -/
structure Enclosures.Describes (found : Enclosures) (parens index : Nat) (n : Nesting) : Prop where
  parens : n.parens = parens + found.parensAt index
  quote : n.quote = found.quoteAt index

/-- In front of a text nothing of it is open. -/
theorem Enclosures.Within.describes_front {found : Enclosures} {start stop : Nat}
    (h : found.Within start stop) {n : Nesting} (hn : n.quote = none) :
    found.Describes n.parens start n := by
  constructor
  · rw [h.parensAt_eq_zero (.inl (Nat.le_refl _)), Nat.add_zero]
  · rw [h.quoteAt_eq_none (.inl (Nat.le_refl _)), hn]

/-- The text that begins at an index has these enclosures, and at each place in it the measure is
what they say, if it has come to the text outside of quotes. -/
structure Tracks (start : Nat) (text : List Char) (found : Enclosures) : Prop where
  within : found.Within start (start + text.length)
  describes : ∀ n : Nesting, n.IsOutside → ∀ read rest, text = read ++ rest →
    found.Describes n.parens (start + read.length) (n.steps read)

/-- The places in a text with one character more: those in the text, and the end. -/
theorem prefix_concat {text read rest : List Char} {c : Char} (h : text ++ [c] = read ++ rest) :
    (∃ rest', text = read ++ rest') ∨ read = text ++ [c] := by
  rcases List.append_eq_append_iff.1 h with ⟨read', rfl, hlast⟩ | ⟨rest', rfl, -⟩
  · rcases List.singleton_eq_append_iff.1 hlast with ⟨rfl, -⟩ | ⟨rfl, -⟩
    · exact .inl ⟨[], by simp⟩
    · exact .inr rfl
  · exact .inl ⟨rest', rfl⟩

namespace Tracks

variable {start : Nat} {text more : List Char} {found found' : Enclosures} {n : Nesting}

/-- Behind the text the measure is outside of quotes, and as many parentheses are open as in front
of it. -/
theorem behind (h : Tracks start text found) (hn : n.IsOutside) :
    (n.steps text).IsOutside ∧ (n.steps text).parens = n.parens := by
  have hend := h.describes n hn text [] (List.append_nil text).symm
  have hquote := hend.quote
  have hparens := hend.parens
  rw [h.within.quoteAt_eq_none (.inr (Nat.le_refl _))] at hquote
  rw [h.within.parensAt_eq_zero (.inr (Nat.le_refl _))] at hparens
  exact ⟨isOutside_steps (fun _ => hn.escaped) hquote, hparens⟩

/-- One text behind another one. -/
theorem append (h : Tracks start text found) (h' : Tracks (start + text.length) more found') :
    Tracks start (text ++ more) (found.append found') := by
  have hlength : start + (text ++ more).length = start + text.length + more.length := by
    rw [List.length_append, Nat.add_assoc]
  constructor
  · rw [hlength]
    exact h.within.append h'.within (Nat.le_add_right ..) (Nat.le_add_right ..)
  · intro n hn read rest hsplit
    rcases List.append_eq_append_iff.1 hsplit with ⟨read', rfl, hmore⟩ | ⟨rest', rfl, -⟩
    · -- the place is in the text behind: nothing of the text in front is open there
      obtain ⟨houtside, hparens⟩ := h.behind hn
      have hindex : start + (text ++ read').length = start + text.length + read'.length := by
        rw [List.length_append, Nat.add_assoc]
      have hbehind : start + text.length ≤ start + (text ++ read').length := by omega
      have hplace := h'.describes _ houtside read' rest hmore
      rw [← hindex, hparens] at hplace
      rw [steps_append]
      constructor
      · rw [hplace.parens, Enclosures.parensAt_append, h.within.parensAt_eq_zero (.inr hbehind),
          Nat.zero_add]
      · rw [hplace.quote, Enclosures.quoteAt_append, h.within.quoteAt_eq_none (.inr hbehind),
          Option.none_or]
    · -- the place is in the text in front: nothing of the text behind is open there
      have hfront : start + read.length ≤ start + (read ++ rest').length := by
        rw [List.length_append]
        omega
      have hplace := h.describes n hn read rest' rfl
      constructor
      · rw [hplace.parens, Enclosures.parensAt_append, h'.within.parensAt_eq_zero (.inl hfront),
          Nat.add_zero]
      · rw [hplace.quote, Enclosures.quoteAt_append, h'.within.quoteAt_eq_none (.inl hfront),
          Option.or_none]

/-- Nothing in front of a text and nothing behind it. -/
theorem between {before after : List Char} (hbefore : Tracks start before .empty)
    (h : Tracks (start + before.length) text found)
    (hafter : Tracks (start + before.length + text.length) after .empty) :
    Tracks start (before ++ (text ++ after)) found := by
  have hboth := hbefore.append (h.append hafter)
  rwa [Enclosures.append_empty] at hboth

section

variable (h : Tracks (start + 1) text found) (hn : n.IsOutside)

include h hn

/-- In parentheses one more of them is open. -/
theorem describes_inside {read rest : List Char} (hsplit : text = read ++ rest) :
    (found.inGroup ⟨start, start + 1 + text.length⟩).Describes n.parens (start + 1 + read.length)
      ((n.step '(').steps read) := by
  have hopening : IsOutside { n with parens := n.parens + 1 } := ⟨hn.quote, hn.escaped⟩
  have hplace := h.describes _ hopening read rest hsplit
  have hopen : Enclosure.isOpen ⟨start, start + 1 + text.length⟩ (start + 1 + read.length) = true := by
    rw [Enclosure.isOpen_eq_true, hsplit, List.length_append]
    dsimp only
    omega
  rw [step_opening hn]
  constructor
  · rw [hplace.parens, Enclosures.parensAt_inGroup, hopen]
    exact Nat.add_right_comm ..
  · exact hplace.quote

/-- Behind parentheses as many of them are open as in front. -/
theorem describes_behind :
    (found.inGroup ⟨start, start + 1 + text.length⟩).Describes n.parens (start + 1 + text.length + 1)
      (((n.step '(').steps text).step ')') := by
  have hopening : IsOutside { n with parens := n.parens + 1 } := ⟨hn.quote, hn.escaped⟩
  obtain ⟨houtside, hparens⟩ := h.behind hopening
  have hclosed : Enclosure.isOpen ⟨start, start + 1 + text.length⟩ (start + 1 + text.length + 1) =
      false :=
    Enclosure.isOpen_eq_false.2 (.inr (Nat.lt_succ_self _))
  rw [step_opening hn, step_closing houtside, hparens]
  constructor
  · rw [Enclosures.parensAt_inGroup, h.within.parensAt_eq_zero (.inr (Nat.le_succ _)), hclosed]
    rfl
  · rw [Enclosures.quoteAt_inGroup, h.within.quoteAt_eq_none (.inr (Nat.le_succ _))]
    exact houtside.quote

end

/-- A text in parentheses. -/
theorem group (h : Tracks (start + 1) text found) :
    Tracks start ('(' :: (text ++ [')'])) (found.inGroup ⟨start, start + 1 + text.length⟩) := by
  have hlength : start + ('(' :: (text ++ [')'])).length = start + 1 + text.length + 1 := by
    rw [List.length_cons, List.length_append, List.length_singleton]
    omega
  refine ⟨by rw [hlength]; exact h.within.inGroup, ?_⟩
  intro n hn read rest hsplit
  rcases List.cons_eq_append_iff.1 hsplit with ⟨rfl, -⟩ | ⟨read, rfl, hinner⟩
  · exact h.within.inGroup.describes_front hn.quote
  · have hindex : start + ('(' :: read).length = start + 1 + read.length := by
      rw [List.length_cons]
      omega
    rw [hindex]
    rcases prefix_concat hinner with ⟨rest', hsplit'⟩ | rfl
    · exact h.describes_inside hn hsplit'
    · have hbehind := h.describes_behind hn
      rw [List.length_append, List.length_singleton, ← Nat.add_assoc]
      change Enclosures.Describes _ _ _ ((n.step '(').steps (text ++ [')']))
      rw [steps_append]
      exact hbehind

end Tracks

/-! ## The measure over tokens -/

def isNeutral (c : Char) : Bool := c != '(' && c != ')' && c != '"' && c != '\''

theorem isNeutral_eq_true {c : Char} :
    isNeutral c = true ↔ c ≠ '(' ∧ c ≠ ')' ∧ c ≠ '"' ∧ c ≠ '\'' := by
  simp only [isNeutral, Bool.and_eq_true, bne_iff_ne, and_assoc]

theorem step_neutral {n : Nesting} (hn : n.IsOutside) {c : Char}
    (hc : isNeutral c = true) : (n.step c).IsOutside ∧ (n.step c).parens = n.parens := by
  obtain ⟨hopening, hclosing, hdouble, hsingle⟩ := isNeutral_eq_true.1 hc
  refine ⟨hn.step ⟨hdouble, hsingle⟩, ?_⟩
  simp only [Nesting.step, hn.quote, hopening, hclosing, hdouble, hsingle, or_self, if_false]
  split
  · rfl
  · split <;> rfl

theorem steps_neutral {n : Nesting} (hn : n.IsOutside) {text : List Char}
    (h : ∀ c ∈ text, isNeutral c = true) :
    (n.steps text).IsOutside ∧ (n.steps text).parens = n.parens := by
  induction text generalizing n with
  | nil => exact ⟨hn, rfl⟩
  | cons c text ih =>
    obtain ⟨hc, htext⟩ := List.forall_mem_cons.1 h
    obtain ⟨houtside, hparens⟩ := step_neutral hn hc
    obtain ⟨hbehind, hsame⟩ := ih houtside htext
    exact ⟨hbehind, hsame.trans hparens⟩

/-- Over a text without quotes and parentheses the measure stays outside of quotes. -/
theorem tracks_neutral {text : List Char} (h : ∀ c ∈ text, isNeutral c = true) (start : Nat) :
    Tracks start text .empty := by
  refine ⟨.empty _ _, fun n hn read rest hsplit => ?_⟩
  have hread : ∀ c ∈ read, isNeutral c = true :=
    fun c hc => h c (hsplit ▸ List.mem_append_left rest hc)
  obtain ⟨houtside, hparens⟩ := steps_neutral hn hread
  exact ⟨hparens, houtside.quote⟩

theorem Blanks.isNeutral {text : List Char} (h : Blanks text) : ∀ c ∈ text, isNeutral c = true := by
  intro c hc
  have hblank := h c hc
  refine isNeutral_eq_true.2 ⟨?_, ?_, ?_, ?_⟩ <;> rintro rfl <;> exact absurd hblank (by decide)

theorem isNeutral_of_isNumeric {c : Char} (h : isNumeric c = true) :
    isNeutral c = true := by
  refine isNeutral_eq_true.2 ⟨?_, ?_, ?_, ?_⟩ <;> rintro rfl <;> exact absurd h (by decide)

theorem UnquotedText.isNeutral {e : Expr} {text : List Char} (h : UnquotedText e text) :
    ∀ c ∈ text, isNeutral c = true := by
  obtain ⟨hleaf, hunquoted⟩ := h
  have hword : ∀ {text : List Char}, Word text → ∀ c ∈ text, Expr.isNeutral c = true :=
    fun hword c hc => isNeutral_of_isNumeric (isNumeric_of_isWordChar (hword.all c hc))
  cases hleaf with
  | number h => exact fun c hc => isNeutral_of_isNumeric (h.isNumeric c hc)
  | quoted => exact absurd rfl (hunquoted _)
  | trueWord | falseWord | nullWord | undefinedWord =>
    exact hword (word_of_mem_keywords (by decide))
  | identifier h => exact hword h

theorem isNeutral_symbol (op : BinaryOp) : ∀ c ∈ op.symbol.toList, isNeutral c = true := by
  cases op <;> exact List.all_eq_true.1 (by decide)

theorem isNeutral_sign (op : UnaryOp) : ∀ c ∈ op.symbol.toList, isNeutral c = true := by
  cases op <;> exact List.all_eq_true.1 (by decide)

/-- Between quotes nothing changes but that a backslash may wait for its character. -/
theorem QuotedText.steps_read {quote : Char} {content text : List Char}
    (h : QuotedText quote content text) {n : Nesting} (hn : n.IsInside quote)
    {read rest : List Char} (hsplit : text = read ++ rest) :
    ∃ escaped, n.steps read = { n with escaped } := by
  induction h generalizing read with
  | nil =>
    obtain ⟨rfl, -⟩ := List.append_eq_nil_iff.1 hsplit.symm
    exact ⟨n.escaped, rfl⟩
  | plain hescape hne _ ih =>
    rcases List.cons_eq_append_iff.1 hsplit with ⟨rfl, -⟩ | ⟨read, rfl, hmore⟩
    · exact ⟨n.escaped, rfl⟩
    · change ∃ escaped, (n.step _).steps read = _
      rw [hn.step_plain hescape hne]
      exact ih hmore
  | escape _ ih =>
    rcases List.cons_eq_append_iff.1 hsplit with ⟨rfl, -⟩ | ⟨read, rfl, hsecond⟩
    · exact ⟨n.escaped, rfl⟩
    · rcases List.cons_eq_append_iff.1 hsecond with ⟨rfl, -⟩ | ⟨read, rfl, hmore⟩
      · exact ⟨true, hn.step_escape⟩
      · change ∃ escaped, ((n.step '\\').step _).steps read = _
        rw [hn.steps_escape]
        exact ih hmore

/-- A quoted text. -/
theorem QuotedText.tracks {quote : Char} {content text : List Char}
    (h : QuotedText quote content text) (hquote : quote = '"' ∨ quote = '\'') (start : Nat) :
    Tracks start (quote :: (text ++ [quote]))
      ⟨[], [⟨⟨start, start + 1 + text.length⟩, quote⟩]⟩ := by
  have hlength : start + (quote :: (text ++ [quote])).length = start + 1 + text.length + 1 := by
    rw [List.length_cons, List.length_append, List.length_singleton]
    omega
  have hwithin : Enclosures.Within ⟨[], [⟨⟨start, start + 1 + text.length⟩, quote⟩]⟩ start
      (start + 1 + text.length + 1) :=
    ⟨List.forall_mem_nil _, List.forall_mem_singleton.2 ⟨Nat.le_refl _, Nat.lt_succ_self _⟩,
      List.pairwise_singleton ..⟩
  refine ⟨by rw [hlength]; exact hwithin, fun n hn read rest hsplit => ?_⟩
  have hinside := isInside_step hquote hn
  have hparens : (n.step quote).parens = n.parens := by rw [hn.step_quote hquote]
  rcases List.cons_eq_append_iff.1 hsplit with ⟨rfl, -⟩ | ⟨read, rfl, hinner⟩
  · exact hwithin.describes_front hn.quote
  · have hindex : start + (quote :: read).length = start + 1 + read.length := by
      rw [List.length_cons]
      omega
    rw [hindex]
    rcases prefix_concat hinner with ⟨rest', rfl⟩ | rfl
    · obtain ⟨escaped, hread⟩ := h.steps_read hinside rfl
      have hopen : Enclosure.isOpen ⟨start, start + 1 + (read ++ rest').length⟩
          (start + 1 + read.length) = true := by
        rw [Enclosure.isOpen_eq_true, List.length_append]
        dsimp only
        omega
      change Enclosures.Describes _ _ _ ((n.step quote).steps read)
      rw [hread]
      constructor
      · exact hparens
      · rw [Enclosures.quoteAt, List.find?_cons, hopen]
        exact hinside.quote
    · have hend := h.steps hquote hn
      have hclosed := hwithin.quoteAt_eq_none (.inr (Nat.le_refl _))
      rw [List.length_append, List.length_singleton, ← Nat.add_assoc, hend]
      exact ⟨rfl, hn.quote.trans hclosed.symm⟩

/-! ## The measure over a derivation -/

/-- Wherever an expression is derived, the measure over its text follows the derivation. -/
theorem DerivesAt.tracks {level start : Nat} {e : Expr} {text : List Char} {found : Enclosures}
    (h : DerivesAt level e start text found) : Tracks start text found := by
  induction h with
  | unquoted h => exact tracks_neutral h.isNeutral _
  | quoted hquote h => exact h.tracks hquote _
  | @group e start before text after found hbefore _ hafter ih =>
    have hinner := Tracks.between (tracks_neutral hbefore.isNeutral _) ih
      (tracks_neutral hafter.isNeutral _)
    have hgroup := hinner.group
    simpa only [List.append_assoc] using hgroup
  | @unary op _ _ _ _ _ hbetween _ ih =>
    have hoperand := (tracks_neutral hbetween.isNeutral _).append ih
    exact (tracks_neutral (isNeutral_sign op) _).append hoperand
  | @binary op _ _ _ _ _ _ _ _ _ _ hbefore hafter _ ih ih' =>
    have hright := (tracks_neutral hafter.isNeutral _).append ih'
    have hoperator := (tracks_neutral (isNeutral_symbol op) _).append hright
    have hbehind := (tracks_neutral hbefore.isNeutral _).append hoperator
    exact ih.append hbehind
  | operand _ _ ih => exact ih

theorem ProgramWith.tracks {e : Expr} {text : List Char} {found : Enclosures}
    (h : ProgramWith e text found) : Tracks 0 text found := by
  obtain ⟨before, inner, after, rfl, hbefore, hafter, hinner⟩ := h
  have hindex : 0 + before.length = before.length := Nat.zero_add _
  refine Tracks.between (tracks_neutral hbefore.isNeutral _) ?_ (tracks_neutral hafter.isNeutral _)
  rw [hindex]
  exact hinner.tracks

/-! ## What the measure knows at a character -/

/-- In front of a closing parenthesis outside of quotes one is open. -/
theorem Tracks.parensAt_pos {start : Nat} {text read rest : List Char} {found : Enclosures}
    (h : Tracks start text found) (hsplit : text = read ++ ')' :: rest)
    (hquote : found.quoteAt (start + read.length) = none) :
    0 < found.parensAt (start + read.length) := by
  -- otherwise a parenthesis that is open in front of the text would be closed here
  let n : Nesting := { Nesting.start with parens := 1 }
  have hn : n.IsOutside := ⟨rfl, rfl⟩
  have hplace := h.describes n hn read _ hsplit
  have hnext := h.describes n hn (read ++ [')']) rest (by rw [hsplit]; simp)
  have hread : (n.steps read).IsOutside :=
    isOutside_steps (fun _ => rfl) (hplace.quote.trans hquote)
  have hstep : n.steps (read ++ [')']) = (n.steps read).step ')' := by
    rw [steps_append]
    rfl
  have hbefore : (n.steps read).parens = 1 + found.parensAt (start + read.length) := hplace.parens
  have hbehind := hnext.parens
  rw [hstep, step_closing hread] at hbehind
  dsimp only [n] at hbefore hbehind
  omega

theorem Enclosures.mem_of_find? {found : Enclosures} {index : Nat} {quotation : Quotation}
    (h : found.quotations.find? (·.isOpen index) = some quotation) :
    quotation ∈ found.quotations ∧ quotation.first < index ∧ index ≤ quotation.last := by
  have hopen := List.find?_some h
  exact ⟨List.mem_of_find?_eq_some h, Enclosure.isOpen_eq_true.1 hopen⟩

namespace Enclosures.Within

variable {found : Enclosures} {start stop index : Nat} (h : found.Within start stop)

include h

theorem eq_or_apart {quotation other : Quotation} (hquotation : quotation ∈ found.quotations)
    (hother : other ∈ found.quotations) :
    quotation = other ∨ quotation.last < other.first ∨ other.last < quotation.first := by
  have hapart := List.pairwise_iff_getElem.1 h.apart
  obtain ⟨i, hi, rfl⟩ := List.mem_iff_getElem.1 hquotation
  obtain ⟨j, hj, rfl⟩ := List.mem_iff_getElem.1 hother
  rcases Nat.lt_trichotomy i j with hbehind | rfl | hbefore
  · exact .inr (.inl (hapart i j hi hj hbehind))
  · exact .inl rfl
  · exact .inr (.inr (hapart j i hj hi hbefore))

/-- A quote is open just between the two quotes of a quoted text. -/
theorem quoteAt_eq_some_iff {quote : Char} :
    found.quoteAt index = some quote ↔ ∃ quotation ∈ found.quotations,
      quotation.quote = quote ∧ quotation.first < index ∧ index ≤ quotation.last := by
  rw [quoteAt, Option.map_eq_some_iff]
  constructor
  · rintro ⟨quotation, hfind, hquote⟩
    obtain ⟨hquoted, hopen⟩ := mem_of_find? hfind
    exact ⟨quotation, hquoted, hquote, hopen⟩
  · rintro ⟨quotation, hquoted, hquote, hopen⟩
    have hsome : (found.quotations.find? (·.isOpen index)).isSome :=
      List.find?_isSome.2 ⟨quotation, hquoted, Enclosure.isOpen_eq_true.2 hopen⟩
    obtain ⟨other, hfind⟩ := Option.isSome_iff_exists.1 hsome
    obtain ⟨hother, hopen'⟩ := mem_of_find? hfind
    rcases h.eq_or_apart hquoted hother with rfl | hapart
    · exact ⟨quotation, hfind, hquote⟩
    · omega

theorem quoteAt_ne_none_iff :
    found.quoteAt index ≠ none ↔ ∃ quotation ∈ found.quotations,
      quotation.first < index ∧ index ≤ quotation.last := by
  rw [Option.ne_none_iff_exists']
  simp only [h.quoteAt_eq_some_iff]
  constructor
  · rintro ⟨_, quotation, hquoted, -, hopen⟩
    exact ⟨quotation, hquoted, hopen⟩
  · rintro ⟨quotation, hquoted, hopen⟩
    exact ⟨_, quotation, hquoted, rfl, hopen⟩

/-- Content is what has an open quote in front of it and behind it. -/
theorem isContent_iff :
    found.quoteAt index ≠ none ∧ found.quoteAt (index + 1) ≠ none ↔ found.IsContent index := by
  rw [h.quoteAt_ne_none_iff, h.quoteAt_ne_none_iff]
  constructor
  · rintro ⟨⟨quotation, hquoted, hfirst, hlast⟩, other, hother, hbehind⟩
    rcases h.eq_or_apart hquoted hother with rfl | hapart
    · exact ⟨quotation, hquoted, hfirst, by omega⟩
    · omega
  · rintro ⟨quotation, hquoted, hfirst, hlast⟩
    exact ⟨⟨quotation, hquoted, hfirst, Nat.le_of_lt hlast⟩, quotation, hquoted, by omega⟩

end Enclosures.Within

/-- In front of the character at an index, the measure knows what the enclosures say about it. -/
structure Enclosures.Matches (found : Enclosures) (index : Nat) (n : Nesting) (c : Char) :
    Prop where
  /-- The measure is inside of quotes in front of the character and behind it, just if the character
  is content. The quotes themselves are where it enters and leaves. -/
  content : n.quote ≠ none ∧ (n.step c).quote ≠ none ↔ found.IsContent index
  quote : ∀ quote, n.quote = some quote ↔ ∃ quotation ∈ found.quotations,
    quotation.quote = quote ∧ quotation.first < index ∧ index ≤ quotation.last
  parens : n.parens = found.parensAt index
  closing : n.quote = none → c = ')' → 0 < n.parens

theorem Tracks.matches {text before after : List Char} {c : Char} {found : Enclosures}
    (h : Tracks 0 text found) (hsplit : text = before ++ c :: after) :
    found.Matches before.length (Nesting.start.steps before) c := by
  have hplace := h.describes _ isOutside_start before _ hsplit
  have hnext := h.describes _ isOutside_start (before ++ [c]) after (by rw [hsplit]; simp)
  have hstep : Nesting.start.steps (before ++ [c]) = (Nesting.start.steps before).step c := by
    rw [steps_append]
    rfl
  have hparens := hplace.parens
  have hquote := hplace.quote
  have hbehind := hnext.quote
  rw [hstep, List.length_append, List.length_singleton, ← Nat.add_assoc, Nat.zero_add] at hbehind
  rw [Nat.zero_add] at hparens hquote
  constructor
  · rw [hquote, hbehind]
    exact h.within.isContent_iff
  · intro quote
    rw [hquote]
    exact h.within.quoteAt_eq_some_iff
  · exact hparens.trans (Nat.zero_add _)
  · rintro hnone rfl
    have hpos := h.parensAt_pos hsplit (by rw [Nat.zero_add, ← hquote, hnone])
    rw [Nat.zero_add] at hpos
    rw [hparens]
    exact Nat.lt_add_left _ hpos

/-- The parser reads just the texts that are derived. At each character of such a text the measure
knows whether it is in a quoted text and how many parentheses are open, so that it never closes one
where none is open. Behind the text the measure is outside of quotes and no parenthesis is open. -/
theorem measure_follows_derivation (text : List Char) :
    (∀ e, readOperand [] text = .ok e ↔ ∃ found, ProgramWith e text found) ∧
    ∀ e found, ProgramWith e text found →
      (∀ before c after, text = before ++ c :: after →
        found.Matches before.length (Nesting.start.steps before) c) ∧
      (Nesting.start.steps text).quote = none ∧ (Nesting.start.steps text).parens = 0 := by
  refine ⟨fun e => readOperand_eq_ok_iff.trans program_iff_enclosures, fun e found h => ?_⟩
  obtain ⟨houtside, hparens⟩ := h.tracks.behind isOutside_start
  exact ⟨fun before c after hsplit => h.tracks.matches hsplit, houtside.quote, hparens⟩

theorem DerivesAt.weaken {level level' start : Nat} {e : Expr} {text : List Char}
    {found : Enclosures} (h : DerivesAt level e start text found) (hlevel : level ≤ unaryLevel)
    (hle : level' ≤ level) : DerivesAt level' e start text found := by
  obtain ⟨k, rfl⟩ := Nat.exists_eq_add_of_le hle
  induction k with
  | zero => exact h
  | succ k ih => exact ih (.operand hlevel h) (Nat.le_of_lt hlevel) (Nat.le_add_right _ _)

/-- A quoted text in parentheses, with a parenthesis and a quote in it: neither ends anything. -/
theorem measure_follows_quoted :
    let text := "(\")\\\"\")".toList
    let found : Enclosures := ⟨[⟨0, 6⟩], [⟨⟨1, 5⟩, '"'⟩]⟩
    ProgramWith (.literal (.text ")\"")) text found ∧
      text = ['(', '"'] ++ ')' :: ['\\', '"', '"', ')'] ∧ found.IsContent 2 ∧
      found.Matches 2 (Nesting.start.steps ['(', '"']) ')' ∧
      (Nesting.start.steps text).quote = none ∧ (Nesting.start.steps text).parens = 0 := by
  intro text found
  have hescape : QuotedText '"' ['"'] ['\\', '"'] := @QuotedText.escape _ '"' _ _ .nil
  have hquoted : QuotedText '"' [')', '"'] [')', '\\', '"'] :=
    .plain (by decide) (by decide) hescape
  have hleaf : DerivesAt unaryLevel (.literal (.text ")\"")) 1 ['"', ')', '\\', '"', '"'] _ :=
    .quoted (.inl rfl) hquoted
  have hgroup : DerivesAt unaryLevel (.literal (.text ")\"")) 0 text found :=
    @DerivesAt.group _ 0 [] _ [] _ Blanks.nil (hleaf.weaken (Nat.le_refl _) (Nat.zero_le _))
      Blanks.nil
  have hprogram : ProgramWith (.literal (.text ")\"")) text found :=
    ⟨[], text, [], (List.append_nil _).symm, Blanks.nil, Blanks.nil,
      hgroup.weaken (Nat.le_refl _) (Nat.zero_le _)⟩
  obtain ⟨hmatches, hquote, hparens⟩ := (measure_follows_derivation text).2 _ _ hprogram
  exact ⟨hprogram, rfl, ⟨_, List.mem_singleton_self _, by decide, by decide⟩,
    hmatches ['(', '"'] ')' ['\\', '"', '"', ')'] rfl, hquote, hparens⟩

end StepScript.Expr
