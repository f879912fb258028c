import StepScript.Proofs.Template.Expansion

/-!
# Escaping

A text is escaped by a further dollar sign in front of every placeholder in it. Expansion takes these
dollar signs away and replaces nothing, so every text is the expansion of some text, whatever the
parameters are.
-/

namespace StepScript.Template

instance (text : List Char) (i : Nat) : Decidable (∃ name, Occurs text i name) :=
  decidable_of_iff ((placeholder? (text.drop i)).isSome = true) <| by
    constructor
    · intro hsome
      obtain ⟨found, hfound⟩ := Option.isSome_iff_exists.1 hsome
      exact ⟨found.1, (Occurs.of_placeholder? hfound).1⟩
    · rintro ⟨name, hoccurs⟩
      rw [occurs_iff.1 hoccurs]
      rfl

/-- The text with a further dollar sign in front of every placeholder in it. -/
def escapeChars : List Char → List Char
  | [] => []
  | c :: text =>
    if ∃ name, Occurs (c :: text) 0 name then '$' :: c :: escapeChars text
    else c :: escapeChars text

def escape (text : String) : String := String.ofList (escapeChars text.toList)

variable {text front name rest : List Char} {c : Char}

/-! ## Where dollar signs are put in -/

theorem escapeChars_of_occurs (h : Occurs (c :: text) 0 name) :
    escapeChars (c :: text) = '$' :: c :: escapeChars text :=
  if_pos ⟨name, h⟩

theorem escapeChars_of_not_occurs (h : ∀ name, ¬ Occurs (c :: text) 0 name) :
    escapeChars (c :: text) = c :: escapeChars text :=
  if_neg (not_exists.2 h)

theorem Occurs.eq_dollar (h : Occurs (c :: text) 0 name) : c = '$' :=
  Option.some.inj h.dollar

/-- A text without placeholders stays as it is. -/
theorem escapeChars_eq_self (h : ∀ i name, ¬ Occurs text i name) : escapeChars text = text := by
  induction text with
  | nil => rfl
  | cons c text ih =>
    rw [escapeChars_of_not_occurs (h 0), ih]
    rintro i name ⟨hname, hchars, hstands⟩
    exact h (i + 1) name ⟨hname, hchars, hstands⟩

/-- What has no dollar sign has no placeholder. -/
theorem escapeChars_append (h : '$' ∉ front) (text : List Char) :
    escapeChars (front ++ text) = front ++ escapeChars text := by
  induction front with
  | nil => rfl
  | cons c front ih =>
    obtain ⟨hc, hfront⟩ := not_or.1 (mt List.mem_cons.2 h)
    rw [List.cons_append, escapeChars_of_not_occurs fun name hoccurs => hc hoccurs.eq_dollar.symm,
      ih hfront, List.cons_append]

/-- Nor does a text without dollar signs arise where some are put in. -/
theorem isPrefix_of_isPrefix_escapeChars (h : '$' ∉ front) (hfront : front <+: escapeChars text) :
    front <+: text := by
  induction front generalizing text with
  | nil => exact List.nil_prefix
  | cons d front ih =>
    obtain ⟨hd, hmore⟩ := not_or.1 (mt List.mem_cons.2 h)
    cases text with
    | nil => exact absurd (List.prefix_nil.1 hfront) (List.cons_ne_nil _ _)
    | cons c text =>
      by_cases hoccurs : ∃ name, Occurs (c :: text) 0 name
      · obtain ⟨name, hoccurs⟩ := hoccurs
        rw [escapeChars_of_occurs hoccurs] at hfront
        exact absurd (List.cons_prefix_cons.1 hfront).1.symm hd
      · rw [escapeChars_of_not_occurs (not_exists.1 hoccurs)] at hfront
        obtain ⟨rfl, hrest⟩ := List.cons_prefix_cons.1 hfront
        exact List.cons_prefix_cons.2 ⟨rfl, ih hmore hrest⟩

/-! ## Placeholders of an escaped text -/

/-- A placeholder behind its dollar sign. -/
def afterDollar (name : List Char) : List Char := '\x7b' :: name ++ ['\x7d']

theorem placeholderChars_eq (name : List Char) : placeholderChars name = '$' :: afterDollar name :=
  rfl

theorem dollar_notMem_afterDollar (h : ∀ c ∈ name, NameChar c) : '$' ∉ afterDollar name := by
  simp only [afterDollar, List.cons_append, List.mem_cons, List.mem_append, List.not_mem_nil,
    or_false, not_or]
  exact ⟨by decide, fun hmem => (h _ hmem).ne_dollar rfl, by decide⟩

/-- A placeholder that the scanner would find in front of an escaped text is one in front of the text
itself. -/
theorem occurs_of_placeholder?_escapeChars
    (h : placeholder? (c :: escapeChars text) = some (name, rest)) : Occurs (c :: text) 0 name := by
  obtain ⟨hname, hchars, htext⟩ := placeholder?_eq_some_iff.1 h
  obtain ⟨rfl, hrest⟩ := List.cons.inj htext
  have hprefix : afterDollar name <+: text :=
    isPrefix_of_isPrefix_escapeChars (dollar_notMem_afterDollar hchars) ⟨rest, hrest.symm⟩
  exact ⟨hname, hchars, List.cons_prefix_cons.2 ⟨rfl, hprefix⟩⟩

/-- No placeholder stands at the start of an escaped text. -/
theorem placeholder?_escapeChars (text : List Char) : placeholder? (escapeChars text) = none := by
  cases hfound : placeholder? (escapeChars text) with
  | none => rfl
  | some found =>
    exfalso
    obtain ⟨name, rest⟩ := found
    cases text with
    | nil => cases hfound
    | cons c text =>
      by_cases hoccurs : ∃ name, Occurs (c :: text) 0 name
      · -- it would begin with the dollar sign that was put in, and another one stands behind that
        obtain ⟨name', hoccurs⟩ := hoccurs
        rw [escapeChars_of_occurs hoccurs, hoccurs.eq_dollar] at hfound
        cases hfound
      · rw [escapeChars_of_not_occurs (not_exists.1 hoccurs)] at hfound
        exact hoccurs ⟨name, occurs_of_placeholder?_escapeChars hfound⟩

/-! ## Expansion -/

section

variable {ε : Type} {lookUp : List Char → Except ε (List Char)}

/-- The dollar sign that was put in front of a placeholder is taken away. -/
theorem expandChars_escapeChars_placeholder (hname : name ≠ []) (hchars : ∀ c ∈ name, NameChar c)
    (hrest : expandChars lookUp (escapeChars rest) = .ok rest) :
    expandChars lookUp (escapeChars (placeholderChars name ++ rest)) =
      .ok (placeholderChars name ++ rest) := by
  have hoccurs : Occurs ('$' :: (afterDollar name ++ rest)) 0 name :=
    ⟨hname, hchars, List.prefix_append _ _⟩
  have hplain : placeholder? (placeholderChars name ++ escapeChars rest) =
      some (name, escapeChars rest) :=
    placeholder?_eq_some_iff.2 ⟨hname, hchars, rfl⟩
  rw [placeholderChars_eq, List.cons_append] at hplain ⊢
  rw [escapeChars_of_occurs hoccurs, escapeChars_append (dollar_notMem_afterDollar hchars),
    expandChars_cons, if_pos rfl, hplain]
  dsimp only
  rw [hrest]
  rfl

/-- Any other character is kept. -/
theorem expandChars_escapeChars_other (h : ∀ name, ¬ Occurs (c :: text) 0 name)
    (htext : expandChars lookUp (escapeChars text) = .ok text) :
    expandChars lookUp (escapeChars (c :: text)) = .ok (c :: text) := by
  have hescaped : (if c = '$' then placeholder? (escapeChars text) else none) = none := by
    rw [placeholder?_escapeChars, ite_self]
  have hplain : placeholder? (c :: escapeChars text) = none := by
    cases hfound : placeholder? (c :: escapeChars text) with
    | none => rfl
    | some found => exact absurd (occurs_of_placeholder?_escapeChars hfound) (h found.1)
  rw [escapeChars_of_not_occurs h, expandChars_cons, hescaped]
  dsimp only
  rw [hplain]
  dsimp only
  rw [htext]
  rfl

/-- Expansion undoes escaping, whatever stands for the names. -/
theorem expandChars_escapeChars (text : List Char) :
    expandChars lookUp (escapeChars text) = .ok text := by
  -- on the length, as a placeholder is passed over as a whole
  induction hlength : text.length using Nat.strongRecOn generalizing text with
  | ind length ih =>
    subst hlength
    cases text with
    | nil => rw [escapeChars, expandChars]
    | cons c text =>
      by_cases hoccurs : ∃ name, Occurs (c :: text) 0 name
      · obtain ⟨name, hname, hchars, rest, htext⟩ := hoccurs
        have hsplit : c :: text = placeholderChars name ++ rest := htext.symm
        have hshorter : rest.length < (c :: text).length := by
          rw [hsplit, List.length_append, ← width, width_eq]
          omega
        rw [hsplit]
        exact expandChars_escapeChars_placeholder hname hchars (ih _ hshorter rest rfl)
      · exact expandChars_escapeChars_other (not_exists.1 hoccurs)
          (ih text.length (Nat.lt_succ_self _) text rfl)

end

/-- Under both policies and for all parameters, an escaped text expands to the text that was escaped. A
text without placeholders is escaped as it is, so its expansion changes nothing. -/
theorem expandText_escape (params : Parameters) (policy : MissingPolicy) (text : String) :
    expandText params policy (escape text) = .ok text ∧
      ((∀ i name, ¬ Occurs text.toList i name) →
        escape text = text ∧ expandText params policy text = .ok text) := by
  have hescape : expandText params policy (escape text) = .ok text := by
    rw [expandText, escape, String.toList_ofList, expandChars_escapeChars]
    exact congrArg Except.ok String.ofList_toList
  refine ⟨hescape, fun hnone => ?_⟩
  have hself : escape text = text := by
    rw [escape, escapeChars_eq_self hnone, String.ofList_toList]
  rw [hself] at hescape
  exact ⟨hself, hescape⟩

/-- A text with dollar signs and braces, but without a placeholder. -/
theorem expandText_escape_unclosed :
    (∀ i name, ¬ Occurs "$$\x7ba $\x7b\x7d $\x7bb".toList i name) ∧
      escape "$$\x7ba $\x7b\x7d $\x7bb" = "$$\x7ba $\x7b\x7d $\x7bb" ∧
      expandText .empty .strict "$$\x7ba $\x7b\x7d $\x7bb" = .ok "$$\x7ba $\x7b\x7d $\x7bb" := by
  have hnone : ∀ i < 12, ¬ ∃ name, Occurs "$$\x7ba $\x7b\x7d $\x7bb".toList i name := by decide
  have htext : ∀ i name, ¬ Occurs "$$\x7ba $\x7b\x7d $\x7bb".toList i name := by
    intro i name hoccurs
    have hend := hoccurs.end_le
    have := width_eq name
    have hlength : "$$\x7ba $\x7b\x7d $\x7bb".toList.length = 12 := rfl
    exact hnone i (by omega) ⟨name, hoccurs⟩
  exact ⟨htext, (expandText_escape .empty .strict _).2 htext⟩

example : escape "$$\x7ba\x7d$\x7bb\x7d" = "$$$\x7ba\x7d$$\x7bb\x7d" := by decide

end StepScript.Template
