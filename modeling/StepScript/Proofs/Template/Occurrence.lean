import StepScript.Template
import Mathlib.Tactic.Common

/-!
# Occurrences of placeholders

Where placeholders stand in a text. Two of them never overlap, so the scanner that replaces them
from left to right only ever looks at places that no placeholder covers.
-/

namespace StepScript.Template

/-- The characters of names: letters from A to Z, digits and underscores. -/
def NameChar (c : Char) : Prop :=
  ('A' ≤ c ∧ c ≤ 'Z') ∨ ('a' ≤ c ∧ c ≤ 'z') ∨ ('0' ≤ c ∧ c ≤ '9') ∨ c = '_'

/-- The placeholder of a name stands at an index of a text. -/
structure Occurs (text : List Char) (i : Nat) (name : List Char) : Prop where
  nonempty : name ≠ []
  chars : ∀ c ∈ name, NameChar c
  stands : placeholderChars name <+: text.drop i

/-- A dollar sign stands directly before an index. -/
def Escaped (text : List Char) (i : Nat) : Prop := ∃ before, before + 1 = i ∧ text[before]? = some '$'

/-- A placeholder without a dollar sign before it. -/
structure Live (text : List Char) (i : Nat) (name : List Char) : Prop extends
    Occurs text i name where
  plain : ¬ Escaped text i

def width (name : List Char) : Nat := (placeholderChars name).length

variable {text name other rest : List Char} {i j : Nat} {c : Char}

/-! ## Names and placeholders -/

theorem isNameChar_iff : isNameChar c = true ↔ NameChar c := by
  delta isNameChar NameChar Char.isAlphanum Char.isAlpha Char.isUpper Char.isLower Char.isDigit
  simp only [Bool.or_eq_true, Bool.and_eq_true, decide_eq_true_eq, beq_iff_eq, ge_iff_le,
    Char.le_def, or_assoc]

theorem NameChar.ne_dollar (h : NameChar c) : c ≠ '$' := by
  rintro rfl
  exact absurd h (by unfold NameChar; decide)

theorem width_eq (name : List Char) : width name = name.length + 3 := by
  simp only [width, placeholderChars, List.length_append, List.length_cons, List.length_nil]

/-- The scanner finds exactly the placeholders. -/
theorem placeholder?_eq_some_iff :
    placeholder? text = some (name, rest) ↔
      name ≠ [] ∧ (∀ c ∈ name, NameChar c) ∧ text = placeholderChars name ++ rest := by
  constructor
  · intro h
    unfold placeholder? at h
    split at h
    · next body =>
      split at h
      · next tail hdrop =>
        split at h
        · cases h
        · next hname =>
          simp only [Option.some.injEq, Prod.mk.injEq] at h
          obtain ⟨rfl, rfl⟩ := h
          refine ⟨by simpa using hname, fun c hc => ?_, ?_⟩
          · exact isNameChar_iff.1 (List.all_eq_true.1 List.all_takeWhile c hc)
          · have hbody := List.takeWhile_append_dropWhile (p := isNameChar) (l := body)
            rw [hdrop] at hbody
            simp [placeholderChars, hbody]
      · cases h
    · cases h
  · rintro ⟨hname, hchars, rfl⟩
    have hall : ∀ c ∈ name, isNameChar c = true := fun c hc => isNameChar_iff.2 (hchars c hc)
    have hend : isNameChar '\x7d' = false := by decide
    have htake : (name ++ '\x7d' :: rest).takeWhile isNameChar = name := by
      simp [List.takeWhile_append_of_pos hall, hend]
    have hdrop : (name ++ '\x7d' :: rest).dropWhile isNameChar = '\x7d' :: rest := by
      simp [List.dropWhile_append_of_pos hall, hend]
    simp [placeholderChars, placeholder?, htake, hdrop, hname]

/-- What the scanner finds at an index, and what is left behind it. -/
theorem occurs_iff :
    Occurs text i name ↔ placeholder? (text.drop i) = some (name, text.drop (i + width name)) := by
  rw [placeholder?_eq_some_iff]
  constructor
  · rintro ⟨hname, hchars, rest, hrest⟩
    refine ⟨hname, hchars, ?_⟩
    rw [← List.drop_drop, ← hrest, width, List.drop_left]
  · rintro ⟨hname, hchars, hdrop⟩
    exact ⟨hname, hchars, _, hdrop.symm⟩

/-- At most one placeholder stands at an index. -/
theorem Occurs.unique (h : Occurs text i name) (hother : Occurs text i other) : name = other := by
  rw [occurs_iff] at h hother
  rw [h] at hother
  exact congrArg Prod.fst (Option.some.inj hother)

theorem Occurs.of_placeholder? (h : placeholder? (text.drop i) = some (name, rest)) :
    Occurs text i name ∧ rest = text.drop (i + width name) := by
  obtain ⟨hname, hchars, hdrop⟩ := placeholder?_eq_some_iff.1 h
  have hoccurs : Occurs text i name := ⟨hname, hchars, _, hdrop.symm⟩
  rw [occurs_iff, h] at hoccurs
  exact ⟨occurs_iff.2 (h.trans hoccurs), congrArg Prod.snd (Option.some.inj hoccurs)⟩

theorem placeholder?_eq_none (h : ∀ name, ¬ Occurs text i name) :
    placeholder? (text.drop i) = none := by
  cases hfound : placeholder? (text.drop i) with
  | none => rfl
  | some found => exact absurd (Occurs.of_placeholder? hfound).1 (h found.1)

/-! ## The characters of a placeholder -/

theorem Occurs.getElem? (h : Occurs text i name) {d : Nat} (hd : d < width name) :
    text[i + d]? = (placeholderChars name)[d]? := by
  obtain ⟨rest, hrest⟩ := h.stands
  rw [← List.getElem?_drop, ← hrest, List.getElem?_append_left hd]

theorem Occurs.dollar (h : Occurs text i name) : text[i]? = some '$' :=
  h.getElem? (d := 0) (by rw [width_eq]; omega)

theorem Occurs.end_le (h : Occurs text i name) : i + width name ≤ text.length := by
  have hlast := h.getElem? (d := width name - 1) (by rw [width_eq]; omega)
  have hsome : (placeholderChars name)[width name - 1]? ≠ none := by
    rw [Ne, List.getElem?_eq_none_iff, width_eq, placeholderChars]
    simp
  rw [← hlast, Ne, List.getElem?_eq_none_iff] at hsome
  have := width_eq name
  omega

/-- Behind its first character a placeholder has no dollar sign. -/
theorem Occurs.ne_dollar (h : Occurs text i name) (hij : i < j) (hj : j < i + width name) :
    text[j]? ≠ some '$' := by
  obtain ⟨d, rfl⟩ : ∃ d, j = i + (d + 1) := ⟨j - i - 1, by omega⟩
  rw [h.getElem? (by omega)]
  intro hdollar
  have hmem : '$' ∈ '\x7b' :: name ++ ['\x7d'] := List.mem_of_getElem? hdollar
  simp only [List.cons_append, List.mem_cons, List.mem_append, List.not_mem_nil, or_false] at hmem
  rcases hmem with hmem | hmem | hmem
  · exact absurd hmem (by decide)
  · exact (h.chars _ hmem).ne_dollar rfl
  · exact absurd hmem (by decide)

/-- Placeholders do not overlap. -/
theorem Occurs.disjoint (h : Occurs text i name) (hother : Occurs text j other) (hij : i < j) :
    i + width name ≤ j := by
  by_contra hlt
  exact h.ne_dollar hij (by omega) hother.dollar

/-- The first character of a placeholder does not escape another one. -/
theorem Occurs.not_succ (h : Occurs text i name) : ¬ Occurs text (i + 1) other := by
  intro hother
  have := h.disjoint hother (Nat.lt_succ_self i)
  have := width_eq name
  omega

/-! ## Places of the scanner -/

/-- An index inside a placeholder, behind its first character. -/
def Inside (text : List Char) (i : Nat) : Prop :=
  ∃ start name, Occurs text start name ∧ start < i ∧ i < start + width name

/-- An index that is not inside a placeholder and at which no placeholder with a dollar sign before
it stands. -/
structure Fresh (text : List Char) (i : Nat) : Prop where
  outside : ¬ Inside text i
  plain : ∀ name, Occurs text i name → ¬ Escaped text i

theorem Fresh.live (h : Fresh text i) (hoccurs : Occurs text i name) : Live text i name :=
  ⟨hoccurs, h.plain name hoccurs⟩

/-- A text begins with a place of the scanner. -/
theorem Fresh.zero (text : List Char) : Fresh text 0 := by
  constructor
  · rintro ⟨start, name, -, hlt, -⟩
    omega
  · rintro name - ⟨before, hbefore, -⟩
    omega

/-- Behind a placeholder is a place of the scanner. -/
theorem Occurs.fresh (h : Occurs text i name) : Fresh text (i + width name) := by
  constructor
  · rintro ⟨start, other, hother, hlt, hend⟩
    -- a placeholder around the index would begin before, with or inside the one that ends there
    rcases Nat.lt_trichotomy start i with hstart | rfl | hstart
    · have := hother.disjoint h hstart
      have := width_eq name
      omega
    · obtain rfl := h.unique hother
      omega
    · have := h.disjoint hother hstart
      omega
  · rintro other - ⟨before, hbefore, hdollar⟩
    have := width_eq name
    exact h.ne_dollar (by omega) (by omega) hdollar

/-- Behind a character that belongs to no placeholder and escapes none is a place of the scanner. -/
theorem Fresh.succ (h : Fresh text i) (hnone : ∀ name, ¬ Occurs text i name)
    (hdollar : text[i]? = some '$' → ∀ name, ¬ Occurs text (i + 1) name) : Fresh text (i + 1) := by
  constructor
  · rintro ⟨start, name, hoccurs, hlt, hend⟩
    rcases Nat.lt_or_eq_of_le (Nat.le_of_lt_succ hlt) with hstart | rfl
    · exact h.outside ⟨start, name, hoccurs, hstart, by omega⟩
    · exact hnone name hoccurs
  · rintro name hoccurs ⟨before, hbefore, hbeforeDollar⟩
    obtain rfl : before = i := by omega
    exact hdollar hbeforeDollar name hoccurs

/-- What holds at the end of a text and behind every move of the scanner holds at all its places. -/
theorem Fresh.induction {motive : Nat → Prop} (done : motive text.length)
    (escaped : ∀ i name, Fresh text i → text[i]? = some '$' → Occurs text (i + 1) name →
      motive (i + 1 + width name) → motive i)
    (live : ∀ i name, Fresh text i → Live text i name → motive (i + width name) → motive i)
    (other : ∀ i c, Fresh text i → text[i]? = some c → (∀ name, ¬ Occurs text i name) →
      (c = '$' → ∀ name, ¬ Occurs text (i + 1) name) → motive (i + 1) → motive i)
    (h : Fresh text i) (hi : i ≤ text.length) : motive i := by
  -- on the length of the text behind the index; the cases are the tests of the scanner in its order
  induction hleft : text.length - i using Nat.strongRecOn generalizing i with
  | ind left ih =>
    rcases Nat.lt_or_eq_of_le hi with hlt | rfl
    swap
    · exact done
    obtain ⟨c, hc⟩ : ∃ c, text[i]? = some c := ⟨_, List.getElem?_eq_getElem hlt⟩
    by_cases hescape : c = '$' ∧ ∃ name, Occurs text (i + 1) name
    · obtain ⟨rfl, name, hoccurs⟩ := hescape
      have hend := hoccurs.end_le
      have := width_eq name
      exact escaped i name h hc hoccurs (ih _ (by omega) hoccurs.fresh hend rfl)
    · have hnotEscape : c = '$' → ∀ name, ¬ Occurs text (i + 1) name :=
        fun hdollar name hoccurs => hescape ⟨hdollar, name, hoccurs⟩
      by_cases hlive : ∃ name, Occurs text i name
      · obtain ⟨name, hoccurs⟩ := hlive
        have hend := hoccurs.end_le
        have := width_eq name
        exact live i name h (h.live hoccurs) (ih _ (by omega) hoccurs.fresh hend rfl)
      · have hnone : ∀ name, ¬ Occurs text i name := fun name hoccurs => hlive ⟨name, hoccurs⟩
        have hnext : Fresh text (i + 1) :=
          h.succ hnone fun hdollar => hnotEscape (Option.some.inj (hc.symm.trans hdollar))
        exact other i c h hc hnone hnotEscape (ih _ (by omega) hnext hlt rfl)

/-! ## Moves of the scanner -/

section

variable {ε : Type} (lookUp : List Char → Except ε (List Char))

/-- A dollar sign before a placeholder is dropped and the placeholder kept. -/
theorem expandChars_escaped (hdollar : text[i]? = some '$') (h : Occurs text (i + 1) name) :
    expandChars lookUp (text.drop i) =
      (placeholderChars name ++ ·) <$> expandChars lookUp (text.drop (i + 1 + width name)) := by
  obtain ⟨hlt, hchar⟩ := List.getElem?_eq_some_iff.1 hdollar
  rw [List.drop_eq_getElem_cons hlt, hchar, expandChars]
  rw [occurs_iff] at h
  split
  · next found hfound =>
    rw [if_pos rfl, h] at hfound
    cases hfound
    rfl
  · next hfound =>
    rw [if_pos rfl, h] at hfound
    cases hfound

/-- A live placeholder is replaced. -/
theorem expandChars_live (h : Occurs text i name) :
    expandChars lookUp (text.drop i) = (do
      let value ← lookUp name
      (value ++ ·) <$> expandChars lookUp (text.drop (i + width name))) := by
  obtain ⟨hlt, hchar⟩ := List.getElem?_eq_some_iff.1 h.dollar
  have hnext : ∀ other, ¬ Occurs text (i + 1) other := fun other => h.not_succ
  have hplain := occurs_iff.1 h
  rw [List.drop_eq_getElem_cons hlt, hchar] at hplain ⊢
  rw [expandChars]
  split
  · next found hfound =>
    rw [if_pos rfl, placeholder?_eq_none hnext] at hfound
    cases hfound
  · split
    · next found hfound =>
      rw [hplain] at hfound
      cases hfound
      rfl
    · next hfound =>
      rw [hplain] at hfound
      cases hfound

/-- Any other character is kept. -/
theorem expandChars_other (hchar : text[i]? = some c) (hnone : ∀ name, ¬ Occurs text i name)
    (hdollar : c = '$' → ∀ name, ¬ Occurs text (i + 1) name) :
    expandChars lookUp (text.drop i) = (c :: ·) <$> expandChars lookUp (text.drop (i + 1)) := by
  obtain ⟨hlt, rfl⟩ := List.getElem?_eq_some_iff.1 hchar
  have hplain := placeholder?_eq_none hnone
  have hescape : (if text[i] = '$' then placeholder? (text.drop (i + 1)) else none) = none := by
    split
    · next heq => exact placeholder?_eq_none (hdollar heq)
    · rfl
  rw [List.drop_eq_getElem_cons hlt] at hplain ⊢
  rw [expandChars]
  split
  · next found hfound =>
    rw [hescape] at hfound
    cases hfound
  · split
    · next found hfound =>
      rw [hplain] at hfound
      cases hfound
    · rfl

end

end StepScript.Template
