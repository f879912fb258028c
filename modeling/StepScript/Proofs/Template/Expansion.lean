import StepScript.Proofs.Template.Occurrence
import StepScript.Proofs.Template.Policies

/-!
# Texts with one placeholder

What has no dollar sign stays as it is, and a placeholder for a parameter that is set becomes the text
of its value.
-/

namespace StepScript

open Template

section

variable {ε : Type} {lookUp : List Char → Except ε (List Char)}

theorem placeholder?_of_ne_dollar {c : Char} (h : c ≠ '$') (text : List Char) :
    placeholder? (c :: text) = none := by
  cases hfound : placeholder? (c :: text) with
  | none => rfl
  | some found =>
    obtain ⟨-, -, htext⟩ := placeholder?_eq_some_iff.1 hfound
    exact absurd (List.cons.inj htext).1 h

theorem expandChars_cons_of_ne_dollar {c : Char} (h : c ≠ '$') (text : List Char) :
    expandChars lookUp (c :: text) =
      expandChars lookUp text >>= fun tail => .ok (c :: tail) := by
  rw [expandChars_cons, if_neg h, placeholder?_of_ne_dollar h]

/-- What stands before the first dollar sign stays as it is. -/
theorem expandChars_append {before : List Char} (h : '$' ∉ before) (text : List Char) :
    expandChars lookUp (before ++ text) =
      expandChars lookUp text >>= fun tail => .ok (before ++ tail) := by
  induction before with
  | nil =>
    rw [List.nil_append]
    cases expandChars lookUp text <;> rfl
  | cons c before ih =>
    rw [List.mem_cons, not_or] at h
    rw [List.cons_append, expandChars_cons_of_ne_dollar (Ne.symm h.1), ih h.2]
    cases expandChars lookUp text <;> rfl

theorem expandChars_eq_self {text : List Char} (h : '$' ∉ text) :
    expandChars lookUp text = .ok text := by
  have happend := @expandChars_append _ lookUp _ h []
  rw [expandChars, List.append_nil] at happend
  rw [happend]
  exact congrArg Except.ok (List.append_nil text)

/-- A placeholder becomes its value. -/
theorem expandChars_placeholder {name value : List Char} (hname : name ≠ [])
    (hchars : ∀ c ∈ name, NameChar c) (h : lookUp name = .ok value) {text : List Char}
    (htext : '$' ∉ text) :
    expandChars lookUp (placeholderChars name ++ text) = .ok (value ++ text) := by
  have hplain : placeholder? (placeholderChars name ++ text) = some (name, text) :=
    placeholder?_eq_some_iff.2 ⟨hname, hchars, rfl⟩
  have hescaped : placeholder? ('\x7b' :: name ++ ['\x7d'] ++ text) = none :=
    placeholder?_of_ne_dollar (by decide) _
  have hcons : placeholderChars name ++ text = '$' :: ('\x7b' :: name ++ ['\x7d'] ++ text) := rfl
  rw [hcons] at hplain ⊢
  rw [expandChars_cons, if_pos rfl, hescaped]
  dsimp only
  rw [hplain]
  dsimp only
  rw [h, expandChars_eq_self htext]
  rfl

end

theorem expandText_eq_self {params : Parameters} {policy : MissingPolicy} {text : String}
    (h : '$' ∉ text.toList) : expandText params policy text = .ok text := by
  rw [expandText, expandChars_eq_self h]
  exact congrArg Except.ok String.ofList_toList

/-- A text with one placeholder, for a parameter that is set. -/
theorem expandText_placeholder {params : Parameters} {policy : MissingPolicy}
    {before name after value : String} (hbefore : '$' ∉ before.toList)
    (hname : name.toList ≠ []) (hchars : ∀ c ∈ name.toList, NameChar c)
    (h : params.display? name = some value) (hafter : '$' ∉ after.toList) :
    expandText params policy (before ++ String.ofList (placeholderChars name.toList) ++ after) =
      .ok (before ++ value ++ after) := by
  have hvalue : lookUpName params policy name.toList = .ok value.toList := by
    simp only [lookUpName, String.ofList_toList, h]
  have htext : (before ++ String.ofList (placeholderChars name.toList) ++ after).toList =
      before.toList ++ (placeholderChars name.toList ++ after.toList) := by
    rw [String.toList_append, String.toList_append, String.toList_ofList, List.append_assoc]
  rw [expandText, htext, expandChars_append hbefore,
    expandChars_placeholder hname hchars hvalue hafter]
  refine congrArg Except.ok (String.toList_injective ?_)
  rw [String.toList_ofList, String.toList_append, String.toList_append, List.append_assoc]

/-- Under the lenient policy a step can be expanded if its instruction can. -/
theorem Step.exists_expand {params : Parameters} {instruction expanded : Instruction}
    (h : instruction.mapTexts (expandText params .lenient) = .ok expanded) (name : String) :
    ∃ name', (⟨name, none, instruction⟩ : Step).expand params .lenient =
      .ok ⟨name', none, expanded⟩ := by
  obtain ⟨name', hname⟩ := (expandText_isStricter params .lenient name).exists_ok
  refine ⟨name', ?_⟩
  rw [Step.expand, Step.mapTexts, h]
  change (expandText params .lenient name >>= fun name =>
    Except.ok (⟨name, none, expanded⟩ : Step)) = _
  rw [hname]
  rfl

end StepScript
