import StepScript.Proofs.Json.Values
import StepScript.Template
import Mathlib.Tactic.Common

/-!
# Policies

The strict policy fails where the lenient one puts in nothing, and this is the only difference: what
the strict policy makes of a text, a value or a step, the lenient one makes of it too.
-/

namespace StepScript

variable {ε α β : Type}

/-- A computation fails or has the value of another one, which does not fail. -/
inductive IsStricter : Except ε α → Except ε α → Prop where
  | same (value : α) : IsStricter (.ok value) (.ok value)
  | fails (cause : ε) (value : α) : IsStricter (.error cause) (.ok value)

theorem IsStricter.exists_ok {strict lenient : Except ε α} (h : IsStricter strict lenient) :
    ∃ value, lenient = .ok value := by
  cases h with
  | same value => exact ⟨value, rfl⟩
  | fails _ value => exact ⟨value, rfl⟩

theorem IsStricter.ok {strict lenient : Except ε α} (h : IsStricter strict lenient) {value : α}
    (hstrict : strict = .ok value) : lenient = .ok value := by
  cases h with
  | same => exact hstrict
  | fails => cases hstrict

theorem IsStricter.bind {strict lenient : Except ε α} {next next' : α → Except ε β}
    (h : IsStricter strict lenient) (hnext : ∀ value, IsStricter (next value) (next' value)) :
    IsStricter (strict >>= next) (lenient >>= next') := by
  cases h with
  | same value => exact hnext value
  | fails cause value =>
    -- the lenient computation goes on, and what comes next does not fail either
    obtain ⟨result, hresult⟩ := (hnext value).exists_ok
    change IsStricter (.error cause) (next' value)
    rw [hresult]
    exact .fails cause result

/-! ## Texts -/

theorem expandChars_cons (lookUp : List Char → Except ε (List Char)) (c : Char) (text : List Char) :
    expandChars lookUp (c :: text) =
      match if c = '$' then placeholder? text else none with
      | some (name, rest) =>
        expandChars lookUp rest >>= fun tail => .ok (placeholderChars name ++ tail)
      | none =>
        match placeholder? (c :: text) with
        | some (name, rest) =>
          lookUp name >>= fun value => expandChars lookUp rest >>= fun tail => .ok (value ++ tail)
        | none => expandChars lookUp text >>= fun tail => .ok (c :: tail) := by
  rw [expandChars]
  split
  · next hescaped => rw [hescaped]; rfl
  · next hescaped =>
    rw [hescaped]
    split
    · next hplain => rw [hplain]; rfl
    · next hplain => rw [hplain]; rfl

theorem expandChars_isStricter {strict lenient : List Char → Except ε (List Char)}
    (h : ∀ name, IsStricter (strict name) (lenient name)) (text : List Char) :
    IsStricter (expandChars strict text) (expandChars lenient text) := by
  induction hlength : text.length using Nat.strongRecOn generalizing text with
  | ind length ih =>
    subst hlength
    have hshorter : ∀ rest : List Char, rest.length < text.length →
        IsStricter (expandChars strict rest) (expandChars lenient rest) :=
      fun rest hrest => ih rest.length hrest rest rfl
    cases text with
    | nil =>
      rw [expandChars, expandChars]
      exact .same []
    | cons c text =>
      have htail : text.length < (c :: text).length := Nat.lt_succ_self _
      rw [expandChars_cons, expandChars_cons]
      split
      · next name rest hescaped =>
        have hrest : placeholder? text = some (name, rest) := by
          split at hescaped
          · exact hescaped
          · cases hescaped
        exact (hshorter rest (Nat.lt_trans (length_placeholder? hrest) htail)).bind fun _ => .same _
      · split
        · next name rest hplain =>
          exact (h name).bind fun _ =>
            (hshorter rest (length_placeholder? hplain)).bind fun _ => .same _
        · exact (hshorter text htail).bind fun _ => .same _

theorem lookUpName_isStricter (params : Parameters) (policy : MissingPolicy) (name : List Char) :
    IsStricter (lookUpName params policy name) (lookUpName params .lenient name) := by
  unfold lookUpName
  cases params.display? (String.ofList name) with
  | some text => exact .same _
  | none =>
    cases policy with
    | lenient => exact .same _
    | strict => exact .fails _ _

theorem expandText_isStricter (params : Parameters) (policy : MissingPolicy) (text : String) :
    IsStricter (expandText params policy text) (expandText params .lenient text) :=
  (expandChars_isStricter (lookUpName_isStricter params policy) text.toList).bind fun _ => .same _

/-! ## Values and steps -/

theorem mapOptional_isStricter {f g : α → Except ε α} (h : ∀ value, IsStricter (f value) (g value))
    (value : Option α) : IsStricter (mapOptional f value) (mapOptional g value) := by
  cases value with
  | none => exact .same _
  | some value => exact (h value).bind fun _ => .same _

section

variable {strict lenient : String → Except ε String}

theorem Json.mapItems_isStricter {items : List Json}
    (hitems : ∀ item ∈ items, IsStricter (item.mapStrings strict) (item.mapStrings lenient)) :
    IsStricter (Json.mapItems strict items) (Json.mapItems lenient items) := by
  induction items with
  | nil => exact .same _
  | cons item rest ih =>
    obtain ⟨hitem, hrest⟩ := List.forall_mem_cons.1 hitems
    exact hitem.bind fun _ => (ih hrest).bind fun _ => .same _

theorem Json.mapMembers_isStricter {members : List (String × Json)}
    (hmembers : ∀ member ∈ members,
      IsStricter (member.2.mapStrings strict) (member.2.mapStrings lenient)) :
    IsStricter (Json.mapMembers strict members) (Json.mapMembers lenient members) := by
  induction members with
  | nil => exact .same _
  | cons member rest ih =>
    obtain ⟨hmember, hrest⟩ := List.forall_mem_cons.1 hmembers
    exact hmember.bind fun _ => (ih hrest).bind fun _ => .same _

variable (h : ∀ text, IsStricter (strict text) (lenient text))

include h

theorem Json.mapStrings_isStricter (value : Json) :
    IsStricter (value.mapStrings strict) (value.mapStrings lenient) := by
  induction value using Json.induction with
  | null | bool _ | number _ => exact .same _
  | string text => exact (h text).bind fun _ => .same _
  | array items hitems => exact (Json.mapItems_isStricter hitems).bind fun _ => .same _
  | object members hmembers => exact (Json.mapMembers_isStricter hmembers).bind fun _ => .same _

theorem Instruction.mapTexts_isStricter (instruction : Instruction) :
    IsStricter (instruction.mapTexts strict) (instruction.mapTexts lenient) := by
  unfold Instruction.mapTexts
  split
  all_goals try exact .same _
  · exact (h _).bind fun _ => .same _
  · exact (h _).bind fun _ => (h _).bind fun _ => .same _
  · exact (h _).bind fun _ => (mapOptional_isStricter h _).bind fun _ =>
      (mapOptional_isStricter h _).bind fun _ => .same _
  · exact (h _).bind fun _ => .same _
  · exact (h _).bind fun _ => .same _
  · exact (h _).bind fun _ => .same _

theorem Step.mapTexts_isStricter (step : Step) :
    IsStricter (step.mapTexts strict) (step.mapTexts lenient) :=
  (Instruction.mapTexts_isStricter h _).bind fun _ => (h _).bind fun _ =>
    (mapOptional_isStricter (Json.mapStrings_isStricter h) _).bind fun _ => .same _

end

/-- Whatever some policy makes of a step, the lenient policy makes of it. -/
theorem Step.expand_isStricter (step : Step) (params : Parameters) (policy : MissingPolicy) :
    IsStricter (step.expand params policy) (step.expand params .lenient) :=
  Step.mapTexts_isStricter (expandText_isStricter params policy) step

end StepScript
