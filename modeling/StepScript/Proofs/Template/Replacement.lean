import StepScript.Proofs.Template.Occurrence
import Mathlib.Data.List.Forall2
import Mathlib.Data.Nat.Find

/-!
# Replacement of placeholders

What becomes of a text with placeholders, said position by position: each index of the text
contributes a piece to the output, which depends on the placeholders that stand around it and not on
what was replaced before.

## Main definitions

- `Template.Contributes` — what an index contributes to the output
- `Template.Replaced` — the output of a whole text
- `Template.FirstUnset` — the first placeholder that stands for nothing

## Main results

- `expandText_replaces` — what both policies make of every text
-/

namespace StepScript.Template

/-- An index inside a live placeholder, behind its first character. -/
def Within (text : List Char) (i : Nat) : Prop :=
  ∃ start name, Live text start name ∧ start < i ∧ i < start + width name

/-- What an index contributes to the output, where `value` says what stands for each name. -/
inductive Contributes (value : List Char → List Char) (text : List Char) (i : Nat) :
    List Char → Prop where
  /-- The first character of a live placeholder stands for the value of its name. -/
  | value {name : List Char} (h : Live text i name) : Contributes value text i (value name)
  /-- The other characters of a live placeholder vanish. -/
  | within (h : Within text i) : Contributes value text i []
  /-- A dollar sign directly before a placeholder vanishes. -/
  | dollar {name : List Char} (hdollar : text[i]? = some '$') (h : Occurs text (i + 1) name) :
      Contributes value text i []
  /-- All other characters stay as they are. -/
  | kept {c : Char} (hchar : text[i]? = some c) (hlive : ∀ name, ¬ Live text i name)
      (hwithin : ¬ Within text i) (hdollar : c = '$' → ∀ name, ¬ Occurs text (i + 1) name) :
      Contributes value text i [c]

/-- A text with its placeholders replaced: the contributions of all its indices, in order. -/
def Replaced (value : List Char → List Char) (text out : List Char) : Prop :=
  ∃ pieces, List.Forall₂ (Contributes value text) (List.range text.length) pieces ∧
    out = pieces.flatten

variable {value : List Char → List Char} {text name other out piece : List Char} {i j : Nat}
  {c : Char}

/-! ## Contributions are unique -/

theorem Within.ne_dollar (h : Within text i) : text[i]? ≠ some '$' := by
  obtain ⟨start, name, hlive, hlt, hend⟩ := h
  exact hlive.ne_dollar hlt hend

theorem Contributes.unique {piece' : List Char} (h : Contributes value text i piece)
    (h' : Contributes value text i piece') : piece = piece' := by
  cases h with
  | value h =>
    cases h' with
    | value h' => rw [h.toOccurs.unique h'.toOccurs]
    | within h' => exact absurd h.dollar h'.ne_dollar
    | dollar _ h' => exact absurd h' h.not_succ
    | kept _ hlive => exact absurd h (hlive _)
  | within h =>
    cases h' with
    | value h' => exact absurd h'.dollar h.ne_dollar
    | within | dollar => rfl
    | kept _ _ hwithin => exact absurd h hwithin
  | dollar hdollar h =>
    cases h' with
    | value h' => exact absurd h h'.not_succ
    | within | dollar => rfl
    | kept hchar _ _ hkept =>
      exact absurd h (hkept (Option.some.inj (hchar.symm.trans hdollar)) _)
  | kept hchar hlive hwithin hkept =>
    cases h' with
    | value h' => exact absurd h' (hlive _)
    | within h' => exact absurd h' hwithin
    | dollar hdollar h' => exact absurd h' (hkept (Option.some.inj (hchar.symm.trans hdollar)) _)
    | kept hchar' => rw [Option.some.inj (hchar.symm.trans hchar')]

/-- A text has only one output. -/
theorem Replaced.unique {out' : List Char} (h : Replaced value text out)
    (h' : Replaced value text out') : out = out' := by
  obtain ⟨pieces, hpieces, rfl⟩ := h
  obtain ⟨pieces', hpieces', rfl⟩ := h'
  have hunique : Relator.RightUnique (Contributes value text) := fun _ _ _ h h' => h.unique h'
  rw [List.right_unique_forall₂' hunique hpieces hpieces']

/-! ## Outputs from some index on -/

/-- The contributions of the indices from `i` on. -/
def ReplacedFrom (value : List Char → List Char) (text : List Char) (i : Nat) (out : List Char) :
    Prop :=
  ∃ pieces, List.Forall₂ (Contributes value text) (List.range' i (text.length - i)) pieces ∧
    out = pieces.flatten

theorem ReplacedFrom.replaced (h : ReplacedFrom value text 0 out) : Replaced value text out := by
  rwa [Replaced, List.range_eq_range']

theorem ReplacedFrom.done : ReplacedFrom value text text.length [] :=
  ⟨[], by rw [Nat.sub_self]; exact .nil, rfl⟩

theorem ReplacedFrom.cons (hi : i < text.length) (hpiece : Contributes value text i piece)
    (h : ReplacedFrom value text (i + 1) out) : ReplacedFrom value text i (piece ++ out) := by
  obtain ⟨pieces, hpieces, rfl⟩ := h
  refine ⟨piece :: pieces, ?_, rfl⟩
  have hrange : List.range' i (text.length - i) =
      i :: List.range' (i + 1) (text.length - (i + 1)) := by
    rw [← List.range'_succ]
    congr 1
    omega
  rw [hrange]
  exact .cons hpiece hpieces

/-- Some indices in a row, each with its piece. -/
theorem ReplacedFrom.run {pieces : List (List Char)}
    (hpieces : ∀ d piece, pieces[d]? = some piece → Contributes value text (i + d) piece)
    (hend : i + pieces.length ≤ text.length)
    (h : ReplacedFrom value text (i + pieces.length) out) :
    ReplacedFrom value text i (pieces.flatten ++ out) := by
  induction pieces generalizing i with
  | nil => exact h
  | cons piece pieces ih =>
    rw [List.flatten_cons, List.append_assoc]
    rw [List.length_cons] at hend h
    refine .cons (by omega) (hpieces 0 piece rfl) (ih (fun d later hlater => ?_) (by omega) ?_)
    · rw [Nat.add_assoc, Nat.add_comm 1 d]
      exact hpieces (d + 1) later hlater
    · rwa [Nat.add_assoc, Nat.add_comm 1]

/-- A live placeholder contributes the value of its name. -/
theorem ReplacedFrom.live (hlive : Live text i name)
    (h : ReplacedFrom value text (i + width name) out) :
    ReplacedFrom value text i (value name ++ out) := by
  have hwidth := width_eq name
  let pieces := value name :: List.replicate (width name - 1) []
  have hlength : pieces.length = width name := by
    rw [List.length_cons, List.length_replicate]
    omega
  have hflatten : pieces.flatten = value name := by
    rw [List.flatten_cons, List.flatten_replicate_nil, List.append_nil]
  rw [← hflatten]
  refine .run (fun d piece hpiece => ?_) (hlength ▸ hlive.end_le) (hlength ▸ h)
  cases d with
  | zero =>
    cases hpiece
    exact .value hlive
  | succ d =>
    have hd : d < width name - 1 ∧ [] = piece := by
      simpa [pieces, List.getElem?_replicate] using hpiece
    obtain ⟨hd, rfl⟩ := hd
    exact .within ⟨i, name, hlive, by omega, by omega⟩

/-- A character of an escaped placeholder is kept. -/
theorem contributes_escaped (hdollar : text[i]? = some '$') (h : Occurs text (i + 1) name) {d : Nat}
    (hchar : (placeholderChars name)[d]? = some c) : Contributes value text (i + 1 + d) [c] := by
  have hd : d < width name := by
    rw [width]
    exact (List.getElem?_eq_some_iff.1 hchar).1
  have htext : text[i + 1 + d]? = some c := (h.getElem? hd).trans hchar
  refine .kept htext ?live ?within ?dollar
  case live =>
    intro other hlive
    cases d with
    | zero => exact hlive.plain ⟨i, rfl, hdollar⟩
    | succ d => exact h.ne_dollar (by omega) (by omega) hlive.dollar
  case within =>
    rintro ⟨start, other, hlive, hlt, hend⟩
    -- it would overlap the escaped one, or be that one
    rcases Nat.lt_trichotomy start (i + 1) with hstart | rfl | hstart
    · have := hlive.disjoint h hstart
      omega
    · exact hlive.plain ⟨i, rfl, hdollar⟩
    · have := h.disjoint hlive.toOccurs hstart
      omega
  case dollar =>
    rintro rfl other hother
    cases d with
    | zero => exact h.not_succ hother
    | succ d => exact h.ne_dollar (by omega) (by omega) htext

/-- A dollar sign before a placeholder vanishes and the placeholder stays. -/
theorem ReplacedFrom.escaped (hdollar : text[i]? = some '$') (hoccurs : Occurs text (i + 1) name)
    (h : ReplacedFrom value text (i + 1 + width name) out) :
    ReplacedFrom value text i (placeholderChars name ++ out) := by
  have hend := hoccurs.end_le
  let pieces := (placeholderChars name).map fun c => [c]
  have hlength : pieces.length = width name := List.length_map ..
  have hflatten : pieces.flatten = placeholderChars name := by
    rw [← List.flatMap_def, List.flatMap_singleton']
  have hkept : ReplacedFrom value text (i + 1) (pieces.flatten ++ out) := by
    refine .run (fun d piece hpiece => ?_) (hlength ▸ hend) (hlength ▸ h)
    rw [List.getElem?_map, Option.map_eq_some_iff] at hpiece
    obtain ⟨c, hc, rfl⟩ := hpiece
    exact contributes_escaped hdollar hoccurs hc
  rw [hflatten] at hkept
  have hi : i < text.length := (List.getElem?_eq_some_iff.1 hdollar).1
  have hall := ReplacedFrom.cons hi (.dollar hdollar hoccurs) hkept
  rwa [List.nil_append] at hall

/-- Any other character is kept. -/
theorem ReplacedFrom.character (hfresh : Fresh text i) (hchar : text[i]? = some c)
    (hnone : ∀ name, ¬ Occurs text i name) (hdollar : c = '$' → ∀ name, ¬ Occurs text (i + 1) name)
    (h : ReplacedFrom value text (i + 1) out) : ReplacedFrom value text i (c :: out) := by
  have hwithin : ¬ Within text i := by
    rintro ⟨start, name, hlive, hlt, hend⟩
    exact hfresh.outside ⟨start, name, hlive.toOccurs, hlt, hend⟩
  have hpiece : Contributes value text i [c] :=
    .kept hchar (fun name hlive => hnone name hlive.toOccurs) hwithin hdollar
  have hall := ReplacedFrom.cons (List.getElem?_eq_some_iff.1 hchar).1 hpiece h
  rwa [List.singleton_append] at hall

/-! ## The scanner -/

section

variable {ε : Type} {lookUp : List Char → Except ε (List Char)}

/-- If all live names have values, the output is made of them. -/
theorem expandChars_eq_ok (hvalue : ∀ j name, Live text j name → lookUp name = .ok (value name))
    (h : Fresh text i) (hi : i ≤ text.length) :
    ∃ out, expandChars lookUp (text.drop i) = .ok out ∧ ReplacedFrom value text i out := by
  refine h.induction (motive := fun i =>
    ∃ out, expandChars lookUp (text.drop i) = .ok out ∧ ReplacedFrom value text i out)
    ?done ?escaped ?live ?other hi
  case done =>
    refine ⟨[], ?_, .done⟩
    rw [List.drop_length, expandChars]
  case escaped =>
    rintro i name - hdollar hoccurs ⟨out, hout, hreplaced⟩
    refine ⟨_, ?_, hreplaced.escaped hdollar hoccurs⟩
    rw [expandChars_escaped lookUp hdollar hoccurs, hout]
    rfl
  case live =>
    rintro i name - hlive ⟨out, hout, hreplaced⟩
    refine ⟨_, ?_, hreplaced.live hlive⟩
    rw [expandChars_live lookUp hlive.toOccurs, hvalue i name hlive, hout]
    rfl
  case other =>
    rintro i c hfresh hchar hnone hdollar ⟨out, hout, hreplaced⟩
    refine ⟨_, ?_, hreplaced.character hfresh hchar hnone hdollar⟩
    rw [expandChars_other lookUp hchar hnone hdollar, hout]
    rfl

/-- The first live name without a value decides the error. -/
theorem expandChars_eq_error {cause : ε} (hlive : Live text j name)
    (hcause : lookUp name = .error cause)
    (hbefore : ∀ k other, k < j → Live text k other → ∃ value, lookUp other = .ok value)
    (h : Fresh text i) (hi : i ≤ text.length) (hij : i ≤ j) :
    expandChars lookUp (text.drop i) = .error cause := by
  -- as long as the scanner has not come to `j`, its moves succeed and do not pass over `j`
  revert hij
  refine h.induction (motive := fun i => i ≤ j → expandChars lookUp (text.drop i) = .error cause)
    ?done ?escaped ?live ?other hi
  case done =>
    intro hij
    have := hlive.end_le
    have := width_eq name
    omega
  case escaped =>
    intro i other _ hdollar hoccurs hrest hij
    have hbehind : i + 1 + width other ≤ j := by
      rcases Nat.lt_trichotomy j (i + 1) with hj | rfl | hj
      · obtain rfl : j = i := by omega
        exact absurd hoccurs hlive.not_succ
      · exact absurd ⟨i, rfl, hdollar⟩ hlive.plain
      · exact hoccurs.disjoint hlive.toOccurs hj
    rw [expandChars_escaped lookUp hdollar hoccurs, hrest hbehind]
    rfl
  case live =>
    intro i other _ hother hrest hij
    rw [expandChars_live lookUp hother.toOccurs]
    rcases Nat.lt_or_eq_of_le hij with hlt | rfl
    · obtain ⟨value, hvalue⟩ := hbefore i other hlt hother
      rw [hvalue, hrest (hother.disjoint hlive.toOccurs hlt)]
      rfl
    · rw [hother.toOccurs.unique hlive.toOccurs, hcause]
      rfl
  case other =>
    intro i c _ hchar hnone hdollar hrest hij
    have hne : i ≠ j := by
      rintro rfl
      exact hnone name hlive.toOccurs
    rw [expandChars_other lookUp hchar hnone hdollar, hrest (by omega)]
    rfl

end

/-! ## Parameters -/

def Unset (params : Parameters) (name : List Char) : Prop :=
  params.display? (String.ofList name) = none

/-- What stands for a name: the text of its parameter, or nothing if that is not set. -/
def valueIn (params : Parameters) (name : List Char) : List Char :=
  ((params.display? (String.ofList name)).getD "").toList

/-- The leftmost live placeholder whose parameter is not set. -/
structure FirstUnset (params : Parameters) (text : List Char) (i : Nat) (name : List Char) :
    Prop where
  live : Live text i name
  unset : Unset params name
  first : ∀ j other, j < i → Live text j other → ¬ Unset params other

variable {params : Parameters}

theorem lookUpName_lenient (name : List Char) :
    lookUpName params .lenient name = .ok (valueIn params name) := by
  unfold lookUpName valueIn
  cases params.display? (String.ofList name) <;> rfl

theorem lookUpName_strict (h : ¬ Unset params name) :
    lookUpName params .strict name = .ok (valueIn params name) := by
  unfold Unset at h
  unfold lookUpName valueIn
  cases hshown : params.display? (String.ofList name) with
  | none => exact absurd hshown h
  | some shown => rfl

theorem lookUpName_unset (h : Unset params name) :
    lookUpName params .strict name = .error (.missingParameter (String.ofList name)) := by
  unfold Unset at h
  simp only [lookUpName, h]

/-- If some live placeholder stands for nothing, there is a first one. -/
theorem exists_firstUnset (h : ∃ i name, Live text i name ∧ Unset params name) :
    ∃ i name, FirstUnset params text i name := by
  classical
  obtain ⟨name, hlive, hunset⟩ := Nat.find_spec h
  refine ⟨Nat.find h, name, hlive, hunset, fun j other hj hother hunsetOther => ?_⟩
  exact Nat.find_min h hj ⟨other, hother, hunsetOther⟩

theorem expandText_eq_ok {policy : MissingPolicy} {text : String}
    (hvalue : ∀ j name, Live text.toList j name →
      lookUpName params policy name = .ok (valueIn params name)) :
    ∃ out, expandText params policy text = .ok out ∧
      Replaced (valueIn params) text.toList out.toList := by
  obtain ⟨out, hout, hreplaced⟩ :=
    expandChars_eq_ok hvalue (Fresh.zero text.toList) (Nat.zero_le _)
  rw [List.drop_zero] at hout
  refine ⟨String.ofList out, ?_, ?_⟩
  · rw [expandText, hout]
    rfl
  · rw [String.toList_ofList]
    exact hreplaced.replaced

theorem FirstUnset.expandText {text : String} (h : FirstUnset params text.toList i name) :
    expandText params .strict text = .error (.missingParameter (String.ofList name)) := by
  have hbefore : ∀ k other, k < i → Live text.toList k other →
      ∃ value, lookUpName params .strict other = .ok value :=
    fun k other hk hother => ⟨_, lookUpName_strict (h.first k other hk hother)⟩
  have herror := expandChars_eq_error h.live (lookUpName_unset h.unset) hbefore
    (Fresh.zero text.toList) (Nat.zero_le _) (Nat.zero_le i)
  rw [List.drop_zero] at herror
  rw [StepScript.expandText, herror]
  rfl

end StepScript.Template

namespace StepScript

open Template

/-- Whatever the text and the parameters: with the lenient policy every text has an output, the one
that the law of replacement gives it. With the strict policy a text fails if a live placeholder
stands for a parameter that is not set, and the leftmost of them is reported; otherwise the output
is the same. -/
theorem expandText_replaces (params : Parameters) (text : String) :
    (∃ out, expandText params .lenient text = .ok out) ∧
    (∀ out, expandText params .lenient text = .ok out ↔
      Replaced (valueIn params) text.toList out.toList) ∧
    (∀ cause, expandText params .strict text = .error cause ↔
      ∃ i name, FirstUnset params text.toList i name ∧
        cause = .missingParameter (String.ofList name)) ∧
    (∀ out, expandText params .strict text = .ok out ↔
      (∀ i name, Live text.toList i name → ¬ Unset params name) ∧
        expandText params .lenient text = .ok out) := by
  obtain ⟨lenient, hlenient, hreplaced⟩ : ∃ out, expandText params .lenient text = .ok out ∧
      Replaced (valueIn params) text.toList out.toList :=
    expandText_eq_ok fun _ name _ => lookUpName_lenient name
  have hlenientIff : ∀ out, expandText params .lenient text = .ok out ↔
      Replaced (valueIn params) text.toList out.toList := by
    intro out
    rw [hlenient, Except.ok.injEq]
    constructor
    · rintro rfl
      exact hreplaced
    · intro hout
      exact String.toList_inj.1 (hreplaced.unique hout)
  refine ⟨⟨lenient, hlenient⟩, hlenientIff, ?_⟩
  -- the strict policy differs only if some live placeholder stands for nothing
  by_cases hunset : ∃ i name, Live text.toList i name ∧ Unset params name
  · obtain ⟨i, name, hfirst⟩ := exists_firstUnset hunset
    have hstrict := hfirst.expandText
    refine ⟨fun cause => ?_, fun out => ?_⟩
    · constructor
      · intro hcause
        rw [hstrict] at hcause
        exact ⟨i, name, hfirst, (Except.error.inj hcause).symm⟩
      · rintro ⟨j, other, hother, rfl⟩
        exact hother.expandText
    · rw [hstrict]
      refine ⟨nofun, fun ⟨hset, _⟩ => ?_⟩
      exact absurd hfirst.unset (hset i name hfirst.live)
  · have hset : ∀ i name, Live text.toList i name → ¬ Unset params name :=
      fun i name hlive hname => hunset ⟨i, name, hlive, hname⟩
    obtain ⟨strict, hstrict, hstrictReplaced⟩ :=
      expandText_eq_ok fun j name hlive => lookUpName_strict (hset j name hlive)
    obtain rfl : strict = lenient := String.toList_inj.1 (hstrictReplaced.unique hreplaced)
    refine ⟨fun cause => ?_, fun out => ?_⟩
    · rw [hstrict]
      refine ⟨nofun, fun ⟨i, name, hfirst, _⟩ => ?_⟩
      exact absurd hfirst.unset (hset i name hfirst.live)
    · rw [hstrict, hlenient]
      exact ⟨fun hout => ⟨hset, hout⟩, fun hout => hout.2⟩

end StepScript
