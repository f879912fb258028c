import StepScript.Proofs.Action.Keeps
import StepScript.Proofs.Expr.Counting
import StepScript.Proofs.Script.Bounds
import StepScript.Proofs.Template.Texts

/-!
# Bounds on results

What is known of the options of steps survives the parameters that are put in, and the data of the
actions that need no browser are scalars. So the results of a script that was read from a text are
as shallow as the text.
-/

namespace StepScript

open Json

/-! ## Values -/

namespace Json

variable {ε : Type} {f : String → Except ε String} {levels : Nat}

/-- Neither numbers nor nesting change when the strings in a value do. -/
theorem IsBounded.mapStrings {value mapped : Json} (h : value.IsBounded levels)
    (hmap : value.mapStrings f = .ok mapped) : mapped.IsBounded levels := by
  induction value using Json.induction generalizing levels mapped with
  | null | bool | number =>
    rw [Json.mapStrings.eq_def, Except.ok.injEq] at hmap
    exact hmap ▸ h
  | string text =>
    rw [Json.mapStrings] at hmap
    obtain ⟨text', -, hmap⟩ := exists_of_bind_eq_ok hmap
    cases hmap
    exact ⟨trivial, Nat.zero_le _⟩
  | array items ih =>
    rw [Json.mapStrings, mapItems_eq_mapM] at hmap
    obtain ⟨mappedItems, hitems, hmap⟩ := exists_of_bind_eq_ok hmap
    cases hmap
    obtain ⟨inner, rfl, hinner⟩ := h.of_array
    refine isBounded_array fun other hother => ?_
    obtain ⟨item, hitem, hother⟩ := mem_of_mapM_eq_ok hitems other hother
    exact ih item hitem (hinner item hitem) hother
  | object members ih =>
    rw [Json.mapStrings, mapMembers_eq_mapM] at hmap
    obtain ⟨mappedMembers, hmembers, hmap⟩ := exists_of_bind_eq_ok hmap
    cases hmap
    obtain ⟨inner, rfl, hinner⟩ := h.of_object
    refine isBounded_object fun other hother => ?_
    obtain ⟨member, hmember, hother⟩ := mem_of_mapM_eq_ok hmembers other hother
    obtain ⟨value, hvalue, hother⟩ := exists_of_bind_eq_ok hother
    cases hother
    exact ih member hmember (hinner member hmember) hvalue

end Json

/-- The value of an expression is a scalar, and its integers are safe. -/
theorem Value.isBounded_toJson (value : Value) : value.toJson.IsBounded 0 := by
  cases value with
  | null | boolean | text => exact ⟨trivial, Nat.le_refl 0⟩
  | number x =>
    simp only [toJson]
    split
    · next n hsafe =>
      obtain ⟨hn, -⟩ := toSafeInteger?_eq_some hsafe
      have hleast : leastInteger ≤ -(safeInteger : Int) := by decide
      have hlimit : (safeInteger : Int) < wordLimit := by decide
      exact ⟨⟨by omega, by omega⟩, Nat.le_refl 0⟩
    · exact ⟨trivial, Nat.le_refl 0⟩
    · exact ⟨trivial, Nat.le_refl 0⟩

/-! ## Steps -/

/-- Putting in parameters keeps a step bounded. -/
theorem Step.IsBounded.expand {step expanded : Step} {params : Parameters} {policy : MissingPolicy}
    (h : step.IsBounded) (hexpand : step.expand params policy = .ok expanded) :
    expanded.IsBounded := by
  obtain ⟨instruction, -, hexpand⟩ := exists_of_bind_eq_ok hexpand
  obtain ⟨name, -, hexpand⟩ := exists_of_bind_eq_ok hexpand
  obtain ⟨options, hoptions, ⟨⟩⟩ := exists_of_bind_eq_ok hexpand
  rintro value rfl
  cases hauthored : step.options with
  | none =>
    rw [hauthored] at hoptions
    cases hoptions
  | some authored =>
    rw [hauthored] at hoptions
    obtain ⟨mapped, hmapped, ⟨⟩⟩ := exists_of_bind_eq_ok hoptions
    exact (h authored hauthored).mapStrings hmapped

/-- The step of a result is bounded, and its data are a scalar. -/
def ActionResult.IsBounded (result : ActionResult) : Prop :=
  result.step.IsBounded ∧ ∀ value, result.data = some value → value.IsBounded 0

section

variable {B : Backend} {α β : Type}

/-- Whatever the context, the values of an activity are as `Q` says. -/
def Act.Brings (Q : α → Prop) (act : Act B α) : Prop :=
  Act.Ensures (fun _ => True) (fun _ => True) act fun value _ => Q value

namespace Act

variable {P : α → Prop} {Q : β → Prop}

theorem Brings.value {act : Act B α} (h : Brings P act) {context : Context B} {value : α}
    (hvalue : (act.run.run context).value = .ok value) : P value := by
  have hend := (h context trivial).2
  rwa [hvalue] at hend

theorem Brings.any (act : Act B α) : Brings (fun _ => True) act := by
  refine fun context _ => ⟨fun _ _ => trivial, ?_⟩
  split <;> trivial

theorem Brings.pure {value : α} (h : P value) : Brings P (Pure.pure value : Act B α) :=
  Ensures.pure fun _ _ => h

theorem Brings.throw {cause : ActionError} : Brings P (throw cause : Act B α) := Ensures.throw

theorem Brings.bind {act : Act B α} {next : α → Act B β} (h : Brings P act)
    (hnext : ∀ value, P value → Brings Q (next value)) : Brings Q (act >>= next) :=
  Ensures.bind h fun value context hvalue => hnext value hvalue context trivial

/-- What is brought does not depend on what was done before. -/
theorem Brings.after (act : Act B α) {next : α → Act B β} (h : ∀ value, Brings Q (next value)) :
    Brings Q (act >>= next) :=
  .bind (.any act) fun value _ => h value

end Act

namespace Action

variable {step : Step}

variable (h : step.IsBounded)

include h

end Action

end

/-! ## Objects -/

theorem ActionResult.IsBounded.of_mem_members {result : ActionResult} (h : result.IsBounded) :
    ∀ member ∈ result.membersAfterTimes, member.2.IsBounded (optionLevels + 1) := by
  intro member hmember
  simp only [membersAfterTimes, List.mem_append, List.mem_singleton] at hmember
  rcases hmember with (rfl | hdata) | herror
  · exact Step.isBounded_toJson h.1
  · exact (h.2 _ (mem_optionalMember hdata)).mono (Nat.zero_le _)
  · obtain ⟨text, -, htext⟩ := Option.map_eq_some_iff.1 (mem_optionalMember herror)
    rw [← htext]
    exact ⟨trivial, Nat.zero_le _⟩

/-- The text of a bounded result is read as an object. -/
theorem TimedResult.exists_parse_render {timed : TimedResult} (h : timed.result.IsBounded) :
    ∃ members, Json.parse timed.toJson.render = .ok (.object members) := by
  have hscalar : ∀ text, (Json.string text).IsBounded (optionLevels + 1) :=
    fun _ => ⟨trivial, Nat.zero_le _⟩
  refine Json.exists_parse_render ((isBounded_object ?_).mono (by decide : optionLevels + 2 ≤ _))
  simp only [List.forall_mem_cons]
  exact ⟨⟨trivial, Nat.zero_le _⟩, hscalar _, hscalar _, h.of_mem_members⟩

end StepScript
