import StepScript.Proofs.Json.Bounds
import StepScript.Script.Reader
import StepScript.Script.Writer

/-!
# Bounds on what is read as a script

The options of a step are the only values in a script of which nothing is known. They stand in the
object of the step, in the list of steps and in the script, and so they are bounded more tightly than
the text of the script.
-/

namespace StepScript

open Json

/-- How many lists and objects may be open at once in the options of a step: three stand around
them. -/
def optionLevels : Nat := nestingLimit - 3

/-- The options of a step fit into the text of a script. -/
def Step.IsBounded (step : Step) : Prop :=
  ∀ value, step.options = some value → value.IsBounded optionLevels

/-! ## Readers -/

theorem wrongType_ne_ok {α : Type} (expected : String) (document : Document) (value : α) :
    wrongType expected document ≠ .ok value := by
  unfold wrongType
  split <;> nofun

theorem isBounded_of_readOptional {document : Document} {levels : Nat}
    (h : document.Within levels) {value : Json}
    (hread : readOptional readJson document = .ok (some value)) : value.IsBounded levels := by
  unfold readOptional at hread
  split at hread
  · cases hread
  · obtain ⟨read, hjson, hread⟩ := exists_of_bind_eq_ok hread
    cases hread
    unfold readJson at hjson
    split at hjson
    · next hvalue =>
      cases hjson
      exact h.isBounded hvalue
    · cases hjson

theorem mem_of_readList {α : Type} {reader : Reader α} {document : Document} {levels : Nat}
    (h : document.Within (levels + 1)) {values : List α}
    (hread : readList reader document = .ok values) :
    ∀ value ∈ values, ∃ item, item.Within levels ∧ reader item = .ok value := by
  unfold readList at hread
  split at hread
  · obtain ⟨read, hitems, hread⟩ := exists_of_bind_eq_ok hread
    unfold noFault at hread
    split at hread
    · cases hread
    · cases hread
      intro value hvalue
      obtain ⟨item, hitem, hreader⟩ := mem_of_mapM_eq_ok hitems value hvalue
      cases h with
      | array hwithin => exact ⟨item, hwithin item hitem, hreader⟩
  · exact absurd hread (wrongType_ne_ok _ _ _)

section

variable {α : Type} {reader : Reader α} {fault : Option Malformed} {items rest : List Document}
  {value : α}

theorem eq_cons_of_nextItem {item : Document} (h : nextItem fault items = .ok (some item, rest)) :
    items = item :: rest := by
  cases items with
  | nil =>
    obtain ⟨_, -, h⟩ := exists_of_bind_eq_ok h
    cases h
  | cons first items =>
    cases h
    rfl

theorem eq_cons_of_requiredItem {place : Nat} {expected : String}
    (h : requiredItem place expected reader fault items = .ok (value, rest)) :
    ∃ item, items = item :: rest := by
  obtain ⟨next, hnext, h⟩ := exists_of_bind_eq_ok h
  split at h
  · next item others =>
    obtain ⟨_, -, h⟩ := exists_of_bind_eq_ok h
    cases h
    exact ⟨item, eq_cons_of_nextItem hnext⟩
  · cases h

theorem mem_of_optionalItem {default : α}
    (h : optionalItem default reader fault items = .ok (value, rest)) :
    value = default ∨ ∃ item ∈ items, reader item = .ok value := by
  obtain ⟨next, hnext, h⟩ := exists_of_bind_eq_ok h
  split at h
  · next item others =>
    obtain ⟨_, hread, h⟩ := exists_of_bind_eq_ok h
    cases h
    obtain rfl := eq_cons_of_nextItem hnext
    exact .inr ⟨item, List.mem_cons_self .., hread⟩
  · cases h
    exact .inl rfl

end

/-! ## Steps -/

namespace Step

def Draft.IsBounded (draft : Draft) : Prop :=
  ∀ value, draft.options.join = some value → value.IsBounded optionLevels

theorem Draft.isBounded_read {before after : Draft} (h : before.IsBounded) {key : String}
    {document : Document} (hwithin : document.Within optionLevels)
    (hread : before.read key document = .ok after) : after.IsBounded := by
  unfold Draft.read at hread
  split at hread
  · split at hread
    · cases hread
    · obtain ⟨name, -, hread⟩ := exists_of_bind_eq_ok hread
      cases hread
      exact h
  split at hread
  · split at hread
    · cases hread
    · obtain ⟨options, hoptions, hread⟩ := exists_of_bind_eq_ok hread
      cases hread
      intro value hvalue
      obtain rfl : options = some value := hvalue
      exact isBounded_of_readOptional hwithin hoptions
  · obtain ⟨_, -, hread⟩ := exists_of_bind_eq_ok hread
    cases hread
    exact h

theorem Draft.isBounded_finish {draft : Draft} {step : Step} (h : draft.IsBounded)
    (hfinish : draft.finish = .ok step) : step.IsBounded := by
  unfold Draft.finish at hfinish
  split at hfinish
  · cases hfinish
  · obtain ⟨type, -, hfinish⟩ := exists_of_bind_eq_ok hfinish
    obtain ⟨instruction, -, hfinish⟩ := exists_of_bind_eq_ok hfinish
    cases hfinish
    exact h

/-- A step that stands in the list of steps of a script is bounded. -/
theorem isBounded_of_read {document : Document} {step : Step}
    (h : document.Within (optionLevels + 1)) (hread : Step.read document = .ok step) :
    step.IsBounded := by
  unfold Step.read at hread
  split at hread
  · obtain ⟨draft, hdraft, hread⟩ := exists_of_bind_eq_ok hread
    obtain ⟨_, -, hread⟩ := exists_of_bind_eq_ok hread
    cases h with
    | object hmembers =>
      refine Draft.isBounded_finish ?_ hread
      exact foldlM_invariant hdraft nofun fun member hmember before after hbefore =>
        Draft.isBounded_read hbefore (hmembers member hmember)
  · exact absurd hread (wrongType_ne_ok _ _ _)

end Step

/-! ## Scripts -/

namespace Script

theorem isBounded_of_readList {document : Document} {steps : List Step}
    (h : document.Within (optionLevels + 2)) (hread : readList Step.read document = .ok steps) :
    ∀ step ∈ steps, step.IsBounded := by
  intro step hstep
  obtain ⟨item, hitem, hread⟩ := mem_of_readList h hread step hstep
  exact Step.isBounded_of_read hitem hread

def Draft.IsBounded (draft : Draft) : Prop := ∀ step ∈ draft.steps.getD [], step.IsBounded

theorem Draft.isBounded_read {before after : Draft} (h : before.IsBounded) {key : String}
    {document : Document} (hwithin : document.Within (optionLevels + 2))
    (hread : before.read key document = .ok after) : after.IsBounded := by
  unfold Draft.read at hread
  split at hread
  · split at hread
    · cases hread
    · obtain ⟨name, -, hread⟩ := exists_of_bind_eq_ok hread
      cases hread
      exact h
  split at hread
  · split at hread
    · cases hread
    · obtain ⟨steps, hsteps, hread⟩ := exists_of_bind_eq_ok hread
      cases hread
      exact isBounded_of_readList hwithin hsteps
  · split at hread
    · cases hread
    · cases hread
      exact h

theorem isBounded_of_read {origin : Origin} {document : Document} {script : Script}
    (h : document.Within nestingLimit) (hread : Script.read origin document = .ok script) :
    ∀ step ∈ script.steps, step.IsBounded := by
  unfold Script.read at hread
  split at hread
  · obtain ⟨draft, hdraft, hread⟩ := exists_of_bind_eq_ok hread
    obtain ⟨_, -, hread⟩ := exists_of_bind_eq_ok hread
    cases h with
    | object hmembers =>
      have hsteps : draft.IsBounded :=
        foldlM_invariant hdraft nofun fun member hmember before after hbefore =>
          Draft.isBounded_read hbefore (hmembers member hmember)
      split at hread
      · cases hread
      · cases hread
        exact hsteps
  · obtain ⟨⟨name, others⟩, hname, hread⟩ := exists_of_bind_eq_ok hread
    obtain ⟨⟨steps, rest⟩, hsteps, hread⟩ := exists_of_bind_eq_ok hread
    obtain ⟨_, -, hread⟩ := exists_of_bind_eq_ok hread
    cases hread
    obtain ⟨first, rfl⟩ := eq_cons_of_requiredItem hname
    cases h with
    | array hitems =>
      rcases mem_of_optionalItem hsteps with rfl | ⟨item, hitem, hreader⟩
      · nofun
      · exact isBounded_of_readList (hitems item (List.mem_cons_of_mem _ hitem)) hreader
  · exact absurd hread (wrongType_ne_ok _ _ _)

end Script

/-! ## Objects -/

theorem WaitTarget.isBounded_toJson (target : WaitTarget) : target.toJson.IsBounded 0 := by
  cases target with
  | duration millis =>
    have hlimit : millis.toNat < wordLimit := millis.toNat_lt
    have hleast : leastInteger ≤ 0 := by decide
    exact ⟨⟨by omega, by omega⟩, Nat.le_refl 0⟩
  | element text => exact ⟨trivial, Nat.le_refl 0⟩

/-- There are no lists and objects in the fields of an instruction. -/
theorem Instruction.isBounded_of_mem_members (instruction : Instruction) :
    ∀ member ∈ instruction.members, member.2.IsBounded 0 := by
  cases instruction with
  | putParam key selector value =>
    cases selector <;> cases value <;>
      simp [members, optionalMember, IsBounded, HasWords, depth]
  | wait target =>
    cases target with
    | none => simp [members, optionalMember]
    | some target => simpa [members, optionalMember] using target.isBounded_toJson
  | _ => simp [members, IsBounded, HasWords, depth]

theorem mem_optionalMember {key : String} {value : Option Json} {member : String × Json}
    (h : member ∈ optionalMember key value) : value = some member.2 := by
  unfold optionalMember at h
  split at h
  · obtain rfl := List.mem_singleton.1 h
    rfl
  · cases h

/-- The object of a step is bounded if the step is. -/
theorem Step.isBounded_toJson {step : Step} (h : step.IsBounded) :
    step.toJson.IsBounded (optionLevels + 1) := by
  refine isBounded_object fun member hmember => ?_
  simp only [members, List.mem_append, List.mem_cons, List.not_mem_nil, or_false] at hmember
  rcases hmember with (rfl | hmember) | rfl | hmember
  · exact ⟨trivial, Nat.zero_le _⟩
  · exact h member.2 (mem_optionalMember hmember)
  · exact ⟨trivial, Nat.zero_le _⟩
  · exact (step.instruction.isBounded_of_mem_members member hmember).mono (Nat.zero_le _)

end StepScript
