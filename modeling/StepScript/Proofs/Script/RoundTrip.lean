import StepScript.Proofs.Json.RoundTrip
import StepScript.Script.Reader
import StepScript.Script.Writer

/-!
# Scripts are read back from their texts

The writer leaves out absent fields, and the reader fills them in; the reader takes the kind of a
step first and then the fields of that kind, wherever the writer has put them.
-/

namespace StepScript

open Json

/-! ## Instructions -/

theorem readOptional_ofJson {α : Type} {reader : Reader α} {value : Json} (hne : value ≠ .null)
    {result : α} (h : reader (.ofJson value) = .ok result) :
    readOptional reader (.ofJson value) = .ok (some result) := by
  cases value with
  | null => exact absurd rfl hne
  | _ =>
    rw [Document.ofJson] at h ⊢
    simp [readOptional, h, bind, Except.bind, pure, Except.pure]

theorem StepType.ofName?_name (type : StepType) : StepType.ofName? type.name = some type := by
  cases type <;> decide

theorem StepType.read_name (type : StepType) : StepType.read (.string type.name) = .ok type := by
  simp only [StepType.read, ofName?_name]

/-- A duration stays a number and a text stays a text, also one of digits. -/
theorem WaitTarget.read_toJson (target : WaitTarget) :
    WaitTarget.read (.ofJson target.toJson) = .ok target := by
  cases target with
  | duration millis => simp [toJson, Json.ofNat, Json.ofInt, Document.ofJson, WaitTarget.read]
  | element text => rfl

/-- The fields of an instruction have other names than the members of all steps. -/
theorem Instruction.key_of_mem_members (instruction : Instruction) :
    ∀ member ∈ instruction.members,
      member.1 ≠ "name" ∧ member.1 ≠ "options" ∧ member.1 ≠ "kind" := by
  cases instruction with
  | putParam key selector value => cases selector <;> cases value <;> simp [members, optionalMember]
  | wait target => cases target <;> simp [members, optionalMember]
  | _ => simp [members]

/-- A duration is an integer of 64 bits. -/
theorem WaitTarget.every_toJson (target : WaitTarget) :
    target.toJson.Every HasAscendingKeys ∧ target.toJson.Every IsLegible := by
  cases target with
  | duration millis =>
    have hlimit : millis.toNat < wordLimit := millis.toNat_lt
    have hleast : leastInteger ≤ 0 := by decide
    refine ⟨trivial, ?_, ?_⟩ <;> omega
  | element text => exact ⟨trivial, trivial⟩

theorem Instruction.every_of_mem_members (instruction : Instruction) :
    ∀ member ∈ instruction.members,
      member.2.Every HasAscendingKeys ∧ member.2.Every IsLegible := by
  cases instruction with
  | putParam key selector value =>
    cases selector <;> cases value <;>
      simp [members, optionalMember, HasAscendingKeys, IsLegible]
  | wait target =>
    cases target with
    | none => simp [members, optionalMember]
    | some target => simpa [members, optionalMember] using target.every_toJson
  | _ => simp [members, HasAscendingKeys, IsLegible]

/-- An instruction is read back from its members, whatever the kind of the step is given by. -/
theorem Instruction.read_members (instruction : Instruction) (kind : Document) :
    Instruction.read instruction.type (("kind", kind) :: Document.ofMembers instruction.members) =
      .ok instruction := by
  cases instruction with
  | putParam key selector value readFromText isExpression =>
    cases selector <;> cases value <;>
      simp [Instruction.read, type, members, optionalMember, Document.ofMembers, Document.ofJson,
        checkFields, StepType.fields, requiredField, defaultField, List.lookup_cons, checked,
        readString, readBool, readOptional, bind, Except.bind, pure, Except.pure]
  | wait target =>
    cases target with
    | none =>
      simp [Instruction.read, type, members, optionalMember, Document.ofMembers, checkFields,
        StepType.fields, defaultField, List.lookup_cons, bind, Except.bind, pure, Except.pure]
    | some target =>
      have hread : readOptional WaitTarget.read (.ofJson target.toJson) = .ok (some target) := by
        refine readOptional_ofJson ?_ target.read_toJson
        cases target <;> rintro ⟨⟩
      simp [Instruction.read, type, members, optionalMember, Document.ofMembers, checkFields,
        StepType.fields, defaultField, List.lookup_cons, checked, hread, bind, Except.bind, pure,
        Except.pure]
  | _ =>
    simp [Instruction.read, type, members, Document.ofMembers, Document.ofJson, checkFields,
      StepType.fields, requiredField, defaultField, List.lookup_cons, checked, readString, readBool,
      bind, Except.bind, pure, Except.pure]

/-! ## Steps -/

/-- The options of a step can be read back, if it has any: they are not null, and they hold no
object out of order and no number that is not read back. -/
def Step.IsStorable (step : Step) : Prop :=
  ∀ value, step.options = some value →
    value ≠ .null ∧ value.Every HasAscendingKeys ∧ value.Every IsLegible

namespace Step

variable {step : Step}

theorem IsStorable.every_toJson (h : step.IsStorable) : step.toJson.Every IsLegible := by
  have hinstruction := step.instruction.every_of_mem_members
  have hoptions : ∀ member ∈ optionalMember "options" step.options,
      member.2.Every IsLegible := by
    intro member hmember
    cases hvalue : step.options with
    | none => simp [hvalue, optionalMember] at hmember
    | some value =>
      obtain rfl : member = ("options", value) := by
        simpa [hvalue, optionalMember] using hmember
      exact (h value hvalue).2.2
  refine every_object.2 ⟨trivial, fun member hmember => ?_⟩
  simp only [members, List.mem_append, List.mem_cons, List.not_mem_nil, or_false] at hmember
  rcases hmember with (rfl | hmember) | rfl | hmember
  · trivial
  · exact hoptions member hmember
  · trivial
  · exact (hinstruction member hmember).2

/-- Members that are neither the name nor the options of a step are kept, last one first. -/
theorem Draft.foldlM_read_others {members : List (String × Json)} (draft : Draft)
    (h : ∀ member ∈ members,
      member.1 ≠ "name" ∧ member.1 ≠ "options" ∧ member.2.Every HasAscendingKeys) :
    (Document.ofMembers members).foldlM
        (fun (draft : Draft) member => draft.read member.1 member.2) draft =
      .ok { draft with others := (Document.ofMembers members).reverse ++ draft.others } := by
  induction members generalizing draft with
  | nil => rfl
  | cons member members ih =>
    obtain ⟨⟨hname, hoptions, hvalue⟩, hmembers⟩ := List.forall_mem_cons.1 h
    have hread : draft.read member.1 (.ofJson member.2) =
        .ok { draft with others := (member.1, .ofJson member.2) :: draft.others } := by
      simp [Draft.read, hname, hoptions, readJson, Document.toJson_ofJson hvalue, bind, Except.bind,
        pure, Except.pure]
    rw [Document.ofMembers, List.foldlM_cons, hread]
    show List.foldlM _ _ _ = _
    rw [ih _ hmembers]
    simp

theorem type_readFrom (instruction : Instruction) :
    StepType.readFrom (("kind", .string instruction.type.name) ::
      Document.ofMembers instruction.members) = .ok instruction.type := by
  have hfilter : (Document.ofMembers instruction.members).filter (·.1 == "kind") = [] := by
    rw [Document.ofMembers_eq_map, List.filter_eq_nil_iff]
    intro member hmember
    obtain ⟨field, hfield, rfl⟩ := List.mem_map.1 hmember
    simpa using (instruction.key_of_mem_members field hfield).2.2
  simp [StepType.readFrom, hfilter, StepType.read_name, bind, Except.bind, pure, Except.pure]

/-- What has been read of a step when all its members have been read. -/
theorem Draft.foldlM_read_members (h : ∀ value, step.options = some value →
      value ≠ .null ∧ value.Every HasAscendingKeys) :
    (Document.ofMembers step.members).foldlM
        (fun (draft : Draft) member => draft.read member.1 member.2) {} =
      .ok {
        name := some step.name
        options := step.options.map some
        others := (("kind", .string step.type.name) ::
          Document.ofMembers step.instruction.members).reverse } := by
  have hfront : (Document.ofMembers
        ([("name", .string step.name)] ++ optionalMember "options" step.options)).foldlM
          (fun (draft : Draft) member => draft.read member.1 member.2) {} =
        .ok { name := some step.name, options := step.options.map some } := by
    cases hvalue : step.options with
    | none => rfl
    | some value =>
      obtain ⟨hne, hkeys⟩ := h value hvalue
      have hjson : readJson (.ofJson value) = .ok value := by
        rw [readJson, Document.toJson_ofJson hkeys]
      simp [optionalMember, Document.ofMembers, Document.ofJson, Draft.read, readString,
        readOptional_ofJson hne hjson, bind, Except.bind, pure, Except.pure]
  have hothers : ∀ member ∈ ("kind", Json.string step.type.name) :: step.instruction.members,
      member.1 ≠ "name" ∧ member.1 ≠ "options" ∧ member.2.Every HasAscendingKeys := by
    refine List.forall_mem_cons.2 ⟨⟨by simp, by simp, trivial⟩, fun member hmember => ?_⟩
    obtain ⟨hname, hoptions, -⟩ := step.instruction.key_of_mem_members member hmember
    exact ⟨hname, hoptions, (step.instruction.every_of_mem_members member hmember).1⟩
  -- The name and the options are read where they stand, and the rest is kept for the end.
  rw [members, Document.ofMembers_eq_map, List.map_append, List.foldlM_append,
    ← Document.ofMembers_eq_map, ← Document.ofMembers_eq_map, hfront]
  exact (foldlM_read_others _ hothers).trans (by simp [Document.ofMembers, Document.ofJson])

theorem read_toJson (h : ∀ value, step.options = some value →
      value ≠ .null ∧ value.Every HasAscendingKeys) :
    Step.read (.ofJson step.toJson) = .ok step := by
  have hjoin : (step.options.map some).join = step.options := by cases step.options <;> rfl
  rw [toJson, Document.ofJson, Step.read, Draft.foldlM_read_members h]
  simp only [bind, Except.bind, noFault, Draft.finish, List.reverse_reverse, hjoin]
  simp [type, type_readFrom, step.instruction.read_members, pure, Except.pure]

end Step

/-! ## Scripts -/

theorem Step.readList_toJson {steps : List Step} (h : ∀ step ∈ steps, step.IsStorable) :
    readList Step.read (.ofJson (.array (steps.map Step.toJson))) = .ok steps := by
  have hmap : (Document.ofItems (steps.map Step.toJson)).mapM Step.read = .ok steps := by
    induction steps with
    | nil => rfl
    | cons step steps ih =>
      obtain ⟨hstep, hsteps⟩ := List.forall_mem_cons.1 h
      have hread := Step.read_toJson fun value hvalue =>
        ⟨(hstep value hvalue).1, (hstep value hvalue).2.1⟩
      rw [List.map_cons, Document.ofItems, List.mapM_cons, hread, ih hsteps]
      rfl
  rw [Document.ofJson, readList, hmap]
  rfl

theorem Script.read_toJson {script : Script} (h : ∀ step ∈ script.steps, step.IsStorable) :
    Script.read .text (.ofJson script.toJson) = .ok script := by
  have hsteps : Draft.read { name := some script.name } "steps"
      (.ofJson (.array (script.steps.map Step.toJson))) =
        .ok { name := some script.name, steps := some script.steps } := by
    simp [Draft.read, Step.readList_toJson h, bind, Except.bind, pure, Except.pure]
  have hname : Draft.read {} "name" (.string script.name) = .ok { name := some script.name } := rfl
  simp only [toJson, Document.ofJson, Document.ofMembers, Script.read, List.foldlM_cons,
    List.foldlM_nil, hname] at hsteps ⊢
  simp [hsteps, noFault, bind, Except.bind, pure, Except.pure]

theorem Step.parse_render {step : Step} (h : step.IsStorable) (hdepth : step.toJson.depth < 128) :
    Step.parse step.toJson.render = .ok step := by
  have hscan := (scans_of_legible h.every_toJson).scan_render (Nat.le_of_lt_succ hdepth)
  have hread := Step.read_toJson fun value hvalue => ⟨(h value hvalue).1, (h value hvalue).2.1⟩
  rw [Step.parse, hscan, Scan.read, hread]
  rfl

theorem Script.parse_render {script : Script} (h : ∀ step ∈ script.steps, step.IsStorable)
    (hdepth : script.toJson.depth < 128) : Script.parse script.toJson.render = .ok script := by
  have hsteps : ∀ item ∈ script.steps.map Step.toJson, item.Scans := by
    intro item hitem
    obtain ⟨step, hstep, rfl⟩ := List.mem_map.1 hitem
    exact scans_of_legible (h step hstep).every_toJson
  have hscan : scanKnown ["name", "steps"] script.toJson.render = ⟨.ofJson script.toJson, none⟩ :=
    scanKnown_render (by simp) (List.forall_mem_cons.2
      ⟨scans_string script.name, List.forall_mem_singleton.2 (scans_array hsteps)⟩)
      (Nat.le_of_lt_succ hdepth)
  rw [Script.parse, hscan, Scan.read, Script.read_toJson h]
  rfl

/-- Scripts and steps are read back from their texts: every kind of step with every combination of
its fields, every duration and every text, and every options that are not null and hold no number
that is lost, as long as fewer than 128 lists and objects are open at once. -/
theorem Script.text_roundTrip :
    (∀ script : Script, (∀ step ∈ script.steps, step.IsStorable) → script.toJson.depth < 128 →
      Script.parse script.toJson.render = .ok script) ∧
    (∀ step : Step, step.IsStorable → step.toJson.depth < 128 →
      Step.parse step.toJson.render = .ok step) :=
  ⟨fun _ => Script.parse_render, fun _ => Step.parse_render⟩

/-! A script whose texts need escapes, with options of all shapes, with the longest wait and with a
wait for an element that is named by digits. -/

def half : Binary64.Finite := ⟨false, twoTo 1073, by decide +kernel⟩

theorem isLegible_half : IsLegible (.number (.real half)) :=
  isLegible_real_iff.2 ⟨'0', ['.', '5'], by decide +kernel, .inr rfl, by decide +kernel⟩

def launchOptions : Json :=
  .object [("args", .array [.string "--lang=\"ö\"", .null, .bool true, .object []]),
    ("ratio", .number (.real half)), ("seed", .ofInt (-9223372036854775808))]

theorem every_launchOptions :
    launchOptions.Every HasAscendingKeys ∧ launchOptions.Every IsLegible := by
  have hkeys : HasAscendingKeys launchOptions := by
    unfold launchOptions HasAscendingKeys
    decide +kernel
  have hseed : IsLegible (.ofInt (-9223372036854775808)) := by
    constructor <;> decide
  constructor
  · refine every_object.2 ⟨hkeys, ?_⟩
    simp [ofInt, HasAscendingKeys, Dictionary.Ascending]
  · simp only [launchOptions, every_object, every_array, List.forall_mem_cons]
    exact ⟨trivial, ⟨trivial, trivial, trivial, trivial, ⟨trivial, List.forall_mem_nil _⟩,
      List.forall_mem_nil _⟩, isLegible_half, hseed, List.forall_mem_nil _⟩

def launch : Step where
  name := "open\t\x01"
  options := some launchOptions
  instruction := .openBrowser

def visit : Script where
  name := "visit"
  steps := [launch,
    { name := "", instruction := .putParam "n" none (some "1+${n}") false true },
    { name := "long", instruction := .wait (some (.duration 18446744073709551615)) },
    { name := "short", instruction := .wait (some (.element "250")) }]

theorem isStorable_launch : launch.IsStorable := by
  rintro _ ⟨⟩
  exact ⟨nofun, every_launchOptions⟩

theorem visit_roundTrip :
    Script.parse visit.toJson.render = .ok visit ∧ Step.parse launch.toJson.render = .ok launch := by
  have hsteps : ∀ step ∈ visit.steps, step.IsStorable := by
    refine List.forall_mem_cons.2 ⟨isStorable_launch, ?_⟩
    simp [Step.IsStorable]
  exact ⟨Script.text_roundTrip.1 visit hsteps (by decide),
    Script.text_roundTrip.2 launch isStorable_launch (by decide)⟩

end StepScript
