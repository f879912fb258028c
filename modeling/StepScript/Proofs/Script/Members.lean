import StepScript.Proofs.Json.Derivations
import StepScript.Proofs.Script.Bounds

/-!
# Members of steps

What is read of a step depends on the values under the keys that its kind knows, and on nothing else
about its members: not on their order, and not on members with other keys, as long as they can be
read at all.
-/

namespace StepScript

open Json

/-! ## Values under a key -/

namespace Json

/-- The values under a key, in the order of the members. -/
def valuesOf (key : String) (members : List (String × Document)) : List Document :=
  (members.filter (·.1 == key)).map (·.2)

section

variable {key : String} {document : Document} {members others : List (String × Document)}

@[simp]
theorem valuesOf_nil (key : String) : valuesOf key [] = [] := rfl

@[simp]
theorem valuesOf_cons_self (key : String) (document : Document)
    (members : List (String × Document)) :
    valuesOf key ((key, document) :: members) = document :: valuesOf key members := by
  simp [valuesOf]

theorem valuesOf_cons_of_ne {other : String} (h : other ≠ key) (document : Document)
    (members : List (String × Document)) :
    valuesOf key ((other, document) :: members) = valuesOf key members := by
  simp [valuesOf, h]

theorem valuesOf_append (key : String) (members others : List (String × Document)) :
    valuesOf key (members ++ others) = valuesOf key members ++ valuesOf key others := by
  simp [valuesOf]

theorem valuesOf_eq_nil (h : ∀ member ∈ members, member.1 ≠ key) : valuesOf key members = [] := by
  simpa [valuesOf, List.filter_eq_nil_iff] using fun k d hmember => h (k, d) hmember

theorem valuesOf_perm (key : String) (h : members.Perm others) :
    (valuesOf key members).Perm (valuesOf key others) :=
  (h.filter _).map _

/-- Leaving out other members changes nothing. -/
theorem valuesOf_filter {keep : String × Document → Bool}
    (h : ∀ member, member.1 = key → keep member = true) :
    valuesOf key (members.filter keep) = valuesOf key members := by
  rw [valuesOf, List.filter_filter, valuesOf]
  congr 1
  refine List.filter_congr fun member _ => ?_
  by_cases hkey : member.1 = key
  · simp [hkey, h member hkey]
  · simp [hkey]

theorem lookup_eq_head? (key : String) (members : List (String × Document)) :
    members.lookup key = (valuesOf key members).head? := by
  induction members with
  | nil => rfl
  | cons member members ih =>
    obtain ⟨other, document⟩ := member
    by_cases hkey : key = other
    · subst hkey
      simp
    · rw [List.lookup_cons, beq_eq_false_iff_ne.2 hkey, valuesOf_cons_of_ne (Ne.symm hkey)]
      exact ih

end

/-! ## Fields -/

section

variable {fields : List (String × Reader Unit)} {members others : List (String × Document)}

/-- The check of one member. -/
theorem checkFields_cons {seen : List String} {key : String} {document : Document}
    {check : Reader Unit} (hlookup : fields.lookup key = some check) :
    checkFields fields seen ((key, document) :: members) = .ok () ↔
      key ∉ seen ∧ check document = .ok () ∧ checkFields fields (key :: seen) members = .ok () := by
  rw [checkFields, hlookup]
  by_cases hseen : key ∈ seen
  · simp [hseen, misfit, bind, Except.bind]
  · simp only [List.contains_eq_mem, hseen, decide_false, Bool.false_eq_true, if_false]
    constructor
    · intro h
      obtain ⟨⟨⟩, hcheck, h⟩ := exists_of_bind_eq_ok h
      exact ⟨not_false, hcheck, h⟩
    · rintro ⟨-, hcheck, h⟩
      rw [hcheck]
      exact h

/-- The fields pass the check exactly if each stands there once at most and holds what it should. -/
theorem checkFields_eq_ok_iff {seen : List String} :
    checkFields fields seen members = .ok () ↔
      ∀ key check, fields.lookup key = some check →
        (∀ document ∈ valuesOf key members, check document = .ok ()) ∧
          (valuesOf key members).length + (if key ∈ seen then 1 else 0) ≤ 1 := by
  induction members generalizing seen with
  | nil =>
    refine ⟨fun _ key check _ => ⟨List.forall_mem_nil _, ?_⟩, fun _ => rfl⟩
    split <;> simp
  | cons member members ih =>
    obtain ⟨key, document⟩ := member
    cases hlookup : fields.lookup key with
    | none =>
      rw [checkFields, hlookup, ih]
      refine forall_congr' fun other => forall_congr' fun check => imp_congr_right fun hother => ?_
      have hne : key ≠ other := by
        rintro rfl
        cases hlookup.symm.trans hother
      rw [valuesOf_cons_of_ne hne]
    | some check =>
      rw [checkFields_cons hlookup, ih]
      constructor
      · rintro ⟨hseen, hcheck, hothers⟩ other check' hother
        by_cases hkey : key = other
        · subst hkey
          obtain rfl := Option.some.inj (hlookup.symm.trans hother)
          obtain ⟨hchecks, hlength⟩ := hothers key check hlookup
          simp only [List.mem_cons_self, if_true] at hlength
          rw [valuesOf_cons_self, List.length_cons, if_neg hseen]
          exact ⟨List.forall_mem_cons.2 ⟨hcheck, hchecks⟩, by omega⟩
        · simpa [valuesOf_cons_of_ne hkey, Ne.symm hkey] using hothers other check' hother
      · intro h
        obtain ⟨hchecks, hlength⟩ := h key check hlookup
        rw [valuesOf_cons_self] at hchecks hlength
        obtain ⟨hcheck, hchecks⟩ := List.forall_mem_cons.1 hchecks
        rw [List.length_cons] at hlength
        have hseen : key ∉ seen := by
          intro hseen
          rw [if_pos hseen] at hlength
          omega
        refine ⟨hseen, hcheck, fun other check' hother => ?_⟩
        by_cases hkey : key = other
        · subst hkey
          obtain rfl := Option.some.inj (hlookup.symm.trans hother)
          simp only [List.mem_cons_self, if_true]
          exact ⟨hchecks, by omega⟩
        · simpa [valuesOf_cons_of_ne hkey, Ne.symm hkey] using h other check' hother

/-- The check looks at the values of the fields only. -/
theorem checkFields_congr (h : ∀ key ∈ fields.map (·.1), valuesOf key others = valuesOf key members)
    (hcheck : checkFields fields [] members = .ok ()) : checkFields fields [] others = .ok () := by
  rw [checkFields_eq_ok_iff] at hcheck ⊢
  intro key check hlookup
  obtain ⟨front, back, hfields, -⟩ := List.lookup_eq_some_iff.1 hlookup
  rw [h key (by simp [hfields])]
  exact hcheck key check hlookup

/-- No field that has been checked stands there twice. -/
theorem length_valuesOf_le_of_checkFields (hcheck : checkFields fields [] members = .ok ()) :
    ∀ key ∈ fields.map (·.1), (valuesOf key members).length ≤ 1 := by
  intro key hkey
  obtain ⟨field, hfield, rfl⟩ := List.mem_map.1 hkey
  cases hlookup : fields.lookup field.1 with
  | none => simpa using List.lookup_eq_none_iff.1 hlookup field hfield
  | some check => exact (checkFields_eq_ok_iff.1 hcheck field.1 check hlookup).2

variable {α : Type} {key : String}

theorem requiredField_congr (h : valuesOf key others = valuesOf key members) (reader : Reader α) :
    requiredField key reader others = requiredField key reader members := by
  rw [requiredField, requiredField, lookup_eq_head?, lookup_eq_head?, h]

theorem defaultField_congr (h : valuesOf key others = valuesOf key members) (reader : Reader α)
    (default : α) :
    defaultField key reader default others = defaultField key reader default members := by
  rw [defaultField, defaultField, lookup_eq_head?, lookup_eq_head?, h]

end

end Json

/-! ## Instructions -/

section

variable {members others : List (String × Document)} {type : StepType} {instruction : Instruction}

/-- An instruction is read from the values of its fields. -/
theorem Instruction.read_congr
    (h : ∀ key ∈ type.fields.map (·.1), valuesOf key others = valuesOf key members)
    (hread : Instruction.read type members = .ok instruction) :
    Instruction.read type others = .ok instruction := by
  unfold Instruction.read at hread ⊢
  obtain ⟨⟨⟩, hcheck, hread⟩ := exists_of_bind_eq_ok hread
  rw [checkFields_congr h hcheck]
  cases type with
  | openBrowser | closeBrowser | elseMarker | endIf | endWhile => exact hread
  | openPage | ifGuard | whileGuard =>
    have hfield := requiredField_congr (h _ (.head _)) readString
    simp only [hfield]
    exact hread
  | inputText =>
    have hselector := requiredField_congr (h _ (.head _)) readString
    have htext := requiredField_congr (h _ (.tail _ (.head _))) readString
    have happend := defaultField_congr (h _ (.tail _ (.tail _ (.head _)))) readBool false
    simp only [hselector, htext, happend]
    exact hread
  | putParam =>
    have hfield : ∀ key ∈ ["key", "selector", "value", "readFromText", "isExpression"],
        valuesOf key others = valuesOf key members := h
    simp only [List.forall_mem_cons] at hfield
    obtain ⟨hkey, hselector, hvalue, hreadFromText, hisExpression, -⟩ := hfield
    simp only [requiredField_congr hkey, defaultField_congr hselector, defaultField_congr hvalue,
      defaultField_congr hreadFromText, defaultField_congr hisExpression]
    exact hread
  | wait =>
    have htarget := defaultField_congr (h _ (.head _)) (readOptional WaitTarget.read) none
    simp only [htarget]
    exact hread

theorem Instruction.type_of_read (hread : Instruction.read type members = .ok instruction) :
    instruction.type = type := by
  unfold Instruction.read at hread
  obtain ⟨-, -, hread⟩ := exists_of_bind_eq_ok hread
  cases type with
  | openBrowser | closeBrowser | elseMarker | endIf | endWhile =>
    cases hread
    rfl
  | openPage | ifGuard | whileGuard | wait =>
    obtain ⟨_, -, hread⟩ := exists_of_bind_eq_ok hread
    cases hread
    rfl
  | inputText =>
    obtain ⟨_, -, hread⟩ := exists_of_bind_eq_ok hread
    obtain ⟨_, -, hread⟩ := exists_of_bind_eq_ok hread
    obtain ⟨_, -, hread⟩ := exists_of_bind_eq_ok hread
    cases hread
    rfl
  | putParam =>
    obtain ⟨_, -, hread⟩ := exists_of_bind_eq_ok hread
    obtain ⟨_, -, hread⟩ := exists_of_bind_eq_ok hread
    obtain ⟨_, -, hread⟩ := exists_of_bind_eq_ok hread
    obtain ⟨_, -, hread⟩ := exists_of_bind_eq_ok hread
    obtain ⟨_, -, hread⟩ := exists_of_bind_eq_ok hread
    cases hread
    rfl

/-- The kind is read from the values under its key, of which there must be one. -/
theorem StepType.readFrom_eq (members : List (String × Document)) :
    StepType.readFrom members = (match valuesOf "kind" members with
      | [] => misfit (.missingField "kind")
      | document :: others => do
        let type ← StepType.read document
        if others.isEmpty then return type else misfit (.duplicateField "kind")) := by
  rw [StepType.readFrom, valuesOf]
  cases members.filter (·.1 == "kind") with
  | nil => rfl
  | cons member others => cases others <;> rfl

theorem StepType.length_valuesOf_le_of_readFrom (h : StepType.readFrom members = .ok type) :
    (valuesOf "kind" members).length ≤ 1 := by
  rw [readFrom_eq] at h
  split at h
  · next hnil =>
    rw [hnil]
    exact Nat.zero_le 1
  · next document others hvalues =>
    obtain ⟨found, -, h⟩ := exists_of_bind_eq_ok h
    cases others with
    | nil => rw [hvalues]; exact Nat.le_refl 1
    | cons => cases h

end

/-! ## Steps -/

/-- What is known of a field that is read at most once, after some more values of it. -/
def Json.slotAfter {α : Type} (reader : Reader α) : Option α → List Document → Option (Option α)
  | slot, [] => some slot
  | none, document :: documents =>
    match reader document with
    | .ok value => slotAfter reader (some value) documents
    | .error _ => none
  | some _, _ :: _ => none

theorem Json.length_le_of_slotAfter {α : Type} {reader : Reader α} {documents : List Document}
    {after : Option α} (h : slotAfter reader none documents = some after) :
    documents.length ≤ 1 := by
  cases documents with
  | nil => exact Nat.zero_le 1
  | cons document documents =>
    rw [slotAfter] at h
    split at h
    · cases documents with
      | nil => exact Nat.le_refl 1
      | cons next documents => cases h
    · cases h

/-- Neither the name nor the options of a step. -/
def Step.IsOther (member : String × Document) : Bool := member.1 ≠ "name" && member.1 ≠ "options"

namespace Step

theorem readJson_eq_ok_iff {document : Document} :
    (∃ value, readJson document = .ok value) ↔ document.IsSound := by
  constructor
  · rintro ⟨value, h⟩
    unfold readJson at h
    split at h
    · next hvalue => exact ⟨_, hvalue⟩
    · cases h
  · rintro ⟨value, h⟩
    exact ⟨value, by rw [readJson, h]⟩

/-- Members are read in any order: the name and the options are filled in, the others are kept. -/
theorem Draft.foldlM_read_iff {members : List (String × Document)} {before after : Draft} :
    members.foldlM (fun (draft : Draft) member => draft.read member.1 member.2) before = .ok after ↔
      slotAfter readString before.name (valuesOf "name" members) = some after.name ∧
      slotAfter (readOptional readJson) before.options (valuesOf "options" members) =
        some after.options ∧
      (∀ member ∈ members, IsOther member = true → member.2.IsSound) ∧
      after.others = (members.filter IsOther).reverse ++ before.others := by
  induction members generalizing before with
  | nil =>
    obtain ⟨name, options, others⟩ := before
    obtain ⟨name', options', others'⟩ := after
    simp only [List.foldlM_nil, pure, Except.pure, Except.ok.injEq, Draft.mk.injEq, valuesOf_nil,
      slotAfter, Option.some.injEq, List.filter_nil, List.reverse_nil, List.nil_append]
    exact ⟨fun ⟨hname, hoptions, hothers⟩ => ⟨hname, hoptions, List.forall_mem_nil _, hothers.symm⟩,
      fun ⟨hname, hoptions, _, hothers⟩ => ⟨hname, hoptions, hothers.symm⟩⟩
  | cons member members ih =>
    obtain ⟨key, document⟩ := member
    obtain ⟨name, options, others⟩ := before
    rw [List.foldlM_cons]
    by_cases hname : key = "name"
    · subst hname
      rw [valuesOf_cons_self, valuesOf_cons_of_ne (by decide)]
      cases name with
      | some name => simp [Draft.read, slotAfter, misfit, bind, Except.bind]
      | none =>
        cases hread : readString document with
        | error cause => simp [Draft.read, slotAfter, hread, bind, Except.bind]
        | ok name =>
          have hstep : Draft.read ⟨none, options, others⟩ "name" document =
              .ok ⟨some name, options, others⟩ := by
            simp [Draft.read, hread, bind, Except.bind, pure, Except.pure]
          rw [hstep]
          exact ih.trans (by simp [slotAfter, hread, IsOther])
    by_cases hoptions : key = "options"
    · subst hoptions
      rw [valuesOf_cons_self, valuesOf_cons_of_ne (by decide)]
      cases options with
      | some options => simp [Draft.read, slotAfter, misfit, bind, Except.bind]
      | none =>
        cases hread : readOptional readJson document with
        | error cause => simp [Draft.read, slotAfter, hread, bind, Except.bind]
        | ok options =>
          have hstep : Draft.read ⟨name, none, others⟩ "options" document =
              .ok ⟨name, some options, others⟩ := by
            simp [Draft.read, hread, bind, Except.bind, pure, Except.pure]
          rw [hstep]
          exact ih.trans (by simp [slotAfter, hread, IsOther])
    · rw [valuesOf_cons_of_ne hname, valuesOf_cons_of_ne hoptions]
      have hother : IsOther (key, document) = true := by simp [IsOther, hname, hoptions]
      cases hread : readJson document with
      | error cause =>
        have hsound : ¬ document.IsSound := by
          intro hsound
          obtain ⟨value, hvalue⟩ := readJson_eq_ok_iff.2 hsound
          cases hread.symm.trans hvalue
        simp [Draft.read, hread, hname, hoptions, bind, Except.bind, hother, hsound]
      | ok value =>
        have hsound : document.IsSound := readJson_eq_ok_iff.1 ⟨value, hread⟩
        have hstep : Draft.read ⟨name, options, others⟩ key document =
            .ok ⟨name, options, (key, document) :: others⟩ := by
          simp [Draft.read, hread, hname, hoptions, bind, Except.bind, pure, Except.pure]
        rw [hstep]
        exact ih.trans (by simp [hother, hsound])

/-- A step is read from an object if its members are, and it is complete then. -/
theorem read_object_iff {members : List (String × Document)} {step : Step} :
    Step.read (.object members none) = .ok step ↔
      ∃ options, slotAfter readString none (valuesOf "name" members) = some (some step.name) ∧
        slotAfter (readOptional readJson) none (valuesOf "options" members) = some options ∧
        options.join = step.options ∧
        (∀ member ∈ members, IsOther member = true → member.2.IsSound) ∧
        StepType.readFrom (members.filter IsOther) = .ok step.type ∧
        Instruction.read step.type (members.filter IsOther) = .ok step.instruction := by
  constructor
  · intro h
    obtain ⟨draft, hdraft, h⟩ := exists_of_bind_eq_ok h
    obtain ⟨_, -, h⟩ := exists_of_bind_eq_ok h
    obtain ⟨hname, hoptions, hsound, hothers⟩ := Draft.foldlM_read_iff.1 hdraft
    unfold Draft.finish at h
    split at h
    · cases h
    · next name hname' =>
      rw [hothers, List.append_nil, List.reverse_reverse] at h
      obtain ⟨type, htype, h⟩ := exists_of_bind_eq_ok h
      obtain ⟨instruction, hinstruction, h⟩ := exists_of_bind_eq_ok h
      cases h
      obtain rfl : instruction.type = type := Instruction.type_of_read hinstruction
      exact ⟨draft.options, hname.trans (congrArg some hname'), hoptions, rfl, hsound, htype,
        hinstruction⟩
  · rintro ⟨options, hname, hoptions, hjoin, hsound, htype, hinstruction⟩
    have hdraft : members.foldlM (fun (draft : Draft) member => draft.read member.1 member.2) {} =
        .ok ⟨some step.name, options, (members.filter IsOther).reverse⟩ :=
      Draft.foldlM_read_iff.2 ⟨hname, hoptions, hsound, (List.append_nil _).symm⟩
    rw [Step.read, hdraft]
    simp only [bind, Except.bind, noFault, Draft.finish, List.reverse_reverse, htype, hjoin,
      hinstruction]
    rfl

end Step

/-! ## Which members count -/

/-- The keys that the steps of a type know. -/
def StepType.memberNames (type : StepType) : List String :=
  "name" :: "options" :: "kind" :: type.fields.map (·.1)

/-- The kind and the fields of an instruction have other keys than the name and the options. -/
theorem StepType.isOther_of_mem {type : StepType} {key : String}
    (h : key ∈ "kind" :: type.fields.map (·.1)) (document : Document) :
    Step.IsOther (key, document) = true := by
  have hall : ∀ key ∈ "kind" :: type.fields.map (·.1), key ≠ "name" ∧ key ≠ "options" := by
    cases type <;> simp [StepType.fields]
  simpa [Step.IsOther] using hall key h

namespace Step

variable {members others : List (String × Document)} {step : Step}

theorem valuesOf_filter_isOther {type : StepType} {key : String}
    (h : key ∈ "kind" :: type.fields.map (·.1)) (members : List (String × Document)) :
    valuesOf key (members.filter IsOther) = valuesOf key members := by
  refine valuesOf_filter fun member hkey => ?_
  obtain ⟨_, document⟩ := member
  obtain rfl : _ = key := hkey
  exact StepType.isOther_of_mem h document

/-- No member that counts stands there twice. -/
theorem length_valuesOf_le (h : Step.read (.object members none) = .ok step) :
    ∀ key ∈ step.type.memberNames, (valuesOf key members).length ≤ 1 := by
  obtain ⟨options, hname, hoptions, -, -, htype, hinstruction⟩ := read_object_iff.1 h
  have hfields : ∀ key ∈ "kind" :: step.type.fields.map (·.1),
      (valuesOf key (members.filter IsOther)).length ≤ 1 := by
    rw [List.forall_mem_cons]
    refine ⟨StepType.length_valuesOf_le_of_readFrom htype, ?_⟩
    obtain ⟨⟨⟩, hcheck, -⟩ := exists_of_bind_eq_ok hinstruction
    exact length_valuesOf_le_of_checkFields hcheck
  rw [StepType.memberNames, List.forall_mem_cons, List.forall_mem_cons]
  refine ⟨length_le_of_slotAfter hname, length_le_of_slotAfter hoptions, fun key hkey => ?_⟩
  rw [← valuesOf_filter_isOther hkey]
  exact hfields key hkey

/-- A step is read from the values under the keys that it knows, if the other members can be read. -/
theorem read_congr (h : Step.read (.object members none) = .ok step)
    (hvalues : ∀ key ∈ step.type.memberNames, valuesOf key others = valuesOf key members)
    (hsound : ∀ member ∈ others, member.2.IsSound) :
    Step.read (.object others none) = .ok step := by
  obtain ⟨options, hname, hoptions, hjoin, -, htype, hinstruction⟩ := read_object_iff.1 h
  rw [StepType.memberNames, List.forall_mem_cons, List.forall_mem_cons] at hvalues
  obtain ⟨hnames, hoptionss, hfields⟩ := hvalues
  have hothers : ∀ key ∈ "kind" :: step.type.fields.map (·.1),
      valuesOf key (others.filter IsOther) = valuesOf key (members.filter IsOther) := by
    intro key hkey
    rw [valuesOf_filter_isOther hkey, valuesOf_filter_isOther hkey]
    exact hfields key hkey
  obtain ⟨hkind, hothers⟩ := List.forall_mem_cons.1 hothers
  refine read_object_iff.2 ⟨options, by rw [hnames, hname], by rw [hoptionss, hoptions], hjoin,
    fun member hmember _ => hsound member hmember, ?_, Instruction.read_congr hothers hinstruction⟩
  rw [StepType.readFrom_eq, hkind, ← StepType.readFrom_eq]
  exact htype

/-! ## Texts of steps -/

theorem mem_valuesOf {member : String × Document} (h : member ∈ members) :
    member.2 ∈ valuesOf member.1 members :=
  List.mem_map.2 ⟨member, List.mem_filter.2 ⟨h, beq_self_eq_true _⟩, rfl⟩

theorem isSound_of_slotAfter {α : Type} {reader : Reader α} {slot after : Option α}
    {documents : List Document}
    (hreader : ∀ document value, reader document = .ok value → document.IsSound)
    (h : slotAfter reader slot documents = some after) :
    ∀ document ∈ documents, document.IsSound := by
  induction documents generalizing slot with
  | nil => exact List.forall_mem_nil _
  | cons document documents ih =>
    cases slot with
    | some value => cases h
    | none =>
      rw [slotAfter] at h
      split at h
      · next value hread => exact List.forall_mem_cons.2 ⟨hreader document value hread, ih h⟩
      · cases h

theorem isSound_of_readString {document : Document} {value : String}
    (h : readString document = .ok value) : document.IsSound := by
  unfold readString at h
  split at h
  · exact ⟨_, rfl⟩
  · exact absurd h (wrongType_ne_ok _ _ _)

theorem isSound_of_readOptional {document : Document} {value : Option Json}
    (h : readOptional readJson document = .ok value) : document.IsSound := by
  unfold readOptional at h
  split at h
  · exact ⟨_, rfl⟩
  · obtain ⟨read, hread, -⟩ := exists_of_bind_eq_ok h
    exact readJson_eq_ok_iff.1 ⟨read, hread⟩

/-- A step is read from an object without faults only. -/
theorem exists_of_read {document : Document} (h : Step.read document = .ok step) :
    ∃ members, document = .object members none ∧ document.IsSound := by
  unfold Step.read at h
  split at h
  · next members fault =>
    obtain ⟨draft, hdraft, h⟩ := exists_of_bind_eq_ok h
    obtain ⟨_, hfault, -⟩ := exists_of_bind_eq_ok h
    obtain rfl : fault = none := by
      cases fault with
      | none => rfl
      | some cause => cases hfault
    obtain ⟨hname, hoptions, hothers, -⟩ := Draft.foldlM_read_iff.1 hdraft
    refine ⟨members, rfl, Document.isSound_object_iff.2 ⟨rfl, fun member hmember => ?_⟩⟩
    obtain ⟨key, value⟩ := member
    by_cases hkey : key = "name"
    · subst hkey
      exact isSound_of_slotAfter (fun _ _ => isSound_of_readString) hname _ (mem_valuesOf hmember)
    by_cases hkey' : key = "options"
    · subst hkey'
      exact isSound_of_slotAfter (fun _ _ => isSound_of_readOptional) hoptions _
        (mem_valuesOf hmember)
    · exact hothers _ hmember (by simp [IsOther, hkey, hkey'])
  · exact absurd h (wrongType_ne_ok _ _ _)

/-- The text of a step is the text of an object. -/
theorem exists_objectText_of_parse {text : String} (h : Step.parse text = .ok step) :
    ∃ members : List (Member (nestingLimit - 1)), ObjectText members text.toList := by
  obtain ⟨read, hread, h⟩ := exists_of_bind_eq_ok h
  split at h
  · cases h
  · next hafter =>
    obtain ⟨found, hdocument, hsound⟩ := exists_of_read hread
    have htext : ValueText (nestingLimit - 1 + 1) (scan text).document text.toList :=
      valueText_of_scan (by rw [← hafter]) hsound
    rw [hdocument] at htext
    obtain ⟨members, hmembers, -⟩ := exists_objectText htext
    exact ⟨members, hmembers⟩

/-- What is read from the text of an object is read from its members. -/
theorem parse_objectText {text : String} {members : List (Member (nestingLimit - 1))}
    (h : ObjectText members text.toList) :
    Step.parse text = Step.read (.object (entries members) none) := by
  have hscan : scan text = ⟨.object (entries members) none, none⟩ := h.valueText.scan_eq
  rw [Step.parse, hscan, Scan.read]
  cases Step.read (.object (entries members) none) <;> rfl

theorem isSound_of_mem_entries {levels : Nat} {members : List (Member levels)} :
    ∀ entry ∈ entries members, entry.2.IsSound := by
  intro entry hentry
  obtain ⟨member, -, rfl⟩ := List.mem_map.1 hentry
  exact member.spelled.2.isSound

/-- Members of which none counts twice may change their places, and others may join them that do
not count. -/
theorem valuesOf_entries {levels : Nat} {members extra others : List (Member levels)} {key : String}
    (hperm : others.Perm (members ++ extra)) (hextra : ∀ member ∈ extra, member.key ≠ key)
    (honce : (valuesOf key (entries members)).length ≤ 1) :
    valuesOf key (entries others) = valuesOf key (entries members) := by
  have hnone : valuesOf key (entries extra) = [] := by
    refine valuesOf_eq_nil fun entry hentry => ?_
    obtain ⟨member, hmember, rfl⟩ := List.mem_map.1 hentry
    exact hextra member hmember
  have hvalues : (valuesOf key (entries others)).Perm (valuesOf key (entries members)) := by
    have hentries := valuesOf_perm key (hperm.map (·.entry))
    rw [List.map_append, valuesOf_append] at hentries
    rwa [entries, entries, ← List.append_nil (valuesOf key (members.map _)), ← hnone]
  cases hmembers : valuesOf key (entries members) with
  | nil =>
    rw [hmembers] at hvalues
    exact hvalues.eq_nil
  | cons document documents =>
    rw [hmembers] at hvalues honce
    obtain rfl : documents = [] :=
      List.eq_nil_of_length_eq_zero (Nat.le_zero.1 (Nat.le_of_succ_le_succ honce))
    exact List.perm_singleton.1 hvalues

/-- The text of a step consists of members, which may change their places. Other members may be put
between them if the type of the step does not know their keys and their values are in the grammar,
with as many lists and objects open at once as the text allows. The step stays the same. -/
theorem parse_rearranged {text : String} (h : Step.parse text = .ok step) :
    (∃ members : List (Member (nestingLimit - 1)), ObjectText members text.toList) ∧
    ∀ (members extra others : List (Member (nestingLimit - 1))) (text' : String),
      ObjectText members text.toList → others.Perm (members ++ extra) →
      (∀ member ∈ extra, member.key ∉ step.type.memberNames) → ObjectText others text'.toList →
        Step.parse text' = .ok step := by
  refine ⟨exists_objectText_of_parse h,
    fun members extra others text' hmembers hperm hextra hothers => ?_⟩
  rw [parse_objectText hmembers] at h
  rw [parse_objectText hothers]
  refine read_congr h (fun key hkey => ?_) isSound_of_mem_entries
  refine valuesOf_entries hperm (fun member hmember heq => ?_) (length_valuesOf_le h key hkey)
  exact hextra member hmember (heq ▸ hkey)

def note : Step := { name := "note", instruction := .elseMarker }

/-- The members of its text, and one that its type does not know. -/
def noteName : Member (nestingLimit - 1) :=
  ⟨⟨"name", "\"name\"".toList, .string "note", "\"note\"".toList⟩,
    .quoted .nil .nil (.of_plain rfl),
    .string (StringText.of_plain rfl : StringText "note".toList _)⟩

@[inherit_doc noteName]
def noteKind : Member (nestingLimit - 1) :=
  ⟨⟨"kind", "\"kind\"".toList, .string "Else", "\"Else\"".toList⟩,
    .quoted .nil .nil (.of_plain rfl),
    .string (StringText.of_plain rfl : StringText "Else".toList _)⟩

@[inherit_doc noteName]
def noteExtra : Member (nestingLimit - 1) :=
  ⟨⟨"x", "\"x\"".toList, .array [.number (.integer 12), .object [] none] none,
      "[12,\x7b\x7d]".toList⟩,
    .quoted .nil .nil (.of_plain rfl), by
      have hdigits : Expr.Digits "12".toList := ⟨List.cons_ne_nil _ _, List.all_eq_true.1 rfl⟩
      have hnumber : UnsignedText ⟨"12".toList, [], 0⟩ "12".toList :=
        ⟨.mk hdigits .none .none, nofun⟩
      refine @ValueText.array _ [(_, "12".toList), (.object [] none, "\x7b\x7d".toList)] _ .nil
        (List.forall_mem_cons.2 ⟨.number (.unsigned hnumber rfl), List.forall_mem_singleton.2 ?_⟩)
      exact @ValueText.object _ [] _ .nil (List.forall_mem_nil _) (List.forall_mem_nil _)⟩

theorem parse_note : Step.parse "\x7b\"name\":\"note\",\"kind\":\"Else\"\x7d" = .ok note := by
  have hobject : ObjectText [noteName, noteKind]
      "\x7b\"name\":\"note\",\"kind\":\"Else\"\x7d".toList := .braces .nil .nil .nil
  rw [parse_objectText hobject]
  rfl

/-- The members of the marker in the other order, behind one that is not known. -/
theorem parse_rearranged_note :
    Step.parse "\x7b \"x\":[12,\x7b\x7d],\"kind\":\"Else\",\"name\":\"note\"\x7d" = .ok note := by
  have hblank : Blanks [' '] := List.forall_mem_singleton.2 rfl
  refine (parse_rearranged parse_note).2 [noteName, noteKind] [noteExtra]
    [noteExtra, noteKind, noteName] _ (ObjectText.braces .nil .nil .nil) ?_ ?_
    (ObjectText.braces .nil hblank .nil)
  · exact List.reverse_perm [noteName, noteKind, noteExtra]
  · exact List.forall_mem_singleton.2 (by decide)

/-- Members that are not known are read all the same. A number beyond all binary64 numbers and half a
pair of code units are passed over where nobody reads them, but in a step they are faults. -/
theorem parse_unreadable_member :
    Step.parse "\x7b\"name\":\"note\",\"kind\":\"Else\"\x7d" = .ok note ∧
      "x" ∉ note.type.memberNames ∧
      skipValue 9 "1e999".toList = .ok [] ∧
      (Step.parse "\x7b\"name\":\"note\",\"kind\":\"Else\",\"x\":1e999\x7d").isOk = false ∧
      skipValue 9 "\"\\ud800\"".toList = .ok [] ∧
      (Step.parse "\x7b\"name\":\"note\",\"kind\":\"Else\",\"x\":\"\\ud800\"\x7d").isOk = false := by
  refine ⟨parse_note, ?_, ?_, ?_, ?_, ?_⟩ <;> decide +kernel

end Step

end StepScript
