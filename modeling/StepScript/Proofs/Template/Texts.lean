import StepScript.Proofs.Template.Policies
import Mathlib.Data.List.Forall2

/-!
# The texts of a step

A step is its texts, in the order in which they stand in it, and what is left of it without them. To
expand a step is to expand these texts one after the other, up to the first one that fails; nothing
else of the step changes.
-/

namespace StepScript

variable {ε α β : Type}

/-! ## Texts -/

def optionalTexts (texts : α → List String) : Option α → List String
  | none => []
  | some value => texts value

mutual

/-- The strings in a value, in the order in which they stand there. Keys do not count. -/
def Json.strings : Json → List String
  | .null | .bool _ | .number _ => []
  | .string text => [text]
  | .array items => Json.itemsStrings items
  | .object members => Json.membersStrings members

def Json.itemsStrings : List Json → List String
  | [] => []
  | item :: rest => item.strings ++ Json.itemsStrings rest

def Json.membersStrings : List (String × Json) → List String
  | [] => []
  | (_, value) :: rest => value.strings ++ Json.membersStrings rest

end

/-- The texts of an instruction, in the order of its fields. -/
def Instruction.texts : Instruction → List String
  | .openPage url => [url]
  | .inputText selector text _ => [selector, text]
  | .putParam key selector value _ _ =>
    [key] ++ (optionalTexts ([·]) selector ++ optionalTexts ([·]) value)
  | .wait (some (.element text)) => [text]
  | .ifGuard expression | .whileGuard expression => [expression]
  | .wait (some (.duration _)) | .wait none => []
  | .openBrowser | .closeBrowser | .elseMarker | .endIf | .endWhile => []

/-- The texts of a step: those of the instruction, the name, and the strings of the options. -/
def Step.texts (step : Step) : List String :=
  step.instruction.texts ++ ([step.name] ++ optionalTexts Json.strings step.options)

/-! ## What is left without them -/

mutual

/-- The value with its strings left empty. Its keys, numbers, truth values and lengths remain. -/
def Json.withoutStrings : Json → Json
  | .string _ => .string ""
  | .array items => .array (Json.itemsWithoutStrings items)
  | .object members => .object (Json.membersWithoutStrings members)
  | .null => .null
  | .bool value => .bool value
  | .number value => .number value

def Json.itemsWithoutStrings : List Json → List Json
  | [] => []
  | item :: rest => item.withoutStrings :: Json.itemsWithoutStrings rest

def Json.membersWithoutStrings : List (String × Json) → List (String × Json)
  | [] => []
  | (key, value) :: rest => (key, value.withoutStrings) :: Json.membersWithoutStrings rest

end

/-- The instruction with its texts left empty. Its type and flags remain, the duration of a wait, and
which of the texts are there. -/
def Instruction.withoutTexts : Instruction → Instruction
  | .openPage _ => .openPage ""
  | .inputText _ _ append => .inputText "" "" append
  | .putParam _ selector value readFromText isExpression =>
    .putParam "" (selector.map fun _ => "") (value.map fun _ => "") readFromText isExpression
  | .wait (some (.element _)) => .wait (some (.element ""))
  | .ifGuard _ => .ifGuard ""
  | .whileGuard _ => .whileGuard ""
  | .wait (some (.duration millis)) => .wait (some (.duration millis))
  | .wait none => .wait none
  | .openBrowser => .openBrowser
  | .closeBrowser => .closeBrowser
  | .elseMarker => .elseMarker
  | .endIf => .endIf
  | .endWhile => .endWhile

def Step.withoutTexts (step : Step) : Step where
  name := ""
  options := step.options.map Json.withoutStrings
  instruction := step.instruction.withoutTexts

theorem Instruction.type_withoutTexts (instruction : Instruction) :
    instruction.withoutTexts.type = instruction.type := by
  unfold Instruction.withoutTexts
  split <;> rfl

/-- The type of a step does not depend on its texts. -/
theorem Step.type_of_withoutTexts {step other : Step}
    (h : step.withoutTexts = other.withoutTexts) : step.type = other.type := by
  have hinstruction := congrArg (fun step => step.instruction.type) h
  simpa only [type, withoutTexts, Instruction.type_withoutTexts] using hinstruction

/-! ## Lists of values -/

namespace Json

theorem itemsStrings_eq_flatMap (items : List Json) : itemsStrings items = items.flatMap strings := by
  induction items with
  | nil => rfl
  | cons item items ih => rw [itemsStrings, ih, List.flatMap_cons]

theorem membersStrings_eq_flatMap (members : List (String × Json)) :
    membersStrings members = members.flatMap fun member => member.2.strings := by
  induction members with
  | nil => rfl
  | cons member members ih => rw [membersStrings, ih, List.flatMap_cons]

theorem itemsWithoutStrings_eq_map (items : List Json) :
    itemsWithoutStrings items = items.map withoutStrings := by
  induction items with
  | nil => rfl
  | cons item items ih => rw [itemsWithoutStrings, ih, List.map_cons]

theorem membersWithoutStrings_eq_map (members : List (String × Json)) :
    membersWithoutStrings members =
      members.map fun member => (member.1, member.2.withoutStrings) := by
  induction members with
  | nil => rfl
  | cons member members ih => rw [membersWithoutStrings, ih, List.map_cons]

theorem mapItems_eq_mapM (f : String → Except ε String) (items : List Json) :
    mapItems f items = items.mapM (mapStrings f) := by
  induction items with
  | nil => rfl
  | cons item items ih => rw [List.mapM_cons, mapItems, ih]

theorem mapMembers_eq_mapM (f : String → Except ε String) (members : List (String × Json)) :
    mapMembers f members =
      members.mapM fun member => member.2.mapStrings f >>= fun value => .ok (member.1, value) := by
  induction members with
  | nil => rfl
  | cons member members ih =>
    obtain ⟨key, value⟩ := member
    rw [List.mapM_cons, mapMembers, ih]
    cases value.mapStrings f <;> rfl

end Json

/-! ## Texts that are put in again -/

/-- What is left of a value without its texts says how many texts are to be put in: the value can be
told from the texts at the start of a list, and so can the texts behind them. -/
def ReadsBack (texts : α → List String) (without : α → β) (value : α) : Prop :=
  ∀ (other : α) (rest rest' : List String), without value = without other →
    texts value ++ rest = texts other ++ rest' → value = other ∧ rest = rest'

theorem ReadsBack.list {texts : α → List String} {without : α → β} {values : List α}
    (h : ∀ value ∈ values, ReadsBack texts without value) :
    ReadsBack (List.flatMap texts) (List.map without) values := by
  induction values with
  | nil =>
    rintro others rest rest' hleft htexts
    obtain rfl := List.map_eq_nil_iff.1 hleft.symm
    exact ⟨rfl, htexts⟩
  | cons value values ih =>
    rintro others rest rest' hleft htexts
    obtain ⟨hvalue, hmore⟩ := List.forall_mem_cons.1 h
    obtain ⟨other, others, rfl, hother, hothers⟩ := List.map_eq_cons_iff.1 hleft.symm
    rw [List.flatMap_cons, List.flatMap_cons, List.append_assoc, List.append_assoc] at htexts
    obtain ⟨rfl, hlater⟩ := hvalue other _ _ hother.symm htexts
    obtain ⟨rfl, hrest⟩ := ih hmore others _ _ hothers.symm hlater
    exact ⟨rfl, hrest⟩

theorem ReadsBack.optional {texts : α → List String} {without : α → β} {value : Option α}
    (h : ∀ present, ReadsBack texts without present) :
    ReadsBack (optionalTexts texts) (Option.map without) value := by
  rintro other rest rest' hleft htexts
  cases value with
  | none =>
    obtain rfl := Option.map_eq_none_iff.1 hleft.symm
    exact ⟨rfl, htexts⟩
  | some present =>
    obtain ⟨present', rfl, hpresent⟩ := Option.map_eq_some_iff.1 hleft.symm
    obtain ⟨rfl, hrest⟩ := h present present' rest rest' hpresent.symm htexts
    exact ⟨rfl, hrest⟩

theorem ReadsBack.text (text : String) : ReadsBack ([·]) (fun _ => "") text := by
  rintro other rest rest' - htexts
  obtain ⟨rfl, hrest⟩ := List.cons.inj htexts
  exact ⟨rfl, hrest⟩

theorem Json.readsBack (value : Json) : ReadsBack strings withoutStrings value := by
  induction value using Json.induction with
  | null | bool | number =>
    rintro other rest rest' hleft htexts
    cases other <;> simp_all [withoutStrings, strings]
  | string text =>
    rintro other rest rest' hleft htexts
    cases other <;> simp_all [withoutStrings, strings]
  | array items ih =>
    rintro other rest rest' hleft htexts
    cases other with
    | array others =>
      rw [withoutStrings, withoutStrings, Json.array.injEq, itemsWithoutStrings_eq_map,
        itemsWithoutStrings_eq_map] at hleft
      rw [strings, strings, itemsStrings_eq_flatMap, itemsStrings_eq_flatMap] at htexts
      obtain ⟨rfl, hrest⟩ := ReadsBack.list ih others rest rest' hleft htexts
      exact ⟨rfl, hrest⟩
    | _ => simp [withoutStrings] at hleft
  | object members ih =>
    rintro other rest rest' hleft htexts
    cases other with
    | object others =>
      rw [withoutStrings, withoutStrings, Json.object.injEq, membersWithoutStrings_eq_map,
        membersWithoutStrings_eq_map] at hleft
      rw [strings, strings, membersStrings_eq_flatMap, membersStrings_eq_flatMap] at htexts
      have hmembers : ∀ member ∈ members, ReadsBack (fun member => member.2.strings)
          (fun member => (member.1, member.2.withoutStrings)) member := by
        rintro ⟨key, value⟩ hmember ⟨key', value'⟩ rest rest' hleft htexts
        obtain ⟨rfl, hvalue⟩ := Prod.mk.inj hleft
        obtain ⟨rfl, hrest⟩ := ih _ hmember value' rest rest' hvalue htexts
        exact ⟨rfl, hrest⟩
      obtain ⟨rfl, hrest⟩ := ReadsBack.list hmembers others rest rest' hleft htexts
      exact ⟨rfl, hrest⟩
    | _ => simp [withoutStrings] at hleft

theorem Instruction.readsBack (instruction : Instruction) :
    ReadsBack texts withoutTexts instruction := by
  rintro other rest rest' hleft htexts
  have htype : instruction.type = other.type := by
    rw [← type_withoutTexts instruction, hleft, type_withoutTexts]
  cases instruction with
  | putParam key selector value readFromText isExpression =>
    cases other <;> cases htype
    next key' selector' value' _ _ =>
    simp only [withoutTexts, Instruction.putParam.injEq, true_and] at hleft
    simp only [texts, List.append_assoc] at htexts
    obtain ⟨hselector, hvalue, rfl, rfl⟩ := hleft
    obtain ⟨rfl, hbehindKey⟩ := ReadsBack.text key key' _ _ rfl htexts
    obtain ⟨rfl, hbehindSelector⟩ :=
      ReadsBack.optional .text selector' _ _ hselector hbehindKey
    obtain ⟨rfl, hrest⟩ := ReadsBack.optional .text value' _ _ hvalue hbehindSelector
    exact ⟨rfl, hrest⟩
  | wait target =>
    cases other <;> cases htype
    next target' =>
    rcases target with _ | millis | text <;> rcases target' with _ | millis' | text' <;>
      simp_all [withoutTexts, texts]
  | _ =>
    cases other <;> cases htype
    simp_all [withoutTexts, texts]

/-- A step is determined by its texts and by what is left without them. -/
theorem Step.eq_of_texts {step other : Step} (hleft : step.withoutTexts = other.withoutTexts)
    (htexts : step.texts = other.texts) : step = other := by
  obtain ⟨name, options, instruction⟩ := step
  obtain ⟨name', options', instruction'⟩ := other
  simp only [withoutTexts, Step.mk.injEq, true_and] at hleft
  simp only [texts] at htexts
  obtain ⟨rfl, hbehind⟩ := instruction.readsBack instruction' _ _ hleft.2 htexts
  obtain ⟨rfl, hstrings⟩ := ReadsBack.text name name' _ _ rfl hbehind
  obtain ⟨rfl, -⟩ := ReadsBack.optional Json.readsBack options' [] [] hleft.1
    (congrArg (· ++ []) hstrings)
  rfl

/-! ## The first text that fails -/

/-- The first of some texts for which a function fails is one for which it fails with this cause. -/
def FailsFirst (f : String → Except ε String) (texts : List String) (cause : ε) : Prop :=
  ∃ before text after, texts = before ++ text :: after ∧
    (∀ earlier ∈ before, ∃ image, f earlier = .ok image) ∧ f text = .error cause

section

variable {f : String → Except ε String} {texts texts' images : List String} {cause : ε}

theorem mapM_eq_ok_iff :
    texts.mapM f = .ok images ↔ List.Forall₂ (fun text image => f text = .ok image) texts images := by
  induction texts generalizing images with
  | nil =>
    rw [List.mapM_nil, List.forall₂_nil_left_iff]
    exact ⟨fun h => (Except.ok.inj h).symm, fun h => congrArg Except.ok h.symm⟩
  | cons text texts ih =>
    rw [List.mapM_cons, List.forall₂_cons_left_iff]
    constructor
    · intro h
      obtain ⟨image, himage, h⟩ := exists_of_bind_eq_ok h
      obtain ⟨others, hothers, h⟩ := exists_of_bind_eq_ok h
      exact ⟨image, others, himage, ih.1 hothers, (Except.ok.inj h).symm⟩
    · rintro ⟨image, others, himage, hothers, rfl⟩
      rw [himage, ih.2 hothers]
      rfl

theorem not_failsFirst_nil : ¬ FailsFirst f [] cause := by
  rintro ⟨before, text, after, htexts, -⟩
  exact absurd htexts.symm (by simp)

theorem failsFirst_cons {text : String} :
    FailsFirst f (text :: texts) cause ↔
      f text = .error cause ∨ (∃ image, f text = .ok image) ∧ FailsFirst f texts cause := by
  constructor
  · rintro ⟨before, failing, after, htexts, hbefore, hfailing⟩
    cases before with
    | nil =>
      obtain ⟨rfl, -⟩ := List.cons.inj htexts
      exact .inl hfailing
    | cons first before =>
      obtain ⟨rfl, hrest⟩ := List.cons.inj htexts
      obtain ⟨hfirst, hbefore⟩ := List.forall_mem_cons.1 hbefore
      exact .inr ⟨hfirst, before, failing, after, hrest, hbefore, hfailing⟩
  · rintro (hfailing | ⟨hfirst, before, failing, after, rfl, hbefore, hfailing⟩)
    · exact ⟨[], text, texts, rfl, List.forall_mem_nil _, hfailing⟩
    · exact ⟨text :: before, failing, after, rfl, List.forall_mem_cons.2 ⟨hfirst, hbefore⟩, hfailing⟩

/-- A list is worked off up to the first text that fails. -/
theorem mapM_eq_error_iff : texts.mapM f = .error cause ↔ FailsFirst f texts cause := by
  induction texts with
  | nil => exact ⟨nofun, fun h => absurd h not_failsFirst_nil⟩
  | cons text texts ih =>
    rw [List.mapM_cons, failsFirst_cons, ← ih]
    cases f text with
    | error cause' =>
      change Except.error cause' = .error cause ↔ _
      simp
    | ok image =>
      change (texts.mapM f >>= fun images => Except.ok (image :: images)) = _ ↔ _
      cases texts.mapM f with
      | error cause' =>
        change Except.error cause' = .error cause ↔ _
        simp
      | ok images =>
        change Except.ok (image :: images) = .error cause ↔ _
        simp

/-! ## Working off texts -/

/-- A computation works off some texts in order: it fails at the first one that fails, and otherwise it
has a value which is known from the images of the texts. -/
def Visits (f : String → Except ε String) (texts : List String) (known : List String → α → Prop)
    (computation : Except ε α) : Prop :=
  match texts.mapM f with
  | .ok images => ∃ value, computation = .ok value ∧ known images value
  | .error cause => computation = .error cause

theorem Visits.pure {known : List String → α → Prop} {value : α} (h : known [] value) :
    Visits f [] known (.ok value) :=
  ⟨value, rfl, h⟩

theorem Visits.bind {known : List String → α → Prop} {known' : List String → β → Prop}
    {computation : Except ε α} {next : α → Except ε β} (h : Visits f texts known computation)
    (hnext : ∀ images value, known images value →
      Visits f texts' (fun images' => known' (images ++ images')) (next value)) :
    Visits f (texts ++ texts') known' (computation >>= next) := by
  unfold Visits at h ⊢
  rw [List.mapM_append]
  cases hfirst : texts.mapM f with
  | error cause =>
    rw [hfirst] at h
    rw [show computation = .error cause from h]
    rfl
  | ok images =>
    rw [hfirst] at h
    obtain ⟨value, rfl, hknown⟩ := h
    have hrest := hnext images value hknown
    unfold Visits at hrest
    cases hsecond : texts'.mapM f with
    | error cause =>
      rw [hsecond] at hrest
      exact hrest
    | ok images' =>
      rw [hsecond] at hrest
      exact hrest

theorem Visits.map {known : List String → α → Prop} {known' : List String → β → Prop}
    {computation : Except ε α} {g : α → β} (h : Visits f texts known computation)
    (hvalue : ∀ images value, known images value → known' images (g value)) :
    Visits f texts known' (computation >>= fun value => .ok (g value)) := by
  rw [← List.append_nil texts]
  refine h.bind fun images value hknown => .pure ?_
  rw [List.append_nil]
  exact hvalue images value hknown

/-- A computation works off the texts of something and puts the images in their places. -/
def Rewrites (f : String → Except ε String) (texts : α → List String) (without : α → β)
    (value : α) : Except ε α → Prop :=
  Visits f (texts value) fun images value' => texts value' = images ∧ without value' = without value

theorem rewrites_text (text : String) : Rewrites f ([·]) (fun _ => "") text (f text) := by
  unfold Rewrites Visits
  rw [List.mapM_cons, List.mapM_nil]
  cases f text with
  | error cause => rfl
  | ok image => exact ⟨image, rfl, rfl, rfl⟩

variable {texts : α → List String} {without : α → β} {g : α → Except ε α}

theorem rewrites_mapOptional (h : ∀ value, Rewrites f texts without value (g value))
    (value : Option α) :
    Rewrites f (optionalTexts texts) (Option.map without) value (mapOptional g value) := by
  cases value with
  | none => exact .pure ⟨rfl, rfl⟩
  | some value =>
    exact (h value).map fun _ _ hknown => ⟨hknown.1, congrArg some hknown.2⟩

theorem rewrites_mapM {values : List α}
    (h : ∀ value ∈ values, Rewrites f texts without value (g value)) :
    Rewrites f (List.flatMap texts) (List.map without) values (values.mapM g) := by
  induction values with
  | nil => exact .pure ⟨rfl, rfl⟩
  | cons value values ih =>
    obtain ⟨hvalue, hmore⟩ := List.forall_mem_cons.1 h
    rw [List.mapM_cons, Rewrites, List.flatMap_cons, List.map_cons]
    refine hvalue.bind fun images value' hknown => (ih hmore).map fun images' values' hknown' => ?_
    rw [List.flatMap_cons, List.map_cons, hknown.1, hknown.2, hknown'.1, hknown'.2]
    exact ⟨rfl, rfl⟩

end

section

variable (f : String → Except ε String)

theorem Json.rewrites_mapStrings (value : Json) :
    Rewrites f strings withoutStrings value (value.mapStrings f) := by
  induction value using Json.induction with
  | null | bool | number => exact .pure ⟨rfl, rfl⟩
  | string text => exact (rewrites_text text).map fun _ _ hknown => ⟨hknown.1, rfl⟩
  | array items ih =>
    have hitems := rewrites_mapM ih
    rw [mapStrings, mapItems_eq_mapM, Rewrites, strings, itemsStrings_eq_flatMap, withoutStrings,
      itemsWithoutStrings_eq_map]
    refine hitems.map fun images items' hknown => ?_
    rw [strings, itemsStrings_eq_flatMap, withoutStrings, itemsWithoutStrings_eq_map, hknown.1,
      hknown.2]
    exact ⟨rfl, rfl⟩
  | object members ih =>
    have hmember : ∀ member ∈ members, Rewrites f (fun member => member.2.strings)
        (fun member => (member.1, member.2.withoutStrings)) member
        (member.2.mapStrings f >>= fun value => .ok (member.1, value)) :=
      fun member hmember => (ih member hmember).map fun _ _ hknown =>
        ⟨hknown.1, congrArg (Prod.mk member.1) hknown.2⟩
    have hmembers := rewrites_mapM hmember
    rw [mapStrings, mapMembers_eq_mapM, Rewrites, strings, membersStrings_eq_flatMap,
      withoutStrings, membersWithoutStrings_eq_map]
    refine hmembers.map fun images members' hknown => ?_
    rw [strings, membersStrings_eq_flatMap, withoutStrings, membersWithoutStrings_eq_map, hknown.1,
      hknown.2]
    exact ⟨rfl, rfl⟩

theorem Instruction.rewrites_mapTexts (instruction : Instruction) :
    Rewrites f texts withoutTexts instruction (instruction.mapTexts f) := by
  cases instruction with
  | openPage url => exact (rewrites_text url).map fun _ _ hurl => ⟨hurl.1, rfl⟩
  | inputText selector text append =>
    change Visits f ([selector] ++ [text]) _ _
    refine (rewrites_text selector).bind fun _ _ hselector =>
      (rewrites_text text).map fun _ _ htext => ?_
    rw [← hselector.1, ← htext.1]
    exact ⟨rfl, rfl⟩
  | putParam key selector value readFromText isExpression =>
    refine (rewrites_text key).bind fun _ _ hkey =>
      (rewrites_mapOptional rewrites_text selector).bind fun _ _ hselector =>
      (rewrites_mapOptional rewrites_text value).map fun _ _ hvalue => ?_
    rw [← hkey.1, ← hselector.1, ← hvalue.1, withoutTexts, withoutTexts, hselector.2, hvalue.2]
    exact ⟨rfl, rfl⟩
  | wait target =>
    match target with
    | none | some (.duration _) => exact .pure ⟨rfl, rfl⟩
    | some (.element text) => exact (rewrites_text text).map fun _ _ htext => ⟨htext.1, rfl⟩
  | ifGuard expression | whileGuard expression =>
    exact (rewrites_text expression).map fun _ _ htext => ⟨htext.1, rfl⟩
  | openBrowser | closeBrowser | elseMarker | endIf | endWhile => exact .pure ⟨rfl, rfl⟩

theorem Step.rewrites_mapTexts (step : Step) :
    Rewrites f texts withoutTexts step (step.mapTexts f) := by
  refine (step.instruction.rewrites_mapTexts f).bind fun _ _ hinstruction =>
    (rewrites_text step.name).bind fun _ _ hname =>
    (rewrites_mapOptional (Json.rewrites_mapStrings f) step.options).map fun _ _ hoptions => ?_
  rw [← hinstruction.1, ← hname.1, ← hoptions.1, withoutTexts, withoutTexts, hinstruction.2,
    hoptions.2]
  exact ⟨rfl, rfl⟩

end

/-! ## Expansion -/

section

variable {f : String → Except ε String} {texts : α → List String} {without : α → β} {value : α}
  {computation : Except ε α}

theorem Rewrites.forall₂ (h : Rewrites f texts without value computation) {value' : α}
    (hok : computation = .ok value') :
    without value' = without value ∧
      List.Forall₂ (fun text image => f text = .ok image) (texts value) (texts value') := by
  unfold Rewrites Visits at h
  cases himages : (texts value).mapM f with
  | error cause =>
    rw [himages] at h
    cases h.symm.trans hok
  | ok images =>
    rw [himages] at h
    obtain ⟨found, hfound, himage, hleft⟩ := h
    cases hfound.symm.trans hok
    exact ⟨hleft, mapM_eq_ok_iff.1 (himages.trans (congrArg Except.ok himage.symm))⟩

theorem Rewrites.eq_error_iff (h : Rewrites f texts without value computation) {cause : ε} :
    computation = .error cause ↔ FailsFirst f (texts value) cause := by
  rw [← mapM_eq_error_iff]
  unfold Rewrites Visits at h
  cases himages : (texts value).mapM f with
  | error cause' =>
    rw [himages] at h
    obtain rfl : computation = .error cause' := h
    rw [Except.error.injEq, Except.error.injEq]
  | ok images =>
    rw [himages] at h
    obtain ⟨found, hfound, -⟩ := h
    rw [hfound]
    exact ⟨nofun, nofun⟩

end

/-- A step keeps its type when parameters are put in. -/
theorem Step.type_expand {params : Parameters} {policy : MissingPolicy} {step expanded : Step}
    (h : step.expand params policy = .ok expanded) : expanded.type = step.type :=
  Step.type_of_withoutTexts ((step.rewrites_mapTexts _).forall₂ h).1

/-- A step is expanded text by text. The result is the step whose texts are the expansions of the texts
of the given one, and which is like it otherwise; so it has the same type. There is no result exactly
if some text has no expansion, which happens under the strict policy only, and the first of them decides
the error. -/
theorem Step.expand_texts (params : Parameters) (policy : MissingPolicy) (step : Step) :
    (∀ expanded, step.expand params policy = .ok expanded ↔
      expanded.type = step.type ∧ expanded.withoutTexts = step.withoutTexts ∧
        List.Forall₂ (fun text image => expandText params policy text = .ok image)
          step.texts expanded.texts) ∧
    (∀ cause, step.expand params policy = .error cause ↔
      policy = .strict ∧ FailsFirst (expandText params policy) step.texts cause) := by
  have hrewrites := step.rewrites_mapTexts (expandText params policy)
  constructor
  · intro expanded
    constructor
    · intro hexpanded
      exact ⟨Step.type_expand hexpanded, hrewrites.forall₂ hexpanded⟩
    · rintro ⟨-, hleft, himages⟩
      -- no text fails, so there is a result, and it is the same step
      have hall := mapM_eq_ok_iff.2 himages
      cases hexpand : step.expand params policy with
      | error cause =>
        rw [mapM_eq_error_iff.2 (hrewrites.eq_error_iff.1 hexpand)] at hall
        cases hall
      | ok found =>
        obtain ⟨hfoundLeft, hfoundImages⟩ := hrewrites.forall₂ hexpand
        rw [mapM_eq_ok_iff.2 hfoundImages] at hall
        rw [Step.eq_of_texts (hfoundLeft.trans hleft.symm) (Except.ok.inj hall)]
  · intro cause
    constructor
    · intro herror
      refine ⟨?_, hrewrites.eq_error_iff.1 herror⟩
      cases policy with
      | strict => rfl
      | lenient =>
        obtain ⟨expanded, hexpanded⟩ := (step.expand_isStricter params .lenient).exists_ok
        cases hexpanded.symm.trans herror
    · rintro ⟨-, hfails⟩
      exact hrewrites.eq_error_iff.2 hfails

end StepScript
