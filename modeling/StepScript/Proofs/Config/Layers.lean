import StepScript.Proofs.Config.Overrides
import StepScript.Proofs.Expr.Scanning

/-!
# Layers of a configuration

A configuration has the defaults, a file, the environment and what the caller overrides, each above
the others. Where each layer gives a setting a value of its kind, or none, the configuration can be
loaded, and each setting has the value of the highest layer that gives it one.
-/

namespace StepScript

namespace Config

/-! ## Names of settings -/

namespace Setting

/-- Whether a name, in any case, is that of a section. -/
def IsGroup (name : String) : Prop := ∃ setting ∈ all, setting.group = Text.lowercase name

instance (name : String) : Decidable (IsGroup name) :=
  inferInstanceAs (Decidable (∃ setting ∈ all, setting.group = Text.lowercase name))

/-- The setting with a name in a section, both in any case. -/
def find? (group name : String) : Option Setting :=
  all.find? fun setting =>
    setting.group = Text.lowercase group ∧ setting.name = Text.lowercase name

theorem find?_eq_some {group name : String} {setting : Setting} :
    find? group name = some setting ↔
      Text.lowercase group = setting.group ∧ Text.lowercase name = setting.name := by
  constructor
  · intro h
    have hfound := List.find?_some h
    rw [decide_eq_true_eq] at hfound
    exact ⟨hfound.1.symm, hfound.2.symm⟩
  · intro ⟨hgroup, hname⟩
    cases hfound : find? group name with
    | none =>
      have hother := List.find?_eq_none.1 hfound setting (mem_all setting)
      exact absurd (decide_eq_true (And.intro hgroup.symm hname.symm)) hother
    | some found =>
      have hnames := List.find?_some hfound
      rw [decide_eq_true_eq] at hnames
      rw [eq_of_names (hnames.1.trans hgroup) (hnames.2.trans hname)]

theorem find?_group_name (setting : Setting) :
    find? setting.group setting.name = some setting :=
  find?_eq_some.2 ⟨setting.lowercase_group, setting.lowercase_name⟩

instance (setting : Setting) : DecidableEq setting.Content :=
  match setting with
  | .pollMillis => inferInstanceAs (DecidableEq Nat)
  | .timeoutSecs => inferInstanceAs (DecidableEq (Option Nat))
  | .missingParams => inferInstanceAs (DecidableEq MissingPolicy)
  | .logFilter => inferInstanceAs (DecidableEq String)
  | .logFormat => inferInstanceAs (DecidableEq LogFormat)

end Setting

/-! ## Layers -/

/-- What a source gives each setting, if it gives it anything. -/
abbrev Layer : Type := (setting : Setting) → Option setting.Content

def Value.isTable : Value → Bool
  | .table _ => true
  | _ => false

def Value.isEmptyTable : Value → Bool
  | .table [] => true
  | _ => false

theorem Value.eq_empty_of_isEmptyTable {value : Value} (h : value.isEmptyTable) :
    value = .table [] := by
  unfold isEmptyTable at h
  split at h
  · rfl
  · exact absurd h Bool.false_ne_true

namespace Assignment

/-- The assignments of a source one by one. A table for a section counts as an assignment for each
of its entries. -/
def spread : Assignment → List Assignment
  | ([.name group], .table entries) =>
    ([.name group], .table []) :: entries.map fun entry => ([.name group, .name entry.1], entry.2)
  | assignment => [assignment]

def Sets (assignment : Assignment) (setting : Setting) : Prop :=
  match assignment.1 with
  | [.name group, .name name] => Setting.find? group name = some setting
  | _ => False

theorem sets_iff {assignment : Assignment} {setting : Setting} :
    assignment.Sets setting ↔ ∃ group name, assignment.1 = [.name group, .name name] ∧
      Text.lowercase group = setting.group ∧ Text.lowercase name = setting.name := by
  unfold Sets
  constructor
  · intro h
    split at h
    · next group name hpath => exact ⟨group, name, hpath, Setting.find?_eq_some.1 h⟩
    · exact h.elim
  · rintro ⟨group, name, hpath, hnames⟩
    rw [hpath]
    exact Setting.find?_eq_some.2 hnames

instance : (assignment : Assignment) → (setting : Setting) → Decidable (assignment.Sets setting)
  | ([.name group, .name name], _), setting =>
    inferInstanceAs (Decidable (Setting.find? group name = some setting))
  | ([], _), _ | ([.name _], _), _ | (.place _ :: _, _), _ | (.name _ :: .place _ :: _, _), _
  | (.name _ :: .name _ :: _ :: _, _), _ => isFalse id

end Assignment

namespace Layer

/-- An assignment leaves the settings alone, or it is one of a setting, to which it gives a value of
its kind, namely the one that the layer says. -/
def Admits (layer : Layer) (assignment : Assignment) : Prop :=
  match assignment.1 with
  | .name group :: path =>
    Setting.IsGroup group →
      match path with
      | [] => assignment.2.isEmptyTable
      | .name name :: inner =>
        ∀ setting ∈ Setting.find? group name,
          inner = [] ∧ ¬assignment.2.isTable ∧ (layer setting).isSome ∧
            setting.read assignment.2 = layer setting
      | .place _ :: _ => False
  | _ => False

instance (layer : Layer) : (assignment : Assignment) → Decidable (layer.Admits assignment)
  | ([], _) | (.place _ :: _, _) => isFalse id
  | ([.name group], value) =>
    inferInstanceAs (Decidable (Setting.IsGroup group → value.isEmptyTable))
  | (.name group :: .place _ :: _, _) => inferInstanceAs (Decidable (Setting.IsGroup group → False))
  | (.name group :: .name name :: inner, value) =>
    inferInstanceAs (Decidable (Setting.IsGroup group → ∀ setting ∈ Setting.find? group name,
      inner = [] ∧ ¬value.isTable ∧ (layer setting).isSome ∧ setting.read value = layer setting))

/-- The assignments of a source give the settings what the layer says, and nothing else. -/
structure Agrees (layer : Layer) (assignments : List Assignment) : Prop where
  admits : ∀ assignment ∈ assignments.flatMap Assignment.spread, layer.Admits assignment
  given : ∀ setting ∈ Setting.all, layer setting ≠ none →
    ∃ assignment ∈ assignments.flatMap Assignment.spread, assignment.Sets setting

instance (layer : Layer) (assignments : List Assignment) : Decidable (layer.Agrees assignments) :=
  decidable_of_iff
    ((∀ assignment ∈ assignments.flatMap Assignment.spread, layer.Admits assignment) ∧
      ∀ setting ∈ Setting.all, layer setting ≠ none →
        ∃ assignment ∈ assignments.flatMap Assignment.spread, assignment.Sets setting)
    ⟨fun h => ⟨h.1, h.2⟩, fun h => ⟨h.admits, h.given⟩⟩

def above (upper lower : Layer) : Layer := fun setting => (upper setting).or (lower setting)

end Layer

/-! ## One by one -/

theorem over_of_not_table {value : Value} (h : ¬value.isTable) (lower : Option Value) :
    value.over lower = value := by
  unfold Value.over
  cases value with
  | table entries => exact absurd rfl h
  | _ => rfl

/-- A table without entries changes nothing, but stands where nothing was. -/
theorem over_empty (lower : Option Value) :
    (Value.table []).over lower = lower.getD (.table []) := by
  unfold Value.over
  cases lower with
  | none =>
    rw [overlay]
    rfl
  | some value => rfl

theorem over_cons (entry : String × Value) (entries : List (String × Value))
    (lower : Option Value) :
    (Value.table (entry :: entries)).over lower =
      .table (overlay (entry :: entries) (entriesIn lower)) := by
  unfold Value.over entriesIn
  rcases lower with _ | (_ | _ | _ | _ | _ | _ | _) <;> rfl

namespace Table

theorem put_entry (table : Table) (group name : String) (value : Value) :
    table.put [.name group, .name name] value =
      table.insert (Text.lowercase group)
        (.table ((table.entriesOf (Text.lowercase group)).insert (Text.lowercase name)
          (value.over ((table.entriesOf (Text.lowercase group)).get? (Text.lowercase name))))) := by
  rw [put_name, putAt_name, Value.putAt]
  rfl

/-- Entries laid one by one over a section lie there as the table of them does. -/
theorem putEach_entries (table : Table) (group : String) (below : Table)
    (entries : List (String × Value)) :
    Table.putEach (table.insert (Text.lowercase group) (.table below))
        (entries.map fun entry => ([.name group, .name entry.1], entry.2)) =
      table.insert (Text.lowercase group) (.table (overlay entries below)) := by
  induction entries generalizing below with
  | nil => rw [overlay]; rfl
  | cons entry entries ih =>
    have hbelow : Table.entriesOf (table.insert (Text.lowercase group) (.table below))
        (Text.lowercase group) = below := by
      rw [entriesOf, Dictionary.get?_insert, if_pos rfl]
      rfl
    rw [List.map_cons, putEach_cons, put_entry, hbelow, Dictionary.insert_insert, ih, overlay]

theorem get?_put_empty (table : Table) (name key : String) :
    (table.put [.name name] (.table [])).get? key =
      if Text.lowercase name = key then some ((table.get? key).getD (.table []))
      else table.get? key := by
  rw [get?_put, Value.putAt, over_empty]
  split
  · next hkey => rw [hkey]
  · rfl

theorem entriesOf_put_empty (table : Table) (name group : String) :
    (table.put [.name name] (.table [])).entriesOf group = table.entriesOf group := by
  rw [entriesOf, get?_put_empty, entriesOf]
  by_cases hgroup : Text.lowercase name = group
  · rw [if_pos hgroup]
    cases table.get? group <;> rfl
  · rw [if_neg hgroup]

/-- The assignments of a source may be made one by one. -/
theorem putEach_spread (table : Table) (assignment : Assignment) :
    table.putEach assignment.spread = table.put assignment.1 assignment.2 := by
  unfold Assignment.spread
  split
  · next group entries =>
    cases entries with
    | nil => rfl
    | cons entry entries =>
      rw [List.map_cons, putEach_cons, putEach_cons, put_entry, entriesOf_put_empty, put_name,
        Dictionary.insert_insert, putEach_entries, put_name, Value.putAt, over_cons, overlay]
      rfl
  · rfl

theorem putEach_flatMap_spread (table : Table) (assignments : List Assignment) :
    table.putEach (assignments.flatMap Assignment.spread) = table.putEach assignments := by
  induction assignments generalizing table with
  | nil => rfl
  | cons assignment assignments ih =>
    rw [List.flatMap_cons, putEach_append, putEach_spread, ih, putEach_cons]

/-! ## Layer by layer -/

/-- The sections of a table can be read, and give the settings what the layer says. -/
structure Holds (table : Table) (layer : Layer) : Prop where
  hasSection : ∀ setting : Setting, table.HasSection setting.group
  reads : ∀ setting : Setting, table.reads setting = (layer setting).map some

/-- Some assignments have given a setting what a layer says, or none of them sets it and a table
says as much about it after them as before. -/
def Adopts (table after : Table) (layer : Layer) (assignments : List Assignment)
    (setting : Setting) : Prop :=
  after.HasSection setting.group ∧
    ((layer setting).isSome ∧ after.reads setting = (layer setting).map some ∨
      (∀ assignment ∈ assignments, ¬assignment.Sets setting) ∧
        after.reads setting = table.reads setting)

section Put

variable {table : Table} {layer : Layer} {setting : Setting}

/-- A value in another section. -/
theorem adopts_put_elsewhere (hsection : table.HasSection setting.group) {group : String}
    (path : List Selector) (value : Value) (hgroup : Text.lowercase group ≠ setting.group) :
    Adopts table (table.put (.name group :: path) value) layer [(.name group :: path, value)]
      setting := by
  have hsame : (table.put (.name group :: path) value).get? setting.group =
      table.get? setting.group := by
    rw [get?_put, if_neg hgroup]
  refine ⟨fun found hfound => hsection found (hsame.symm.trans hfound), .inr ⟨?_, ?_⟩⟩
  · rw [List.forall_mem_singleton, Assignment.sets_iff]
    rintro ⟨_, _, hpath, hother, -⟩
    cases hpath
    exact hgroup hother
  · exact reads_congr hsame

/-- A section without entries. -/
theorem adopts_put_empty (hsection : table.HasSection setting.group) (group : String) :
    Adopts table (table.put [.name group] (.table [])) layer [([.name group], .table [])]
      setting := by
  refine ⟨fun found hfound => ?_, .inr ⟨?_, ?_⟩⟩
  · rw [get?_put_empty] at hfound
    split at hfound
    · cases hlower : table.get? setting.group with
      | none =>
        rw [hlower] at hfound
        exact ⟨[], (Option.some.inj hfound).symm⟩
      | some lower =>
        rw [hlower] at hfound
        exact hsection found (hlower.trans hfound)
    · exact hsection found hfound
  · rw [List.forall_mem_singleton, Assignment.sets_iff]
    rintro ⟨_, _, hpath, -, -⟩
    exact absurd hpath nofun
  · rw [reads, entriesOf_put_empty, reads]

/-- A value in a section, which is one for a setting or has another name. -/
theorem adopts_put_entry (hsection : table.HasSection setting.group) {group name : String}
    {inner : List Selector} {value : Value}
    (hadmits : ∀ setting ∈ Setting.find? group name, inner = [] ∧ ¬value.isTable ∧
      (layer setting).isSome ∧ setting.read value = layer setting) :
    Adopts table (table.put (.name group :: .name name :: inner) value) layer
      [(.name group :: .name name :: inner, value)] setting := by
  refine ⟨hasSection_put _ _ _ _ _ fun _ => hsection, ?_⟩
  rw [reads_put, List.forall_mem_singleton, Assignment.sets_iff]
  by_cases hnames : Text.lowercase group = setting.group ∧ Text.lowercase name = setting.name
  · obtain ⟨rfl, htable, hgiven, hread⟩ := hadmits setting (Setting.find?_eq_some.2 hnames)
    obtain ⟨content, hcontent⟩ := Option.isSome_iff_exists.1 hgiven
    refine .inl ⟨hgiven, ?_⟩
    rw [if_pos hnames, Value.putAt, over_of_not_table htable, hread, hcontent]
    rfl
  · refine .inr ⟨?_, if_neg hnames⟩
    rintro ⟨_, _, hpath, hothers⟩
    cases hpath
    exact hnames hothers

/-- One assignment of a layer. -/
theorem adopts_put {assignment : Assignment} (hsection : table.HasSection setting.group)
    (hadmits : layer.Admits assignment) :
    Adopts table (table.put assignment.1 assignment.2) layer [assignment] setting := by
  obtain ⟨path, value⟩ := assignment
  match path with
  | [] => exact absurd hadmits nofun
  | .place _ :: _ => exact absurd hadmits nofun
  | [.name group] =>
    by_cases hgroup : Text.lowercase group = setting.group
    · obtain rfl :=
        Value.eq_empty_of_isEmptyTable (hadmits ⟨setting, Setting.mem_all setting, hgroup.symm⟩)
      exact adopts_put_empty hsection group
    · exact adopts_put_elsewhere hsection _ _ hgroup
  | .name group :: .place _ :: _ =>
    by_cases hgroup : Text.lowercase group = setting.group
    · exact (hadmits ⟨setting, Setting.mem_all setting, hgroup.symm⟩).elim
    · exact adopts_put_elsewhere hsection _ _ hgroup
  | .name group :: .name name :: inner =>
    refine adopts_put_entry hsection fun setting hfound => ?_
    have hgroup := (Setting.find?_eq_some.1 hfound).1.symm
    exact hadmits ⟨setting, Setting.mem_all setting, hgroup⟩ setting hfound

end Put

/-- All assignments of a layer. -/
theorem adopts_putEach {table : Table} {layer : Layer} {assignments : List Assignment}
    {setting : Setting} (hsection : table.HasSection setting.group)
    (hadmits : ∀ assignment ∈ assignments, layer.Admits assignment) :
    Adopts table (table.putEach assignments) layer assignments setting := by
  induction assignments generalizing table with
  | nil => exact ⟨hsection, .inr ⟨nofun, rfl⟩⟩
  | cons assignment assignments ih =>
    obtain ⟨hfirst, hrest⟩ := List.forall_mem_cons.1 hadmits
    obtain ⟨hmiddle, hput⟩ := adopts_put hsection hfirst
    obtain ⟨hlast, hputs⟩ := ih hmiddle hrest
    refine ⟨hlast, ?_⟩
    -- If an assignment behind this one sets the setting, it does not matter what this one does.
    rcases hputs with hset | ⟨hunset, hsame⟩
    · exact .inl hset
    · rw [putEach_cons, hsame]
      exact hput.imp_right fun ⟨hnot, heq⟩ =>
        ⟨List.forall_mem_cons.2 ⟨hnot _ (List.mem_singleton_self _), hunset⟩, heq⟩

/-- A table with all assignments of a layer holds that layer above the one it held before. -/
theorem Holds.putEach {table : Table} {upper lower : Layer} {assignments : List Assignment}
    (h : table.Holds lower) (hagrees : upper.Agrees assignments) :
    (table.putEach assignments).Holds (upper.above lower) := by
  rw [← putEach_flatMap_spread]
  have hadopts (setting : Setting) :=
    adopts_putEach (h.hasSection setting) hagrees.admits
  refine ⟨fun setting => (hadopts setting).1, fun setting => ?_⟩
  rcases (hadopts setting).2 with ⟨hgiven, hreads⟩ | ⟨hunset, hreads⟩
  · obtain ⟨content, hcontent⟩ := Option.isSome_iff_exists.1 hgiven
    rw [hreads, Layer.above, hcontent, Option.some_or]
  · have hnone : upper setting = none := by
      by_contra hgiven
      obtain ⟨assignment, hmem, hsets⟩ :=
        hagrees.given setting (Setting.mem_all setting) hgiven
      exact hunset assignment hmem hsets
    rw [hreads, h.reads, Layer.above, hnone, Option.none_or]

theorem holds_nothing : Table.Holds [] fun _ => none := by
  refine ⟨fun setting value hvalue => absurd hvalue nofun, fun setting => ?_⟩
  rw [reads]
  rfl

/-- The configuration of a table that holds a layer has what the layer says, and the defaults. -/
theorem Holds.ofTable {table : Table} {layer : Layer} (h : table.Holds layer) :
    ∃ config, Config.ofTable table = .ok config ∧
      ∀ setting, config.get setting = (layer setting).getD setting.default := by
  refine ⟨⟨(layer .pollMillis).getD 0, (layer .timeoutSecs).getD none,
    (layer .missingParams).getD .lenient, (layer .logFilter).getD "info",
    (layer .logFormat).getD .pretty⟩, ofTable_eq_ok_iff.2 fun setting => ?_, fun setting => ?_⟩
  · rw [ask_eq (h.hasSection setting), h.reads]
    cases setting <;> cases layer _ <;> rfl
  · cases setting <;> rfl

end Table

/-! ## Variables -/

/-- The variable that gives a setting its value, in capital letters. -/
def Setting.variableName : Setting → String
  | .pollMillis => "ROBOT_INTERPRETER__LOOP_POLL_INTERVAL_MS"
  | .timeoutSecs => "ROBOT_INTERPRETER__RUN_TIMEOUT_SECS"
  | .missingParams => "ROBOT_TEMPLATE__MISSING_PARAMS"
  | .logFilter => "ROBOT_LOGGING__FILTER"
  | .logFormat => "ROBOT_LOGGING__FORMAT"

theorem path_of_variable {setting : Setting} {name : String}
    (h : Text.lowercase name = Text.lowercase setting.variableName) :
    (Environment.settingName? name).map pathOfName = some setting.path := by
  rw [Environment.settingName?, h]
  cases setting <;> decide +kernel

theorem isTable_ofText (text : String) : ¬(Value.ofText text).isTable := by
  unfold Value.ofText
  repeat' split
  all_goals exact Bool.false_ne_true

/-- A variable, in any case, sets its setting in a layer that has the content of its text. -/
theorem Layer.admits_variable {layer : Layer} {setting : Setting} {name text : String}
    (hname : Text.lowercase name = Text.lowercase setting.variableName)
    (hgiven : (layer setting).isSome) (hread : setting.read (.ofText text) = layer setting) :
    ∀ assignment ∈ assignmentsOf (Environment.entries [(name, text)]),
      assignment.Sets setting ∧ layer.Admits assignment := by
  obtain ⟨found, hfound, hpath⟩ := Option.map_eq_some_iff.1 (path_of_variable hname)
  have hentries : assignmentsOf (Environment.entries [(name, text)]) =
      [(setting.path, .ofText text)] := by
    rw [← hpath]
    simp [Environment.entries, hfound, assignmentsOf]
  rw [hentries, List.forall_mem_singleton]
  refine ⟨setting.find?_group_name, fun _ other hother => ?_⟩
  obtain rfl := Option.some.inj (setting.find?_group_name.symm.trans hother)
  exact ⟨rfl, isTable_ofText text, hgiven, hread⟩

theorem toLower_of_isDigit {c : Char} (h : c.isDigit) : c.toLower = c := by
  refine dif_neg fun hletter => ?_
  have hdigit : c.toNat ≤ 57 := (Char.isDigit_iff_toNat.1 h).2
  have hcapital : 65 ≤ c.toNat := hletter.1
  omega

/-- The digits of a signed word in a variable stand for that word. -/
theorem ofText_natText {n : Nat} (h : n < signedLimit) :
    Value.ofText (natText n) = .integer n := by
  have hdigits : Expr.Digits (digitsOfNat n) :=
    ⟨digitsOfNat_ne_nil n, isDigit_of_mem_digitsOfNat⟩
  have hlower : Text.lowercase (natText n) = natText n := by
    have hmap : (digitsOfNat n).map Char.toLower = (digitsOfNat n).map id :=
      List.map_congr_left fun c hc => toLower_of_isDigit (isDigit_of_mem_digitsOfNat c hc)
    rw [Text.lowercase, natText, String.toList_ofList, hmap, List.map_id]
  have hword (word : String) (hletter : 't' ∈ word.toList ∨ 'f' ∈ word.toList) :
      natText n ≠ word := by
    rintro rfl
    rw [natText, String.toList_ofList] at hletter
    rcases hletter with hmem | hmem <;>
      exact absurd (isDigit_of_mem_digitsOfNat _ hmem) (by decide)
  have hinteger : integerOfText? (natText n).toList = some (n : Int) := by
    have hsign : Numeral.takeSign (digitsOfNat n ++ []) = (false, digitsOfNat n ++ []) :=
      Expr.takeSign_digits hdigits
    rw [List.append_nil] at hsign
    have hfits : fitsSigned n = true := by
      rw [fitsSigned, Bool.and_eq_true, decide_eq_true_eq, decide_eq_true_eq]
      omega
    have hall : (digitsOfNat n).all Char.isDigit = true :=
      List.all_eq_true.2 isDigit_of_mem_digitsOfNat
    simp [integerOfText?, natText, hsign, digitsOfNat_ne_nil, hall, natOfDigits_digitsOfNat, hfits]
  rw [Value.ofText, hlower, if_neg (hword _ (.inl (by decide))),
    if_neg (hword _ (.inr (by decide))), hinteger]

/-! ## The sources -/

/-- The endings of files in other formats, which are not described here. -/
def foreignEndings : List String := ["json", "yaml", "yml", "ini", "ron", "json5"]

def isForeign (path : String) : Bool :=
  foreignEndings.any fun ending => ('.' :: ending.toList).isSuffixOf path.toList

/-- No file in another format stands in for the usual one. -/
def OnlySettings (files : Files) : Prop :=
  ∀ ending ∈ foreignEndings, ∀ text, files (usualName ++ "." ++ ending) ≠ .ok text

/-- The entries of the file that is read: the one that is asked for, or else the usual one if it is
there and not hidden by a file of just that name. -/
inductive FileGiven (files : Files) (environment : Environment) (overrides : Overrides) :
    List (String × Value) → Prop
  | requested {path text : String} {entries : List (String × Value)}
      (hpath : requestedPath environment overrides = some path) (hname : isSettingsFile path)
      (htext : files path = .ok text) (hentries : readFile text = some entries) :
      FileGiven files environment overrides entries
  | usual {text : String} {entries : List (String × Value)}
      (hpath : requestedPath environment overrides = none) (honly : OnlySettings files)
      (hhidden : ∀ other, files "robot" ≠ .ok other) (htext : files "robot.toml" = .ok text)
      (hentries : readFile text = some entries) : FileGiven files environment overrides entries
  | absent (hpath : requestedPath environment overrides = none) (honly : OnlySettings files)
      (habsent : ∀ text, files "robot.toml" ≠ .ok text) :
      FileGiven files environment overrides []
  | hidden {other : String} (hpath : requestedPath environment overrides = none)
      (hother : files "robot" = .ok other) : FileGiven files environment overrides []

theorem FileGiven.fileEntries_eq {files : Files} {environment : Environment}
    {overrides : Overrides} {file : List (String × Value)}
    (h : FileGiven files environment overrides file) :
    fileEntries files (requestedPath environment overrides) = .ok file := by
  have hending : withSettingsEnding? "robot" = some "robot.toml" := by decide +kernel
  cases h with
  | requested hpath hname htext hentries =>
    simp only [hpath, fileEntries, findFile, Option.getD_some, htext, if_pos hname, hentries]
  | usual hpath _ hhidden htext hentries =>
    cases hother : files "robot" with
    | ok other => exact absurd hother (hhidden other)
    | error fault =>
      simp only [hpath, fileEntries, findFile, Option.getD_none, usualName, hother, hending,
        Option.bind_some, htext, Except.toOption, hentries]
  | hidden hpath hother =>
    have hfind : findFile files "robot" = none := by
      simp only [findFile, hother]
      rfl
    simp only [hpath, fileEntries, Option.getD_none, usualName, hfind]
  | absent hpath _ habsent =>
    have hfind : findFile files "robot" = none := by
      cases hother : files "robot" with
      | ok other => simp only [findFile, hother]; rfl
      | error fault =>
        cases htext : files "robot.toml" with
        | ok text => exact absurd htext (habsent text)
        | error fault =>
          simp only [findFile, hother, hending, Option.bind_some, htext, Except.toOption]
    simp only [hpath, fileEntries, Option.getD_none, usualName, hfind]

end Config

def Overrides.layer (overrides : Overrides) : Config.Layer
  | .pollMillis => overrides.pollMillis
  | .timeoutSecs => overrides.timeoutSecs.map some
  | .missingParams => overrides.missingParams
  | .logFilter => overrides.logFilter
  | .logFormat => none

namespace Config

theorem isSome_value? (overrides : Overrides) (setting : Setting) :
    (overrides.value? setting).isSome = (overrides.layer setting).isSome := by
  cases setting <;> simp [Overrides.value?, Overrides.layer]

theorem value?_spec {overrides : Overrides}
    (hmillis : ∀ millis ∈ overrides.pollMillis, millis < signedLimit)
    (hsecs : ∀ secs ∈ overrides.timeoutSecs, secs < signedLimit) {setting : Setting}
    {value : Value} (h : overrides.value? setting = some value) :
    ¬value.isTable ∧ (overrides.layer setting).isSome ∧
      setting.read value = overrides.layer setting := by
  have hword : ∀ n < signedLimit, (Overrides.signedWord n).toWord? = some n := by
    intro n hn
    have hlimit : signedLimit < wordLimit := by decide
    rw [toWord?_signedWord (Nat.lt_trans hn hlimit), if_pos hn]
  cases setting with
  | pollMillis =>
    obtain ⟨millis, hvalue, rfl⟩ := Option.map_eq_some_iff.1 h
    have hread := hword millis (hmillis millis hvalue)
    exact ⟨Bool.false_ne_true, Option.isSome_iff_exists.2 ⟨millis, hvalue⟩,
      hread.trans hvalue.symm⟩
  | timeoutSecs =>
    obtain ⟨secs, hvalue, rfl⟩ := Option.map_eq_some_iff.1 h
    have hlayer : overrides.layer .timeoutSecs = some (some secs) := by
      rw [Overrides.layer, hvalue, Option.map_some]
    have hread : (Overrides.signedWord secs).toOptionalWord? = some (some secs) := by
      rw [toOptionalWord?_signedWord, hword secs (hsecs secs hvalue), Option.map_some]
    exact ⟨Bool.false_ne_true, Option.isSome_iff_exists.2 ⟨some secs, hlayer⟩,
      hread.trans hlayer.symm⟩
  | missingParams =>
    obtain ⟨policy, hvalue, rfl⟩ := Option.map_eq_some_iff.1 h
    have hread : Setting.missingParams.read (.text policy.name) = some policy := by
      cases policy <;> decide +kernel
    exact ⟨Bool.false_ne_true, Option.isSome_iff_exists.2 ⟨policy, hvalue⟩,
      hread.trans hvalue.symm⟩
  | logFilter =>
    obtain ⟨filter, hvalue, rfl⟩ := Option.map_eq_some_iff.1 h
    exact ⟨Bool.false_ne_true, Option.isSome_iff_exists.2 ⟨filter, hvalue⟩, hvalue.symm⟩
  | logFormat => exact absurd h nofun

/-- Overrides are given one by one already. -/
theorem mem_spread_assignments {overrides : Overrides} {assignment : Assignment} :
    assignment ∈ overrides.assignments.flatMap Assignment.spread ↔ ∃ setting value,
      overrides.value? setting = some value ∧ assignment = (setting.path, value) := by
  rw [← Overrides.mem_assignments, List.mem_flatMap]
  constructor
  · rintro ⟨whole, hwhole, hassignment⟩
    obtain ⟨setting, value, -, rfl⟩ := Overrides.mem_assignments.1 hwhole
    rwa [List.mem_singleton.1 hassignment]
  · intro hassignment
    refine ⟨assignment, hassignment, ?_⟩
    obtain ⟨setting, value, -, rfl⟩ := Overrides.mem_assignments.1 hassignment
    exact List.mem_singleton_self _

theorem agrees_overrides {overrides : Overrides}
    (hmillis : ∀ millis ∈ overrides.pollMillis, millis < signedLimit)
    (hsecs : ∀ secs ∈ overrides.timeoutSecs, secs < signedLimit) :
    overrides.layer.Agrees overrides.assignments := by
  constructor
  · intro assignment hassignment
    obtain ⟨setting, value, hvalue, rfl⟩ := mem_spread_assignments.1 hassignment
    intro _ found hfound
    obtain rfl := Option.some.inj (setting.find?_group_name.symm.trans hfound)
    exact ⟨rfl, value?_spec hmillis hsecs hvalue⟩
  · intro setting _ hgiven
    rw [← Option.isSome_iff_ne_none, ← isSome_value?] at hgiven
    obtain ⟨value, hvalue⟩ := Option.isSome_iff_exists.1 hgiven
    exact ⟨(setting.path, value), mem_spread_assignments.2 ⟨setting, value, hvalue, rfl⟩,
      setting.find?_group_name⟩

/-- A file that is there but has no known ending is not read. -/
theorem load_of_refused {files : Files} {environment : Environment} {overrides : Overrides}
    {path text : String} (hpath : requestedPath environment overrides = some path)
    (htext : files path = .ok text) (hname : isSettingsFile path = false) :
    load files environment overrides = .error ⟨some path, .unreadableFile⟩ := by
  have hfind : findFile files path = none := by
    simp only [findFile, htext, hname]
    rfl
  have hentries : fileEntries files (some path) = .error .unreadableFile := by
    simp only [fileEntries, Option.getD_some, hfind]
  simp only [load, hpath, hentries]
  rfl

/-- Where each layer gives a setting a value of its kind, or none, the configuration can be loaded
and each setting has the value of the highest layer that gives it one. A file that is asked for is
refused if its name has no known ending. -/
theorem load_layered (files : Files) (environment : Environment) (overrides : Overrides) :
    (∀ file, FileGiven files environment overrides file → ∀ fromFile fromEnvironment : Layer,
      fromFile.Agrees (assignmentsOf file) →
      fromEnvironment.Agrees (assignmentsOf environment.entries) →
      (∀ millis ∈ overrides.pollMillis, millis < signedLimit) →
      (∀ secs ∈ overrides.timeoutSecs, secs < signedLimit) →
      ∃ config, load files environment overrides = .ok config ∧
        ∀ setting, config.get setting =
          ((overrides.layer setting).or
            ((fromEnvironment setting).or (fromFile setting))).getD setting.default) ∧
    ∀ path text, requestedPath environment overrides = some path → files path = .ok text →
      isSettingsFile path = false → isForeign path = false →
      load files environment overrides = .error ⟨some path, .unreadableFile⟩ := by
  refine ⟨?_, fun path text hpath htext hname _ => load_of_refused hpath htext hname⟩
  intro file hfile fromFile fromEnvironment hfromFile hfromEnvironment hmillis hsecs
  have hsourced : (sourced file environment).Holds
      (fromEnvironment.above (fromFile.above fun _ => none)) :=
    (Table.holds_nothing.putEach hfromFile).putEach hfromEnvironment
  obtain ⟨config, hconfig, hsettings⟩ :=
    (hsourced.putEach (agrees_overrides hmillis hsecs)).ofTable
  refine ⟨config, ?_, fun setting => (hsettings setting).trans ?_⟩
  · rw [load_of_entries hfile.fileEntries_eq, layered_eq, hconfig]
    rfl
  · simp only [Layer.above, Option.or_none]

theorem eq_of_get {config other : Config}
    (h : ∀ setting, config.get setting = other.get setting) : config = other := by
  obtain ⟨pollMillis, timeoutSecs, missingParams, logFilter, logFormat⟩ := config
  obtain rfl : pollMillis = _ := h .pollMillis
  obtain rfl : timeoutSecs = _ := h .timeoutSecs
  obtain rfl : missingParams = _ := h .missingParams
  obtain rfl : logFilter = _ := h .logFilter
  obtain rfl : logFormat = _ := h .logFormat
  rfl

/-- All four layers give some settings, or a file that is asked for is refused. -/
theorem load_layered_together :
    let text := "[interpreter]\nloop_poll_interval_ms = 25\nRUN_TIMEOUT_SECS = 60\n" ++
      "[other]\nfilter = 1\n[logging]\nformat = 'Compact'\n"
    let files : Files := fun path => if path = "robot.toml" then .ok text else .error .notFound
    let environment : Environment :=
      [("ROBOT_INTERPRETER__RUN_TIMEOUT_SECS", "30"), ("Robot_Template__Missing_Params", "STRICT"),
        ("SHELL", "sh")]
    load files environment { pollMillis := some 7 } =
      .ok { pollMillis := 7, timeoutSecs := some 30, missingParams := .strict,
            logFormat := .compact } ∧
    load (fun _ => .ok text) environment { path := some "settings.conf" } =
      .error ⟨some "settings.conf", .unreadableFile⟩ := by
  intro text files environment
  let fromFile : Layer
    | .pollMillis => some 25
    | .timeoutSecs => some (some 60)
    | .logFormat => some .compact
    | .missingParams | .logFilter => none
  let fromEnvironment : Layer
    | .timeoutSecs => some (some 30)
    | .missingParams => some .strict
    | .pollMillis | .logFilter | .logFormat => none
  have hread : (readFile text).any fun file => fromFile.Agrees (assignmentsOf file) := by
    decide +kernel
  obtain ⟨file, hfile, hfromFile⟩ := (Option.any_eq_true _ _).1 hread
  have honly : OnlySettings files := by
    intro ending hending other
    have hname : usualName ++ "." ++ ending ≠ "robot.toml" :=
      (by decide : ∀ ending ∈ foreignEndings, usualName ++ "." ++ ending ≠ "robot.toml") ending hending
    simp only [files, if_neg hname]
    exact nofun
  constructor
  · obtain ⟨config, hload, hsettings⟩ := (load_layered files environment { pollMillis := some 7 }).1
      file (.usual rfl honly nofun rfl hfile) fromFile fromEnvironment
      (of_decide_eq_true hfromFile) (by decide +kernel) (by decide) nofun
    rw [hload]
    refine congrArg Except.ok (eq_of_get fun setting => (hsettings setting).trans ?_)
    cases setting <;> rfl
  · exact (load_layered (fun _ => .ok text) environment { path := some "settings.conf" }).2 _ _ rfl rfl
      (by decide) (by decide)

/-- A file that is there is not always read: not under a name that has another ending, nor beside
one with just the usual name. -/
theorem load_layered_unread :
    let text := "[interpreter]\nrun_timeout_secs = 5\n"
    let fromFile : Layer := fun
      | .timeoutSecs => some (some 5)
      | _ => none
    (∃ file, readFile text = some file ∧ fromFile.Agrees (assignmentsOf file)) ∧
      load (fun path => if path = "settings.conf" then .ok text else .error .notFound) []
          { path := some "settings.conf" } =
        .error ⟨some "settings.conf", .unreadableFile⟩ ∧
      load (fun path => if path = "robot.toml" then .ok text
          else if path = "robot" then .ok "" else .error .notFound) [] {} =
        .ok {} := by
  intro text fromFile
  have hread : (readFile text).any fun file => fromFile.Agrees (assignmentsOf file) := by
    decide +kernel
  obtain ⟨file, hfile, hfromFile⟩ := (Option.any_eq_true _ _).1 hread
  exact ⟨⟨file, hfile, of_decide_eq_true hfromFile⟩, by decide +kernel, by decide +kernel⟩

end Config

end StepScript
