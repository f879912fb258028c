import StepScript.Config.Load
import StepScript.Proofs.Json.Values

/-!
# Settings in tables

A configuration has five settings, each with a name in one of three sections. A value that is laid
over a table at a path changes the section that the path begins with, and no other one.
-/

namespace StepScript

namespace Config

/-! ## Settings -/

inductive Setting where
  | pollMillis
  | timeoutSecs
  | missingParams
  | logFilter
  | logFormat
deriving DecidableEq

namespace Setting

def all : List Setting := [.pollMillis, .timeoutSecs, .missingParams, .logFilter, .logFormat]

theorem mem_all (setting : Setting) : setting ∈ all := by
  cases setting <;> decide

abbrev Content : Setting → Type
  | .pollMillis => Nat
  | .timeoutSecs => Option Nat
  | .missingParams => MissingPolicy
  | .logFilter => String
  | .logFormat => LogFormat

def group : Setting → String
  | .pollMillis | .timeoutSecs => "interpreter"
  | .missingParams => "template"
  | .logFilter | .logFormat => "logging"

def name : Setting → String
  | .pollMillis => "loop_poll_interval_ms"
  | .timeoutSecs => "run_timeout_secs"
  | .missingParams => "missing_params"
  | .logFilter => "filter"
  | .logFormat => "format"

def path (setting : Setting) : List Selector := [.name setting.group, .name setting.name]

/-- The place of a setting in a section that is a list. -/
def place : Setting → Nat
  | .pollMillis | .missingParams | .logFilter => 0
  | .timeoutSecs | .logFormat => 1

def read : (setting : Setting) → Value → Option setting.Content
  | .pollMillis => Value.toWord?
  | .timeoutSecs => Value.toOptionalWord?
  | .missingParams => fun value => value.toName?.bind MissingPolicy.ofName?
  | .logFilter => Value.toText?
  | .logFormat => fun value => value.toName?.bind LogFormat.ofName?

/-- The content of a setting that no source gives one. -/
def default : (setting : Setting) → setting.Content
  | .pollMillis => 0
  | .timeoutSecs => none
  | .missingParams => .lenient
  | .logFilter => "info"
  | .logFormat => .pretty

theorem eq_of_names : ∀ {setting other : Setting}, setting.group = other.group →
    setting.name = other.name → setting = other
  | .pollMillis, .pollMillis, _, _ => rfl
  | .timeoutSecs, .timeoutSecs, _, _ => rfl
  | .missingParams, .missingParams, _, _ => rfl
  | .logFilter, .logFilter, _, _ => rfl
  | .logFormat, .logFormat, _, _ => rfl

theorem lowercase_group (setting : Setting) : Text.lowercase setting.group = setting.group := by
  cases setting <;> decide +kernel

theorem lowercase_name (setting : Setting) : Text.lowercase setting.name = setting.name := by
  cases setting <;> decide +kernel

/-- The content that a table gives a setting. -/
def ask (table : Table) (setting : Setting) : Except LoadFault setting.Content := do
  let group ← sectionOf table setting.group
  Config.setting setting.read setting.default group setting.name setting.place

end Setting

def get (config : Config) : (setting : Setting) → setting.Content
  | .pollMillis => config.pollMillis
  | .timeoutSecs => config.timeoutSecs
  | .missingParams => config.missingParams
  | .logFilter => config.logFilter
  | .logFormat => config.logFormat

theorem ask_congr {table table' : Table} {setting : Setting}
    (h : table.get? setting.group = table'.get? setting.group) :
    Setting.ask table setting = Setting.ask table' setting := by
  simp only [Setting.ask, sectionOf, h]

def entriesIn : Option Value → Table
  | some (.table entries) => entries
  | _ => []

/-- The entries of a section, unless it is something else than a table. -/
def Table.entriesOf (table : Table) (group : String) : Table :=
  entriesIn (table.get? group)

/-- Nothing but a table stands under the name of a section. -/
def Table.HasSection (table : Table) (group : String) : Prop :=
  ∀ value, table.get? group = some value → ∃ entries, value = .table entries

/-- What a table says about a setting, if it says anything: the content, unless the value is of the
wrong kind. -/
def Table.reads (table : Table) (setting : Setting) : Option (Option setting.Content) :=
  ((table.entriesOf setting.group).get? setting.name).map setting.read

/-- The content of a setting about which a table says something. -/
def Setting.answer (setting : Setting) :
    Option (Option setting.Content) → Except LoadFault setting.Content
  | none => .ok setting.default
  | some none => .error (.unfitSetting setting.name)
  | some (some content) => .ok content

theorem Table.reads_congr {table table' : Table} {setting : Setting}
    (h : table.get? setting.group = table'.get? setting.group) :
    table.reads setting = table'.reads setting := by
  simp only [Table.reads, Table.entriesOf, h]

theorem sectionOf_eq {table : Table} {group : String} (h : table.HasSection group) :
    sectionOf table group = .ok (.named (table.entriesOf group)) := by
  unfold sectionOf Table.entriesOf
  cases hvalue : table.get? group with
  | none => rfl
  | some value =>
    obtain ⟨entries, rfl⟩ := h value hvalue
    rfl

theorem setting_eq (setting : Setting) (entries : Table) :
    Config.setting setting.read setting.default (.named entries) setting.name setting.place =
      setting.answer ((entries.get? setting.name).map setting.read) := by
  rw [Config.setting, Section.get?]
  cases entries.get? setting.name with
  | none => rfl
  | some value =>
    cases hcontent : setting.read value <;> simp only [Option.map_some, hcontent, Setting.answer]

theorem ask_eq {table : Table} {setting : Setting} (h : table.HasSection setting.group) :
    Setting.ask table setting = setting.answer (table.reads setting) := by
  rw [Setting.ask, sectionOf_eq h]
  exact setting_eq setting _

/-- Where all sections can be read, the settings are asked for in turn. -/
theorem ofTable_of_sections {table : Table}
    (h : ∀ setting : Setting, ∃ group, sectionOf table setting.group = .ok group) :
    ofTable table = do
      let pollMillis ← Setting.ask table .pollMillis
      let timeoutSecs ← Setting.ask table .timeoutSecs
      let missingParams ← Setting.ask table .missingParams
      let logFilter ← Setting.ask table .logFilter
      let logFormat ← Setting.ask table .logFormat
      return { pollMillis, timeoutSecs, missingParams, logFilter, logFormat } := by
  obtain ⟨interpreter, hinterpreter⟩ := h .pollMillis
  obtain ⟨template, htemplate⟩ := h .missingParams
  obtain ⟨logging, hlogging⟩ := h .logFilter
  simp only [Setting.group] at hinterpreter htemplate hlogging
  simp only [ofTable, Setting.ask, Setting.group, hinterpreter, htemplate, hlogging]
  rfl

/-- A table has a configuration if all settings have a content there. -/
theorem ofTable_eq_ok_iff {table : Table} {config : Config} :
    ofTable table = .ok config ↔
      ∀ setting, Setting.ask table setting = .ok (config.get setting) := by
  constructor
  · intro h
    obtain ⟨interpreter, hinterpreter, h⟩ := exists_of_bind_eq_ok h
    obtain ⟨template, htemplate, h⟩ := exists_of_bind_eq_ok h
    obtain ⟨logging, hlogging, h⟩ := exists_of_bind_eq_ok h
    obtain ⟨pollMillis, hpoll, h⟩ := exists_of_bind_eq_ok h
    obtain ⟨timeoutSecs, htimeout, h⟩ := exists_of_bind_eq_ok h
    obtain ⟨missingParams, hmissing, h⟩ := exists_of_bind_eq_ok h
    obtain ⟨logFilter, hfilter, h⟩ := exists_of_bind_eq_ok h
    obtain ⟨logFormat, hformat, h⟩ := exists_of_bind_eq_ok h
    cases h
    intro setting
    cases setting <;> simp only [Setting.ask, Setting.group]
    · rw [hinterpreter]; exact hpoll
    · rw [hinterpreter]; exact htimeout
    · rw [htemplate]; exact hmissing
    · rw [hlogging]; exact hfilter
    · rw [hlogging]; exact hformat
  · intro h
    rw [ofTable_of_sections fun setting => (exists_of_bind_eq_ok (h setting)).imp fun _ => And.left]
    simp only [h]
    rfl

/-! ## Values laid over a table -/

/-- A value, and the path at which a source has it. -/
abbrev Assignment : Type := List Selector × Value

namespace Table

def putEach (table : Table) (assignments : List Assignment) : Table :=
  assignments.foldl (fun table assignment => table.put assignment.1 assignment.2) table

theorem putEach_cons (table : Table) (assignment : Assignment) (assignments : List Assignment) :
    table.putEach (assignment :: assignments) =
      (table.put assignment.1 assignment.2).putEach assignments :=
  rfl

theorem putEach_append (table : Table) (assignments more : List Assignment) :
    table.putEach (assignments ++ more) = (table.putEach assignments).putEach more :=
  List.foldl_append ..

/-- At a path that begins with a name a value is laid over the entries of a table. -/
theorem putAt_name (name : String) (path : List Selector) (value : Value) (lower : Option Value) :
    value.putAt (.name name :: path) lower =
      .table ((entriesIn lower).insert (Text.lowercase name)
        (value.putAt path ((entriesIn lower).get? (Text.lowercase name)))) := by
  conv_lhs => unfold Value.putAt
  rfl

theorem put_name (table : Table) (name : String) (path : List Selector) (value : Value) :
    table.put (.name name :: path) value =
      table.insert (Text.lowercase name)
        (value.putAt path (table.get? (Text.lowercase name))) := by
  rw [Table.put, Value.putAt]

/-- What is found in a table after a value is laid over it at a path that begins with a name. -/
theorem get?_put (table : Table) (name : String) (path : List Selector) (value : Value)
    (key : String) :
    (table.put (.name name :: path) value).get? key =
      if Text.lowercase name = key then
        some (value.putAt path (table.get? (Text.lowercase name)))
      else table.get? key := by
  rw [put_name]
  exact Dictionary.get?_insert ..

/-- A value laid over a table at a path through a section makes that section a table, whatever was
there before. -/
theorem hasSection_put (table : Table) (outer name : String) (path : List Selector)
    (value : Value) {group : String} (h : Text.lowercase outer ≠ group → table.HasSection group) :
    (table.put (.name outer :: .name name :: path) value).HasSection group := by
  intro found hfound
  rw [get?_put, putAt_name] at hfound
  split at hfound
  · exact ⟨_, (Option.some.inj hfound).symm⟩
  · next hne => exact h hne found hfound

theorem entriesOf_put (table : Table) (outer name : String) (path : List Selector)
    (value : Value) (group : String) :
    (table.put (.name outer :: .name name :: path) value).entriesOf group =
      if Text.lowercase outer = group then
        (table.entriesOf group).insert (Text.lowercase name)
          (value.putAt path ((table.entriesOf group).get? (Text.lowercase name)))
      else table.entriesOf group := by
  rw [entriesOf, get?_put, putAt_name]
  by_cases hgroup : Text.lowercase outer = group
  · rw [if_pos hgroup, if_pos hgroup, hgroup]
    rfl
  · rw [if_neg hgroup, if_neg hgroup, entriesOf]

/-- At a path to a setting a value changes what the table says about that setting only. -/
theorem reads_put (table : Table) (outer name : String) (path : List Selector) (value : Value)
    (setting : Setting) :
    (table.put (.name outer :: .name name :: path) value).reads setting =
      if Text.lowercase outer = setting.group ∧ Text.lowercase name = setting.name then
        some (setting.read
          (value.putAt path ((table.entriesOf setting.group).get? setting.name)))
      else table.reads setting := by
  rw [reads, entriesOf_put, reads]
  by_cases hgroup : Text.lowercase outer = setting.group
  · rw [if_pos hgroup, Dictionary.get?_insert]
    by_cases hname : Text.lowercase name = setting.name
    · rw [if_pos hname, if_pos ⟨hgroup, hname⟩, hname, Option.map_some]
    · rw [if_neg hname, if_neg fun h => hname h.2]
  · rw [if_neg hgroup, if_neg fun h => hgroup h.1]

/-- What is found under a name after values are laid over a table depends only on what was found
there before. -/
theorem get?_putEach_congr {table table' : Table} {key : String} {assignments : List Assignment}
    (hnames : ∀ assignment ∈ assignments, ∃ name path, assignment.1 = .name name :: path)
    (h : table.get? key = table'.get? key) :
    (table.putEach assignments).get? key = (table'.putEach assignments).get? key := by
  induction assignments generalizing table table' with
  | nil => exact h
  | cons assignment assignments ih =>
    obtain ⟨⟨name, path, hpath⟩, hrest⟩ := List.forall_mem_cons.1 hnames
    rw [putEach_cons, putEach_cons]
    refine ih hrest ?_
    rw [hpath, get?_put, get?_put]
    split
    · next hkey => rw [hkey, h]
    · exact h

/-- Values laid over a table in other sections leave a section as it was. -/
theorem get?_putEach_of_ne {table : Table} {key : String} {assignments : List Assignment}
    (h : ∀ assignment ∈ assignments,
      ∃ name path, assignment.1 = .name name :: path ∧ Text.lowercase name ≠ key) :
    (table.putEach assignments).get? key = table.get? key := by
  induction assignments generalizing table with
  | nil => rfl
  | cons assignment assignments ih =>
    obtain ⟨⟨name, path, hpath, hne⟩, hrest⟩ := List.forall_mem_cons.1 h
    rw [putEach_cons, ih hrest, hpath, get?_put, if_neg hne]

end Table

/-! ## The settings of all layers -/

/-- The values of a source whose names may be paths. -/
def assignmentsOf (entries : List (String × Value)) : List Assignment :=
  entries.map fun entry => (pathOfName entry.1, entry.2)

end Config

namespace Overrides

def assignments (overrides : Overrides) : List Config.Assignment :=
  overrides.entries.map fun entry => (entry.1.map .name, entry.2)

def value? (overrides : Overrides) : Config.Setting → Option Config.Value
  | .pollMillis => overrides.pollMillis.map signedWord
  | .timeoutSecs => overrides.timeoutSecs.map signedWord
  | .missingParams => overrides.missingParams.map fun policy => .text policy.name
  | .logFilter => overrides.logFilter.map .text
  | .logFormat => none

theorem assignments_eq (overrides : Overrides) :
    overrides.assignments = Config.Setting.all.filterMap fun setting =>
      (overrides.value? setting).map fun value => (setting.path, value) := by
  obtain ⟨path, pollMillis, timeoutSecs, missingParams, logFilter⟩ := overrides
  cases pollMillis <;> cases timeoutSecs <;> cases missingParams <;> cases logFilter <;> rfl

theorem mem_assignments {overrides : Overrides} {assignment : Config.Assignment} :
    assignment ∈ overrides.assignments ↔ ∃ setting value,
      overrides.value? setting = some value ∧ assignment = (setting.path, value) := by
  rw [assignments_eq, List.mem_filterMap]
  constructor
  · rintro ⟨setting, -, h⟩
    obtain ⟨value, hvalue, rfl⟩ := Option.map_eq_some_iff.1 h
    exact ⟨setting, value, hvalue, rfl⟩
  · rintro ⟨setting, value, hvalue, rfl⟩
    exact ⟨setting, Config.Setting.mem_all setting, Option.map_eq_some_iff.2 ⟨value, hvalue, rfl⟩⟩

end Overrides

namespace Config

def sourced (file : List (String × Value)) (environment : Environment) : Table :=
  Table.putEach (Table.putEach [] (assignmentsOf file)) (assignmentsOf environment.entries)

theorem layered_eq (file : List (String × Value)) (environment : Environment)
    (overrides : Overrides) :
    layered file environment overrides =
      (sourced file environment).putEach overrides.assignments := by
  simp only [layered, sourced, Table.putAll, Table.putEach, assignmentsOf, Overrides.assignments,
    List.foldl_map]

-- What is loaded from given sources is evaluated and compared.
deriving instance DecidableEq for Except

/-- With its file read, a configuration is that of the table of all layers. -/
theorem load_of_entries {files : Files} {environment : Environment} {overrides : Overrides}
    {file : List (String × Value)}
    (h : fileEntries files (requestedPath environment overrides) = .ok file) :
    load files environment overrides =
      (ofTable (layered file environment overrides)).mapError
        fun fault => { path := requestedPath environment overrides, fault } := by
  cases hconfig : ofTable (layered file environment overrides) <;>
    simp only [load, h, hconfig, bind, Except.bind, Except.mapError]

theorem exists_entries_of_load {files : Files} {environment : Environment}
    {overrides : Overrides} {config : Config} (h : load files environment overrides = .ok config) :
    ∃ file, fileEntries files (requestedPath environment overrides) = .ok file ∧
      ofTable (layered file environment overrides) = .ok config := by
  cases hfile : fileEntries files (requestedPath environment overrides) with
  | error fault =>
    rw [load, hfile] at h
    exact absurd h nofun
  | ok file =>
    rw [load_of_entries hfile] at h
    cases hconfig : ofTable (layered file environment overrides) with
    | error fault =>
      rw [hconfig] at h
      exact absurd h nofun
    | ok found =>
      rw [hconfig] at h
      cases h
      exact ⟨file, rfl, hconfig⟩

end Config

end StepScript
