import StepScript.Config.Table

/-!
# Tables that are being written

While a file is read its tables remember how they were begun. A table is begun at most once, by a
header or by the names of its settings, and no setting is given twice. The tables of a list each
have a header of their own.
-/

namespace StepScript.Config

/-- How a table was begun. -/
inductive Origin where
  /-- By a header of its own. -/
  | header
  /-- As part of the name in a header of a table inside of it. -/
  | outside
  /-- As part of the name of a setting inside of it. -/
  | dotted
deriving DecidableEq

/-- A setting, a table, or a list of tables with the latest one first. -/
inductive Node where
  | value (value : Value)
  | table (origin : Origin) (entries : List (String × Node))
  | tables (latest : List (String × Node)) (earlier : List (List (String × Node)))

abbrev Entries : Type := Dictionary Node

/-! ## Changes -/

/-- Changes the table at a path, and begins the tables on the way that are not there yet. A list of
tables stands for its latest one. On behalf of a setting, the path does not enter a table that has a
header of its own. -/
def changeAt (change : Origin → Entries → Option Entries) (begun : Origin) :
    List String → Origin → Entries → Option Entries
  | [], origin, entries => change origin entries
  | name :: path, _, entries =>
    match entries.get? name with
    | none => do
      let inner ← changeAt change begun path begun []
      return entries.insert name (.table begun inner)
    | some (.value _) => none
    | some (.table origin inner) =>
      if begun = .dotted ∧ origin = .header then none
      else do
        let inner ← changeAt change begun path origin inner
        return entries.insert name (.table origin inner)
    | some (.tables latest earlier) => do
      let latest ← changeAt change begun path .header latest
      return entries.insert name (.tables latest earlier)

/-- Gives a setting its value. A name with points reaches only tables that such names have
begun. -/
def giveValue (nested : Bool) (name : String) (value : Value) (origin : Origin)
    (entries : Entries) : Option Entries :=
  if nested ∧ origin ≠ .dotted then none
  else if entries.contains name then none
  else some (entries.insert name (.value value))

def addSetting (path : List String) (value : Value) (entries : Entries) : Option Entries := do
  let name ← path.getLast?
  let tables := path.dropLast
  changeAt (giveValue (!tables.isEmpty) name value) .dotted tables .header entries

/-- Begins a table with a header of its own. -/
def beginTable (name : String) (_ : Origin) (entries : Entries) : Option Entries :=
  match entries.get? name with
  | none => some (entries.insert name (.table .header []))
  | some (.table .outside inner) => some (entries.insert name (.table .header inner))
  | some _ => none

/-- Begins one more table of a list. -/
def beginListed (name : String) (_ : Origin) (entries : Entries) : Option Entries :=
  match entries.get? name with
  | none => some (entries.insert name (.tables [] []))
  | some (.tables latest earlier) => some (entries.insert name (.tables [] (latest :: earlier)))
  | some _ => none

def addTable (path : List String) (entries : Entries) : Option Entries := do
  let name ← path.getLast?
  changeAt (beginTable name) .outside path.dropLast .header entries

def addListed (path : List String) (entries : Entries) : Option Entries := do
  let name ← path.getLast?
  changeAt (beginListed name) .outside path.dropLast .header entries

/-! ## Values -/

mutual

def Node.toValue : Node → Value
  | .value value => value
  | .table _ entries => .table (valuesOf entries)
  | .tables latest earlier => .list (listedValues earlier [.table (valuesOf latest)])

def valuesOf : List (String × Node) → List (String × Value)
  | [] => []
  | (name, node) :: rest => (name, node.toValue) :: valuesOf rest

/-- The tables of a list, with the latest one first, as values before those behind them. -/
def listedValues : List (List (String × Node)) → List Value → List Value
  | [], behind => behind
  | entries :: earlier, behind => listedValues earlier (.table (valuesOf entries) :: behind)

end

end StepScript.Config
