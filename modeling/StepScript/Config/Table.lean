import StepScript.Config.Value

/-!
# Tables of settings

Tables are laid over each other: where both have a table the lower one shows through, and anywhere
else the upper value hides the lower one, unless it is a table without entries. Names of settings
are kept in small letters. A value can also be laid over a table at a path, which leads through the
names of tables and the places of lists.
-/

namespace StepScript.Config

/-! ## Layers -/

mutual

/-- A value laid over what was there before. -/
def Value.over (upper : Value) (lower : Option Value) : Value :=
  match upper with
  | .table entries =>
    match entries, lower with
    | [], some below => below
    | _, some (.table below) => .table (overlay entries below)
    | _, _ => .table (overlay entries [])
  | value => value

def overlay : List (String × Value) → Table → Table
  | [], below => below
  | (name, value) :: rest, below =>
    overlay rest
      (below.insert (Text.lowercase name) (value.over (below.get? (Text.lowercase name))))

end

/-! ## Paths -/

/-- A name in a table, or a place in a list. Negative places count from the end. -/
inductive Selector where
  | name (name : String)
  | place (index : Int)
deriving DecidableEq, Repr

/-- The items of a list with something at a place, and the place counted from the front. Where the
list has no such place, it is filled up. -/
def withPlace (index : Int) (items : List Value) : List Value × Nat :=
  if 0 ≤ index then
    (items ++ List.replicate (index.toNat + 1 - items.length) .missing, index.toNat)
  else
    (List.replicate (index.natAbs - items.length) .missing ++ items,
      items.length - index.natAbs)

/-- A value laid over what was there before, at a path that begins there. Where the path leads
through something of another kind, that gives way. A place of a list at the end of the path takes
the value as it is. -/
def Value.putAt (value : Value) : List Selector → Option Value → Value
  | [], lower => value.over lower
  | .name name :: rest, lower =>
    let entries : Table :=
      match lower with
      | some (.table entries) => entries
      | _ => []
    let key := Text.lowercase name
    .table (entries.insert key (value.putAt rest (entries.get? key)))
  | .place index :: rest, lower =>
    let items :=
      match lower with
      | some (.list items) => items
      | _ => []
    let (items, place) := withPlace index items
    .list (items.modify place fun item =>
      if rest.isEmpty then value else value.putAt rest (some item))

def Table.put (table : Table) (path : List Selector) (value : Value) : Table :=
  match value.putAt path (some (.table table)) with
  | .table entries => entries
  | _ => table

def isPathChar (c : Char) : Bool := c.isAlphanum || c == '_' || c == '-' || c == ' '

def withoutSpaces (text : List Char) : List Char :=
  let isSpace (c : Char) : Bool := c == ' ' || c == '\t'
  ((text.dropWhile isSpace).reverse.dropWhile isSpace).reverse

/-- The place that stands between brackets: digits, which may have a minus sign. -/
def placeOfText? (text : List Char) : Option Int :=
  let text := withoutSpaces text
  if text.head? = some '+' then none else integerOfText? text

/-- The selectors of a path: a point before each name, and brackets around each place. -/
def scanSelectors (text : List Char) : Option (List Selector) :=
  match text with
  | [] => some []
  | '.' :: rest =>
    let name := rest.takeWhile isPathChar
    if name.isEmpty then none
    else (scanSelectors (rest.dropWhile isPathChar)).map (.name (String.ofList name) :: ·)
  | '[' :: rest =>
    let inside := rest.takeWhile (· != ']')
    if inside.length = rest.length then none
    else do
      let index ← placeOfText? inside
      let selectors ← scanSelectors (rest.drop (inside.length + 1))
      return .place index :: selectors
  | _ => none
termination_by text.length
decreasing_by
  · have := (List.dropWhile_sublist isPathChar (l := rest)).length_le
    grind
  · grind

/-- The path that a name stands for. Points separate the names of tables and brackets hold the
places of lists; where they do not, the whole is one name. -/
def pathOfName (name : String) : List Selector :=
  (scanSelectors ('.' :: name.toList)).getD [.name name]

/-- The table with the entries of another one laid over it, whose names may be paths. -/
def Table.putAll (table : Table) (entries : List (String × Value)) : Table :=
  entries.foldl (fun table entry => table.put (pathOfName entry.1) entry.2) table

end StepScript.Config
