/-!
# Dictionaries

Text keys with values, in ascending order of the keys. Keys are compared character by character,
by code point.
-/

namespace StepScript

/-- Entries in ascending order of their keys. -/
abbrev Dictionary (α : Type) := List (String × α)

namespace Dictionary

variable {α : Type}

def get? : Dictionary α → String → Option α
  | [], _ => none
  | (k, v) :: rest, key => if k = key then some v else get? rest key

def contains (d : Dictionary α) (key : String) : Bool :=
  (d.get? key).isSome

/-- The dictionary with `value` under `key`, in the place that the order gives it. -/
def insert : Dictionary α → String → α → Dictionary α
  | [], key, value => [(key, value)]
  | (k, v) :: rest, key, value =>
    if key < k then (key, value) :: (k, v) :: rest
    else if key = k then (key, value) :: rest
    else (k, v) :: insert rest key value

/-- The dictionary of a list of entries; of two with one key the later one stays. -/
def ofList (entries : List (String × α)) : Dictionary α :=
  entries.foldl (fun d entry => d.insert entry.1 entry.2) []

end Dictionary

end StepScript
