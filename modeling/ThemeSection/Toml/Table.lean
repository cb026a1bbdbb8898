import ThemeSection.Json.Value

/-!
Tables of a configuration text while it is being read. Headers and dotted keys build them up piece
by piece; what may still grow depends on how it was begun. `toFields` forgets that.
-/

namespace ThemeSection.Toml

/-- How a table was begun. -/
inductive Origin
  /-- By a header that leads through it. -/
  | implied
  /-- By a header of its own. -/
  | header
  /-- By dotted keys. -/
  | dotted
  deriving DecidableEq, Repr

inductive Item
  /-- A finished value. -/
  | value (v : Json.Value)
  | table (origin : Origin) (entries : List (String × Item))
  /-- Tables in a row, of which only the last still grows. -/
  | tables (rows : List (List (String × Item)))

abbrev Entries := List (String × Item)

namespace Entries

/-- Gives a key its item: at the key's place if it has one, otherwise at the end. -/
def put (key : String) (item : Item) : Entries → Entries
  | [] => [(key, item)]
  | (k, old) :: rest => if k = key then (k, item) :: rest else (k, old) :: put key item rest

/-- Changes the table that a header's path leads to. Tables on the way are begun if they are
missing. -/
def within (change : Entries → Option Entries) : List String → Entries → Option Entries
  | [], entries => change entries
  | key :: path, entries =>
    match entries.lookup key with
    | none => (within change path []).map fun inner => put key (.table .implied inner) entries
    | some (.table origin inner) =>
      (within change path inner).map fun inner => put key (.table origin inner) entries
    | some (.tables rows) =>
      match rows.getLast? with
      | none => none
      | some last =>
        (within change path last).map fun inner =>
          put key (.tables (rows.dropLast ++ [inner])) entries
    | some (.value _) => none

/-- Begins the table of a header. -/
def begin? (key : String) (entries : Entries) : Option Entries :=
  match entries.lookup key with
  | none => some (put key (.table .header []) entries)
  | some (.table .implied inner) => some (put key (.table .header inner) entries)
  | _ => none

/-- Begins one more table of a row. -/
def beginRow? (key : String) (entries : Entries) : Option Entries :=
  match entries.lookup key with
  | none => some (put key (.tables [[]]) entries)
  | some (.tables rows) => some (put key (.tables (rows ++ [[]])) entries)
  | _ => none

/-- Gives a dotted key a value that it does not have yet. -/
def assign? (value : Json.Value) : List String → Entries → Option Entries
  | [], _ => none
  | [key], entries =>
    if (entries.lookup key).isSome then none else some (put key (.value value) entries)
  | key :: path, entries =>
    match entries.lookup key with
    | none => (assign? value path []).map fun inner => put key (.table .dotted inner) entries
    | some (.table .dotted inner) =>
      (assign? value path inner).map fun inner => put key (.table .dotted inner) entries
    | _ => none

end Entries

mutual

def Item.toValue : Item → Json.Value
  | .value v => v
  | .table _ entries => .object (toFields entries)
  | .tables rows => .array (rowsToValues rows)

def toFields : List (String × Item) → List (String × Json.Value)
  | [] => []
  | (key, item) :: rest => (key, item.toValue) :: toFields rest

def rowsToValues : List (List (String × Item)) → List Json.Value
  | [] => []
  | row :: rest => .object (toFields row) :: rowsToValues rest

end

end ThemeSection.Toml
