import ThemeSection.Json.Value

/-!
Reading typed values from JSON. A record stands either as an object, whose fields may come in any
order with unknown ones between them, or as an array with the fields in the order of their names,
where the last ones may be left out. A field that stands twice makes the record unreadable.
-/

namespace ThemeSection.Json

/-- The values of the named fields of a record, `none` for a field that is left out. -/
def members? (names : List String) : Value → Option (List (Option Value))
  | .object fields =>
    names.mapM fun name =>
      match fields.filter (·.1 == name) with
      | [] => some none
      | [(_, value)] => some (some value)
      | _ => none
  | .array items =>
    if items.length > names.length then none
    else some (items.map some ++ List.replicate (names.length - items.length) none)
  | _ => none

/-- A field that has to be there. -/
def required {α : Type} (read : Value → Option α) : Option Value → Option α
  | none => none
  | some value => read value

/-- A field that may be left out. -/
def withDefault {α : Type} (default : α) (read : Value → Option α) : Option Value → Option α
  | none => some default
  | some value => read value

/-- A field that may be left out or null. -/
def nullable {α : Type} (read : Value → Option α) : Option Value → Option (Option α)
  | none | some .null => some none
  | some value => (read value).map some

def asBool? : Value → Option Bool
  | .bool b => some b
  | _ => none

/-- A count: a whole number from zero up to the largest of 64 bits. -/
def asCount? : Value → Option Nat
  | .number (.int n) => if 0 ≤ n && n ≤ 0xFFFFFFFFFFFFFFFF then some n.toNat else none
  | _ => none

def asFloat? : Value → Option Float
  | .number (.int n) => some (Float.ofInt n)
  | .number (.float x) => some x
  | _ => none

def asList? {α : Type} (read : Value → Option α) (value : Value) : Option (List α) :=
  value.array?.bind (·.mapM read)

/-- The fields of an object, each key once. -/
def asFields? (value : Value) : Option Fields :=
  value.settle.object?

/-- One of a fixed set of names: a string, or an object with the name as its only key and null as
its value. -/
def asName? : Value → Option String
  | .string name => some name
  | .object [(name, .null)] => some name
  | _ => none

end ThemeSection.Json
