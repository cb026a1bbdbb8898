/-!
JSON values with ordered fields. The order of an object's fields is part of its value: texts that
the program writes keep it.
-/

namespace ThemeSection.Json

/-- A whole number of at most 64 bits is exact; every other number is a floating-point number. -/
inductive Number
  | int (n : Int)
  | float (x : Float)
  deriving BEq, Repr, Inhabited

inductive Value
  | null
  | bool (b : Bool)
  | number (n : Number)
  | string (s : String)
  | array (items : List Value)
  | object (fields : List (String × Value))
  deriving BEq, Repr, Inhabited

/-- The named fields of an object, in order. -/
abbrev Fields := List (String × Value)

namespace Fields

def get? (fields : Fields) (key : String) : Option Value :=
  fields.lookup key

/-- Gives a key its value: at the key's place if it has one, otherwise at the end. -/
def set (key : String) (value : Value) : Fields → Fields
  | [] => [(key, value)]
  | (k, v) :: rest => if k = key then (k, value) :: rest else (k, v) :: set key value rest

/-- The fields in order of first appearance, each with the value given last. -/
def merge (fields : Fields) : Fields :=
  fields.foldl (fun merged (key, value) => merged.set key value) []

def keys (fields : Fields) : List String :=
  fields.map (·.1)

end Fields

namespace Value

def str? : Value → Option String
  | string s => some s
  | _ => none

def array? : Value → Option (List Value)
  | array items => some items
  | _ => none

def object? : Value → Option Fields
  | object fields => some fields
  | _ => none

/-- The field of an object; no other value has fields. -/
def get? (value : Value) (key : String) : Option Value :=
  value.object?.bind (·.get? key)

def ofNat (n : Nat) : Value :=
  number (.int n)

def ofStrings (texts : List String) : Value :=
  array (texts.map string)

/-- The text, or null where there is none. -/
def ofOption (text : Option String) : Value :=
  (text.map string).getD null

mutual

/-- The value in which every object has each key once, as `Fields.merge` says. -/
def settle : Value → Value
  | array items => array (settleItems items)
  | object fields => object (Fields.merge (settleFields fields))
  | value => value

def settleItems : List Value → List Value
  | [] => []
  | item :: rest => settle item :: settleItems rest

def settleFields : List (String × Value) → List (String × Value)
  | [] => []
  | (key, value) :: rest => (key, settle value) :: settleFields rest

end

end Value

end ThemeSection.Json
