import ThemeSection.Digest.Sha256
import ThemeSection.Json.Printer
import ThemeSection.Schema.Setting

/-!
Blocks: the definition of a block type, the records of the blocks that a page holds, and their ids.
An id is the type and a short hash that tells the blocks of one page apart.
-/

namespace ThemeSection

/-- What a schema says about a block type. -/
structure BlockDefinition where
  type : String
  name : String
  limit : Nat
  settings : List Setting
  deriving BEq, Repr

namespace BlockDefinition

/-- Whether the definition has a setting of this id. -/
def has (definition : BlockDefinition) (id : String) : Bool :=
  definition.settings.any (·.id == id)

def fieldNames : List String := ["type", "name", "limit", "settings"]

def toJson (definition : BlockDefinition) : Json.Value :=
  .object
    [("type", .string definition.type), ("name", .string definition.name),
      ("limit", .ofNat definition.limit),
      ("settings", .array (definition.settings.map Setting.toJson))]

def ofJson? (value : Json.Value) : Option BlockDefinition := do
  match ← Json.members? fieldNames value with
  | [type, name, limit, settings] =>
    return {
      type := ← Json.required (·.str?) type
      name := ← Json.required (·.str?) name
      limit := ← Json.required Json.asCount? limit
      settings := ← Json.required (Json.asList? Setting.ofJson?) settings }
  | _ => none

end BlockDefinition

/-- One block of a page: its id, its type and the values of its settings. -/
structure BlockRecord where
  id : String
  type : String
  settings : Json.Fields
  deriving BEq, Repr

/-- Two hexadecimal digits. -/
def hexByte (b : UInt8) : List Char :=
  [Json.hexDigit (b.toNat / 16), Json.hexDigit (b.toNat % 16)]

/-- The hash of a text, cut to four bytes, in hexadecimal. -/
def shortHash (text : String) : String :=
  String.ofList (((Digest.sha256 text.toUTF8.toList).take 4).flatMap hexByte)

/-- The id of the `index`-th block of a type on the page with a given slug. -/
def blockId (slug type : String) (index : Nat) : String :=
  type ++ "_" ++ shortHash (slug ++ "/" ++ type ++ "/" ++ toString index)

end ThemeSection
