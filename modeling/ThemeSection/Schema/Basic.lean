import ThemeSection.PageType
import ThemeSection.Schema.Block

/-!
The schema of a section: its title, its type, its settings, its block types and one preset, which
fills a new section with what the page showed.
-/

namespace ThemeSection

/-- A block of a preset. -/
structure PresetBlock where
  type : String
  settings : Json.Fields
  deriving BEq, Repr

structure Preset where
  name : String
  settings : Json.Fields
  blocks : List PresetBlock
  deriving BEq, Repr

structure Schema where
  name : String
  tag : String
  /-- The declared section type, which is the slug of the page. -/
  className : String
  settings : List Setting
  blocks : List BlockDefinition
  presets : List Preset
  /-- The templates that the section is enabled on. -/
  templates : List String
  deriving BEq, Repr

/-- A field that is left out when it is empty. -/
def unlessEmpty {α : Type} (name : String) (toJson : List α → Json.Value) (items : List α) :
    Json.Fields :=
  if items.isEmpty then [] else [(name, toJson items)]

namespace PresetBlock

def toJson (block : PresetBlock) : Json.Value :=
  .object (("type", .string block.type) :: unlessEmpty "settings" .object block.settings)

def ofJson? (value : Json.Value) : Option PresetBlock := do
  match ← Json.members? ["type", "settings"] value with
  | [type, settings] =>
    return {
      type := ← Json.required (·.str?) type
      settings := ← Json.withDefault [] Json.asFields? settings }
  | _ => none

end PresetBlock

namespace Preset

def toJson (preset : Preset) : Json.Value :=
  .object <|
    ("name", .string preset.name) :: unlessEmpty "settings" .object preset.settings
      ++ unlessEmpty "blocks" (fun blocks => .array (blocks.map PresetBlock.toJson)) preset.blocks

def ofJson? (value : Json.Value) : Option Preset := do
  match ← Json.members? ["name", "settings", "blocks"] value with
  | [name, settings, blocks] =>
    return {
      name := ← Json.required (·.str?) name
      settings := ← Json.withDefault [] Json.asFields? settings
      blocks := ← Json.withDefault [] (Json.asList? PresetBlock.ofJson?) blocks }
  | _ => none

end Preset

namespace Schema

def fieldNames : List String :=
  ["name", "tag", "class", "settings", "blocks", "presets", "enabled_on"]

def toJson (schema : Schema) : Json.Value :=
  .object
    [("name", .string schema.name), ("tag", .string schema.tag),
      ("class", .string schema.className),
      ("settings", .array (schema.settings.map Setting.toJson)),
      ("blocks", .array (schema.blocks.map BlockDefinition.toJson)),
      ("presets", .array (schema.presets.map Preset.toJson)),
      ("enabled_on", .object [("templates", .ofStrings schema.templates)])]

/-- The record of the templates that a section is enabled on. -/
def templatesOfJson? (value : Json.Value) : Option (List String) := do
  match ← Json.members? ["templates"] value with
  | [templates] => Json.required (Json.asList? (·.str?)) templates
  | _ => none

def ofJson? (value : Json.Value) : Option Schema := do
  match ← Json.members? fieldNames value with
  | [name, tag, className, settings, blocks, presets, enabledOn] =>
    return {
      name := ← Json.required (·.str?) name
      tag := ← Json.required (·.str?) tag
      className := ← Json.required (·.str?) className
      settings := ← Json.required (Json.asList? Setting.ofJson?) settings
      blocks := ← Json.required (Json.asList? BlockDefinition.ofJson?) blocks
      presets := ← Json.required (Json.asList? Preset.ofJson?) presets
      templates := ← Json.required templatesOfJson? enabledOn }
  | _ => none

/-- One preset block for each record, and one with its defaults for each block type without a
record. -/
def presetBlocks (definitions : List BlockDefinition) (records : List BlockRecord) :
    List PresetBlock :=
  (records.map fun record => ⟨record.type, record.settings⟩)
    ++ (definitions.filter fun d => !records.any (·.type == d.type)).map fun d =>
      ⟨d.type, Setting.defaults d.settings⟩

/-- The schema of a section made from a page. -/
def build (slug : String) (pageType : PageType) (settings : List Setting)
    (definitions : List BlockDefinition) (records : List BlockRecord) : Schema :=
  { name := Text.schemaTitle slug
    tag := "section"
    className := slug
    settings
    blocks := definitions
    presets := [⟨"Default", Setting.defaults settings, presetBlocks definitions records⟩]
    templates := [pageType.template] }

end Schema

end ThemeSection
