import ThemeSection.Block.Binding
import ThemeSection.Block.Detection
import ThemeSection.Change
import ThemeSection.Schema.Block

/-!
Collapsing blocks: of all elements of a block type one is kept, bound to the settings of the type
and put into a loop over the blocks of that type; each of the elements gives the record of one
block. Block types that somebody asks for and the page does not have are added at the end.
-/

namespace ThemeSection

open Markup

/-- What the blocks of a page come to. -/
structure BlockPass where
  definitions : List BlockDefinition := []
  /-- One record for each element, type by type. -/
  records : List BlockRecord := []
  /-- The elements that were kept, which later passes leave alone. -/
  regions : List NodeId := []
  changes : List Change := []
  /-- Names of block types that were asked for and are not known. -/
  unknown : List String := []

namespace BlockPass

def unknownTypeMessage (name : String) : String :=
  "Unknown block type '" ++ name ++ "' skipped"

def warnings (pass : BlockPass) : List String :=
  pass.unknown.map unknownTypeMessage

/-- The records of the elements of a block, in document order. -/
def recordsOf (slug : String) (block : DetectedBlock) (definition : BlockDefinition) :
    List BlockRecord :=
  block.instances.zipIdx.map fun (said, index) =>
    { id := blockId slug block.type index
      type := block.type
      settings := said.record block.pattern.role definition }

/-- Binds the element that is kept, takes the others out, and puts the loop around it. -/
def collapseMarkup (block : DetectedBlock) (definition : BlockDefinition) (kept : NodeId)
    (others : List NodeId) (d : Document) : Document :=
  let d := match d.place? kept with
    | some root => definition.bind block.pattern.role root d
    | none => d
  (d.detachAll others).wrap kept (Liquid.loopOpen block.type) Liquid.loopClose

def collapse (slug : String) (state : Document × BlockPass) (block : DetectedBlock) :
    Document × BlockPass :=
  match block.places with
  | [] => state
  | first :: others =>
    let (d, pass) := state
    let role := block.pattern.role
    let definition := BlockDefinition.ofInstance block.pattern (BlockInstance.read role first)
    (collapseMarkup block definition first.id (others.map (·.id)) d,
      { pass with
        definitions := pass.definitions ++ [definition]
        records := pass.records ++ recordsOf slug block definition
        regions := pass.regions ++ [first.id]
        changes := pass.changes ++ [.collapsedBlocks block.places.length block.type] })

/-- Collapses all blocks that were found. -/
def collapseAll (slug : String) (blocks : List DetectedBlock) (d : Document) :
    Document × BlockPass :=
  blocks.foldl (collapse slug) (d, {})

/-- An element with one class or link and a text. -/
def leaf (tag : String) (attributes : Attributes) (text : String) : Tree :=
  .node 0 (.element (.html tag) attributes) [.ofText 0 text]

/-- The link setting that goes with the setting of a link's text. -/
def linkSetting? (definition : BlockDefinition) (textId : String) : Option String :=
  ((Text.stripEnd? "_text" textId).map (· ++ "_url")).filter definition.has

/-- The element that shows a setting of a block which has no markup of its own. -/
def settingMarkup? (definition : BlockDefinition) (setting : Setting) : Option Tree :=
  let id := setting.id
  let reference := Liquid.reference .block id
  match setting.kind with
  | .richText => some (leaf "div" [] reference)
  | .text =>
    if id == "heading" || id == "name" then some (leaf "h3" [] reference)
    else match linkSetting? definition id with
      | some urlId =>
        some (leaf "a" [⟨.plain "href", Liquid.reference .block urlId⟩] reference)
      | none =>
        if (Text.stripEnd? "_src" id).isSome || (Text.stripEnd? "_alt" id).isSome then none
        else some (leaf "span" [] reference)
  | _ => none

/-- The markup of a block type that has none on the page. -/
def definitionMarkup (definition : BlockDefinition) : Tree :=
  let className := Text.replaceAll "_" "-" definition.type
  .node 0 (.element (.html "div") [⟨.plain "class", className⟩])
    (definition.settings.filterMap (settingMarkup? definition))

/-- Adds a block type at the end of a container, unless it is there already or is not known. -/
def inject (container : NodeId) (state : Document × BlockPass) (name : String) :
    Document × BlockPass :=
  let (d, pass) := state
  let type := Text.key name
  if pass.definitions.any (·.type == type) then state
  else match BlockPattern.find? type with
    | none => (d, { pass with unknown := pass.unknown ++ [name] })
    | some pattern =>
      let definition := BlockDefinition.ofInstance pattern .sample
      let (fragment, d) := d.adopt (definitionMarkup definition)
      let d := d.append container fragment
      (d.wrap fragment.id (Liquid.loopOpen type) Liquid.loopClose,
        { pass with
          definitions := pass.definitions ++ [definition]
          regions := pass.regions ++ [fragment.id]
          changes := pass.changes ++ [.injectedBlock type] })

def injectAll (container : NodeId) (names : List String) (state : Document × BlockPass) :
    Document × BlockPass :=
  names.foldl (inject container) state

end BlockPass

end ThemeSection
