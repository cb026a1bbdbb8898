import ThemeSection.Schema.Block

/-!
The configuration of the page that shows a section: one main section with the values of its settings
and its blocks in order.
-/

namespace ThemeSection

structure PageConfiguration where
  /-- The type of the main section, which is the slug of the page. -/
  type : String
  settings : Json.Fields
  /-- The blocks under their ids. -/
  blocks : Json.Fields
  blockOrder : List String

namespace PageConfiguration

/-- The configuration that repeats the defaults of the settings and holds one block for each
record. -/
def build (slug : String) (settings : List Setting) (records : List BlockRecord) :
    PageConfiguration :=
  { type := slug
    settings := Setting.defaults settings
    blocks := Json.Fields.merge <| records.map fun record =>
      (record.id, .object [("type", .string record.type), ("settings", .object record.settings)])
    blockOrder := records.map (·.id) }

def toJson (configuration : PageConfiguration) : Json.Value :=
  .object
    [("sections", .object
        [("main", .object
            [("type", .string configuration.type),
              ("settings", .object configuration.settings),
              ("blocks", .object configuration.blocks),
              ("block_order", .ofStrings configuration.blockOrder)])]),
      ("order", .ofStrings ["main"])]

end PageConfiguration

end ThemeSection
