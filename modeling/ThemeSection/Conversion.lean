import ThemeSection.Artifact.Consistency
import ThemeSection.Artifact.QuoteRepair
import ThemeSection.Assets
import ThemeSection.Block.Collapse
import ThemeSection.FeaturedProducts
import ThemeSection.Head.Merger
import ThemeSection.PageSettings.Sweep
import ThemeSection.PageType.Classify
import ThemeSection.Schema.PageConfiguration

/-!
Conversions: from the markup of a page to a section of a theme and the configuration of a page that
shows it. A conversion fails only on blank input.
-/

namespace ThemeSection

open Markup

inductive InputError
  | blankMarkup
  | blankName
  deriving DecidableEq, Repr

def InputError.message : InputError → String
  | blankMarkup => "invalid input: HTML input is empty"
  | blankName => "invalid input: target name is empty"

/-- The content of a page once its repeated and editable parts are bound to settings. -/
structure SectionContent where
  document : Document
  settings : List Setting
  definitions : List BlockDefinition
  records : List BlockRecord
  changes : List Change
  warnings : List String

namespace SectionContent

/-- Replaces products, if that is wanted. -/
def replaceProducts (pageType : PageType) (options : Options) (root : Place) (d : Document) :
    Document × FeaturedPass :=
  if options.featuredProducts then FeaturedPass.replace root pageType options d else (d, {})

/-- The blocks of a document from a node down, as it is now. -/
def detectBlocks (root : NodeId) (options : Options) (excluded : List NodeId) (d : Document) :
    Detection :=
  match d.place? root with
  | some root => Detection.detect root options excluded
  | none => {}

/-- Binds the content of a node: products if that is wanted, then blocks, then all that is left. -/
def ofDocument (slug : String) (pageType : PageType) (options : Options) (root : Place)
    (d : Document) : SectionContent :=
  let products := replaceProducts pageType options root d
  let excluded := products.2.region.toList
  let detection := detectBlocks root.id options excluded products.1
  let blocks := BlockPass.injectAll root.id options.injectBlocks
    (BlockPass.collapseAll slug detection.blocks products.1)
  let page := PageSettings.extract root.id (blocks.2.regions ++ excluded) options
    products.2.settings blocks.1
  { document := page.1
    settings := page.2.settings
    definitions := blocks.2.definitions
    records := blocks.2.records
    changes := products.2.changes ++ blocks.2.changes ++ page.2.changes
    warnings := detection.warnings.map DetectionWarning.message ++ blocks.2.warnings }

end SectionContent

structure Conversion where
  liquid : String
  /-- The text of the page configuration. -/
  pageText : String
  headContent : String
  schema : Schema
  css : String
  javascript : String
  slug : String
  pageType : PageType
  report : Artifact.Report
  changes : List String
  warnings : List String

namespace Conversion

def sectionFileName (conversion : Conversion) : String :=
  "sections/" ++ conversion.slug ++ ".liquid"

def templateFileName (conversion : Conversion) : String :=
  "templates/" ++ conversion.pageType.template ++ "." ++ conversion.slug ++ ".json"

/-- The schema that stands in a text, if it can be read. -/
def schemaIn? (liquid : String) : Option Schema := do
  let segment ← Liquid.segment? liquid
  let value ← (Json.readRaw segment).toOption
  Schema.ofJson? value

section

variable (name : String) (pageType : PageType) (assets : Assets) (body : String)
  (content : SectionContent)

/-- The schema of a section. -/
def schemaOf : Schema :=
  .build (Text.slug name) pageType content.settings content.definitions content.records

/-- The configuration of the page of a section. -/
def pageOf : PageConfiguration :=
  .build (Text.slug name) content.settings content.records

/-- What the text of a section is assembled from. -/
def partsOf : Liquid.Parts where
  slug := Text.slug name
  sourceName := Text.trim name
  body
  schema := schemaOf name pageType content
  css := assets.css
  scripts := assets.scripts
  externalScripts := assets.externalScripts

/-- The text of a section as it is first written. -/
def textOf : String :=
  Liquid.assemble (partsOf name pageType assets body content)

/-- The artifacts of a section, checked against its name and repaired. -/
def finish : Conversion :=
  let enforced := Artifact.enforce name (textOf name pageType assets body content)
    (pageOf name content).toJson.pretty
  let repair := Artifact.repairQuotes enforced.liquid
  { liquid := repair.liquid
    pageText := enforced.pageText
    headContent := assets.headContent
    schema := (schemaIn? repair.liquid).getD (schemaOf name pageType content)
    css := assets.css
    javascript := assets.javascript
    slug := Text.slug name
    pageType
    report := enforced.report
    changes := content.changes.map Change.message ++ enforced.changes
      ++ if repair.repaired > 0 then [(Change.escapedDefaults repair.repaired).message] else []
    warnings := content.warnings
      ++ if repair.valid then [] else ["Schema segment is not valid JSON"] }

end

/-- Converts a page that has some markup and a name. -/
def ofPage (markup name : String) (options : Options) : Conversion :=
  let (d, assets) := Assets.extract (Document.ofMarkup markup)
  let body := d.body
  let pageType := PageType.classify name body
  let content := SectionContent.ofDocument (Text.slug name) pageType options body d
  let inner := ((content.document.place? body.id).map (·.tree.inner)).getD ""
  finish name pageType assets inner content

/-- Converts a page. -/
def convert (markup name : String) (options : Options) : Except InputError Conversion :=
  if Text.isBlank markup then .error .blankMarkup
  else if Text.isBlank name then .error .blankName
  else .ok (ofPage markup name options)

end Conversion

/-- A page to convert. -/
structure SourcePage where
  markup : String
  name : String
  deriving DecidableEq, Repr

/-- The conversions of several pages, with the resources of all their heads together. -/
structure Batch where
  conversions : List Conversion
  headContent : String

namespace Batch

/-- Converts pages one by one; the first that fails decides. -/
def convert (pages : List SourcePage) (options : Options) : Except InputError Batch := do
  let conversions ← pages.mapM fun page => Conversion.convert page.markup page.name options
  return { conversions, headContent := Head.mergeLines (conversions.map (·.headContent)) }

end Batch

end ThemeSection
