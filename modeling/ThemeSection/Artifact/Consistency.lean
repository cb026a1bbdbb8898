import ThemeSection.Json.Reader
import ThemeSection.Liquid.Segment
import ThemeSection.Text.Slug

/-!
Agreement of the three names of a section: the slug of its file, the class in its schema and the
type in its page configuration. The file's slug wins; what differs from it is corrected and
reported. An artifact that needs no correction keeps its text.
-/

namespace ThemeSection.Artifact

/-- The fields that are held to the file name. -/
inductive Checked
  | schemaType
  | schemaName
  | pageType
  deriving DecidableEq, Repr

namespace Checked

def name : Checked → String
  | schemaType => "schema_type"
  | schemaName => "schema_name"
  | pageType => "json_type"

/-- Where the field stands. -/
def location : Checked → String
  | schemaType => "schema.class"
  | schemaName => "schema.name"
  | pageType => "sections.main.type"

end Checked

/-- A field that had another value than the file name calls for. -/
structure Mismatch where
  field : Checked
  expected : String
  actual : String
  deriving DecidableEq, Repr

def Mismatch.change (m : Mismatch) : String :=
  s!"Corrected {m.field.location} from '{m.actual}' to '{m.expected}'"

structure Report where
  slug : String
  mismatches : List Mismatch
  warnings : List String

namespace Report

def isConsistent (report : Report) : Bool :=
  report.mismatches.isEmpty

/-- The value that a field was corrected to. -/
def correction? (report : Report) (field : Checked) : Option String :=
  (report.mismatches.find? (·.field == field)).map (·.expected)

def toJson (report : Report) : Json.Value :=
  .object
    [("mismatches", .array <| report.mismatches.map fun m => .object
        [("kind", .string m.field.name), ("expected", .string m.expected),
          ("actual", .string m.actual), ("location", .string m.field.location)]),
      ("warnings", .ofStrings report.warnings),
      ("corrections", .object
        [("file_name_slug", .string report.slug),
          ("schema_name", .ofOption (report.correction? .schemaName)),
          ("schema_type", .ofOption (report.correction? .schemaType)),
          ("json_type", .ofOption (report.correction? .pageType))])]

end Report

/-- The text of a field; empty if the field is missing or holds no text. -/
def textField (fields : Json.Fields) (name : String) : String :=
  ((fields.get? name).bind (·.str?)).getD ""

/-- Sets a field to the expected text unless `holds` accepts the one it has. -/
def correct (field : Checked) (key expected : String) (holds : String → Bool)
    (fields : Json.Fields) : Json.Fields × List Mismatch :=
  let actual := textField fields key
  if holds actual then (fields, [])
  else (fields.set key (.string expected), [⟨field, expected, actual⟩])

/-- Whether a title can stand: visible and of bounded length. -/
def isTitle (name : String) : Bool :=
  !Text.isBlank name && Text.clusterCount name ≤ Text.maxTitleLength

/-- The fields of a schema with its class and its title held to the slug. -/
def correctSchema (slug : String) (fields : Json.Fields) : Json.Fields × List Mismatch :=
  let (fields, first) := correct .schemaType "class" slug (· == slug) fields
  let (fields, second) := correct .schemaName "name" (Text.schemaTitle slug) isTitle fields
  (fields, first ++ second)

/-- The block types that a schema defines. -/
def blockTypes (fields : Json.Fields) : List String :=
  (((fields.get? "blocks").bind (·.array?)).getD []).filterMap fun block =>
    (block.get? "type").bind (·.str?)

/-- Whether a block of a page has one of the known types. -/
def hasKnownType (known : List String) (block : Json.Value) : Bool :=
  ((block.get? "type").bind (·.str?)).any known.contains

/-- The main section without the blocks of unknown type, and the ids of those. -/
def dropUnknown (known : List String) (main : Json.Fields) : Json.Fields × List String :=
  match (main.get? "blocks").bind (·.object?) with
  | none => (main, [])
  | some blocks =>
    let dropped := (blocks.filter fun (_, block) => !hasKnownType known block).map (·.1)
    if dropped.isEmpty then (main, [])
    else
      let main := main.set "blocks" (.object (blocks.filter fun (_, block) =>
        hasKnownType known block))
      match (main.get? "block_order").bind (·.array?) with
      | none => (main, dropped)
      | some order =>
        (main.set "block_order" (.array (order.filter fun id =>
          id.str?.any fun id => !dropped.contains id)), dropped)

/-- What came of a page configuration: the corrected value, the mismatches and the ids of the blocks
that were removed. -/
structure CorrectedPage where
  value : Json.Value
  mismatches : List Mismatch
  removed : List String

/-- Holds a page configuration to the slug and to the known block types, if they are known; nothing
if it has no main section. -/
def correctPage? (slug : String) (known : Option (List String)) (page : Json.Value) :
    Option CorrectedPage := do
  let top ← page.object?
  let sections ← (← top.get? "sections").object?
  let main ← (← sections.get? "main").object?
  let (main, mismatches) := correct .pageType "type" slug (· == slug) main
  let (main, removed) := match known with
    | none => (main, [])
    | some known => dropUnknown known main
  return {
    value := .object (top.set "sections" (.object (sections.set "main" (.object main))))
    mismatches, removed }

structure Enforced where
  liquid : String
  pageText : String
  report : Report
  changes : List String

/-- What came of the text of a section: the text, the mismatches, the warnings and, if its schema is
usable, the block types it defines. -/
structure EnforcedSection where
  liquid : String
  mismatches : List Mismatch
  warnings : List String
  known : Option (List String)

def enforceSection (slug liquid : String) : EnforcedSection :=
  match Liquid.segment? liquid with
  | none => ⟨liquid, [], ["Template has no schema segment"], none⟩
  | some segment =>
    match Json.read segment with
    | .error fault =>
      ⟨liquid, [], ["Schema segment is not valid JSON: " ++ fault.describe segment], none⟩
    | .ok (.object fields) =>
      let (fields, mismatches) := correctSchema slug fields
      let text :=
        if mismatches.isEmpty then liquid
        else (Liquid.replaceSegment? liquid (Json.Value.object fields).pretty).getD liquid
      ⟨text, mismatches, [], some (blockTypes fields)⟩
    | .ok _ => ⟨liquid, [], ["Schema is not a JSON object"], none⟩

/-- Makes a section and its page configuration agree with the name of their file. -/
def enforce (fileName liquid pageText : String) : Enforced :=
  let slug := Text.slug fileName
  let part := enforceSection slug liquid
  let give (pageText : String) (mismatches : List Mismatch) (warnings removed : List String) :
      Enforced :=
    let mismatches := part.mismatches ++ mismatches
    { liquid := part.liquid
      pageText
      report :=
        { slug, mismatches
          warnings := part.warnings ++ warnings ++ removed.map fun id =>
            s!"Removed block '{id}' with a type the schema does not define" }
      changes := mismatches.map Mismatch.change
        ++ removed.map fun id => s!"Removed block '{id}' with unknown type" }
  match Json.read pageText with
  | .error fault =>
    give pageText [] ["Page configuration is not valid JSON: " ++ fault.describe pageText] []
  | .ok page =>
    match correctPage? slug part.known page with
    | none => give pageText [] ["Page configuration has no sections.main"] []
    | some corrected =>
      let text :=
        if corrected.mismatches.isEmpty && corrected.removed.isEmpty then pageText
        else corrected.value.pretty
      give text corrected.mismatches [] corrected.removed

end ThemeSection.Artifact
