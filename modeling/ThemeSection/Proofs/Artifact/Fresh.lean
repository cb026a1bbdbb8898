import ThemeSection.Conversion
import ThemeSection.Proofs.Artifact.Consistency
import ThemeSection.Proofs.Artifact.QuoteRepair
import ThemeSection.Proofs.Text.Slug

/-!
Freshly built artifacts need no repair. A section and the configuration of its page that are built
for one name pass the check against that name and the repair of quotes as they are, and the schema
that stands in the section reads as the one that was written, as long as no delimiter of the schema
comes with the texts that the section is made of.
-/

namespace ThemeSection.Artifact

open Json

/-- What a section and the configuration of its page are built from. -/
structure Draft where
  name : String
  pageType : PageType
  settings : List Setting
  definitions : List BlockDefinition
  records : List BlockRecord
  /-- The name of the page, as the section mentions it. -/
  sourceName : String
  body : String
  css : String
  scripts : List String
  externalScripts : List String

namespace Draft

section

variable (draft : Draft)

def slug : String :=
  Text.slug draft.name

def schema : Schema :=
  .build draft.slug draft.pageType draft.settings draft.definitions draft.records

def parts : Liquid.Parts where
  slug := draft.slug
  sourceName := draft.sourceName
  body := draft.body
  schema := draft.schema
  css := draft.css
  scripts := draft.scripts
  externalScripts := draft.externalScripts

/-- The text of the section. -/
def liquid : String :=
  Liquid.assemble draft.parts

def page : PageConfiguration :=
  .build draft.slug draft.settings draft.records

/-- Every value is a text, a truth value or a number that its printed form gives back, and every
record has a type that is defined. -/
structure Plain : Prop where
  settings : ∀ setting ∈ draft.settings, setting.Plain
  definitions : ∀ definition ∈ draft.definitions, definition.Plain
  records : ∀ record ∈ draft.records, PlainFields record.settings
  known : ∀ record ∈ draft.records, record.type ∈ draft.definitions.map (·.type)

/-- No delimiter of the schema comes with a text. -/
structure Undelimited : Prop where
  sourceName : Liquid.opensSchema draft.sourceName = false
  body : Liquid.opensSchema draft.body = false
  schema : Liquid.closesSchema draft.schema.toJson.pretty = false

/-- The search finds the schema as it was written. -/
def Found : Prop :=
  Liquid.segment? draft.liquid = some (Liquid.written draft.schema)

end

variable {draft : Draft}

theorem brace_not_mem_slug (draft : Draft) : '\x7b' ∉ draft.parts.slug.toList := by
  unfold parts slug
  dsimp only
  exact Text.brace_not_mem_slug draft.name

theorem segment_placed (draft : Draft) :
    (Liquid.placed draft.parts).segment = Liquid.written draft.schema := by
  unfold Liquid.placed parts
  dsimp only

theorem found_of_undelimited (h : draft.Undelimited) : draft.Found := by
  have hbody := Liquid.not_opensSchema_trim h.body
  have hcut := Liquid.segmented?_assemble_iff draft.parts (brace_not_mem_slug draft)
  have hplaced : Liquid.segmented? draft.liquid = some (Liquid.placed draft.parts) := by
    unfold liquid
    rw [hcut]
    unfold parts
    exact ⟨h.sourceName, hbody, h.schema⟩
  rw [Found, Liquid.segment?, hplaced, Option.map_some, segment_placed]

theorem Plain.schema (h : draft.Plain) : draft.schema.Plain := by
  unfold Draft.schema
  exact Schema.plain_build _ _ h.settings h.definitions h.records

theorem Plain.fits_page (h : draft.Plain) : draft.page.toJson.Fits 6 := by
  unfold page
  exact PageConfiguration.fits_toJson_build _ (Schema.plain_defaults h.settings) h.records

theorem className_schema (draft : Draft) : draft.schema.className = draft.slug := by
  unfold schema
  exact Schema.className_build _ _ _ _ _

theorem name_schema (draft : Draft) : draft.schema.name = Text.schemaTitle draft.slug := by
  unfold schema
  exact Schema.name_build _ _ _ _ _

theorem blocks_schema (draft : Draft) : draft.schema.blocks = draft.definitions := by
  unfold schema
  exact Schema.blocks_build _ _ _ _ _

theorem enforce_of_found (hplain : draft.Plain) (hfound : draft.Found) :
    enforce draft.name draft.liquid draft.page.toJson.pretty =
      { liquid := draft.liquid
        pageText := draft.page.toJson.pretty
        report := ⟨draft.slug, [], []⟩
        changes := [] } := by
  have hclass := className_schema draft
  have hname := name_schema draft
  have hfits := hplain.fits_page
  have hknown : ∀ record ∈ draft.records, record.type ∈ draft.schema.blocks.map (·.type) := by
    rw [blocks_schema]
    exact hplain.known
  unfold page slug at *
  exact enforce_of_written hplain.schema hclass hname hfound hfits hknown

theorem repairQuotes_of_found (hplain : draft.Plain) (hfound : draft.Found) :
    repairQuotes draft.liquid = ⟨draft.liquid, 0, true⟩ := by
  have hfits := Schema.fits_toJson hplain.schema
  exact repairQuotes_of_segment hfits.exact (Nat.lt_of_le_of_lt hfits.height (by decide)) hfound

theorem schemaIn?_of_found (hplain : draft.Plain) (hfound : draft.Found) :
    Conversion.schemaIn? draft.liquid = some draft.schema := by
  rw [Conversion.schemaIn?, hfound]
  simp [readRaw_written hplain.schema, Except.toOption, Schema.ofJson?_toJson hplain.schema]

end Draft

/-- Neither the check against the name nor the repair of quotes changes or reports anything on fresh
artifacts, and the schema comes back from the text of the section. -/
theorem repairs_of_fresh {draft : Draft} (hplain : draft.Plain) (h : draft.Undelimited) :
    enforce draft.name draft.liquid draft.page.toJson.pretty =
      { liquid := draft.liquid
        pageText := draft.page.toJson.pretty
        report := ⟨draft.slug, [], []⟩
        changes := [] } ∧
    repairQuotes draft.liquid = ⟨draft.liquid, 0, true⟩ ∧
    Conversion.schemaIn? draft.liquid = some draft.schema := by
  have hfound := Draft.found_of_undelimited h
  exact ⟨Draft.enforce_of_found hplain hfound, Draft.repairQuotes_of_found hplain hfound,
    Draft.schemaIn?_of_found hplain hfound⟩

/-- A page with a heading and a card, whose texts hold quotes, a backslash and a line feed. -/
def quotedDraft : Draft where
  name := "Our \"Shop\""
  pageType := .page
  settings := [.text "heading" "Heading" "Say \"hi\"\\"]
  definitions := [⟨"card", "Card", 12, [.text "title" "Title" "One\nTwo"]⟩]
  records := [⟨"card_1", "card", [("title", .string "\"default\": \"x\"")]⟩]
  sourceName := "Our \"Shop\""
  body := "<h1>Say hi</h1>"
  css := "h1 \x7bcolor: red\x7d"
  scripts := []
  externalScripts := []

theorem repairs_of_fresh_quoted :
    enforce quotedDraft.name quotedDraft.liquid quotedDraft.page.toJson.pretty =
      { liquid := quotedDraft.liquid
        pageText := quotedDraft.page.toJson.pretty
        report := ⟨quotedDraft.slug, [], []⟩
        changes := [] } ∧
    repairQuotes quotedDraft.liquid = ⟨quotedDraft.liquid, 0, true⟩ ∧
    Conversion.schemaIn? quotedDraft.liquid = some quotedDraft.schema := by
  have hplain : quotedDraft.Plain :=
    { settings := by simp [quotedDraft]
      definitions := List.forall_mem_singleton.2 ⟨by simp, by decide⟩
      records := List.forall_mem_singleton.2 ⟨by decide, by simp [Value.Scalar]⟩
      known := by decide }
  have hmentions : quotedDraft.schema.toJson.mentions Liquid.schemaClose.toList = false := by
    decide +kernel
  have hschema : Liquid.closesSchema quotedDraft.schema.toJson.pretty = false := by
    unfold Liquid.closesSchema Text.contains
    rwa [Value.contains_pretty Liquid.isTag_schemaClose]
  have hund : quotedDraft.Undelimited := ⟨by decide, by decide, hschema⟩
  exact repairs_of_fresh hplain hund

end ThemeSection.Artifact
