import ThemeSection.Proofs.Artifact.Fresh
import ThemeSection.Proofs.Content

/-!
Converted pages hold together. The schema in the text of a section reads back as the schema of the
conversion, and the page configuration agrees with both, exactly where the schema is found at the
place it was written to.

A batch converts its pages one by one, each as if it were alone; what the heads of the pages load is
merged in the end.
-/

namespace ThemeSection.Conversion

open Json

section

variable (name : String) (pageType : PageType) (assets : Assets) (body : String)
  (content : SectionContent)

/-- No delimiter of the schema comes from the page: the opening one neither with its name nor with its
markup, and the closing one with no text that its schema holds. -/
structure Undelimited : Prop where
  inName : Liquid.opensSchema (Text.trim name) = false
  inBody : Liquid.opensSchema (Text.trim body) = false
  inSchema : (schemaOf name pageType content).toJson.mentions Liquid.schemaClose.toList = false

/-- What the artifacts of a page are built from. -/
def draftOf : Artifact.Draft where
  name
  pageType
  settings := content.settings
  definitions := content.definitions
  records := content.records
  sourceName := Text.trim name
  body
  css := assets.css
  scripts := assets.scripts
  externalScripts := assets.externalScripts

theorem schema_draftOf :
    (draftOf name pageType assets body content).schema = schemaOf name pageType content := by
  unfold Artifact.Draft.schema Artifact.Draft.slug draftOf schemaOf
  dsimp only

theorem page_draftOf : (draftOf name pageType assets body content).page = pageOf name content := by
  unfold Artifact.Draft.page Artifact.Draft.slug draftOf pageOf
  dsimp only

theorem parts_draftOf : (draftOf name pageType assets body content).parts =
    partsOf name pageType assets body content := by
  unfold Artifact.Draft.parts partsOf
  rw [schema_draftOf]
  unfold Artifact.Draft.slug draftOf
  dsimp only

theorem liquid_draftOf : (draftOf name pageType assets body content).liquid =
    textOf name pageType assets body content := by
  rw [Artifact.Draft.liquid, parts_draftOf, textOf]

variable {content}

theorem plain_draftOf (h : content.Plain) : (draftOf name pageType assets body content).Plain where
  settings := h.settings
  definitions := fun definition hmem => (h.definitions definition hmem).1
  records := h.records
  known := h.known

/-- The search finds the schema at the place it was written to exactly if no delimiter comes from the
page. -/
theorem segmented?_textOf_iff :
    Liquid.segmented? (textOf name pageType assets body content) =
      some (Liquid.placed (partsOf name pageType assets body content)) ↔
        Undelimited name pageType body content := by
  have hslug := (draftOf name pageType assets body content).brace_not_mem_slug
  rw [parts_draftOf] at hslug
  have hmentions : Liquid.closesSchema (schemaOf name pageType content).toJson.pretty =
      (schemaOf name pageType content).toJson.mentions Liquid.schemaClose.toList := by
    unfold Liquid.closesSchema Text.contains
    exact Value.contains_pretty Liquid.isTag_schemaClose _
  have hfound := Liquid.segmented?_assemble_iff _ hslug
  unfold textOf
  rw [hfound]
  unfold partsOf
  dsimp only
  rw [hmentions]
  exact ⟨fun ⟨hname, hbody, hschema⟩ => ⟨hname, hbody, hschema⟩,
    fun h => ⟨h.inName, h.inBody, h.inSchema⟩⟩

theorem found_draftOf (h : Undelimited name pageType body content) :
    (draftOf name pageType assets body content).Found := by
  rw [Artifact.Draft.Found, Liquid.segment?, liquid_draftOf,
    (segmented?_textOf_iff name pageType assets body).2 h, Option.map_some, ← parts_draftOf,
    Artifact.Draft.segment_placed]

/-- Neither the check against the name nor the repair of quotes changes what was written. -/
theorem finish_of_undelimited (hplain : content.Plain)
    (h : Undelimited name pageType body content) :
    (finish name pageType assets body content).liquid = textOf name pageType assets body content ∧
      (finish name pageType assets body content).pageText = (pageOf name content).toJson.pretty ∧
        (finish name pageType assets body content).schema = schemaOf name pageType content := by
  have hdraft := plain_draftOf name pageType assets body hplain
  have hfound := found_draftOf name pageType assets body h
  have henforced := Artifact.Draft.enforce_of_found hdraft hfound
  have hrepair := Artifact.Draft.repairQuotes_of_found hdraft hfound
  have hschema := Artifact.Draft.schemaIn?_of_found hdraft hfound
  rw [liquid_draftOf, page_draftOf] at henforced
  rw [liquid_draftOf] at hrepair hschema
  rw [schema_draftOf] at hschema
  have hname : (draftOf name pageType assets body content).name = name := rfl
  rw [hname] at henforced
  unfold finish
  dsimp only
  rw [henforced]
  dsimp only
  rw [hrepair, hschema]
  exact ⟨rfl, rfl, rfl⟩

/-- The texts of a conversion agree: the schema that stands in the section reads as the schema of the
conversion and names the slug, and so does the configuration of the page, which has an entry for
each record as long as hashes tell the records of each single type apart. -/
structure Agrees (slug : String) (records : List BlockRecord) (conversion : Conversion) : Prop where
  schema : ∃ segment value, Liquid.segment? conversion.liquid = some segment ∧
    readRaw segment = .ok value ∧ Schema.ofJson? value = some conversion.schema ∧
      value.get? "class" = some (.string slug)
  page : ∃ value main, readRaw conversion.pageText = .ok value ∧
    (value.get? "sections").bind (·.get? "main") = some main ∧
      main.get? "type" = some (.string slug) ∧
        ((∀ type, ((List.range (records.countP (·.type == type))).map (blockHash slug type)).Nodup) →
          main.get? "blocks" = some (.object (records.map PageConfiguration.entryOf)) ∧
            (records.map (·.id)).Nodup)

theorem agrees_finish (hplain : content.Plain) (h : Undelimited name pageType body content)
    (hids : (∀ type, ((List.range (content.records.countP (·.type == type))).map
      (blockHash (Text.slug name) type)).Nodup) → (content.records.map (·.id)).Nodup) :
    (finish name pageType assets body content).Agrees (Text.slug name) content.records := by
  obtain ⟨hliquid, hpage, hschema⟩ := finish_of_undelimited name pageType assets body hplain h
  have hdraft := plain_draftOf name pageType assets body hplain
  have hschemaPlain := hdraft.schema
  have hfits := hdraft.fits_page
  rw [schema_draftOf] at hschemaPlain
  rw [page_draftOf] at hfits
  constructor
  case schema =>
    have hfound := found_draftOf name pageType assets body h
    rw [Artifact.Draft.Found, liquid_draftOf, schema_draftOf] at hfound
    refine ⟨_, _, hliquid ▸ hfound, Artifact.readRaw_written hschemaPlain, ?_, ?_⟩
    · rw [hschema, Schema.ofJson?_toJson hschemaPlain]
    · rw [Schema.get?_class_toJson, ← schema_draftOf name pageType assets body,
        Artifact.Draft.className_schema, Artifact.Draft.slug, draftOf]
  case page =>
    refine ⟨_, _, hpage ▸ Artifact.readRaw_page hfits, (pageOf name content).get?_main_toJson, ?_,
      fun hhashes => ⟨?_, hids hhashes⟩⟩
    · rw [PageConfiguration.get?_type_mainJson]
      unfold pageOf
      rw [PageConfiguration.type_build]
    · rw [PageConfiguration.get?_blocks_mainJson]
      unfold pageOf
      rw [PageConfiguration.blocks_build_of_nodup _ _ (hids hhashes)]

end

section

variable (markup name : String) (options : Options)

/-- The document of a page without its assets, and the assets. -/
def stripped : Document × Assets :=
  Assets.extract (Document.ofMarkup markup)

def typeOf : PageType :=
  PageType.classify name (stripped markup).1.body

/-- The content of a page, bound to settings. -/
def contentOf : SectionContent :=
  .ofDocument (Text.slug name) (typeOf markup name) options (stripped markup).1.body
    (stripped markup).1

/-- The markup that the text of a section carries. -/
def bodyOf : String :=
  (((contentOf markup name options).document.place? (stripped markup).1.body.id).map
    (·.tree.inner)).getD ""

theorem ofPage_eq : ofPage markup name options =
    finish name (typeOf markup name) (stripped markup).2 (bodyOf markup name options)
      (contentOf markup name options) := by
  unfold ofPage bodyOf contentOf typeOf stripped
  generalize Assets.extract (Document.ofMarkup markup) = page
  rfl

/-- A converted page holds together unless a delimiter of the schema comes from the page. The search
finds the schema at the place it was written to exactly if none does, and then the section is the
text that was written and agrees with the schema of the conversion and with the configuration of the
page. -/
theorem agrees_of_convert
    (hcounts : ∀ custom ∈ options.customPatterns, custom.maxInstances ≤ 0xFFFFFFFFFFFFFFFF)
    {conversion : Conversion} (h : convert markup name options = .ok conversion) :
    let pageType := typeOf markup name
    let assets := (stripped markup).2
    let body := bodyOf markup name options
    let content := contentOf markup name options
    (Liquid.segmented? (textOf name pageType assets body content) =
        some (Liquid.placed (partsOf name pageType assets body content)) ↔
      Undelimited name pageType body content) ∧
    (Undelimited name pageType body content →
      conversion.liquid = textOf name pageType assets body content ∧
        conversion.Agrees (Text.slug name) content.records) := by
  intro pageType assets body content
  have hplain : content.Plain := SectionContent.plain_ofDocument _ _ _ _ _ hcounts
  have hpage : conversion = finish name pageType assets body content := by
    unfold convert at h
    split at h
    · cases h
    split at h
    · cases h
    rw [← ofPage_eq]
    exact (Except.ok.inj h).symm
  subst hpage
  refine ⟨segmented?_textOf_iff name pageType assets body, fun hund => ⟨?_, ?_⟩⟩
  · exact (finish_of_undelimited name pageType assets body hplain hund).1
  · exact agrees_finish name pageType assets body hplain hund fun hhashes =>
      SectionContent.nodup_ids_records _ _ _ _ _ hhashes

end

/-- A page with one paragraph holds together. -/
theorem agrees_of_convert_paragraph :
    ∃ conversion, convert "<p>Hi</p>" "home" {} = .ok conversion ∧
      conversion.Agrees (Text.slug "home") (contentOf "<p>Hi</p>" "home" {}).records := by
  have hconvert : convert "<p>Hi</p>" "home" {} = .ok (ofPage "<p>Hi</p>" "home" {}) := by
    unfold convert
    rw [if_neg (by decide), if_neg (by decide)]
  have h := agrees_of_convert "<p>Hi</p>" "home" {} (List.forall_mem_nil _) hconvert
  have hund : Undelimited "home" (typeOf "<p>Hi</p>" "home") (bodyOf "<p>Hi</p>" "home" {})
      (contentOf "<p>Hi</p>" "home" {}) :=
    ⟨by decide +kernel, by decide +kernel, by decide +kernel⟩
  exact ⟨_, hconvert, (h.2 hund).2⟩

/-- A heading that shows the closing delimiter puts it into the label of a setting. -/
example : ¬ Undelimited "a" (typeOf "<h1>\x7b% endschema %\x7d</h1>" "a")
    (bodyOf "<h1>\x7b% endschema %\x7d</h1>" "a" {})
    (contentOf "<h1>\x7b% endschema %\x7d</h1>" "a" {}) := by
  intro h
  exact absurd h.inSchema (by decide +kernel)

end ThemeSection.Conversion

namespace ThemeSection

/-- A computation that ends well goes through all its steps. -/
theorem exists_of_bind_ok {ε α β : Type} {x : Except ε α} {f : α → Except ε β} {b : β}
    (h : x >>= f = .ok b) : ∃ a, x = .ok a ∧ f a = .ok b := by
  cases x with
  | error e => cases h
  | ok a => exact ⟨a, rfl, h⟩

/-- A traversal that meets no error gives one result for each item. -/
theorem forall₂_of_mapM_eq_ok {ε α β : Type} {f : α → Except ε β} {items : List α}
    {results : List β} (h : items.mapM f = .ok results) :
    List.Forall₂ (fun item result => f item = .ok result) items results := by
  induction items generalizing results with
  | nil =>
    obtain rfl := Except.ok.inj h
    exact .nil
  | cons item items ih =>
    rw [List.mapM_cons] at h
    obtain ⟨result, hitem, h⟩ := exists_of_bind_ok h
    obtain ⟨others, hitems, h⟩ := exists_of_bind_ok h
    obtain rfl := Except.ok.inj h
    exact .cons hitem (ih hitems)

namespace Conversion

variable {markup name : String} {options : Options}

theorem eq_ofPage_of_convert {conversion : Conversion}
    (h : convert markup name options = .ok conversion) :
    conversion = ofPage markup name options := by
  unfold convert at h
  split at h
  · cases h
  split at h
  · cases h
  exact (Except.ok.inj h).symm

theorem convert_eq_ofPage (options : Options) (hmarkup : Text.isBlank markup = false)
    (hname : Text.isBlank name = false) :
    convert markup name options = .ok (ofPage markup name options) := by
  unfold convert
  rw [if_neg (by simp [hmarkup]), if_neg (by simp [hname])]

theorem slug_ofPage : (ofPage markup name options).slug = Text.slug name := by
  rw [ofPage_eq, finish]

theorem headContent_ofPage :
    (ofPage markup name options).headContent = (stripped markup).2.headContent := by
  rw [ofPage_eq, finish]

end Conversion

namespace Batch

/-- Pages with markup and a name can be converted together. -/
theorem exists_convert {pages : List SourcePage} (options : Options)
    (h : ∀ page ∈ pages, Text.isBlank page.markup = false ∧ Text.isBlank page.name = false) :
    ∃ batch, convert pages options = .ok batch := by
  have hpages : ∃ conversions, pages.mapM (fun page =>
      Conversion.convert page.markup page.name options) = .ok conversions := by
    induction pages with
    | nil => exact ⟨[], rfl⟩
    | cons page pages ih =>
      obtain ⟨hpage, hrest⟩ := List.forall_mem_cons.1 h
      obtain ⟨conversions, hconversions⟩ := ih hrest
      refine ⟨.ofPage page.markup page.name options :: conversions, ?_⟩
      rw [List.mapM_cons, Conversion.convert_eq_ofPage options hpage.1 hpage.2, hconversions]
      rfl
  obtain ⟨conversions, hconversions⟩ := hpages
  exact ⟨_, by rw [convert, hconversions]; rfl⟩

/-- A batch has the conversion of each page, in order, and one merged head. -/
theorem eq_of_convert {pages : List SourcePage} {options : Options} {batch : Batch}
    (h : convert pages options = .ok batch) :
    batch.conversions = pages.map (fun page => .ofPage page.markup page.name options) ∧
      batch.headContent = Head.mergeLines (batch.conversions.map (·.headContent)) := by
  rw [convert] at h
  obtain ⟨conversions, hpages, h⟩ := exists_of_bind_ok h
  obtain rfl := Except.ok.inj h
  have heach : List.Forall₂ (· = ·)
      (pages.map fun page => Conversion.ofPage page.markup page.name options) conversions :=
    List.forall₂_map_left_iff.2 ((forall₂_of_mapM_eq_ok hpages).imp fun page conversion h =>
      (Conversion.eq_ofPage_of_convert h).symm)
  rw [List.forall₂_eq_eq_eq] at heach
  exact ⟨heach.symm, rfl⟩

end Batch

end ThemeSection
