import ThemeSection.Proofs.Artifact.Enforcement
import ThemeSection.Proofs.Json.RoundTrip
import ThemeSection.Proofs.Schema.Basic

/-!
Artifacts that agree already are left as they are. The schema and the page configuration that are
built for a slug carry it, and every block of the page has a type that the schema defines, so
nothing is corrected and nothing removed, as long as the schema is found where it was written.
-/

namespace ThemeSection.Artifact

open Json

/-- The text of a section whose schema carries its names is kept, and nothing is reported. -/
theorem enforceSection_of_named {slug liquid segment : String} {fields : Fields}
    (hsegment : Liquid.segment? liquid = some segment) (hread : read segment = .ok (.object fields))
    (h : Named slug fields) :
    enforceSection slug liquid = ⟨liquid, [], [], some (blockTypes fields)⟩ := by
  simp [enforceSection, hsegment, hread, correctSchema_of_named h]

section

variable {schema : Schema} {fields : Fields}

/-- The block types that the JSON of a schema defines. -/
theorem blockTypes_toJson (h : schema.toJson = .object fields) :
    blockTypes fields = schema.blocks.map (·.type) := by
  obtain rfl := Value.object.inj h
  have htypes (definition : BlockDefinition) :
      (definition.toJson.get? "type").bind (·.str?) = some definition.type := rfl
  simp [blockTypes, Fields.get?_cons, Value.array?, List.filterMap_map, htypes]

theorem named_toJson (htitle : isTitle schema.name) (h : schema.toJson = .object fields) :
    Named schema.className fields := by
  obtain rfl := Value.object.inj h
  refine ⟨rfl, ?_⟩
  simpa [textField, Fields.get?_cons] using htitle

theorem readRaw_written (hplain : schema.Plain) :
    readRaw (Liquid.written schema) = .ok schema.toJson := by
  have hfits := Schema.fits_toJson hplain
  exact Value.readRaw_pretty hfits.exact (Nat.lt_of_le_of_lt hfits.height (by decide)) (Or.inr rfl)
    (Or.inr rfl)

theorem read_written (hplain : schema.Plain) :
    read (Liquid.written schema) = .ok schema.toJson := by
  rw [Json.read, readRaw_written hplain, Except.map,
    Value.settle_of_exact _ (Schema.fits_toJson hplain).exact]

/-- The text of a section keeps its schema where that names the slug. -/
theorem enforceSection_of_written {liquid : String} (hplain : schema.Plain)
    (htitle : isTitle schema.name)
    (hsegment : Liquid.segment? liquid = some (Liquid.written schema)) :
    enforceSection schema.className liquid =
      ⟨liquid, [], [], some (schema.blocks.map (·.type))⟩ := by
  obtain ⟨fields, hfields⟩ : ∃ fields, schema.toJson = .object fields := ⟨_, rfl⟩
  have hread := read_written hplain
  rw [hfields] at hread
  rw [enforceSection_of_named hsegment hread (named_toJson htitle hfields),
    blockTypes_toJson hfields]

end

/-- The text of a page whose main section can be kept is kept, and nothing is reported. -/
theorem enforcePage_of_kept {slug pageText : String} {known : Option (List String)} {page : Value}
    {path : PagePath} (hread : read pageText = .ok page) (hpath : pagePath? page = some path)
    (h : Kept slug known path.main) :
    enforcePage slug known pageText = ⟨pageText, [], [], []⟩ := by
  simp [enforcePage, hread, correctPage?_eq, hpath, correctMain_of_kept h]

theorem hasKnownType_entryOf {types : List String} {record : BlockRecord}
    (h : record.type ∈ types) : hasKnownType types (PageConfiguration.entryOf record).2 := by
  have htype : (((PageConfiguration.entryOf record).2.get? "type").bind (·.str?)) =
      some record.type := rfl
  simpa [hasKnownType, htype] using h

/-- A page that is built for a slug can be kept if every record has a known type. -/
theorem kept_build (slug : String) (settings : List Setting) {records : List BlockRecord}
    {types : List String} (hknown : ∀ record ∈ records, record.type ∈ types) :
    ∃ path, pagePath? (PageConfiguration.build slug settings records).toJson = some path ∧
      Kept slug (some types) path.main := by
  refine ⟨_, rfl, rfl, ?_⟩
  rintro _ ⟨⟩ blocks hblocks block hblock
  obtain rfl : Fields.merge (records.map PageConfiguration.entryOf) = blocks :=
    Option.some.inj hblocks
  obtain ⟨record, hrecord, rfl⟩ := List.mem_map.1 ((Fields.merge_invariant _).2 block hblock)
  exact hasKnownType_entryOf (hknown record hrecord)

section

variable {page : PageConfiguration}

theorem readRaw_page (hfits : page.toJson.Fits 6) :
    readRaw page.toJson.pretty = .ok page.toJson := by
  have hread := Value.readRaw_pretty hfits.exact (Nat.lt_of_le_of_lt hfits.height (by decide))
    (Or.inl rfl) (Or.inl rfl)
  rwa [String.append_empty, String.empty_append] at hread

theorem read_page (hfits : page.toJson.Fits 6) : read page.toJson.pretty = .ok page.toJson := by
  rw [Json.read, readRaw_page hfits, Except.map, Value.settle_of_exact _ hfits.exact]

end

/-- Artifacts that were built for a name are left as they are, and nothing is reported, provided that
the schema is found as it was written and that it defines the type of every record. -/
theorem enforce_of_written {fileName liquid : String} {schema : Schema} {settings : List Setting}
    {records : List BlockRecord} (hplain : schema.Plain)
    (hclass : schema.className = Text.slug fileName)
    (hname : schema.name = Text.schemaTitle (Text.slug fileName))
    (hsegment : Liquid.segment? liquid = some (Liquid.written schema))
    (hfits : (PageConfiguration.build (Text.slug fileName) settings records).toJson.Fits 6)
    (hknown : ∀ record ∈ records, record.type ∈ schema.blocks.map (·.type)) :
    let page := PageConfiguration.build (Text.slug fileName) settings records
    enforce fileName liquid page.toJson.pretty =
      { liquid
        pageText := page.toJson.pretty
        report := ⟨Text.slug fileName, [], []⟩
        changes := [] } := by
  intro page
  have htitle : isTitle schema.name := hname ▸ isTitle_schemaTitle fileName
  have hpart := enforceSection_of_written hplain htitle hsegment
  rw [hclass] at hpart
  obtain ⟨path, hpath, hkept⟩ := kept_build (Text.slug fileName) settings hknown
  have hpage := enforcePage_of_kept (read_page hfits) hpath hkept
  simp only [enforce_eq, hpart, page, hpage, List.append_nil, List.map_nil]

end ThemeSection.Artifact
