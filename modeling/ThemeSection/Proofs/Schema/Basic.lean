import ThemeSection.Proofs.Json.Shape
import ThemeSection.Proofs.Schema.Setting
import ThemeSection.Schema.Basic
import ThemeSection.Schema.PageConfiguration

/-!
Schemas survive being written as JSON. What is read back from the JSON of a schema is the schema
itself, provided that its settings are plain and that its counts fit into 64 bits.
-/

namespace ThemeSection

open Json

section

variable {α : Type} (name : String)

theorem keys_unlessEmpty_sublist (toJson : List α → Value) (items : List α) :
    (Fields.keys (unlessEmpty name toJson items)).Sublist [name] := by
  unfold unlessEmpty
  cases items with
  | nil => exact List.nil_sublist _
  | cons item rest => exact List.Sublist.refl _

theorem get?_unlessEmpty (toJson : List α → Value) (items : List α) (key : String) :
    Fields.get? (unlessEmpty name toJson items) key =
      if key ≠ name ∨ items = [] then none else some (toJson items) := by
  unfold unlessEmpty
  cases items with
  | nil => simp
  | cons item rest => simp [Fields.get?_cons]

theorem fits_of_mem_unlessEmpty {n : Nat} (toJson : List α → Value) {items : List α}
    (h : (toJson items).Fits n) : ∀ field ∈ unlessEmpty name toJson items, field.2.Fits n := by
  intro field hfield
  unfold unlessEmpty at hfield
  split at hfield
  · cases hfield
  · obtain rfl := List.mem_singleton.1 hfield
    exact h

/-- The field for a value that may be missing. -/
def optionalField (value : Option Value) : Fields :=
  (value.map fun v => (name, v)).toList

theorem keys_optionalField_sublist (value : Option Value) :
    (optionalField name value).keys.Sublist [name] := by
  cases value with
  | none => exact List.nil_sublist _
  | some v => exact List.Sublist.refl _

theorem get?_optionalField (value : Option Value) (key : String) :
    (optionalField name value).get? key = if key = name then value else none := by
  cases value with
  | none => exact (ite_self _).symm
  | some v => exact Fields.get?_cons _ _ _ _

theorem scalar_of_mem_optionalField {value : Option Value} (h : ∀ v ∈ value, v.Scalar) :
    ∀ field ∈ optionalField name value, field.2.Scalar := by
  intro field hfield
  cases value with
  | none => cases hfield
  | some v =>
    obtain rfl := List.mem_singleton.1 hfield
    exact h v rfl

end

namespace Setting

variable {setting : Setting}

/-- The fields of a setting in a schema. -/
def jsonFields (setting : Setting) : Fields :=
  [("type", .string setting.kind.name), ("id", .string setting.id),
    ("label", .string setting.label)]
  ++ optionalField "default" setting.default ++ optionalField "min" setting.min
  ++ optionalField "max" setting.max ++ optionalField "step" setting.step
  ++ optionalField "info" (setting.info.map .string)

theorem toJson_eq (setting : Setting) : setting.toJson = .object setting.jsonFields := rfl

theorem nodup_keys_jsonFields (setting : Setting) : setting.jsonFields.keys.Nodup := by
  have hsub : setting.jsonFields.keys.Sublist (["type", "id", "label"] ++ ["default"] ++ ["min"]
      ++ ["max"] ++ ["step"] ++ ["info"]) := by
    simp only [jsonFields, Fields.keys_append]
    repeat' apply List.Sublist.append
    all_goals first
      | exact .refl _
      | exact keys_optionalField_sublist _ _
  exact hsub.nodup (by decide)

theorem fits_toJson (h : setting.Plain) : setting.toJson.Fits 1 := by
  refine Value.fits_object (nodup_keys_jsonFields setting) fun field hfield => ?_
  refine Value.Scalar.fits ?_ 0
  have htext : ∀ text ∈ setting.info.map Value.string, text.Scalar := by
    rintro _ htext
    obtain ⟨info, -, rfl⟩ := Option.map_eq_some_iff.1 htext
    trivial
  simp only [List.mem_append] at hfield
  rcases hfield with ((((hfield | hfield) | hfield) | hfield) | hfield) | hfield
  · simp only [List.mem_cons, List.not_mem_nil, or_false] at hfield
    rcases hfield with rfl | rfl | rfl <;> trivial
  · exact scalar_of_mem_optionalField _ h.default field hfield
  · exact scalar_of_mem_optionalField _ h.min field hfield
  · exact scalar_of_mem_optionalField _ h.max field hfield
  · exact scalar_of_mem_optionalField _ h.step field hfield
  · exact scalar_of_mem_optionalField _ htext field hfield

/-- A plain setting comes back from its JSON. -/
theorem ofJson?_toJson (h : setting.Plain) : ofJson? setting.toJson = some setting := by
  have hmembers : fieldNames.map setting.jsonFields.get? =
      [some (.string setting.kind.name), some (.string setting.id), some (.string setting.label),
        setting.default, setting.min, setting.max, setting.step,
        setting.info.map Value.string] := by
    simp [fieldNames, jsonFields, Fields.get?_append, Fields.get?_cons, get?_optionalField]
  have hkind : SettingKind.ofJson? (.string setting.kind.name) = some setting.kind :=
    SettingKind.ofName?_name setting.kind
  have hinfo : nullable (·.str?) (setting.info.map Value.string) = some setting.info := by
    cases setting.info <;> rfl
  rw [ofJson?, toJson_eq, members?_object (nodup_keys_jsonFields setting), hmembers]
  simp [required, hkind, nullable_settle h.default, nullable_settle h.min, nullable_settle h.max,
    nullable_settle h.step, hinfo]

end Setting

namespace BlockDefinition

variable {definition : BlockDefinition}

/-- A definition whose settings are plain and whose limit fits into 64 bits. -/
structure Plain (definition : BlockDefinition) : Prop where
  settings : ∀ setting ∈ definition.settings, setting.Plain
  limit : definition.limit ≤ 0xFFFFFFFFFFFFFFFF

theorem fits_toJson (h : definition.Plain) : definition.toJson.Fits 3 := by
  refine Value.fits_object (by simp) fun field hfield => ?_
  simp only [List.mem_cons, List.not_mem_nil, or_false] at hfield
  rcases hfield with rfl | rfl | rfl | rfl
  · exact Value.fits_string _ 2
  · exact Value.fits_string _ 2
  · exact (Setting.scalar_ofNat h.limit).fits 2
  · exact Value.fits_array <| List.forall_mem_map.2 fun setting hsetting =>
      Setting.fits_toJson (h.settings setting hsetting)

theorem ofJson?_toJson (h : definition.Plain) : ofJson? definition.toJson = some definition := by
  have hsettings := asList?_map fun setting hsetting =>
    Setting.ofJson?_toJson (h.settings setting hsetting)
  rw [ofJson?, toJson, members?_object (by simp)]
  simp [fieldNames, Fields.get?_cons, required, asCount?_ofNat h.limit, hsettings]

end BlockDefinition

/-- Values that settings have, under their ids. -/
structure PlainFields (fields : Fields) : Prop where
  keys : fields.keys.Nodup
  values : ∀ field ∈ fields, field.2.Scalar

theorem PlainFields.fits {fields : Fields} (h : PlainFields fields) :
    (Value.object fields).Fits 1 :=
  Value.fits_object h.keys fun field hfield => (h.values field hfield).fits 0

theorem PlainFields.withDefault {fields : Fields} (h : PlainFields fields) :
    withDefault [] asFields? (if fields = [] then none else some (.object fields)) = some fields := by
  split
  case isTrue hnil => rw [hnil]; rfl
  case isFalse => exact asFields?_object h.fits.exact

namespace PresetBlock

variable {block : PresetBlock}

theorem nodup_keys_jsonFields (block : PresetBlock) :
    (Fields.keys (("type", .string block.type) ::
      unlessEmpty "settings" .object block.settings)).Nodup := by
  have hsub := (keys_unlessEmpty_sublist "settings" .object block.settings).cons_cons "type"
  exact hsub.nodup (by decide)

theorem fits_toJson (h : PlainFields block.settings) : block.toJson.Fits 2 := by
  refine Value.fits_object (nodup_keys_jsonFields block) (List.forall_mem_cons.2 ⟨?_, ?_⟩)
  · exact Value.fits_string _ 1
  · exact fits_of_mem_unlessEmpty _ _ h.fits

theorem ofJson?_toJson (h : PlainFields block.settings) : ofJson? block.toJson = some block := by
  rw [ofJson?, toJson, members?_object (nodup_keys_jsonFields block)]
  simp [Fields.get?_cons, get?_unlessEmpty, required, h.withDefault]

end PresetBlock

namespace Preset

variable {preset : Preset}

/-- A preset all of whose values are plain. -/
structure Plain (preset : Preset) : Prop where
  settings : PlainFields preset.settings
  blocks : ∀ block ∈ preset.blocks, PlainFields block.settings

theorem nodup_keys_jsonFields (preset : Preset) :
    (Fields.keys (("name", .string preset.name) ::
      unlessEmpty "settings" .object preset.settings
        ++ unlessEmpty "blocks" (fun blocks => .array (blocks.map PresetBlock.toJson))
          preset.blocks)).Nodup := by
  have hsettings := keys_unlessEmpty_sublist "settings" .object preset.settings
  have hblocks := keys_unlessEmpty_sublist "blocks"
    (fun blocks => .array (blocks.map PresetBlock.toJson)) preset.blocks
  rw [Fields.keys_append, Fields.keys_cons]
  exact ((hsettings.cons_cons "name").append hblocks).nodup (by decide)

theorem fits_toJson (h : preset.Plain) : preset.toJson.Fits 4 := by
  have hblocks : (Value.array (preset.blocks.map PresetBlock.toJson)).Fits 3 :=
    Value.fits_array <| List.forall_mem_map.2 fun block hblock =>
      PresetBlock.fits_toJson (h.blocks block hblock)
  refine Value.fits_object (nodup_keys_jsonFields preset) fun field hfield => ?_
  rcases List.mem_append.1 hfield with hfield | hfield
  · rcases List.mem_cons.1 hfield with rfl | hfield
    · exact Value.fits_string _ 3
    · exact fits_of_mem_unlessEmpty _ _ (h.settings.fits.mono (by decide)) field hfield
  · exact fits_of_mem_unlessEmpty _ (fun blocks => .array (blocks.map PresetBlock.toJson)) hblocks
      field hfield

theorem ofJson?_toJson (h : preset.Plain) : ofJson? preset.toJson = some preset := by
  have hblocks : withDefault [] (asList? PresetBlock.ofJson?)
      (if preset.blocks = [] then none else some (.array (preset.blocks.map PresetBlock.toJson))) =
        some preset.blocks := by
    split
    case isTrue hnil => rw [hnil]; rfl
    case isFalse => exact asList?_map fun block hblock =>
      PresetBlock.ofJson?_toJson (h.blocks block hblock)
  rw [ofJson?, toJson, members?_object (nodup_keys_jsonFields preset)]
  simp [Fields.get?_append, Fields.get?_cons, get?_unlessEmpty, required,
    h.settings.withDefault, hblocks]

end Preset

namespace Schema

variable {schema : Schema}

/-- A schema whose settings are plain, its block types and its presets too. -/
structure Plain (schema : Schema) : Prop where
  settings : ∀ setting ∈ schema.settings, setting.Plain
  blocks : ∀ definition ∈ schema.blocks, definition.Plain
  presets : ∀ preset ∈ schema.presets, preset.Plain

theorem fits_toJson (h : schema.Plain) : schema.toJson.Fits 6 := by
  refine Value.fits_object (by simp) fun field hfield => ?_
  simp only [List.mem_cons, List.not_mem_nil, or_false] at hfield
  rcases hfield with rfl | rfl | rfl | rfl | rfl | rfl | rfl
  · exact Value.fits_string _ 5
  · exact Value.fits_string _ 5
  · exact Value.fits_string _ 5
  · refine (Value.fits_array ?_).mono (m := 2) (by decide)
    exact List.forall_mem_map.2 fun setting hmem => Setting.fits_toJson (h.settings setting hmem)
  · refine (Value.fits_array ?_).mono (m := 4) (by decide)
    exact List.forall_mem_map.2 fun block hmem => BlockDefinition.fits_toJson (h.blocks block hmem)
  · refine Value.fits_array (n := 4) ?_
    exact List.forall_mem_map.2 fun preset hmem => Preset.fits_toJson (h.presets preset hmem)
  · refine (Value.fits_object (n := 1) (by simp) fun field hfield => ?_).mono (by decide)
    obtain rfl := List.mem_singleton.1 hfield
    exact Value.fits_ofStrings _ 0

/-- A plain schema comes back from its JSON. -/
theorem ofJson?_toJson (h : schema.Plain) : ofJson? schema.toJson = some schema := by
  have hsettings := asList?_map fun setting hmem => Setting.ofJson?_toJson (h.settings setting hmem)
  have hblocks := asList?_map fun block hmem => BlockDefinition.ofJson?_toJson (h.blocks block hmem)
  have hpresets := asList?_map fun preset hmem => Preset.ofJson?_toJson (h.presets preset hmem)
  have htemplates : templatesOfJson? (.object [("templates", .ofStrings schema.templates)]) =
      some schema.templates := by
    have hstrings : asList? (·.str?) (.ofStrings schema.templates) = some schema.templates :=
      asList?_map fun text _ => Value.str?_string text
    rw [templatesOfJson?, members?_object (by simp)]
    simp [Fields.get?_cons, required, hstrings]
  rw [ofJson?, toJson, members?_object (by simp)]
  simp [fieldNames, Fields.get?_cons, required, hsettings, hblocks, hpresets, htemplates]

theorem get?_class_toJson (schema : Schema) :
    schema.toJson.get? "class" = some (.string schema.className) := by
  simp [toJson, Value.get?, Value.object?, Fields.get?_cons]

/-- Defaults are plain even where settings share an id, since merging keeps one field for each. -/
theorem plain_defaults {settings : List Setting} (hplain : ∀ setting ∈ settings, setting.Plain) :
    PlainFields (Setting.defaults settings) := by
  rw [Setting.defaults_eq]
  obtain ⟨hkeys, hmerge⟩ := Fields.merge_invariant (Setting.fieldsOf (·.default) settings)
  have hscalar := Setting.scalar_of_mem_fieldsOf (·.default) fun setting hmem =>
    (hplain setting hmem).default
  exact ⟨hkeys, fun field hfield => hscalar field (hmerge field hfield)⟩

section

variable (slug : String) (pageType : PageType) (settings : List Setting)
  (definitions : List BlockDefinition) (records : List BlockRecord)

@[simp] theorem className_build :
    (build slug pageType settings definitions records).className = slug := rfl

@[simp] theorem name_build :
    (build slug pageType settings definitions records).name = Text.schemaTitle slug := rfl

@[simp] theorem blocks_build :
    (build slug pageType settings definitions records).blocks = definitions := rfl

end

/-- The schema of a page is plain if what it is built from is. -/
theorem plain_build (slug : String) (pageType : PageType) {settings : List Setting}
    {definitions : List BlockDefinition} {records : List BlockRecord}
    (hplain : ∀ setting ∈ settings, setting.Plain)
    (hdefinitions : ∀ definition ∈ definitions, definition.Plain)
    (hrecords : ∀ record ∈ records, PlainFields record.settings) :
    (build slug pageType settings definitions records).Plain where
  settings := hplain
  blocks := hdefinitions
  presets := by
    intro preset hpreset
    obtain rfl := List.mem_singleton.1 hpreset
    refine ⟨plain_defaults hplain, fun block hblock => ?_⟩
    rcases List.mem_append.1 hblock with hblock | hblock
    · obtain ⟨record, hmem, rfl⟩ := List.mem_map.1 hblock
      exact hrecords record hmem
    · obtain ⟨definition, hmem, rfl⟩ := List.mem_map.1 hblock
      exact plain_defaults (hdefinitions definition (List.mem_of_mem_filter hmem)).settings

end Schema

namespace PageConfiguration

/-- The entry of a record in a page configuration. -/
def entryOf (record : BlockRecord) : String × Value :=
  (record.id, .object [("type", .string record.type), ("settings", .object record.settings)])

theorem keys_map_entryOf (records : List BlockRecord) :
    Fields.keys (records.map entryOf) = records.map (·.id) := by
  rw [Fields.keys, List.map_map]
  rfl

/-- Where ids tell records apart, the configuration of a page has an entry for each, in order. -/
theorem blocks_build_of_nodup (slug : String) (settings : List Setting)
    {records : List BlockRecord} (h : (records.map (·.id)).Nodup) :
    (build slug settings records).blocks = records.map entryOf :=
  Fields.merge_of_nodup (keys_map_entryOf records ▸ h)

theorem fits_toJson_build (slug : String) {settings : List Setting} {records : List BlockRecord}
    (hsettings : PlainFields (Setting.defaults settings))
    (hrecords : ∀ record ∈ records, PlainFields record.settings) :
    (build slug settings records).toJson.Fits 6 := by
  have hentry : ∀ field ∈ records.map entryOf, field.2.Fits 2 := by
    refine List.forall_mem_map.2 fun record hmem => Value.fits_object (by simp) ?_
    intro field hfield
    simp only [List.mem_cons, List.not_mem_nil, or_false] at hfield
    rcases hfield with rfl | rfl
    · exact Value.fits_string _ 1
    · exact (hrecords record hmem).fits
  obtain ⟨hkeys, hmerge⟩ := Fields.merge_invariant (records.map entryOf)
  have hmain : ∀ field ∈ [("type", Value.string slug),
      ("settings", .object (Setting.defaults settings)),
      ("blocks", .object (Fields.merge (records.map entryOf))),
      ("block_order", .ofStrings (records.map (·.id)))], field.2.Fits 3 := by
    intro field hfield
    simp only [List.mem_cons, List.not_mem_nil, or_false] at hfield
    rcases hfield with rfl | rfl | rfl | rfl
    · exact Value.fits_string _ 3
    · exact hsettings.fits.mono (by decide)
    · exact Value.fits_object hkeys fun field hfield => hentry field (hmerge field hfield)
    · exact (Value.fits_ofStrings _ 0).mono (by decide)
  have hsections : (Value.object [("main", .object [("type", .string slug),
      ("settings", .object (Setting.defaults settings)),
      ("blocks", .object (Fields.merge (records.map entryOf))),
      ("block_order", .ofStrings (records.map (·.id)))])]).Fits 5 :=
    Value.fits_object (by simp) fun field hfield => by
      obtain rfl := List.mem_singleton.1 hfield
      exact Value.fits_object (by simp) hmain
  refine Value.fits_object (by simp) fun field hfield => ?_
  simp only [List.mem_cons, List.not_mem_nil, or_false] at hfield
  rcases hfield with rfl | rfl
  · exact hsections
  · exact (Value.fits_ofStrings _ 0).mono (by decide)

@[simp] theorem type_build (slug : String) (settings : List Setting) (records : List BlockRecord) :
    (build slug settings records).type = slug := rfl

/-- The main section of a page, as JSON. -/
def mainJson (page : PageConfiguration) : Value :=
  .object [("type", .string page.type), ("settings", .object page.settings),
    ("blocks", .object page.blocks), ("block_order", .ofStrings page.blockOrder)]

theorem get?_main_toJson (page : PageConfiguration) :
    (page.toJson.get? "sections").bind (·.get? "main") = some page.mainJson := rfl

theorem get?_type_mainJson (page : PageConfiguration) :
    page.mainJson.get? "type" = some (.string page.type) := rfl

theorem get?_blocks_mainJson (page : PageConfiguration) :
    page.mainJson.get? "blocks" = some (.object page.blocks) := by
  simp [mainJson, Value.get?, Value.object?, Fields.get?_cons]

end PageConfiguration

end ThemeSection
