import ThemeSection.Conversion
import ThemeSection.Proofs.Block.Collapse
import ThemeSection.Proofs.PageSettings.Sweep
import ThemeSection.Proofs.Schema.Basic

/-!
The content of a page fits together: its settings, block definitions and records are what a schema
and a page configuration need so that nothing in them is lost or stands twice.
-/

namespace ThemeSection

open Markup PageConfiguration

namespace SectionContent

section

variable (slug : String) (pageType : PageType) (options : Options) (root : Place) (d : Document)

/-- What replacing products leaves alone after that. -/
def excluded : List NodeId :=
  (replaceProducts pageType options root d).2.region.toList

/-- The document in which the blocks of a page are looked for. -/
def searched : Document :=
  (replaceProducts pageType options root d).1

/-- The blocks that are found on a page. -/
def detected : Detection :=
  detectBlocks root.id options (excluded pageType options root d)
    (searched pageType options root d)

/-- What collapsing the blocks of a page comes to. -/
def collapsed : Document × BlockPass :=
  BlockPass.collapseAll slug (detected pageType options root d).blocks
    (searched pageType options root d)

/-- What adding block types after that comes to. -/
def bound : Document × BlockPass :=
  BlockPass.injectAll root.id options.injectBlocks (collapsed slug pageType options root d)

theorem settings_ofDocument :
    (ofDocument slug pageType options root d).settings =
      (PageSettings.extract root.id
        ((bound slug pageType options root d).2.regions ++ excluded pageType options root d)
        options (replaceProducts pageType options root d).2.settings
        (bound slug pageType options root d).1).2.settings := by
  simp only [ofDocument, bound, collapsed, detected, searched, excluded]

theorem definitions_ofDocument :
    (ofDocument slug pageType options root d).definitions =
      (bound slug pageType options root d).2.definitions := by
  simp only [ofDocument, bound, collapsed, detected, searched, excluded]

theorem extends_bound :
    (collapsed slug pageType options root d).2.Extends (bound slug pageType options root d).2 :=
  BlockPass.extends_injectAll _ _ _

theorem records_ofDocument :
    (ofDocument slug pageType options root d).records =
      (detected pageType options root d).blocks.flatMap (·.records slug) := by
  have hbound : (ofDocument slug pageType options root d).records =
      (bound slug pageType options root d).2.records := by
    simp only [ofDocument, bound, collapsed, detected, searched, excluded]
  rw [hbound, (extends_bound slug pageType options root d).records, collapsed,
    BlockPass.collapseAll_records]

/-- Blocks are found from one node down, or there are none. -/
theorem detected_cases :
    (∃ top, (searched pageType options root d).place? root.id = some top ∧
      ∃ excluded, (detected pageType options root d).Sound top excluded) ∨
    detected pageType options root d = {} := by
  unfold detected detectBlocks
  split
  case h_1 top htop => exact Or.inl ⟨top, htop, _, Detection.sound_detect top _ _⟩
  case h_2 => exact Or.inr rfl

theorem nodup_types_detected :
    ((detected pageType options root d).blocks.map (·.type)).Nodup := by
  rcases detected_cases pageType options root d with ⟨_, _, _, h⟩ | h
  · exact h.types
  · rw [h]
    exact List.nodup_nil

/-- Every block that is found has elements, in document order and not too many. -/
theorem places_of_mem_detected {block : DetectedBlock}
    (hblock : block ∈ (detected pageType options root d).blocks) :
    block.places ≠ [] ∧ block.places.length ≤ block.pattern.max ∧
      ∃ top, (searched pageType options root d).place? root.id = some top ∧
        block.places.Sublist top.descend := by
  rcases detected_cases pageType options root d with ⟨top, htop, _, h⟩ | h
  · exact ⟨h.nonempty block hblock, h.atMost block hblock, top, htop, h.ordered block hblock⟩
  · rw [h] at hblock
    cases hblock

/-- The types of the definitions that blocks have are types of blocks, in their order. -/
theorem types_definitions_sublist (blocks : List DetectedBlock) :
    ((blocks.filterMap (·.definition?)).map (·.type)).Sublist (blocks.map (·.type)) := by
  induction blocks with
  | nil => exact List.Sublist.refl _
  | cons block rest ih =>
    rw [List.filterMap_cons]
    cases hdefinition : block.definition? with
    | none => exact ih.cons _
    | some definition =>
      rw [List.map_cons, List.map_cons, DetectedBlock.type_of_mem_definition? hdefinition]
      exact ih.cons_cons _

/-- No two block definitions are of one type, added ones included. -/
theorem nodup_types_ofDocument :
    ((ofDocument slug pageType options root d).definitions.map (·.type)).Nodup := by
  rw [definitions_ofDocument]
  refine (extends_bound slug pageType options root d).types ?_
  rw [collapsed, BlockPass.collapseAll_definitions]
  exact (types_definitions_sublist _).nodup (nodup_types_detected pageType options root d)

theorem known_of_mem_detected {block : DetectedBlock}
    (h : block ∈ (detected pageType options root d).blocks) :
    Detection.Known options block.pattern := by
  unfold detected detectBlocks at h
  split at h
  case h_1 => exact Detection.known_of_mem_detect h
  case h_2 => cases h

/-- Every block definition is made from what some instance says. -/
theorem exists_ofInstance {definition : BlockDefinition}
    (h : definition ∈ (ofDocument slug pageType options root d).definitions) :
    ∃ pattern first, Detection.Known options pattern ∧ definition = .ofInstance pattern first := by
  obtain ⟨added, heq, hadded⟩ := (extends_bound slug pageType options root d).definitions
  rw [definitions_ofDocument, heq, collapsed, BlockPass.collapseAll_definitions,
    List.mem_append] at h
  rcases h with h | h
  · obtain ⟨block, hmem, hblock⟩ := List.mem_filterMap.1 h
    obtain ⟨first, -, rfl⟩ := Option.map_eq_some_iff.1 hblock
    exact ⟨_, _, known_of_mem_detected pageType options root d hmem, rfl⟩
  · obtain ⟨pattern, hmem, rfl⟩ := hadded definition h
    exact ⟨_, _, Or.inl (List.mem_append_left _ (List.mem_append_left _ hmem)), rfl⟩

/-- The limits of all block types fit into 64 bits if those that are asked for do. -/
theorem limit_le_of_mem_definitions
    (hcounts : ∀ custom ∈ options.customPatterns, custom.maxInstances ≤ 0xFFFFFFFFFFFFFFFF)
    {definition : BlockDefinition}
    (h : definition ∈ (ofDocument slug pageType options root d).definitions) :
    definition.limit ≤ 0xFFFFFFFFFFFFFFFF := by
  obtain ⟨pattern, first, hknown, rfl⟩ := exists_ofInstance slug pageType options root d h
  have hcatalog : ∀ pattern ∈ BlockPattern.catalog, pattern.max ≤ 20 := by
    simp [BlockPattern.catalog]
  change pattern.max ≤ _
  rcases hknown with hknown | ⟨members, rfl⟩
  · rcases List.mem_append.1 hknown with hknown | hknown
    · rcases List.mem_append.1 hknown with hknown | hknown
      · have := hcatalog pattern hknown
        omega
      · obtain ⟨custom, hmem, rfl⟩ := List.mem_map.1 hknown
        exact Nat.max_le.2 ⟨by decide, hcounts custom hmem⟩
    · obtain rfl := List.mem_singleton.1 hknown
      decide
  · exact Nat.le_of_ble_eq_true rfl

/-- Every block that is found has a definition. -/
theorem exists_definition_of_mem_detected {block : DetectedBlock}
    (hblock : block ∈ (detected pageType options root d).blocks) :
    ∃ definition ∈ (ofDocument slug pageType options root d).definitions,
      block.definition? = some definition ∧ definition.type = block.type ∧
        definition.limit = block.pattern.max := by
  obtain ⟨first, hdefinition⟩ := DetectedBlock.exists_definition
    (places_of_mem_detected pageType options root d hblock).1
  obtain ⟨added, heq, -⟩ := (extends_bound slug pageType options root d).definitions
  refine ⟨_, ?_, hdefinition, rfl, rfl⟩
  rw [definitions_ofDocument, heq, collapsed, BlockPass.collapseAll_definitions]
  exact List.mem_append_left _ (List.mem_filterMap.2 ⟨block, hblock, hdefinition⟩)

/-- The settings of a page are plain and no two have the same id. -/
theorem sound_settings_ofDocument :
    ((ofDocument slug pageType options root d).settings.map Setting.id).Nodup ∧
      ∀ setting ∈ (ofDocument slug pageType options root d).settings, setting.Plain := by
  have hseed : ∀ setting ∈ (replaceProducts pageType options root d).2.settings,
      setting.Plain := by
    unfold replaceProducts
    split
    · exact FeaturedPass.plain_replace root pageType options d
    · exact List.forall_mem_nil _
  rw [settings_ofDocument]
  exact PageSettings.sound_extract _ _ _ hseed _

/-- The records of a type are those of the one block of that type. -/
theorem filter_records {block : DetectedBlock}
    (hblock : block ∈ (detected pageType options root d).blocks) :
    (ofDocument slug pageType options root d).records.filter (·.type == block.type) =
      block.records slug := by
  rw [records_ofDocument]
  exact DetectedBlock.filter_flatMap_records slug (nodup_types_detected pageType options root d)
    hblock

theorem exists_block_of_mem_records {record : BlockRecord}
    (h : record ∈ (ofDocument slug pageType options root d).records) :
    ∃ block ∈ (detected pageType options root d).blocks, record ∈ block.records slug := by
  rw [records_ofDocument] at h
  exact List.mem_flatMap.1 h

/-- A record of a type holds what its element says under the settings of the type's definition. -/
theorem exists_settings_of_mem_records {record : BlockRecord}
    (hrecord : record ∈ (ofDocument slug pageType options root d).records)
    {definition : BlockDefinition}
    (hdefinition : definition ∈ (ofDocument slug pageType options root d).definitions)
    (htype : record.type = definition.type) :
    ∃ (said : BlockInstance) (role : BlockRole), record.settings = said.record role definition := by
  obtain ⟨block, hblock, hmem⟩ := exists_block_of_mem_records slug pageType options root d hrecord
  obtain ⟨made, hmade, hsome, hmadeType, -⟩ :=
    exists_definition_of_mem_detected slug pageType options root d hblock
  -- Types tell definitions apart, so the given definition is the one of the block.
  have hsame : definition = made :=
    List.inj_on_of_nodup_map (nodup_types_ofDocument slug pageType options root d) hdefinition
      hmade (by rw [hmadeType, ← htype, DetectedBlock.type_of_mem_records hmem])
  subst hsame
  rw [DetectedBlock.records_of_definition? hsome] at hmem
  obtain ⟨numbered, -, rfl⟩ := List.mem_map.1 hmem
  exact ⟨_, _, rfl⟩

/-- Where hashes tell the records of each type apart, ids tell all records apart. -/
theorem nodup_ids_records
    (hhashes : ∀ type, ((List.range ((ofDocument slug pageType options root d).records.countP
      (·.type == type))).map (blockHash slug type)).Nodup) :
    ((ofDocument slug pageType options root d).records.map (·.id)).Nodup := by
  have hblocks : ∀ block ∈ (detected pageType options root d).blocks,
      ((List.range block.places.length).map (blockHash slug block.type)).Nodup := by
    intro block hblock
    have hcount := hhashes block.type
    rwa [List.countP_eq_length_filter, filter_records slug pageType options root d hblock,
      DetectedBlock.length_records] at hcount
  rw [records_ofDocument]
  exact DetectedBlock.nodup_ids_flatMap_records slug
    (nodup_types_detected pageType options root d) hblocks

end

/-- How the definitions, the settings and the records of a page agree with the blocks that were
found on it. -/
structure Coherent (slug : String) (blocks : List DetectedBlock) (content : SectionContent) :
    Prop where
  types : (content.definitions.map (·.type)).Nodup
  settingIds : (content.settings.map Setting.id).Nodup
  blockSettingIds : ∀ definition ∈ content.definitions,
    (definition.settings.map Setting.id).Nodup
  /-- Every record has a definition, and comes from a block. -/
  defined : ∀ record ∈ content.records,
    (∃ definition ∈ content.definitions, definition.type = record.type) ∧
      ∃ block ∈ blocks, block.type = record.type
  /-- The records of a block's type are those of its elements, one by one in their order. -/
  recorded : ∀ block ∈ blocks, ∃ definition ∈ content.definitions,
    definition.type = block.type ∧
      content.records.filter (·.type == block.type) =
        block.places.zipIdx.map (block.recordOf slug definition)
  limits : ∀ definition ∈ content.definitions,
    (content.records.filter (·.type == definition.type)).length ≤ definition.limit
  /-- A record has values for settings of its definition, in their order, and for all that have a
  default. -/
  keys : ∀ record ∈ content.records, ∀ definition ∈ content.definitions,
    record.type = definition.type →
      record.settings.keys.Sublist (definition.settings.map Setting.id) ∧
        ∀ setting ∈ definition.settings, setting.default.isSome →
          setting.id ∈ record.settings.keys
  /-- Ids of blocks of different types differ. -/
  idsByType : ∀ a ∈ content.records, ∀ b ∈ content.records, a.type ≠ b.type → a.id ≠ b.id

variable (slug : String) (pageType : PageType) (options : Options) (root : Place) (d : Document)

theorem id_ne_of_type_ne {a b : BlockRecord}
    (ha : a ∈ (ofDocument slug pageType options root d).records)
    (hb : b ∈ (ofDocument slug pageType options root d).records) (hne : a.type ≠ b.type) :
    a.id ≠ b.id := by
  have hid : ∀ {record : BlockRecord},
      record ∈ (ofDocument slug pageType options root d).records →
        ∃ index, record.id = blockId slug record.type index := by
    intro record hrecord
    obtain ⟨block, -, hmem⟩ := exists_block_of_mem_records slug pageType options root d hrecord
    obtain ⟨definition, -, hmem⟩ := List.mem_flatMap.1 hmem
    obtain ⟨numbered, -, rfl⟩ := List.mem_map.1 hmem
    exact ⟨numbered.2, rfl⟩
  obtain ⟨i, hi⟩ := hid ha
  obtain ⟨j, hj⟩ := hid hb
  intro heq
  rw [hi, hj] at heq
  exact hne (type_eq_of_blockId_eq heq)

theorem length_filter_records_le {definition : BlockDefinition}
    (hdefinition : definition ∈ (ofDocument slug pageType options root d).definitions) :
    ((ofDocument slug pageType options root d).records.filter
      (·.type == definition.type)).length ≤ definition.limit := by
  by_cases h : ∃ record ∈ (ofDocument slug pageType options root d).records,
      record.type = definition.type
  · obtain ⟨record, hrecord, htype⟩ := h
    obtain ⟨block, hblock, hmem⟩ := exists_block_of_mem_records slug pageType options root d hrecord
    obtain ⟨made, hmade, hsome, hmadeType, hlimit⟩ :=
      exists_definition_of_mem_detected slug pageType options root d hblock
    have hblockType : block.type = definition.type := by
      rw [← htype, DetectedBlock.type_of_mem_records hmem]
    have hsame : definition = made :=
      List.inj_on_of_nodup_map (nodup_types_ofDocument slug pageType options root d) hdefinition
        hmade (by rw [hmadeType, hblockType])
    rw [← hblockType, filter_records slug pageType options root d hblock,
      DetectedBlock.length_records, hsame, hlimit]
    exact (places_of_mem_detected pageType options root d hblock).2.1
  · have hnone : (ofDocument slug pageType options root d).records.filter
        (·.type == definition.type) = [] := by
      refine List.filter_eq_nil_iff.2 fun record hrecord hb => h ⟨record, hrecord, ?_⟩
      exact beq_iff_eq.1 hb
    rw [hnone]
    exact Nat.zero_le _

theorem coherent : (ofDocument slug pageType options root d).Coherent slug
    (detected pageType options root d).blocks where
  types := nodup_types_ofDocument slug pageType options root d
  settingIds := (sound_settings_ofDocument slug pageType options root d).1
  blockSettingIds := by
    intro definition hdefinition
    obtain ⟨pattern, first, -, rfl⟩ := exists_ofInstance slug pageType options root d hdefinition
    exact BlockDefinition.nodup_ids_settingsOf pattern.role first
  defined := by
    intro record hrecord
    obtain ⟨block, hblock, hmem⟩ := exists_block_of_mem_records slug pageType options root d hrecord
    obtain ⟨definition, hdefinition, -, htype, -⟩ :=
      exists_definition_of_mem_detected slug pageType options root d hblock
    have hrecordType := DetectedBlock.type_of_mem_records hmem
    exact ⟨⟨definition, hdefinition, htype.trans hrecordType.symm⟩, block, hblock,
      hrecordType.symm⟩
  recorded := by
    intro block hblock
    obtain ⟨definition, hdefinition, hsome, htype, -⟩ :=
      exists_definition_of_mem_detected slug pageType options root d hblock
    refine ⟨definition, hdefinition, htype, ?_⟩
    rw [filter_records slug pageType options root d hblock,
      DetectedBlock.records_of_definition? hsome]
  limits := fun _ h => length_filter_records_le slug pageType options root d h
  keys := by
    intro record hrecord definition hdefinition htype
    obtain ⟨said, role, hsettings⟩ :=
      exists_settings_of_mem_records slug pageType options root d hrecord hdefinition htype
    obtain ⟨pattern, first, -, rfl⟩ := exists_ofInstance slug pageType options root d hdefinition
    have hids := BlockDefinition.nodup_ids_settingsOf pattern.role first
    rw [hsettings]
    exact ⟨said.keys_record_sublist role hids, fun setting hmem hdefault =>
      said.id_mem_keys_record role hids hmem hdefault⟩
  idsByType := fun _ ha _ hb => id_ne_of_type_ne slug pageType options root d ha hb

/-- Content whose settings, block definitions and records can stand in a schema. -/
structure Plain (content : SectionContent) : Prop where
  settings : ∀ setting ∈ content.settings, setting.Plain
  settingIds : (content.settings.map Setting.id).Nodup
  definitions : ∀ definition ∈ content.definitions, definition.Plain ∧
    (definition.settings.map Setting.id).Nodup
  records : ∀ record ∈ content.records, PlainFields record.settings
  known : ∀ record ∈ content.records, record.type ∈ content.definitions.map (·.type)

/-- The content of every page is plain if the limits that are asked for fit into 64 bits. -/
theorem plain_ofDocument
    (hcounts : ∀ custom ∈ options.customPatterns, custom.maxInstances ≤ 0xFFFFFFFFFFFFFFFF) :
    (ofDocument slug pageType options root d).Plain where
  settings := (sound_settings_ofDocument slug pageType options root d).2
  settingIds := (sound_settings_ofDocument slug pageType options root d).1
  definitions := by
    intro definition hmem
    have hlimit := limit_le_of_mem_definitions slug pageType options root d hcounts hmem
    obtain ⟨pattern, first, -, rfl⟩ := exists_ofInstance slug pageType options root d hmem
    exact ⟨⟨BlockDefinition.plain_settingsOf pattern.role first, hlimit⟩,
      BlockDefinition.nodup_ids_settingsOf pattern.role first⟩
  records := by
    intro record hrecord
    obtain ⟨⟨definition, hdefinition, htype⟩, -⟩ :=
      (coherent slug pageType options root d).defined record hrecord
    obtain ⟨said, role, hsettings⟩ :=
      exists_settings_of_mem_records slug pageType options root d hrecord hdefinition htype.symm
    obtain ⟨pattern, first, -, rfl⟩ := exists_ofInstance slug pageType options root d hdefinition
    have hids := BlockDefinition.nodup_ids_settingsOf pattern.role first
    rw [hsettings]
    exact ⟨(said.keys_record_sublist role hids).nodup hids,
      said.scalar_of_mem_record role hids (BlockDefinition.plain_settingsOf pattern.role first)⟩
  known := by
    intro record hrecord
    obtain ⟨⟨definition, hdefinition, htype⟩, -⟩ :=
      (coherent slug pageType options root d).defined record hrecord
    exact List.mem_map.2 ⟨definition, hdefinition, htype⟩

/-- The data of a page from which its schema and its configuration are built, for every document,
name and options. The blocks have their elements in document order, and as long as hashes tell the
records of each single type apart, the configuration has one entry under its own id for each record
and lists the ids in the order of the entries. -/
theorem coherent_ofDocument :
    let content := ofDocument slug pageType options root d
    let blocks := (detected pageType options root d).blocks
    content.Coherent slug blocks ∧
      (∀ block ∈ blocks, ∃ top, (searched pageType options root d).place? root.id = some top ∧
        block.places.Sublist top.descend) ∧
      ((∀ type, ((List.range (content.records.countP (·.type == type))).map
          (blockHash slug type)).Nodup) →
        ∀ settings, let page := PageConfiguration.build slug settings content.records
          (content.records.map (·.id)).Nodup ∧ page.blocks = content.records.map entryOf ∧
            page.blockOrder = page.blocks.keys) := by
  intro content blocks
  refine ⟨coherent slug pageType options root d, fun block hblock => ?_, fun hhashes settings => ?_⟩
  · exact (places_of_mem_detected pageType options root d hblock).2.2
  · have hids := nodup_ids_records slug pageType options root d hhashes
    have hblocks := blocks_build_of_nodup slug settings hids
    refine ⟨hids, hblocks, ?_⟩
    rw [hblocks, keys_map_entryOf]
    rfl

/-- Two cards have two records with ids of their own, for each of which the configuration of their
page has an entry. -/
theorem coherent_ofDocument_twoCards :
    let content := ofDocument "home" .page {} ⟨Detection.twoCards, []⟩
      { next := 7, root := Detection.twoCards, loose := [] }
    content.records.map (fun record => (record.type, record.settings.keys)) =
        [("card", ["heading"]), ("card", ["heading"])] ∧
      (content.records.map (·.id)).Nodup ∧
      (PageConfiguration.build "home" content.settings content.records).blocks =
        content.records.map entryOf := by
  intro content
  have hrecords : content.records.map (fun record => (record.type, record.settings.keys)) =
      [("card", ["heading"]), ("card", ["heading"])] := by decide +kernel
  have htypes : content.records.map (·.type) = ["card", "card"] := by
    have h := congrArg (List.map Prod.fst) hrecords
    rwa [List.map_map] at h
  have hhashes : ∀ type, ((List.range (content.records.countP (·.type == type))).map
      (blockHash "home" type)).Nodup := by
    intro type
    have hcount : content.records.countP (·.type == type) = ["card", "card"].count type := by
      rw [← htypes, List.count, List.countP_map]
      rfl
    rw [hcount]
    by_cases hcard : type = "card"
    · subst hcard
      decide +kernel
    · simp [List.count_eq_zero_of_not_mem, hcard]
  have h := (coherent_ofDocument "home" .page {} ⟨Detection.twoCards, []⟩
    { next := 7, root := Detection.twoCards, loose := [] }).2.2 hhashes content.settings
  exact ⟨hrecords, h.1, h.2.1⟩

end SectionContent

end ThemeSection
