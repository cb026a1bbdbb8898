import ThemeSection.Block.Collapse
import ThemeSection.Proofs.Block.Definition
import ThemeSection.Proofs.Block.Detection
import ThemeSection.Proofs.Schema.BlockId

/-!
What the blocks of a page come to, apart from the markup: the definitions and the records. Collapsing
makes a definition of each block and a record of each of its elements, and adding block types only
adds definitions of new types.
-/

namespace ThemeSection

open Markup

namespace DetectedBlock

/-- The definition of a block, after the first of its elements. -/
def definition? (block : DetectedBlock) : Option BlockDefinition :=
  block.places.head?.map fun first =>
    .ofInstance block.pattern (.read block.pattern.role first)

/-- The record of an element with its number in a block. -/
def recordOf (slug : String) (block : DetectedBlock) (definition : BlockDefinition)
    (numbered : Place × Nat) : BlockRecord where
  id := blockId slug block.type numbered.2
  type := block.type
  settings := (BlockInstance.read block.pattern.role numbered.1).record block.pattern.role definition

/-- The records of a block, one for each element; none for a block without elements. -/
def records (slug : String) (block : DetectedBlock) : List BlockRecord :=
  block.definition?.toList.flatMap fun definition =>
    block.places.zipIdx.map (block.recordOf slug definition)

variable {block : DetectedBlock}

theorem exists_definition (h : block.places ≠ []) :
    ∃ first, block.definition? =
      some (.ofInstance block.pattern (.read block.pattern.role first)) := by
  obtain ⟨first, others, heq⟩ := List.exists_cons_of_ne_nil h
  exact ⟨first, by simp [definition?, heq]⟩

theorem type_of_mem_definition? {definition : BlockDefinition}
    (h : definition ∈ block.definition?) : definition.type = block.type := by
  obtain ⟨first, -, rfl⟩ := Option.map_eq_some_iff.1 h
  rfl

theorem type_of_mem_records {slug : String} {record : BlockRecord}
    (h : record ∈ block.records slug) : record.type = block.type := by
  obtain ⟨definition, -, h⟩ := List.mem_flatMap.1 h
  obtain ⟨numbered, -, rfl⟩ := List.mem_map.1 h
  rfl

theorem records_of_definition? {slug : String} {definition : BlockDefinition}
    (h : block.definition? = some definition) :
    block.records slug = block.places.zipIdx.map (block.recordOf slug definition) := by
  simp [records, h]

theorem length_records {slug : String} : (block.records slug).length = block.places.length := by
  unfold records
  cases hplaces : block.places with
  | nil => simp [definition?, hplaces]
  | cons first others => simp [definition?, hplaces]

/-- The ids of the records of a block are those of its type, counted from zero. -/
theorem ids_records (slug : String) (block : DetectedBlock) :
    (block.records slug).map (·.id) =
      (List.range block.places.length).map (blockId slug block.type) := by
  by_cases h : block.places = []
  · simp [records, definition?, h]
  · obtain ⟨first, hdefinition⟩ := exists_definition h
    rw [records_of_definition? hdefinition, List.map_map, List.range_eq_range',
      ← List.zipIdx_map_snd 0 block.places, List.map_map]
    rfl

theorem filter_records_self (slug : String) (block : DetectedBlock) :
    (block.records slug).filter (·.type == block.type) = block.records slug :=
  List.filter_eq_self.2 fun _ h => beq_iff_eq.2 (type_of_mem_records h)

theorem filter_records_of_ne (slug : String) {type : String} (h : block.type ≠ type) :
    (block.records slug).filter (·.type == type) = [] := by
  refine List.filter_eq_nil_iff.2 fun record hrecord => ?_
  rw [type_of_mem_records hrecord]
  simpa using h

/-- Among the records of blocks of different types, those of one type are those of its block. -/
theorem filter_flatMap_records (slug : String) {blocks : List DetectedBlock}
    (htypes : (blocks.map (·.type)).Nodup) (hblock : block ∈ blocks) :
    (blocks.flatMap (·.records slug)).filter (·.type == block.type) = block.records slug := by
  have hothers (others : List DetectedBlock) (h : block.type ∉ others.map (·.type)) :
      (others.flatMap (·.records slug)).filter (·.type == block.type) = [] := by
    rw [List.filter_flatMap]
    refine List.flatMap_eq_nil_iff.2 fun other hother => filter_records_of_ne slug fun heq => ?_
    exact h (heq ▸ List.mem_map_of_mem hother)
  obtain ⟨before, after, rfl⟩ := List.append_of_mem hblock
  simp only [List.map_append, List.map_cons] at htypes
  obtain ⟨-, hafter, hbefore⟩ := List.nodup_append.1 htypes
  simp only [List.flatMap_append, List.flatMap_cons, List.filter_append, filter_records_self]
  rw [hothers before fun hmem => hbefore _ hmem _ List.mem_cons_self rfl,
    hothers after (List.nodup_cons.1 hafter).1, List.nil_append, List.append_nil]

/-- Blocks of different types, each with different hashes, have records with different ids. -/
theorem nodup_ids_flatMap_records (slug : String) {blocks : List DetectedBlock}
    (htypes : (blocks.map (·.type)).Nodup)
    (hhashes : ∀ block ∈ blocks,
      ((List.range block.places.length).map (blockHash slug block.type)).Nodup) :
    ((blocks.flatMap (·.records slug)).map (·.id)).Nodup := by
  rw [List.map_flatMap]
  refine List.nodup_flatMap.2 ⟨fun block hblock => ?_, ?_⟩
  · rw [ids_records]
    exact nodup_blockIds (hhashes block hblock)
  · refine (List.pairwise_map.1 htypes).imp fun {a b} hne => ?_
    simp only [Function.onFun, ids_records, List.disjoint_left, List.mem_map]
    rintro _ ⟨i, -, rfl⟩ ⟨j, -, heq⟩
    exact hne (type_eq_of_blockId_eq heq.symm)

end DetectedBlock

namespace BlockPass

theorem recordsOf_eq (slug : String) (block : DetectedBlock) (definition : BlockDefinition) :
    recordsOf slug block definition = block.places.zipIdx.map (block.recordOf slug definition) := by
  rw [recordsOf, DetectedBlock.instances, List.zipIdx_map, List.map_map]
  rfl

theorem collapse_definitions (slug : String) (state : Document × BlockPass)
    (block : DetectedBlock) :
    (collapse slug state block).2.definitions =
      state.2.definitions ++ block.definition?.toList := by
  unfold collapse DetectedBlock.definition?
  split <;> simp_all

theorem collapse_records (slug : String) (state : Document × BlockPass) (block : DetectedBlock) :
    (collapse slug state block).2.records = state.2.records ++ block.records slug := by
  unfold collapse DetectedBlock.records DetectedBlock.definition?
  split <;> simp_all [recordsOf_eq]

theorem collapseAll_definitions (slug : String) (blocks : List DetectedBlock) (d : Document) :
    (collapseAll slug blocks d).2.definitions = blocks.filterMap (·.definition?) := by
  suffices h : ∀ state : Document × BlockPass,
      (blocks.foldl (collapse slug) state).2.definitions =
        state.2.definitions ++ blocks.filterMap (·.definition?) from h (d, {})
  induction blocks with
  | nil => simp
  | cons block rest ih =>
    intro state
    rw [List.foldl_cons, ih, collapse_definitions, List.append_assoc, List.filterMap_cons]
    cases block.definition? <;> rfl

theorem collapseAll_records (slug : String) (blocks : List DetectedBlock) (d : Document) :
    (collapseAll slug blocks d).2.records = blocks.flatMap (·.records slug) := by
  suffices h : ∀ state : Document × BlockPass,
      (blocks.foldl (collapse slug) state).2.records =
        state.2.records ++ blocks.flatMap (·.records slug) from h (d, {})
  induction blocks with
  | nil => simp
  | cons block rest ih =>
    intro state
    rw [List.foldl_cons, ih, collapse_records, List.append_assoc, List.flatMap_cons]

/-- What adding block types to a pass can come to: definitions of new known types. -/
structure Extends (start pass : BlockPass) : Prop where
  records : pass.records = start.records
  definitions : ∃ added, pass.definitions = start.definitions ++ added ∧
    ∀ definition ∈ added, ∃ pattern ∈ BlockPattern.catalog,
      definition = .ofInstance pattern .sample
  types : (start.definitions.map (·.type)).Nodup → (pass.definitions.map (·.type)).Nodup

variable {start pass : BlockPass}

theorem Extends.refl (pass : BlockPass) : pass.Extends pass where
  records := rfl
  definitions := ⟨[], by simp, List.forall_mem_nil _⟩
  types := id

/-- Adding one more type keeps what adding types comes to. -/
theorem Extends.inject (h : start.Extends pass) (container : NodeId) (d : Document)
    (name : String) : start.Extends (inject container (d, pass) name).2 := by
  unfold BlockPass.inject
  dsimp only
  split
  · exact h
  case isFalse hnew =>
    split
    · exact { h with }
    case h_2 pattern hpattern =>
      obtain ⟨added, heq, hadded⟩ := h.definitions
      have htype : pattern.type = Text.key name := by
        simpa using List.find?_some hpattern
      have hmem : pattern ∈ BlockPattern.catalog := List.mem_of_find?_eq_some hpattern
      constructor
      case records => exact h.records
      case definitions =>
        refine ⟨added ++ [.ofInstance pattern .sample], by simp [heq], ?_⟩
        simp only [List.forall_mem_append, List.forall_mem_singleton]
        exact ⟨hadded, pattern, hmem, rfl⟩
      case types =>
        intro hstart
        simp only [List.map_append, List.map_cons, List.map_nil]
        refine List.nodup_append.2 ⟨h.types hstart, List.nodup_singleton _, ?_⟩
        rintro _ ha _ hb rfl
        obtain rfl := List.mem_singleton.1 hb
        obtain ⟨definition, hdefinition, heq⟩ := List.mem_map.1 ha
        exact hnew (List.any_eq_true.2 ⟨definition, hdefinition,
          beq_iff_eq.2 (heq.trans htype)⟩)

theorem extends_injectAll (container : NodeId) (names : List String)
    (state : Document × BlockPass) : state.2.Extends (injectAll container names state).2 :=
  List.foldlRecOn (motive := fun reached : Document × BlockPass => state.2.Extends reached.2)
    names _ (Extends.refl state.2) fun reached h name _ => h.inject container reached.1 name

end BlockPass

end ThemeSection
