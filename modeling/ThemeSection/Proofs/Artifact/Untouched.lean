import ThemeSection.Proofs.Artifact.PageCorrection

/-!
What enforcement leaves alone. A correction touches the members of its own names and no others, the
blocks of known types stay as they are, and the order of the blocks loses the dropped ones and
nothing else.
-/

namespace ThemeSection.Artifact

open Json (Fields Value)

/-- The members of an object that have none of the names. -/
def others (names : List String) (fields : Fields) : Fields :=
  fields.filter fun field => !names.contains field.1

section

variable {names : List String} {fields : Fields}

theorem others_set {key : String} (h : key ∈ names) (value : Value) :
    others names (fields.set key value) = others names fields := by
  have hkey : names.contains key = true := List.contains_iff_mem.2 h
  induction fields with
  | nil => simp [others, Fields.set, h]
  | cons first rest ih =>
    obtain ⟨k, v⟩ := first
    rw [Fields.set]
    split
    case isTrue hk =>
      subst hk
      simp [others, h]
    case isFalse =>
      rw [others] at ih ⊢
      rw [others, List.filter_cons, List.filter_cons, ih]
      rfl

theorem others_correct (field : Checked) {key : String} (h : key ∈ names) (expected : String)
    (holds : String → Bool) :
    others names (correct field key expected holds fields).1 = others names fields := by
  by_cases hholds : holds (textField fields key)
  · rw [correct_of_holds_actual hholds]
  · rw [correct_of_not_holds hholds]
    exact others_set h _

theorem others_correctSchema (slug : String) (fields : Fields) :
    others ["class", "name"] (correctSchema slug fields).1 = others ["class", "name"] fields := by
  rw [correctSchema_eq]
  exact (others_correct _ (by decide) _ _).trans (others_correct _ (by decide) _ _)

end

/-- Whether the order of a main section lists exactly the ids of its blocks. -/
def Listed (main : Fields) : Prop :=
  ∃ ids blocks, orderOf? main = some ids ∧ blocksOf? main = some blocks ∧
    ids.Perm (blocks.keys.map .string)

theorem string_not_mem_keptIds {dropped : List String} {id : String} (h : id ∈ dropped)
    (ids : List Value) : .string id ∉ keptIds dropped ids := by
  intro hmem
  have hkept := (List.mem_filter.1 hmem).2
  simp [Value.str?, h] at hkept

/-- The ids that are kept of an order are those of the blocks that are kept. -/
theorem perm_keptIds {blocks : Fields} {ids : List Value} (hkeys : blocks.keys.Nodup)
    (h : ids.Perm (blocks.keys.map .string)) (types : List String) :
    (keptIds (unknownIds types blocks) ids).Perm
      ((Fields.keys (blocks.filter fun block => hasKnownType types block.2)).map .string) := by
  have hkept : ∀ block ∈ blocks,
      (!(unknownIds types blocks).contains block.1) = hasKnownType types block.2 := by
    intro block hblock
    rw [Bool.eq_iff_iff, Bool.not_eq_true', ← Bool.not_eq_true, List.contains_iff_mem]
    constructor
    · intro hmem
      by_contra hunknown
      exact hmem (List.mem_map.2 ⟨block, List.mem_filter.2 ⟨hblock, by simpa using hunknown⟩, rfl⟩)
    · intro hknown hmem
      obtain ⟨other, hother, hsame⟩ := List.mem_map.1 hmem
      obtain ⟨hother, hunknown⟩ := List.mem_filter.1 hother
      obtain rfl := List.inj_on_of_nodup_map hkeys hother hblock hsame
      simp [hknown] at hunknown
  refine (h.filter _).trans (List.Perm.of_eq ?_)
  rw [Fields.keys, Fields.keys, List.filter_map, List.filter_map]
  exact congrArg _ (congrArg _ (List.filter_congr hkept))

/-- The ids of the blocks that a main section loses. -/
def removedIds (types : List String) (main : Fields) : List String :=
  (blocksOf? main).elim [] (unknownIds types)

/-- How a main section comes out of the correction: its type aside, it loses blocks of unknown type
and their places in the order, and nothing else. -/
structure Trimmed (types : List String) (main trimmed : Fields) : Prop where
  others : others ["type", "blocks", "block_order"] trimmed =
    others ["type", "blocks", "block_order"] main
  blocks : ∀ blocks, blocksOf? main = some blocks →
    blocksOf? trimmed = some (blocks.filter fun block => hasKnownType types block.2)
  noBlocks : blocksOf? main = none → trimmed.get? "blocks" = main.get? "blocks"
  order : removedIds types main = [] ∨ orderOf? main = none →
    trimmed.get? "block_order" = main.get? "block_order"
  dropped : removedIds types main ≠ [] →
    orderOf? trimmed = (orderOf? main).map (keptIds (removedIds types main))

section

variable {types : List String} {main trimmed : Fields}

theorem removedIds_of_knows (h : Knows types main) : removedIds types main = [] := by
  rw [removedIds]
  cases hblocks : blocksOf? main with
  | none => rfl
  | some blocks => exact unknownIds_eq_nil_iff.2 (h blocks hblocks)

theorem dropUnknown_snd (types : List String) (main : Fields) :
    (dropUnknown types main).2 = removedIds types main := by
  by_cases h : Knows types main
  · rw [dropUnknown_of_knows h, removedIds_of_knows h]
  · obtain ⟨blocks, hblocks, hne⟩ := exists_of_not_knows h
    rw [dropUnknown_of_ne_nil hblocks hne, removedIds, hblocks, Option.elim_some]

theorem trimmed_of_knows (h : Knows types main) : Trimmed types main main where
  others := rfl
  blocks blocks hblocks := by
    rw [hblocks, List.filter_eq_self.2 (h blocks hblocks)]
  noBlocks _ := rfl
  order _ := rfl
  dropped hne := absurd (removedIds_of_knows h) hne

theorem trimmed_dropUnknown (types : List String) (main : Fields) :
    Trimmed types main (dropUnknown types main).1 := by
  by_cases h : Knows types main
  · rw [dropUnknown_of_knows h]
    exact trimmed_of_knows h
  obtain ⟨blocks, hblocks, hne⟩ := exists_of_not_knows h
  have hremoved : removedIds types main = unknownIds types blocks := by
    rw [removedIds, hblocks, Option.elim_some]
  rw [dropUnknown_of_ne_nil hblocks hne]
  let kept : Fields := blocks.filter fun block => hasKnownType types block.2
  have horder : orderOf? (main.set "blocks" (.object kept)) = orderOf? main := by
    rw [orderOf?, Fields.get?_set, if_neg (by decide), orderOf?]
  constructor
  case others =>
    have hset : others ["type", "blocks", "block_order"] (main.set "blocks" (.object kept)) =
        others ["type", "blocks", "block_order"] main := others_set (by decide) _
    rw [withoutIds, horder]
    cases orderOf? main with
    | none => exact hset
    | some ids => exact (others_set (by decide) _).trans hset
  case blocks =>
    intro other hother
    obtain rfl := Option.some.inj (hblocks.symm.trans hother)
    rw [blocksOf?, get?_withoutIds (by decide), Fields.get?_set, if_pos rfl]
    rfl
  case noBlocks => exact fun hnone => absurd (hblocks.symm.trans hnone) (Option.some_ne_none _)
  case order =>
    rintro (hnil | hnone)
    · exact absurd (hremoved ▸ hnil) hne
    · rw [withoutIds, horder, hnone, Option.elim_none, Fields.get?_set, if_neg (by decide)]
  case dropped =>
    intro _
    rw [orderOf?_withoutIds, horder, hremoved]

/-- The order of the blocks afterwards is what is left of the order before. -/
theorem Trimmed.orderOf?_eq (h : Trimmed types main trimmed) :
    orderOf? trimmed = if removedIds types main = [] then orderOf? main
      else (orderOf? main).map (keptIds (removedIds types main)) := by
  split
  case isTrue hnil => rw [orderOf?, h.order (Or.inl hnil), orderOf?]
  case isFalse hne => exact h.dropped hne

/-- No dropped id stays in the order. -/
theorem Trimmed.not_mem_order (h : Trimmed types main trimmed) {id : String} {ids : List Value}
    (hid : id ∈ removedIds types main) (hids : orderOf? trimmed = some ids) : .string id ∉ ids := by
  rw [h.dropped (List.ne_nil_of_mem hid)] at hids
  obtain ⟨before, -, rfl⟩ := Option.map_eq_some_iff.1 hids
  exact string_not_mem_keptIds hid before

/-- The ids that stay in the order keep their places. -/
theorem Trimmed.sublist_order (h : Trimmed types main trimmed) {ids : List Value}
    (hids : orderOf? trimmed = some ids) : ∃ before, orderOf? main = some before ∧
      ids.Sublist before := by
  rw [h.orderOf?_eq] at hids
  split at hids
  case isTrue => exact ⟨ids, hids, List.Sublist.refl ids⟩
  case isFalse =>
    obtain ⟨before, hbefore, rfl⟩ := Option.map_eq_some_iff.1 hids
    exact ⟨before, hbefore, List.filter_sublist⟩

/-- An order that listed exactly the blocks still does. -/
theorem Trimmed.listed (h : Trimmed types main trimmed) {n : Nat}
    (hmain : (Value.object main).Tidy n) (hlisted : Listed main) : Listed trimmed := by
  obtain ⟨ids, blocks, hids, hblocks, hperm⟩ := hlisted
  obtain ⟨v, hget, hobject⟩ := Option.bind_eq_some_iff.1 hblocks
  obtain ⟨m, rfl⟩ := Value.hereditary_tidy.exists_succ hmain
  have htidy := Value.hereditary_tidy.get? hmain hget
  rw [Value.eq_object_of_object? hobject] at htidy
  have hkeys : blocks.keys.Nodup := (Value.settled_object_iff.1 htidy.1).1
  have hkept := perm_keptIds hkeys hperm types
  have hremoved : removedIds types main = unknownIds types blocks := by
    rw [removedIds, hblocks, Option.elim_some]
  have horder := h.orderOf?_eq
  rw [hremoved, hids] at horder
  split at horder
  case isTrue hnil =>
    have hknown : (blocks.filter fun block => hasKnownType types block.2) = blocks :=
      List.filter_eq_self.2 (unknownIds_eq_nil_iff.1 hnil)
    refine ⟨ids, blocks, horder, ?_, hperm⟩
    rw [h.blocks blocks hblocks, hknown]
  case isFalse => exact ⟨_, _, horder, h.blocks blocks hblocks, hkept⟩

/-- Giving a main section its type does not touch its blocks. -/
theorem trimmed_correctMain (slug : String) (types : List String) (main : Fields) :
    Trimmed types main (correctMain slug (some types) main).1 ∧
      (correctMain slug (some types) main).2.2 = removedIds types main := by
  rw [correctMain, dropUnknown?, Option.elim_some]
  let typed := (correct .pageType "type" slug (· == slug) main).1
  have hget : ∀ name, name ≠ "type" → typed.get? name = main.get? name := fun name =>
    get?_correct_of_ne
  have hblocks : blocksOf? typed = blocksOf? main := by
    rw [blocksOf?, hget _ (by decide), blocksOf?]
  have horder : orderOf? typed = orderOf? main := by
    rw [orderOf?, hget _ (by decide), orderOf?]
  have hremoved : removedIds types typed = removedIds types main := by
    rw [removedIds, hblocks, removedIds]
  obtain ⟨hothers, hkept, hnone, hsame, hdropped⟩ := trimmed_dropUnknown types typed
  refine ⟨⟨?_, ?_, ?_, ?_, ?_⟩, ?_⟩
  · exact hothers.trans (others_correct _ (by decide) _ _)
  · exact hblocks ▸ hkept
  · rw [hblocks, hget _ (by decide)] at hnone
    exact hnone
  · rw [horder, hremoved, hget _ (by decide)] at hsame
    exact hsame
  · rw [horder, hremoved] at hdropped
    exact hdropped
  · exact (dropUnknown_snd types typed).trans hremoved

end

end ThemeSection.Artifact
