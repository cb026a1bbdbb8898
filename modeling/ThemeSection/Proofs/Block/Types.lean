import ThemeSection.Proofs.Block.Detection
import ThemeSection.Proofs.Text.Slug

/-!
The types of the blocks on a page. A type comes from the catalog, from a pattern that somebody asks for,
from the slides or from a class of the page; each is a key, so that it can stand in a template as it is.
Only a pattern that somebody asks for can have no type at all: nothing takes the place of a type without
letters and digits, as `content_item` does for a class without any.
-/

namespace ThemeSection

open Markup

/-- Nothing is left of the type that is asked for: none of its characters has an ASCII letter or digit in
lower case. -/
def CustomPattern.IsTypeless (custom : CustomPattern) : Prop :=
  ∀ c ∈ custom.type.toList, ∀ d ∈ Chars.lowerChar c, Text.isKeyChar d = false

namespace BlockPattern

theorem isKey_type_ofGroup (members : List Place) : Text.IsKey (ofGroup members).type := by
  unfold ofGroup
  dsimp only
  split
  case h_1 => decide
  case h_2 key rest hkeys =>
    obtain ⟨hmem, hne⟩ := List.mem_filter.1 (hkeys ▸ List.mem_cons_self)
    obtain ⟨text, -, rfl⟩ := List.mem_map.1 hmem
    exact Text.isKey_key (by simpa using hne)

/-- The type that somebody asks for is a key, or empty if it has no letter or digit. -/
theorem isKey_type_ofCustom (custom : CustomPattern) :
    Text.IsKey (ofCustom custom).type ∨ (ofCustom custom).type = "" ∧ custom.IsTypeless := by
  by_cases h : Text.key custom.type = ""
  · exact Or.inr ⟨h, Text.key_eq_empty_iff.1 h⟩
  · exact Or.inl (Text.isKey_key h)

end BlockPattern

namespace Detection

variable {options : Options}

theorem isKey_type_of_known {pattern : BlockPattern} (h : Known options pattern) :
    Text.IsKey pattern.type ∨ pattern.type = "" ∧ ∃ custom ∈ options.customPatterns,
      pattern = .ofCustom custom ∧ custom.IsTypeless := by
  have hcatalog : ∀ pattern ∈ BlockPattern.catalog, Text.IsKey pattern.type := by decide
  rcases h with h | ⟨members, rfl⟩
  · simp only [List.mem_append, List.mem_singleton] at h
    rcases h with (h | h) | rfl
    · exact Or.inl (hcatalog pattern h)
    · obtain ⟨custom, hcustom, rfl⟩ := List.mem_map.1 h
      exact (BlockPattern.isKey_type_ofCustom custom).imp_right fun ⟨hempty, hother⟩ =>
        ⟨hempty, custom, hcustom, rfl, hother⟩
    · exact Or.inl (by decide)
  · exact Or.inl (BlockPattern.isKey_type_ofGroup members)

/-- The type of every block that is found, whatever the page is, whatever is asked for and excluded, is its
own key. It is made of runs of small ASCII letters and digits with one `_` between two of them, unless
it is empty; and then somebody has asked for the pattern with a type that has no letter or digit. -/
theorem type_of_mem_detect {root : Place} {excluded : List NodeId} {block : DetectedBlock}
    (h : block ∈ (detect root options excluded).blocks) :
    Text.key block.type = block.type ∧
      (Text.IsKey block.type ∨ block.type = "" ∧ ∃ custom ∈ options.customPatterns,
        block.pattern = .ofCustom custom ∧ custom.IsTypeless) := by
  have htype := isKey_type_of_known (known_of_mem_detect h)
  refine ⟨?_, htype⟩
  rcases htype with hkey | ⟨hempty, -⟩
  · exact Text.key_of_isKey hkey
  · rw [DetectedBlock.type, hempty]
    decide

/-- A page with a paragraph of either of two classes. -/
def drinks : Tree :=
  let drink (id : NodeId) (name : String) : Tree :=
    .node id (.element (.html "p") [⟨.plain "class", name⟩]) [.node (id + 1) (.text name) []]
  .node 0 .document [drink 1 "tea", drink 3 "milk"]

/-- Of the types that somebody asks for, the one with letters is a key, and the other is empty. -/
theorem type_of_mem_detect_drinks :
    let options : Options :=
      { customPatterns := [
          { type := "Tea time!", selector := ".tea", minInstances := 1 },
          { type := "!", selector := ".milk", minInstances := 1 }] }
    let blocks := (detect ⟨drinks, []⟩ options []).blocks
    blocks.map (·.type) = ["tea_time", ""] ∧ ∀ block ∈ blocks, Text.key block.type = block.type ∧
      (Text.IsKey block.type ∨ block.type = "" ∧ ∃ custom ∈ options.customPatterns,
        block.pattern = .ofCustom custom ∧ custom.IsTypeless) := by
  intro options blocks
  exact ⟨by decide +kernel, fun block hblock => type_of_mem_detect hblock⟩

end Detection

end ThemeSection
