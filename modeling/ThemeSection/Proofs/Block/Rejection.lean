import ThemeSection.Block.Detection

/-!
Patterns that are rejected. A pattern whose selector cannot be read, that finds too few elements or
whose type is taken changes nothing but the warnings. Warnings are never read, so whatever comes after
a rejected pattern finds what it would have found without it.
-/

namespace ThemeSection

open Markup

/-- The options with other custom patterns. -/
def Options.withPatterns (options : Options) (patterns : List CustomPattern) : Options :=
  { options with customPatterns := patterns }

section

variable (options : Options) (patterns : List CustomPattern)

@[simp] theorem Options.paragraphMinChars_withPatterns :
    (options.withPatterns patterns).paragraphMinChars = options.paragraphMinChars :=
  rfl

@[simp] theorem Options.injectBlocks_withPatterns :
    (options.withPatterns patterns).injectBlocks = options.injectBlocks :=
  rfl

end

namespace Detection

/-- The elements that a pattern finds at its turn: free ones that it selects and accepts, and of which
none stands in another. Nothing if its selector cannot be read. -/
def offers? (root : Place) (d : Detection) (pattern : BlockPattern) : Option (List Place) :=
  (Selector.read? pattern.selector).map fun selector =>
    Fragment.outermost
      ((root.select selector).filter fun p => d.isFree p && pattern.accepts p)

/-- Why a pattern makes no block at its turn: its selector cannot be read, it finds too few elements,
or a block has its type. -/
inductive Rejected (root : Place) (d : Detection) (pattern : BlockPattern) : Prop
  | unreadable (selector : Selector.read? pattern.selector = none)
  | tooFew {places : List Place} (offers : offers? root d pattern = some places)
    (few : places.length < pattern.min)
  | taken (type : pattern.type ∈ d.blocks.map (·.type))

/-- What a rejected pattern is warned about by itself. -/
def rejection (root : Place) (d : Detection) (pattern : BlockPattern) : List DetectionWarning :=
  match offers? root d pattern with
  | none => [.invalidSelector pattern.type pattern.selector]
  | some places => if places.length < pattern.min then [] else [.duplicateType pattern.type]

/-- Whether a detection is another one with some warnings put in. -/
structure Aside (own : List DetectionWarning) (d d' : Detection) : Prop where
  blocks : d'.blocks = d.blocks
  claimed : d'.claimed = d.claimed
  warnings : ∃ before after, d.warnings = before ++ after ∧ d'.warnings = before ++ own ++ after

variable {root : Place} {pattern : BlockPattern} {own : List DetectionWarning} {d d' : Detection}

theorem consider_eq (root : Place) (d : Detection) (pattern : BlockPattern) :
    consider root d pattern =
      match offers? root d pattern with
      | none =>
        { d with warnings := d.warnings ++ [.invalidSelector pattern.type pattern.selector] }
      | some places => d.claim pattern places := by
  rw [consider, offers?]
  cases Selector.read? pattern.selector <;> rfl

/-- A rejected pattern adds its own warning and does nothing else. -/
theorem consider_of_rejected (h : Rejected root d pattern) :
    consider root d pattern = { d with warnings := d.warnings ++ rejection root d pattern } := by
  rw [consider_eq, rejection]
  cases hoffers : offers? root d pattern with
  | none => rfl
  | some places =>
    dsimp only
    rw [claim]
    split
    case isTrue => rw [List.append_nil]
    case isFalse hmany =>
      have htaken : d.blocks.any (·.type == pattern.type) := by
        cases h with
        | unreadable hread =>
          rw [offers?, hread] at hoffers
          cases hoffers
        | tooFew hoffers' hfew =>
          obtain rfl := Option.some.inj (hoffers.symm.trans hoffers')
          exact absurd hfew hmany
        | taken htype =>
          obtain ⟨block, hblock, htype⟩ := List.mem_map.1 htype
          exact List.any_eq_true.2 ⟨block, hblock, beq_iff_eq.2 htype⟩
      rw [if_pos htaken]

/-- What is not warned about in between stays as it is. -/
theorem aside_consider_of_rejected (h : Rejected root d pattern) :
    Aside (rejection root d pattern) d (consider root d pattern) := by
  rw [consider_of_rejected h]
  exact ⟨rfl, rfl, d.warnings, [], by simp, by simp⟩

namespace Aside

/-- Warnings that are added to both come after those that are put in. -/
theorem warn (h : Aside own d d') (new : List DetectionWarning) :
    Aside own { d with warnings := d.warnings ++ new } { d' with warnings := d'.warnings ++ new } := by
  obtain ⟨before, after, hd, hd'⟩ := h.warnings
  exact ⟨h.blocks, h.claimed, before, after ++ new, by simp [hd], by simp [hd']⟩

theorem isFree (h : Aside own d d') : d'.isFree = d.isFree := by
  funext p
  rw [Detection.isFree, Detection.isFree, h.claimed]

theorem claim (h : Aside own d d') (pattern : BlockPattern) (places : List Place) :
    Aside own (d.claim pattern places) (d'.claim pattern places) := by
  have htaken : d'.blocks.any (·.type == pattern.type) = d.blocks.any (·.type == pattern.type) := by
    rw [h.blocks]
  rw [Detection.claim, Detection.claim, htaken]
  split
  · exact h
  split
  · exact h.warn _
  · exact ⟨congrArg (· ++ _) h.blocks, congrArg (· ++ _) h.claimed, (h.warn _).warnings⟩

theorem consider (h : Aside own d d') (root : Place) (pattern : BlockPattern) :
    Aside own (consider root d pattern) (consider root d' pattern) := by
  have hoffers : offers? root d' pattern = offers? root d pattern := by
    rw [offers?, offers?, h.isFree]
  rw [consider_eq, consider_eq, hoffers]
  split
  · exact h.warn _
  · exact h.claim _ _

theorem considerGroup (h : Aside own d d') (group : List Place) :
    Aside own (considerGroup d group) (considerGroup d' group) := by
  rw [Detection.considerGroup, Detection.considerGroup, h.isFree]
  split
  · exact h.claim _ _
  · exact h

theorem foldl {α : Type} {step : Detection → α → Detection}
    (hstep : ∀ {d d' : Detection}, Aside own d d' → ∀ item, Aside own (step d item) (step d' item))
    (h : Aside own d d') (items : List α) :
    Aside own (items.foldl step d) (items.foldl step d') := by
  induction items generalizing d d' with
  | nil => exact h
  | cons item items ih => exact ih (hstep h item)

theorem considerGroups (h : Aside own d d') (root : Place) :
    Aside own (considerGroups root d) (considerGroups root d') :=
  h.foldl (fun h group => h.considerGroup group) _

end Aside

/-- What is found when the turn comes to the custom pattern after the earlier ones. -/
def atTurn (root : Place) (excluded : List NodeId) (earlier : List CustomPattern) : Detection :=
  (BlockPattern.catalog ++ earlier.map BlockPattern.ofCustom).foldl (consider root) { claimed := excluded }

theorem foldl_consider_patterns (root : Place) (excluded : List NodeId)
    (earlier rest : List CustomPattern) :
    (BlockPattern.catalog ++ (earlier ++ rest).map BlockPattern.ofCustom ++
        [BlockPattern.slide]).foldl (consider root) { claimed := excluded } =
      (rest.map BlockPattern.ofCustom ++ [BlockPattern.slide]).foldl (consider root)
        (atTurn root excluded earlier) := by
  rw [atTurn, ← List.foldl_append, List.map_append, List.append_assoc, List.append_assoc,
    List.append_assoc]

/-- A custom pattern that is rejected at its turn does not change what is found. -/
theorem aside_detect_of_rejected {options : Options} {excluded : List NodeId}
    {earlier later : List CustomPattern} {custom : CustomPattern}
    (hcustom : options.customPatterns = earlier ++ custom :: later)
    (h : Rejected root (atTurn root excluded earlier) (.ofCustom custom)) :
    Aside (rejection root (atTurn root excluded earlier) (.ofCustom custom))
      (detect root (options.withPatterns (earlier ++ later)) excluded)
      (detect root options excluded) := by
  have hfound := (aside_consider_of_rejected h).foldl
    (fun h pattern => h.consider root pattern)
    (later.map BlockPattern.ofCustom ++ [BlockPattern.slide])
  unfold detect Options.withPatterns
  dsimp only
  rw [hcustom, foldl_consider_patterns, foldl_consider_patterns, List.map_cons, List.cons_append,
    List.foldl_cons]
  split
  · exact hfound.considerGroups root
  · exact hfound

end Detection

end ThemeSection
