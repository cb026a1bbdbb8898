import ThemeSection.Proofs.Artifact.Correction

/-!
What enforcement does to a page configuration. Only its main section is touched: it gets the slug
for its type, and the blocks go whose types the schema does not define. A main section that is kept
once is kept from then on.
-/

namespace ThemeSection.Artifact

open Json (Fields Value)
open Json.Value (Reread Hereditary)

/-- Where the main section of a page stands. -/
structure PagePath where
  top : Fields
  sections : Fields
  main : Fields

/-- The way to the main section, if the page has one. -/
def pagePath? (page : Value) : Option PagePath :=
  page.object?.bind fun top => ((top.get? "sections").bind (·.object?)).bind fun sections =>
    ((sections.get? "main").bind (·.object?)).bind fun main => some ⟨top, sections, main⟩

/-- The page with another main section. -/
def PagePath.withMain (path : PagePath) (main : Fields) : Value :=
  .object (path.top.set "sections" (.object (path.sections.set "main" (.object main))))

/-- The blocks of a main section, if it has any. -/
def blocksOf? (main : Fields) : Option Fields :=
  (main.get? "blocks").bind (·.object?)

/-- What is kept of a main section if the block types are known, and the ids of what is not. -/
def dropUnknown? (known : Option (List String)) (main : Fields) : Fields × List String :=
  known.elim (main, []) fun types => dropUnknown types main

/-- What becomes of a main section: its fields, what was reported and the ids of dropped blocks. -/
def correctMain (slug : String) (known : Option (List String)) (main : Fields) :
    Fields × List Mismatch × List String :=
  let typed := correct .pageType "type" slug (· == slug) main
  let kept := dropUnknown? known typed.1
  (kept.1, typed.2, kept.2)

theorem correctPage?_eq (slug : String) (known : Option (List String)) (page : Value) :
    correctPage? slug known page = (pagePath? page).map fun path =>
      let result := correctMain slug known path.main
      ⟨path.withMain result.1, result.2.1, result.2.2⟩ := by
  rw [correctPage?, pagePath?]
  cases page.object? with
  | none => rfl
  | some top =>
    cases hsections : top.get? "sections" with
    | none => simp [hsections]
    | some sections =>
      cases hobject : sections.object? with
      | none => simp [hsections, hobject]
      | some sections =>
        cases hmain : sections.get? "main" with
        | none => simp [hsections, hobject, hmain]
        | some main =>
          cases hfields : main.object? with
          | none => simp [hsections, hobject, hmain, hfields]
          | some main =>
            cases known <;>
              simp [hsections, hobject, hmain, hfields, correctMain, dropUnknown?, PagePath.withMain]

theorem pagePath?_withMain (path : PagePath) (main : Fields) :
    pagePath? (path.withMain main) = some
      ⟨path.top.set "sections" (.object (path.sections.set "main" (.object main))),
        path.sections.set "main" (.object main), main⟩ := by
  simp [pagePath?, PagePath.withMain, Value.object?, Fields.get?_set]

theorem PagePath.of_pagePath? {page : Value} {path : PagePath} (h : pagePath? page = some path) :
    page = .object path.top ∧ path.top.get? "sections" = some (.object path.sections) ∧
      path.sections.get? "main" = some (.object path.main) := by
  obtain ⟨top, htop, h⟩ := Option.bind_eq_some_iff.1 h
  obtain ⟨sections, hsections, h⟩ := Option.bind_eq_some_iff.1 h
  obtain ⟨main, hmain, h⟩ := Option.bind_eq_some_iff.1 h
  obtain rfl := Option.some.inj h
  obtain ⟨v, hv, hsections⟩ := Option.bind_eq_some_iff.1 hsections
  obtain ⟨w, hw, hmain⟩ := Option.bind_eq_some_iff.1 hmain
  rw [Value.eq_object_of_object? hsections] at hv
  rw [Value.eq_object_of_object? hmain] at hw
  exact ⟨Value.eq_object_of_object? htop, hv, hw⟩

/-- Whether all blocks of a main section have one of the types. -/
def Knows (types : List String) (main : Fields) : Prop :=
  ∀ blocks, blocksOf? main = some blocks → ∀ block ∈ blocks, hasKnownType types block.2

/-- The ids of the blocks of other types. -/
def unknownIds (types : List String) (blocks : Fields) : List String :=
  (blocks.filter fun (_, block) => !hasKnownType types block).map (·.1)

/-- A list of ids without the dropped ones. -/
def keptIds (dropped : List String) (ids : List Value) : List Value :=
  ids.filter fun id => id.str?.any fun id => !dropped.contains id

/-- The ids in the order of a main section, if it has one. -/
def orderOf? (main : Fields) : Option (List Value) :=
  (main.get? "block_order").bind (·.array?)

/-- A main section whose order leaves out the dropped ids. -/
def withoutIds (dropped : List String) (main : Fields) : Fields :=
  (orderOf? main).elim main fun ids => main.set "block_order" (.array (keptIds dropped ids))

section

variable {main : Fields} {dropped : List String} {name : String}

theorem get?_withoutIds (h : name ≠ "block_order") :
    (withoutIds dropped main).get? name = main.get? name := by
  rw [withoutIds]
  cases orderOf? main with
  | none => rfl
  | some ids => rw [Option.elim_some, Fields.get?_set, if_neg h]

theorem orderOf?_withoutIds :
    orderOf? (withoutIds dropped main) = (orderOf? main).map (keptIds dropped) := by
  rw [withoutIds]
  cases h : orderOf? main with
  | none => exact h
  | some ids =>
    rw [Option.elim_some, orderOf?, Fields.get?_set, if_pos rfl]
    rfl

theorem hereditary_withoutIds {P : Nat → Value → Prop} (hP : Hereditary P) {n : Nat}
    (dropped : List String) (h : P n (.object main)) : P n (.object (withoutIds dropped main)) := by
  obtain ⟨m, rfl⟩ := hP.exists_succ h
  rw [withoutIds]
  cases horder : orderOf? main with
  | none => exact h
  | some ids =>
    obtain ⟨order, hget, harray⟩ := Option.bind_eq_some_iff.1 horder
    have hids := hP.get? h hget
    rw [Value.eq_array_of_array? harray] at hids
    exact hP.set h (hP.filter_array hids _) "block_order"

end

section

variable {types : List String} {main blocks : Fields}

theorem unknownIds_eq_nil_iff :
    unknownIds types blocks = [] ↔ ∀ block ∈ blocks, hasKnownType types block.2 := by
  rw [unknownIds, List.map_eq_nil_iff, List.filter_eq_nil_iff]
  exact forall₂_congr fun block _ => by simp

theorem dropUnknown_of_knows (h : Knows types main) : dropUnknown types main = (main, []) := by
  rw [dropUnknown]
  cases hblocks : blocksOf? main with
  | none =>
    rw [blocksOf?] at hblocks
    rw [hblocks]
  | some blocks =>
    have hnone : unknownIds types blocks = [] := unknownIds_eq_nil_iff.2 (h blocks hblocks)
    rw [blocksOf?] at hblocks
    rw [hblocks]
    exact if_pos (by simpa [unknownIds] using hnone)

/-- Where blocks are dropped, the others stay, and the order leaves out the dropped ones. -/
theorem dropUnknown_of_ne_nil (hblocks : blocksOf? main = some blocks)
    (h : unknownIds types blocks ≠ []) :
    dropUnknown types main = (withoutIds (unknownIds types blocks) (main.set "blocks"
      (.object (blocks.filter fun (_, block) => hasKnownType types block))),
      unknownIds types blocks) := by
  rw [blocksOf?] at hblocks
  rw [dropUnknown, hblocks]
  dsimp only
  rw [if_neg (by simpa [unknownIds] using h), withoutIds, orderOf?]
  cases ((main.set "blocks" (.object (blocks.filter fun (_, block) =>
    hasKnownType types block))).get? "block_order").bind (·.array?) <;> rfl

theorem exists_of_not_knows (h : ¬ Knows types main) :
    ∃ blocks, blocksOf? main = some blocks ∧ unknownIds types blocks ≠ [] := by
  simp only [Knows, not_forall, exists_prop] at h
  obtain ⟨blocks, hblocks, block, hblock, hunknown⟩ := h
  refine ⟨blocks, hblocks, fun hnil => hunknown ?_⟩
  exact unknownIds_eq_nil_iff.1 hnil block hblock

theorem get?_dropUnknown {name : String} (hblocks : name ≠ "blocks") (horder : name ≠ "block_order") :
    (dropUnknown types main).1.get? name = main.get? name := by
  by_cases h : Knows types main
  · rw [dropUnknown_of_knows h]
  · obtain ⟨blocks, hsome, hne⟩ := exists_of_not_knows h
    rw [dropUnknown_of_ne_nil hsome hne, get?_withoutIds horder, Fields.get?_set, if_neg hblocks]

theorem knows_dropUnknown (types : List String) (main : Fields) :
    Knows types (dropUnknown types main).1 := by
  by_cases h : Knows types main
  · rw [dropUnknown_of_knows h]
    exact h
  · obtain ⟨blocks, hsome, hne⟩ := exists_of_not_knows h
    rw [dropUnknown_of_ne_nil hsome hne]
    intro kept hkept block hblock
    rw [blocksOf?, get?_withoutIds (by decide), Fields.get?_set, if_pos rfl] at hkept
    obtain rfl := Option.some.inj hkept
    exact (List.mem_filter.1 hblock).2

theorem hereditary_dropUnknown {P : Nat → Value → Prop} (hP : Hereditary P) {n : Nat}
    (types : List String) (h : P n (.object main)) : P n (.object (dropUnknown types main).1) := by
  by_cases hknows : Knows types main
  · rw [dropUnknown_of_knows hknows]
    exact h
  · obtain ⟨blocks, hsome, hne⟩ := exists_of_not_knows hknows
    obtain ⟨m, rfl⟩ := hP.exists_succ h
    obtain ⟨v, hget, hobject⟩ := Option.bind_eq_some_iff.1 hsome
    have hblocks := hP.get? h hget
    rw [Value.eq_object_of_object? hobject] at hblocks
    rw [dropUnknown_of_ne_nil hsome hne]
    exact hereditary_withoutIds hP _ (hP.set h (hP.filter hblocks _) "blocks")

end

/-- Whether a main section is the slug's and has blocks of known types only, if they are known. -/
def Kept (slug : String) (known : Option (List String)) (main : Fields) : Prop :=
  textField main "type" = slug ∧ ∀ types ∈ known, Knows types main

section

variable {slug : String} {known : Option (List String)} {main others : Fields}

theorem Kept.forget (h : Kept slug known main) : Kept slug none main :=
  ⟨h.1, fun _ hnone => nomatch hnone⟩

theorem correctMain_of_kept (h : Kept slug known main) : correctMain slug known main = (main, [], []) := by
  have htype : correct .pageType "type" slug (· == slug) main = (main, []) :=
    correct_of_holds_actual (by simpa using h.1)
  rw [correctMain, htype]
  cases known with
  | none => rfl
  | some types =>
    dsimp only [dropUnknown?, Option.elim_some]
    rw [dropUnknown_of_knows (h.2 types rfl)]

theorem kept_correctMain (slug : String) (known : Option (List String)) (main : Fields) :
    Kept slug known (correctMain slug known main).1 := by
  have htype := textField_correct_slug .pageType "type" slug main
  cases known with
  | none => exact ⟨htype, fun _ hnone => nomatch hnone⟩
  | some types =>
    rw [correctMain, dropUnknown?, Option.elim_some]
    refine ⟨?_, ?_⟩
    · exact (textField_congr (get?_dropUnknown (by decide) (by decide))).trans htype
    · rintro _ ⟨⟩
      exact knows_dropUnknown types _

/-- Nothing is reported or dropped exactly if the main section can be kept. -/
theorem correctMain_eq_nil_iff :
    (correctMain slug known main).2 = ([], []) ↔ Kept slug known main := by
  constructor
  · intro h
    obtain ⟨hreported, hdropped⟩ := Prod.mk.inj h
    have htype : (textField main "type" == slug) := by
      by_contra hne
      rw [correct_of_not_holds hne] at hreported
      cases hreported
    have hsame : correct .pageType "type" slug (· == slug) main = (main, []) :=
      correct_of_holds_actual htype
    refine ⟨eq_of_beq htype, fun types htypes => ?_⟩
    obtain rfl := Option.mem_def.1 htypes
    rw [hsame, dropUnknown?, Option.elim_some] at hdropped
    by_contra hunknown
    obtain ⟨blocks, hblocks, hne⟩ := exists_of_not_knows hunknown
    rw [dropUnknown_of_ne_nil hblocks hne] at hdropped
    exact hne hdropped
  · exact fun h => by rw [correctMain_of_kept h]

theorem hereditary_correctMain {P : Nat → Value → Prop} (hP : Hereditary P) {n : Nat} (slug : String)
    (known : Option (List String)) (h : P n (.object main)) :
    P n (.object (correctMain slug known main).1) := by
  cases known with
  | none => exact hereditary_correct hP h
  | some types => exact hereditary_dropUnknown hP types (hereditary_correct hP h)

theorem knows_reread {types : List String} (h : Reread main others) :
    Knows types others ↔ Knows types main := by
  have hrel := Value.rel_bind (h.get? "blocks") fun v w hagain => Value.rel_object?_of_again? hagain
  rw [Knows, Knows, blocksOf?, blocksOf?]
  generalize (main.get? "blocks").bind (·.object?) = x,
    (others.get? "blocks").bind (·.object?) = y at hrel
  cases hrel with
  | none => simp
  | @some blocks kept hblocks =>
    simp only [Option.some.injEq, forall_eq']
    induction hblocks with
    | nil => exact Iff.rfl
    | cons hblock _ ih =>
      rw [List.forall_mem_cons, List.forall_mem_cons, hasKnownType, hasKnownType,
        typeOf_of_again? hblock.2]
      exact and_congr_right' ih

theorem kept_reread (h : Reread main others) : Kept slug known others ↔ Kept slug known main := by
  rw [Kept, Kept, textField_reread h]
  simp only [knows_reread h]

end

/-- The main section of a page that was printed and read again. -/
theorem rel_pagePath? {v w : Value} (h : v.again? = some w) :
    Option.Rel (fun path other => Reread path.main other.main) (pagePath? v) (pagePath? w) := by
  refine Value.rel_bind (Value.rel_object?_of_again? h) fun top top' htop => ?_
  have hsections := Value.rel_bind (htop.get? "sections") fun v w => Value.rel_object?_of_again?
  refine Value.rel_bind hsections fun sections sections' hsections => ?_
  have hmain := Value.rel_bind (hsections.get? "main") fun v w => Value.rel_object?_of_again?
  exact Value.rel_bind hmain fun main main' hmain => .some hmain

theorem hereditary_main {P : Nat → Value → Prop} (hP : Hereditary P) {n : Nat} {page : Value}
    {path : PagePath} (h : P n page) (hpath : pagePath? page = some path) :
    ∃ m, P m (.object path.main) := by
  obtain ⟨rfl, hsections, hmain⟩ := PagePath.of_pagePath? hpath
  obtain ⟨m, rfl⟩ := hP.exists_succ h
  have hinner := hP.get? h hsections
  obtain ⟨k, rfl⟩ := hP.exists_succ hinner
  exact ⟨k, hP.get? hinner hmain⟩

theorem hereditary_withMain {P : Nat → Value → Prop} (hP : Hereditary P) {n : Nat} {page : Value}
    {path : PagePath} (h : P n page) (hpath : pagePath? page = some path) (slug : String)
    (known : Option (List String)) : P n (path.withMain (correctMain slug known path.main).1) := by
  obtain ⟨rfl, hsections, hmain⟩ := PagePath.of_pagePath? hpath
  obtain ⟨m, rfl⟩ := hP.exists_succ h
  have hinner := hP.get? h hsections
  obtain ⟨k, rfl⟩ := hP.exists_succ hinner
  have hsection := hereditary_correctMain hP slug known (hP.get? hinner hmain)
  exact hP.set h (hP.set hinner hsection "main") "sections"

end ThemeSection.Artifact
