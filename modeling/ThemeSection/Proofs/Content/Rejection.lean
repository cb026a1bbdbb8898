import ThemeSection.Proofs.Conversion
import ThemeSection.Proofs.Block.Rejection
import ThemeSection.Proofs.Content.Output

/-!
Rejected patterns and conversions. A custom pattern that is rejected when its turn comes leaves no
trace in a conversion but its own warning: the section, the page configuration and the schema are
those that come out without it.
-/

namespace ThemeSection

open Markup

theorem Text.trim_eq_empty_iff {s : String} : trim s = "" ↔ isBlank s := by
  rw [← String.toList_eq_nil_iff, trim, toList_onChars, Chars.trim_eq_nil_iff, isBlank,
    List.all_eq_true]

namespace PageSettings

open Sweep

/-- Of the options only the length of paragraphs matters to the sweeps. -/
theorem extract_congr {options options' : Options}
    (h : options.paragraphMinChars = options'.paragraphMinChars) (root : NodeId)
    (regions : List NodeId) (seed : List Setting) (d : Document) :
    extract root regions options seed d = extract root regions options' seed d := by
  have hparagraph : visitParagraph ⟨root, regions, options⟩ =
      visitParagraph ⟨root, regions, options'⟩ := by
    funext s p
    simp only [visitParagraph, h]
    rfl
  have hparagraphs : paragraphs ⟨root, regions, options⟩ = paragraphs ⟨root, regions, options'⟩ := by
    funext s
    simp only [paragraphs, hparagraph]
  have hnavigation : navigation ⟨root, regions, options⟩ = navigation ⟨root, regions, options'⟩ := rfl
  have hheadings : headings ⟨root, regions, options⟩ = headings ⟨root, regions, options'⟩ := rfl
  have hbuttons : buttons ⟨root, regions, options⟩ = buttons ⟨root, regions, options'⟩ := rfl
  have himages : images ⟨root, regions, options⟩ = images ⟨root, regions, options'⟩ := rfl
  have hbackgrounds : backgrounds ⟨root, regions, options⟩ = backgrounds ⟨root, regions, options'⟩ := rfl
  have hdone : ∀ start, [navigation, headings, paragraphs, buttons, images, backgrounds].foldl
        (fun s sweep => sweep ⟨root, regions, options⟩ s) start =
      [navigation, headings, paragraphs, buttons, images, backgrounds].foldl
        (fun s sweep => sweep ⟨root, regions, options'⟩ s) start := by
    intro start
    simp only [List.foldl_cons, List.foldl_nil, hnavigation, hheadings, hparagraphs, hbuttons,
      himages, hbackgrounds]
  unfold extract
  dsimp only
  rw [hdone]

end PageSettings

namespace SectionContent

def withWarnings (content : SectionContent) (warnings : List String) : SectionContent :=
  { content with warnings }

section

variable (content : SectionContent) (warnings : List String)

@[simp] theorem document_withWarnings : (content.withWarnings warnings).document = content.document :=
  rfl

@[simp] theorem changes_withWarnings : (content.withWarnings warnings).changes = content.changes :=
  rfl

@[simp] theorem warnings_withWarnings : (content.withWarnings warnings).warnings = warnings :=
  rfl

end

section

variable (slug : String) (pageType : PageType) {options options' : Options} (root : Place)
  (d : Document) {own : List DetectionWarning}

/-- What collecting the settings of a page comes to once its blocks are bound. -/
def collected (options : Options) : Document × PageSettings :=
  PageSettings.extract root.id
    ((bound slug pageType options root d).2.regions ++ excluded pageType options root d) options
    (replaceProducts pageType options root d).2.settings (bound slug pageType options root d).1

theorem ofDocument_eq (options : Options) :
    ofDocument slug pageType options root d =
      { document := (collected slug pageType root d options).1
        settings := (collected slug pageType root d options).2.settings
        definitions := (bound slug pageType options root d).2.definitions
        records := (bound slug pageType options root d).2.records
        changes := (replaceProducts pageType options root d).2.changes ++
          (bound slug pageType options root d).2.changes ++
          (collected slug pageType root d options).2.changes
        warnings := (detected pageType options root d).warnings.map DetectionWarning.message ++
          (bound slug pageType options root d).2.warnings } := by
  simp only [ofDocument, collected, bound, collapsed, detected, searched, excluded]

section

variable (options : Options) (patterns : List CustomPattern)

theorem replaceProducts_withPatterns :
    replaceProducts pageType (options.withPatterns patterns) root d =
      replaceProducts pageType options root d :=
  rfl

theorem excluded_withPatterns :
    excluded pageType (options.withPatterns patterns) root d =
      excluded pageType options root d := by
  rw [excluded, excluded, replaceProducts_withPatterns]

theorem searched_withPatterns :
    searched pageType (options.withPatterns patterns) root d =
      searched pageType options root d := by
  rw [searched, searched, replaceProducts_withPatterns]

end

/-- Where other custom patterns find the same blocks, only warnings differ. -/
theorem ofDocument_of_aside {patterns : List CustomPattern}
    (h : Detection.Aside own
      (detected pageType (options.withPatterns patterns) root d)
      (detected pageType options root d)) :
    ∃ before after,
      (ofDocument slug pageType (options.withPatterns patterns) root d).warnings =
        before ++ after ∧
      ofDocument slug pageType options root d =
        (ofDocument slug pageType (options.withPatterns patterns) root d).withWarnings
          (before ++ own.map DetectionWarning.message ++ after) := by
  obtain ⟨before, after, hother, hwarnings⟩ := h.warnings
  have hcollapsed : collapsed slug pageType options root d =
      collapsed slug pageType (options.withPatterns patterns) root d := by
    rw [collapsed, collapsed, h.blocks, searched_withPatterns]
  have hbound : bound slug pageType options root d =
      bound slug pageType (options.withPatterns patterns) root d := by
    rw [bound, bound, hcollapsed, Options.injectBlocks_withPatterns]
  have hcollected : collected slug pageType root d options =
      collected slug pageType root d (options.withPatterns patterns) := by
    rw [collected, collected, hbound, excluded_withPatterns, replaceProducts_withPatterns]
    exact PageSettings.extract_congr (options.paragraphMinChars_withPatterns patterns).symm ..
  refine ⟨before.map DetectionWarning.message, after.map DetectionWarning.message ++
    (bound slug pageType (options.withPatterns patterns) root d).2.warnings, ?_, ?_⟩
  · rw [ofDocument_eq, hother, List.map_append]
    exact List.append_assoc ..
  · rw [ofDocument_eq, ofDocument_eq, hwarnings, hbound, hcollected, replaceProducts_withPatterns]
    simp only [withWarnings, List.map_append, List.append_assoc]

/-- What is detected, from the node that stands where the root stood. -/
theorem detected_eq {top : Place}
    (h : (searched pageType options root d).place? root.id = some top) :
    detected pageType options root d =
      Detection.detect top options (excluded pageType options root d) := by
  rw [detected, detectBlocks, h]

/-- A custom pattern that is rejected at its turn changes nothing in a content but its warnings. -/
theorem ofDocument_of_rejected {earlier later : List CustomPattern} {custom : CustomPattern}
    (hcustom : options.customPatterns = earlier ++ custom :: later) {top : Place}
    (htop : (searched pageType options root d).place? root.id = some top) :
    let turn := Detection.atTurn top (excluded pageType options root d) earlier
    Detection.Rejected top turn (.ofCustom custom) →
      ∃ before after,
        (ofDocument slug pageType (options.withPatterns (earlier ++ later)) root d).warnings =
          before ++ after ∧
        ofDocument slug pageType options root d =
          (ofDocument slug pageType (options.withPatterns (earlier ++ later)) root d).withWarnings
            (before ++ (Detection.rejection top turn (.ofCustom custom)).map DetectionWarning.message ++
              after) := by
  intro turn hrejected
  refine ofDocument_of_aside slug pageType root d ?_
  have hother : (searched pageType (options.withPatterns (earlier ++ later)) root d).place? root.id =
      some top := by
    rw [searched_withPatterns, htop]
  rw [detected_eq pageType root d htop, detected_eq pageType root d hother, excluded_withPatterns]
  exact Detection.aside_detect_of_rejected hcustom hrejected

/-- The root is still there when blocks are looked for. -/
theorem exists_place?_searched (options : Options) {root : Place} {d : Document} (hd : d.Distinct)
    (hroot : root ∈ d.places) :
    ∃ top, (searched pageType options root d).place? root.id = some top := by
  obtain ⟨touched, hevolves⟩ :=
    (turns_searched pageType options hd hroot (d.Reach root)).evolves hd
  exact Document.exists_place? (hevolves.ids (Document.id_mem_ids (Document.tree_mem_nodes hroot)))

end

end SectionContent

namespace Conversion

def withWarnings (conversion : Conversion) (warnings : List String) : Conversion :=
  { conversion with warnings }

section

variable (name : String) (pageType : PageType) (assets : Assets) (body : String)
  (content : SectionContent)

/-- The warnings about a content are the first warnings of its conversion, and nothing else there. -/
theorem exists_finish_withWarnings : ∃ rest, ∀ warnings,
    finish name pageType assets body (content.withWarnings warnings) =
      (finish name pageType assets body content).withWarnings (warnings ++ rest) := by
  have hschema : ∀ warnings, schemaOf name pageType (content.withWarnings warnings) =
      schemaOf name pageType content := fun warnings => by
    simp only [schemaOf, SectionContent.withWarnings]
  have htext : ∀ warnings, textOf name pageType assets body (content.withWarnings warnings) =
      textOf name pageType assets body content := fun warnings => by
    simp only [textOf, partsOf, hschema]
  have hpage : ∀ warnings, pageOf name (content.withWarnings warnings) = pageOf name content :=
    fun warnings => by simp only [pageOf, SectionContent.withWarnings]
  refine ⟨(finish name pageType assets body (content.withWarnings [])).warnings, ?_⟩
  intro warnings
  simp only [finish, htext, hpage, hschema, SectionContent.changes_withWarnings,
    SectionContent.warnings_withWarnings, withWarnings, List.nil_append]

variable {content}

/-- Warnings put in among those about a content are put in among those of its conversion. -/
theorem finish_of_warnings {before after : List String} (h : content.warnings = before ++ after)
    (own : List String) :
    ∃ after', (finish name pageType assets body content).warnings = before ++ after' ∧
      finish name pageType assets body (content.withWarnings (before ++ own ++ after)) =
        (finish name pageType assets body content).withWarnings (before ++ own ++ after') := by
  obtain ⟨rest, hrest⟩ := exists_finish_withWarnings name pageType assets body content
  refine ⟨after ++ rest, ?_, ?_⟩
  · have hself := congrArg Conversion.warnings (hrest content.warnings)
    rw [← List.append_assoc, ← h]
    exact hself
  · rw [hrest, List.append_assoc _ after rest]

end

variable {markup name : String} {options : Options}

/-- A conversion fails exactly on blank input. -/
theorem convert_eq_error_iff (options : Options) : (∃ e, convert markup name options = .error e) ↔
    Text.trim markup = "" ∨ Text.trim name = "" := by
  rw [Text.trim_eq_empty_iff, Text.trim_eq_empty_iff, convert]
  split
  case isTrue hmarkup => simp [hmarkup]
  case isFalse hmarkup =>
    split
    case isTrue hname => simp [hname]
    case isFalse hname => simp [hmarkup, hname]

/-- A page with a rejected custom pattern is converted as it is without the pattern. -/
theorem ofPage_of_rejected {earlier later : List CustomPattern} {custom : CustomPattern}
    (hcustom : options.customPatterns = earlier ++ custom :: later) {top : Place} :
    let page := (stripped markup).1
    let turn := Detection.atTurn top
      (SectionContent.excluded (typeOf markup name) options page.body page) earlier
    (SectionContent.searched (typeOf markup name) options page.body page).place? page.body.id =
        some top →
      Detection.Rejected top turn (.ofCustom custom) →
      let other := ofPage markup name (options.withPatterns (earlier ++ later))
      ∃ before after, other.warnings = before ++ after ∧
        ofPage markup name options = other.withWarnings (before ++
          (Detection.rejection top turn (.ofCustom custom)).map DetectionWarning.message ++
          after) := by
  intro page turn htop hrejected other
  obtain ⟨before, after, hwarnings, hcontent⟩ :=
    SectionContent.ofDocument_of_rejected (Text.slug name) (typeOf markup name) page.body page hcustom
      htop hrejected
  rw [← contentOf, ← contentOf] at hcontent
  rw [← contentOf] at hwarnings
  have hbody : bodyOf markup name options =
      bodyOf markup name (options.withPatterns (earlier ++ later)) := by
    rw [bodyOf, bodyOf, hcontent, SectionContent.document_withWarnings]
  obtain ⟨after', hother, hfinish⟩ := finish_of_warnings name (typeOf markup name)
    (stripped markup).2 (bodyOf markup name (options.withPatterns (earlier ++ later))) hwarnings
    ((Detection.rejection top turn (.ofCustom custom)).map DetectionWarning.message)
  rw [← ofPage_eq] at hother hfinish
  refine ⟨before, after', hother, ?_⟩
  rw [ofPage_eq, hbody, hcontent, hfinish]

/-- A conversion fails exactly on blank input. A custom pattern, wherever it stands among them, that is
rejected when its turn comes leaves all else in the conversion as it is without the pattern, and only
its own warning is put in. -/
theorem convert_rejected (markup name : String) (options : Options) :
    ((∃ e, convert markup name options = .error e) ↔
      Text.trim markup = "" ∨ Text.trim name = "") ∧
    ∀ earlier custom later, options.customPatterns = earlier ++ custom :: later →
      let page := (stripped markup).1
      let excluded := SectionContent.excluded (typeOf markup name) options page.body page
      ∃ top, (SectionContent.searched (typeOf markup name) options page.body page).place?
          page.body.id = some top ∧
        let turn := Detection.atTurn top excluded earlier
        Detection.Rejected top turn (.ofCustom custom) →
        ∀ conversion, convert markup name options = .ok conversion →
          ∃ other before after,
            convert markup name (options.withPatterns (earlier ++ later)) = .ok other ∧
            other.warnings = before ++ after ∧
            conversion = other.withWarnings (before ++
              (Detection.rejection top turn (.ofCustom custom)).map DetectionWarning.message ++
              after) := by
  refine ⟨convert_eq_error_iff options, fun earlier custom later hcustom => ?_⟩
  intro page excluded
  have hdistinct : page.Distinct := Assets.distinct_extract (Document.distinct_ofMarkup markup)
  obtain ⟨top, htop⟩ := SectionContent.exists_place?_searched (typeOf markup name) options hdistinct
    (Document.body_mem_places page)
  refine ⟨top, htop, fun hrejected conversion hconvert => ?_⟩
  obtain ⟨before, after, hwarnings, hpage⟩ := ofPage_of_rejected hcustom htop hrejected
  obtain rfl := eq_ofPage_of_convert hconvert
  refine ⟨_, before, after, ?_, hwarnings, hpage⟩
  have hblank : ¬ (Text.trim markup = "" ∨ Text.trim name = "") := by
    rw [← convert_eq_error_iff options, hconvert]
    rintro ⟨e, he⟩
    cases he
  rw [not_or, Text.trim_eq_empty_iff, Text.trim_eq_empty_iff, Bool.not_eq_true,
    Bool.not_eq_true] at hblank
  exact convert_eq_ofPage _ hblank.1 hblank.2

/-- A page with cards, which the catalog takes, and two paragraphs. -/
def cardMarkup : String :=
  "<div class=card><p>A</p></div><div class=card><p>B</p></div><p class=q>C</p><p class=q>D</p>"

/-- Options that ask for the paragraphs as further cards. -/
def cardOptions : Options :=
  { customPatterns := [{ type := "card", selector := ".q" }] }

/-- Paragraphs that are asked for as cards, where there are cards, come to a warning and nothing
else. -/
theorem convert_rejected_cardMarkup :
    ∃ conversion other before after, convert cardMarkup "home" cardOptions = .ok conversion ∧
      convert cardMarkup "home" (cardOptions.withPatterns []) = .ok other ∧
      other.warnings = before ++ after ∧
      conversion =
        other.withWarnings (before ++ ["Duplicate block type 'card' dropped"] ++ after) := by
  have hcustom : cardOptions.customPatterns = [] ++ ⟨"card", none, ".q", 12, 2⟩ :: [] := rfl
  obtain ⟨top, htop, hrejected⟩ := (convert_rejected cardMarkup "home" cardOptions).2 _ _ _ hcustom
  have hconvert : convert cardMarkup "home" cardOptions =
      .ok (ofPage cardMarkup "home" cardOptions) :=
    convert_eq_ofPage cardOptions (by decide) (by decide)
  have hturn : ((SectionContent.searched (typeOf cardMarkup "home") cardOptions
      (stripped cardMarkup).1.body (stripped cardMarkup).1).place?
        (stripped cardMarkup).1.body.id).all (fun top =>
          let turn := Detection.atTurn top (SectionContent.excluded (typeOf cardMarkup "home")
            cardOptions (stripped cardMarkup).1.body (stripped cardMarkup).1) []
          (turn.blocks.map (·.type)).contains "card" &&
            (Detection.rejection top turn (.ofCustom ⟨"card", none, ".q", 12, 2⟩)) ==
              [.duplicateType "card"]) = true := by
    decide +kernel
  rw [htop, Option.all_some, Bool.and_eq_true, List.contains_iff_mem, beq_iff_eq] at hturn
  obtain ⟨htaken, hwarning⟩ := hturn
  obtain ⟨other, before, after, hother, hwarnings, hsame⟩ := hrejected (.taken htaken) _ hconvert
  rw [hwarning] at hsame
  exact ⟨_, other, before, after, hconvert, hother, hwarnings, hsame⟩

end Conversion

end ThemeSection
