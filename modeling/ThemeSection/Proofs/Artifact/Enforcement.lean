import ThemeSection.Proofs.Artifact.PageCorrection
import ThemeSection.Proofs.Liquid.Replacement

/-!
The outcomes of enforcement. The text of a section stays as it is unless its schema is an object that
lacks a name; the text of a page stays as it is unless its main section cannot be kept. Otherwise
what is corrected is printed again.
-/

namespace ThemeSection.Artifact

open Json (Fields Value maxHeight)
open Liquid (segment? replaceSegment?)

/-- What can come of the text of a section. -/
inductive SectionOutcome (slug liquid : String) : EnforcedSection → Prop
  | unusable (warnings : List String)
    (h : ∀ segment, segment? liquid = some segment → ∀ fields, Json.read segment ≠ .ok (.object fields)) :
    SectionOutcome slug liquid ⟨liquid, [], warnings, none⟩
  | named {segment : String} {fields : Fields} (hsegment : segment? liquid = some segment)
    (hread : Json.read segment = .ok (.object fields)) (h : Named slug fields) :
    SectionOutcome slug liquid ⟨liquid, [], [], some (blockTypes fields)⟩
  | corrected {segment replaced : String} {fields : Fields}
    (hsegment : segment? liquid = some segment) (hread : Json.read segment = .ok (.object fields))
    (h : ¬ Named slug fields)
    (hreplaced : replaceSegment? liquid (Value.object (correctSchema slug fields).1).pretty =
      some replaced) :
    SectionOutcome slug liquid
      ⟨replaced, (correctSchema slug fields).2, [], some (blockTypes fields)⟩

theorem outcome_enforceSection (slug liquid : String) :
    SectionOutcome slug liquid (enforceSection slug liquid) := by
  rw [enforceSection]
  cases hsegment : segment? liquid with
  | none => exact .unusable _ fun segment h => nomatch hsegment.symm.trans h
  | some segment =>
    have hother (warnings : List String) (h : ∀ fields, Json.read segment ≠ .ok (.object fields)) :
        SectionOutcome slug liquid ⟨liquid, [], warnings, none⟩ := by
      refine .unusable warnings fun other hother => ?_
      obtain rfl := Option.some.inj (hsegment.symm.trans hother)
      exact h
    dsimp only
    cases hread : Json.read segment with
    | error fault => exact hother _ fun fields h => nomatch hread.symm.trans h
    | ok schema =>
      cases schema with
      | object fields =>
        dsimp only
        rw [blockTypes_correctSchema]
        by_cases hnamed : Named slug fields
        · rw [correctSchema_of_named hnamed]
          exact .named hsegment hread hnamed
        · obtain ⟨replaced, hreplaced⟩ := Liquid.exists_replaceSegment? hsegment
            (Value.object (correctSchema slug fields).1).pretty
          have hsome : (correctSchema slug fields).2 ≠ [] := fun h =>
            hnamed (correctSchema_eq_nil_iff.1 h)
          rw [if_neg (by simpa using hsome), hreplaced, Option.getD_some]
          exact .corrected hsegment hread hnamed hreplaced
      | _ => exact hother _ fun fields h => nomatch hread.symm.trans h

/-- What came of the text of a page configuration: the text, the mismatches, the warnings and the ids
of the blocks that were removed. -/
structure EnforcedPage where
  text : String
  mismatches : List Mismatch
  warnings : List String
  removed : List String

/-- Holds the text of a page configuration to the slug and to the known block types. -/
def enforcePage (slug : String) (known : Option (List String)) (pageText : String) : EnforcedPage :=
  match Json.read pageText with
  | .error fault =>
    ⟨pageText, [], ["Page configuration is not valid JSON: " ++ fault.describe pageText], []⟩
  | .ok page =>
    match correctPage? slug known page with
    | none => ⟨pageText, [], ["Page configuration has no sections.main"], []⟩
    | some corrected =>
      let text :=
        if corrected.mismatches.isEmpty && corrected.removed.isEmpty then pageText
        else corrected.value.pretty
      ⟨text, corrected.mismatches, [], corrected.removed⟩

/-- Enforcement treats the section first, and the page with the block types of the section. -/
theorem enforce_eq (fileName liquid pageText : String) :
    let slug := Text.slug fileName
    let part := enforceSection slug liquid
    let page := enforcePage slug part.known pageText
    enforce fileName liquid pageText =
      { liquid := part.liquid
        pageText := page.text
        report :=
          { slug, mismatches := part.mismatches ++ page.mismatches
            warnings := part.warnings ++ page.warnings ++ page.removed.map fun id =>
              s!"Removed block '{id}' with a type the schema does not define" }
        changes := (part.mismatches ++ page.mismatches).map Mismatch.change
          ++ page.removed.map fun id => s!"Removed block '{id}' with unknown type" } := by
  intro slug part page
  rw [enforce]
  dsimp only [page, enforcePage]
  cases Json.read pageText with
  | error fault => rfl
  | ok page =>
    dsimp only
    cases correctPage? slug part.known page <;> rfl

/-- What can come of the text of a page. -/
inductive PageOutcome (slug : String) (known : Option (List String)) (pageText : String) :
    EnforcedPage → Prop
  | same (warnings : List String) (h : ∀ page path, Json.read pageText = .ok page →
      pagePath? page = some path → Kept slug known path.main) :
    PageOutcome slug known pageText ⟨pageText, [], warnings, []⟩
  | corrected {page : Value} {path : PagePath} (hread : Json.read pageText = .ok page)
    (hpath : pagePath? page = some path) (h : ¬ Kept slug known path.main) :
    PageOutcome slug known pageText
      ⟨(path.withMain (correctMain slug known path.main).1).pretty,
        (correctMain slug known path.main).2.1, [], (correctMain slug known path.main).2.2⟩

theorem outcome_enforcePage (slug : String) (known : Option (List String)) (pageText : String) :
    PageOutcome slug known pageText (enforcePage slug known pageText) := by
  rw [enforcePage]
  cases hread : Json.read pageText with
  | error fault => exact .same _ fun page path h => nomatch hread.symm.trans h
  | ok page =>
    dsimp only
    rw [correctPage?_eq]
    have hsame (warnings : List String) (h : ∀ path, pagePath? page = some path →
        Kept slug known path.main) : PageOutcome slug known pageText ⟨pageText, [], warnings, []⟩ := by
      refine .same warnings fun other path hother hpath => ?_
      obtain rfl := Except.ok.inj (hread.symm.trans hother)
      exact h path hpath
    cases hpath : pagePath? page with
    | none => exact hsame _ fun path h => nomatch hpath.symm.trans h
    | some path =>
      dsimp only [Option.map_some]
      by_cases hkept : Kept slug known path.main
      · rw [correctMain_of_kept hkept]
        refine hsame [] fun other h => ?_
        obtain rfl := Option.some.inj (hpath.symm.trans h)
        exact hkept
      · have hreported : ¬ ((correctMain slug known path.main).2.1.isEmpty &&
            (correctMain slug known path.main).2.2.isEmpty) := by
          intro h
          obtain ⟨hmismatches, hremoved⟩ := Bool.and_eq_true_iff.1 h
          exact hkept (correctMain_eq_nil_iff.1 (Prod.ext (List.isEmpty_iff.1 hmismatches)
            (List.isEmpty_iff.1 hremoved)))
        rw [if_neg hreported]
        exact .corrected hread hpath hkept

end ThemeSection.Artifact
