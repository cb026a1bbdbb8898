import ThemeSection.Proofs.Artifact.CrowdedLine
import ThemeSection.Proofs.Artifact.Enforcement
import ThemeSection.Proofs.Json.Printed

/-!
Schemas that are printed again. Both passes over a section put the schema that they read back as
printed JSON, where the first closing delimiter ends it. The escapes of the text that was read are
gone by then, so a string that spelled the delimiter with an escape cuts the printed schema off.
Enforcing twice is enforcing once all the same: what was corrected needs no correction when it is
read again, and what can no longer be read is left alone.
-/

namespace ThemeSection.Artifact

open Json (Fields Readable Value)
open Liquid (segment? replaceSegment? schemaClose closesSchema upToClose)

/-- Whether a schema that is printed between the delimiters can be read from there: none of its
strings holds the closing delimiter, and its numbers come back from their texts. -/
structure Reprintable (schema : Json.Value) : Prop where
  unclosed : schema.mentions schemaClose.toList = false
  again : schema.again?.isSome

/-- Whether a text has a schema segment that is JSON. -/
def HasSchema (liquid : String) : Prop :=
  ∃ segment, segment? liquid = some segment ∧ Readable segment

theorem hasSchema_iff {liquid segment : String} (h : segment? liquid = some segment) :
    HasSchema liquid ↔ Readable segment := by
  constructor
  · rintro ⟨other, hother, hread⟩
    obtain rfl := Option.some.inj (h.symm.trans hother)
    exact hread
  · exact fun hread => ⟨segment, h, hread⟩

section

variable {schema : Json.Value}

theorem closesSchema_lines_pretty (schema : Json.Value) :
    closesSchema ("\n" ++ schema.pretty ++ "\n") = schema.mentions schemaClose.toList := by
  have hlines : ("\n" ++ schema.pretty ++ "\n").toList =
      '\n' :: ((schema.prettyAt 0).toList ++ ['\n']) := by simp [Json.Value.pretty]
  have hend : Chars.contains schemaClose.toList ['\n'] = false := by decide
  rw [closesSchema, Text.contains, hlines, Liquid.isTag_schemaClose.contains_cons (by decide),
    Json.Value.contains_prettyAt Liquid.isTag_schemaClose, hend, Bool.or_false]

theorem lexed_lines_pretty (schema : Json.Value) :
    Json.Lexed ("\n" ++ schema.pretty ++ "\n").toList := by
  have hlines : ("\n" ++ schema.pretty ++ "\n").toList =
      '\n' :: (schema.pretty.toList ++ ['\n']) := by simp
  rw [hlines]
  exact Json.lexed_cons (by decide) (Json.lexed_append schema.lexed_pretty (by decide))

/-- A printed schema that holds the closing delimiter is cut off within a string. -/
theorem not_readable_upToClose (h : closesSchema ("\n" ++ schema.pretty ++ "\n")) :
    ¬ Readable (upToClose ("\n" ++ schema.pretty ++ "\n")) := by
  intro hread
  obtain ⟨rest, hrest⟩ := Liquid.exists_upToClose_append h
  obtain ⟨others, hothers⟩ := Liquid.isTag_schemaClose.opening
  have hlexed := lexed_lines_pretty schema
  rw [hrest, ← hothers] at hlexed
  exact Json.not_lexed_of_append hlexed hread.lexed

/-- What is read where a schema was put back: what its text reads as, unless it is cut off. -/
theorem toOption_read_upToClose (htidy : schema.Tidy Json.maxHeight) :
    (Json.read (upToClose ("\n" ++ schema.pretty ++ "\n"))).toOption =
      if schema.mentions schemaClose.toList then none else schema.again? := by
  cases hclose : schema.mentions schemaClose.toList with
  | true =>
    have hcloses := (closesSchema_lines_pretty schema).trans hclose
    have hunread := not_readable_upToClose hcloses
    rw [if_pos rfl]
    cases hread : Json.read (upToClose ("\n" ++ schema.pretty ++ "\n")) with
    | error fault => rfl
    | ok v => exact absurd ⟨v, hread⟩ hunread
  | false =>
    rw [Liquid.upToClose_of_not_closesSchema ((closesSchema_lines_pretty schema).trans hclose)]
    exact Json.toOption_read_pretty htidy (Or.inr rfl) (Or.inr rfl)

theorem toOption_read_replaced {liquid replaced segment : String} (htidy : schema.Tidy Json.maxHeight)
    (h : replaceSegment? liquid schema.pretty = some replaced)
    (hsegment : segment? replaced = some segment) :
    (Json.read segment).toOption =
      if schema.mentions schemaClose.toList then none else schema.again? := by
  have hput := Liquid.segment?_of_replaceSegment? h
  rw [Json.Value.trim_pretty] at hput
  obtain rfl := Option.some.inj (hput.symm.trans hsegment)
  exact toOption_read_upToClose htidy

/-- Where a schema was put back, it can be read again exactly if it is reprintable. -/
theorem hasSchema_replaced_iff {liquid replaced : String} (htidy : schema.Tidy Json.maxHeight)
    (h : replaceSegment? liquid schema.pretty = some replaced) :
    HasSchema replaced ↔ Reprintable schema := by
  have hsegment := Liquid.segment?_of_replaceSegment? h
  rw [hasSchema_iff hsegment, Json.readable_iff_isSome_read, toOption_read_replaced htidy h hsegment]
  cases hclose : schema.mentions schemaClose.toList with
  | true =>
    refine iff_of_false (by simp) fun hreprint => ?_
    cases hreprint.unclosed.symm.trans hclose
  | false => exact ⟨fun hagain => ⟨hclose, hagain⟩, Reprintable.again⟩

end

/-- A schema that could be read before enforcement can be read after it exactly if it needed no
correction or is reprintable with its corrections. -/
theorem hasSchema_enforce_iff {liquid segment : String} {schema : Json.Value}
    (hsegment : segment? liquid = some segment) (hread : Json.read segment = .ok schema)
    (fileName pageText : String) :
    HasSchema (enforce fileName liquid pageText).liquid ↔ ∀ fields, schema = .object fields →
      (correctSchema (Text.slug fileName) fields).2 ≠ [] →
        Reprintable (.object (correctSchema (Text.slug fileName) fields).1) := by
  rw [enforce_eq]
  have houtcome := outcome_enforceSection (Text.slug fileName) liquid
  generalize enforceSection (Text.slug fileName) liquid = part at houtcome
  cases houtcome with
  | unusable warnings h =>
    refine iff_of_true ⟨segment, hsegment, schema, hread⟩ fun fields hfields => ?_
    exact absurd (hfields ▸ hread) (h segment hsegment fields)
  | @named segment' fields hsegment' hread' h =>
    obtain rfl := Option.some.inj (hsegment.symm.trans hsegment')
    obtain rfl := Except.ok.inj (hread.symm.trans hread')
    refine iff_of_true ⟨segment, hsegment, _, hread⟩ fun others hothers hsome => ?_
    obtain rfl := Json.Value.object.inj hothers
    exact absurd (correctSchema_eq_nil_iff.2 h) hsome
  | @corrected segment' replaced fields hsegment' hread' h hreplaced =>
    obtain rfl := Option.some.inj (hsegment.symm.trans hsegment')
    obtain rfl := Except.ok.inj (hread.symm.trans hread')
    dsimp only
    have htidy := hereditary_correctSchema Json.Value.hereditary_tidy (Text.slug fileName)
      (Json.tidy_of_read hread)
    rw [hasSchema_replaced_iff htidy hreplaced]
    constructor
    · intro hreprint others hothers _
      obtain rfl := Json.Value.object.inj hothers
      exact hreprint
    · exact fun hall => hall fields rfl fun hnone => h (correctSchema_eq_nil_iff.1 hnone)

/-- A schema that is JSON after the repair can be read from the repaired text exactly if nothing was
repaired or it is reprintable. -/
theorem hasSchema_repairQuotes_iff {liquid : String} (hvalid : (repairQuotes liquid).valid) :
    HasSchema (repairQuotes liquid).liquid ↔ (repairQuotes liquid).repaired = 0 ∨
      ∃ segment schema, segment? liquid = some segment ∧
        Json.read (repairedText segment) = .ok schema ∧ Reprintable schema := by
  have houtcome := outcome_repairQuotes liquid
  generalize repairQuotes liquid = result at houtcome hvalid
  cases houtcome with
  | same valid h hnone =>
    refine iff_of_true ?_ (Or.inl rfl)
    cases hsegment : segment? liquid with
    | none => cases (hnone hsegment).symm.trans hvalid
    | some segment =>
      obtain ⟨hcount, hok⟩ := h segment hsegment
      refine ⟨segment, hsegment, Json.readable_iff_isSome.2 ?_⟩
      rw [← toOption_readRaw_repairedText hcount, ← Json.readable_iff_isSome]
      rw [hok] at hvalid
      cases hread : Json.read (repairedText segment) with
      | ok schema => exact ⟨schema, hread⟩
      | error fault =>
        rw [hread] at hvalid
        cases hvalid
  | @printed segment replaced schema hsegment hcount hread hreplaced =>
    rw [hasSchema_replaced_iff (Json.tidy_of_read hread) hreplaced]
    constructor
    · exact fun h => Or.inr ⟨segment, schema, hsegment, hread, h⟩
    · rintro (hzero | ⟨segment', schema', hsegment', hread', h⟩)
      · exact absurd hzero (Nat.pos_iff_ne_zero.1 hcount)
      · obtain rfl := Option.some.inj (hsegment.symm.trans hsegment')
        obtain rfl := Except.ok.inj (hread.symm.trans hread')
        exact h
  | joined => cases hvalid

/-- Printing a schema again keeps it readable exactly if it is reprintable, be it printed for its
names or for its quotes. -/
theorem hasSchema_iff_reprintable (fileName liquid pageText : String) :
    (∀ segment schema, segment? liquid = some segment → Json.read segment = .ok schema →
      (HasSchema (enforce fileName liquid pageText).liquid ↔ ∀ fields, schema = .object fields →
        (correctSchema (Text.slug fileName) fields).2 ≠ [] →
          Reprintable (.object (correctSchema (Text.slug fileName) fields).1))) ∧
    ((repairQuotes liquid).valid →
      (HasSchema (repairQuotes liquid).liquid ↔ (repairQuotes liquid).repaired = 0 ∨
        ∃ segment schema, segment? liquid = some segment ∧
          Json.read (repairedText segment) = .ok schema ∧ Reprintable schema)) :=
  ⟨fun _ _ hsegment hread => hasSchema_enforce_iff hsegment hread fileName pageText,
    hasSchema_repairQuotes_iff⟩

/-- A string that spells the closing delimiter with an escape: the corrected schema ends within it.
-/
theorem hasSchema_enforce_escapedDelimiter :
    let liquid := "\x7b% schema %\x7d\x7b\"a\": \"\\u007b% endschema %\x7d\"\x7d\x7b% endschema %\x7d"
    HasSchema liquid ∧ ¬ HasSchema (enforce "b" liquid "\x7b\x7d").liquid := by
  intro liquid
  let segment := "\x7b\"a\": \"\\u007b% endschema %\x7d\"\x7d"
  have hsegment : segment? liquid = some segment := by decide +kernel
  have htest : ((Json.read segment).toOption.bind (·.object?)).any (fun fields =>
      !(correctSchema (Text.slug "b") fields).2.isEmpty &&
        (Json.Value.object (correctSchema (Text.slug "b") fields).1).mentions schemaClose.toList) := by
    decide +kernel
  obtain ⟨fields, hfields, htest⟩ := (Option.any_eq_true _ _).1 htest
  obtain ⟨hsome, hmentions⟩ := Bool.and_eq_true_iff.1 htest
  obtain ⟨schema, hschema, hobject⟩ := Option.bind_eq_some_iff.1 hfields
  have hread := Json.Value.eq_ok_of_toOption hschema
  have heq : schema = .object fields := by
    cases schema <;> first | exact congrArg _ (Option.some.inj hobject) | cases hobject
  refine ⟨⟨segment, hsegment, schema, hread⟩, fun h => ?_⟩
  have hreprint := ((hasSchema_iff_reprintable "b" liquid "\x7b\x7d").1 segment schema hsegment hread).1
    h fields heq (by simpa using hsome)
  cases hmentions.symm.trans hreprint.unclosed

/-- A corrected schema that is read again is named, and defines the same block types. -/
theorem reread_corrected {slug liquid segment replaced segment' : String} {fields others : Fields}
    (hread : Json.read segment = .ok (.object fields))
    (hreplaced : replaceSegment? liquid (Value.object (correctSchema slug fields).1).pretty =
      some replaced)
    (hsegment : segment? replaced = some segment')
    (hother : Json.read segment' = .ok (.object others)) :
    Value.Reread (correctSchema slug fields).1 others := by
  have htidy := hereditary_correctSchema Value.hereditary_tidy slug (Json.tidy_of_read hread)
  have hagain := toOption_read_replaced htidy hreplaced hsegment
  rw [hother] at hagain
  split at hagain
  case isTrue => cases hagain
  case isFalse =>
    obtain ⟨kept, hkept, hreread⟩ := Value.again?_object_eq_some_iff.1 hagain.symm
    obtain rfl := Value.object.inj hkept
    exact hreread

/-- A section that was enforced is left as it is, and its block types are still known or not at all.
-/
theorem enforceSection_enforceSection (fileName liquid : String) :
    let slug := Text.slug fileName
    let once := enforceSection slug liquid
    let twice := enforceSection slug once.liquid
    twice.liquid = once.liquid ∧ twice.mismatches = [] ∧
      (twice.known = once.known ∨ twice.known = none) := by
  intro slug
  have honce := outcome_enforceSection slug liquid
  generalize hpart : enforceSection slug liquid = once at honce
  intro first twice
  cases honce with
  | unusable warnings | named =>
    have htwice : twice = first := hpart
    rw [htwice]
    exact ⟨rfl, rfl, Or.inl rfl⟩
  | @corrected segment replaced fields hsegment hread h hreplaced =>
    have houtcome : SectionOutcome slug replaced twice := outcome_enforceSection slug replaced
    clear_value twice
    cases houtcome with
    | unusable warnings => exact ⟨rfl, rfl, Or.inr rfl⟩
    | @named segment' others hsegment' hread' h' =>
      have hreread := reread_corrected hread hreplaced hsegment' hread'
      refine ⟨rfl, rfl, Or.inl (congrArg some ?_)⟩
      rw [blockTypes_reread hreread, blockTypes_correctSchema]
    | @corrected segment' replaced' others hsegment' hread' h' =>
      have hreread := reread_corrected hread hreplaced hsegment' hread'
      have hnamed : Named slug (correctSchema slug fields).1 :=
        named_correctSchema (isTitle_schemaTitle fileName)
      exact absurd ((named_reread hreread).2 hnamed) h'

theorem Kept.weaken {slug : String} {known known' : Option (List String)} {main : Fields}
    (h : Kept slug known main) (hknown : known' = known ∨ known' = none) : Kept slug known' main := by
  rcases hknown with rfl | rfl
  · exact h
  · exact h.forget

/-- A page that was enforced is left as it is if the block types are still known or not at all. -/
theorem enforcePage_enforcePage (slug pageText : String) {known known' : Option (List String)}
    (hknown : known' = known ∨ known' = none) :
    let once := enforcePage slug known pageText
    let twice := enforcePage slug known' once.text
    twice.text = once.text ∧ twice.mismatches = [] ∧ twice.removed = [] := by
  intro once
  have honce : PageOutcome slug known pageText once := outcome_enforcePage slug known pageText
  clear_value once
  -- The main section of a page that is read from the text that was left can be kept.
  have hkept : ∀ page path, Json.read once.text = .ok page → pagePath? page = some path →
      Kept slug known path.main := by
    cases honce with
    | same warnings h => exact h
    | @corrected page path hread hpath h =>
      intro page' path' hread' hpath'
      have htidy := hereditary_withMain Value.hereditary_tidy (Json.tidy_of_read hread) hpath slug
        known
      have hagain := Json.toOption_read_pretty htidy (Or.inl rfl) (Or.inl rfl)
      rw [String.empty_append, String.append_empty, hread'] at hagain
      have hrel := rel_pagePath? hagain.symm
      rw [pagePath?_withMain, hpath'] at hrel
      cases hrel with
      | some hreread => exact (kept_reread hreread).2 (kept_correctMain slug known path.main)
  intro twice
  have htwice : PageOutcome slug known' once.text twice := outcome_enforcePage slug known' once.text
  clear_value twice
  cases htwice with
  | same warnings => exact ⟨rfl, rfl, rfl⟩
  | @corrected page path hread hpath h =>
    exact absurd ((hkept page path hread hpath).weaken hknown) h

/-- Enforcing the name of a file a second time changes nothing and reports no correction. -/
theorem enforce_enforce (fileName liquid pageText : String) :
    let once := enforce fileName liquid pageText
    let twice := enforce fileName once.liquid once.pageText
    twice.liquid = once.liquid ∧ twice.pageText = once.pageText ∧
      twice.report.mismatches = [] ∧ twice.changes = [] := by
  intro once twice
  have honce : once = _ := enforce_eq fileName liquid pageText
  have htwice : twice = _ := enforce_eq fileName once.liquid once.pageText
  obtain ⟨hliquid, hmismatches, hknown⟩ := enforceSection_enforceSection fileName liquid
  obtain ⟨htext, hmain, hremoved⟩ := enforcePage_enforcePage (Text.slug fileName) pageText hknown
  rw [htwice, honce]
  dsimp only
  rw [hmismatches, hmain, hremoved]
  exact ⟨hliquid, htext, rfl, rfl⟩

end ThemeSection.Artifact
