import ThemeSection.Proofs.Artifact.QuoteRepair
import ThemeSection.Proofs.Liquid.Replacement

/-!
Repairing twice is repairing once. A text is put back only if it was printed as JSON, where nothing
is left to repair on any line, or if its lines are as they were but for the ones that were repaired,
which need no repair again.
-/

namespace ThemeSection.Artifact

open Liquid (segment? replaceSegment? schemaClose closesSchema)

/-- A line after the repair. -/
def repairedLine (line : List Char) : List Char :=
  (repairLine? line).getD line

theorem repairLine?_repairedLine (line : List Char) : repairLine? (repairedLine line) = none := by
  cases h : repairLine? line with
  | none => rw [repairedLine, h, Option.getD_none, h]
  | some fixed =>
    rw [repairedLine, h, Option.getD_some]
    exact repairLine?_of_repairLine? h

theorem newline_not_mem_repairedLine {line : List Char} (h : '\n' ∉ line) :
    '\n' ∉ repairedLine line := by
  cases hfixed : repairLine? line with
  | none =>
    rw [repairedLine, hfixed]
    exact h
  | some fixed =>
    rw [repairedLine, hfixed]
    exact fun hmem => h (mem_of_mem_repairLine? (by decide) hfixed hmem)

theorem contains_of_contains_repairedLine {needle line : List Char} (hquote : '"' ∉ needle)
    (hslash : '\\' ∉ needle) (h : Chars.contains needle (repairedLine line)) :
    Chars.contains needle line := by
  cases hfixed : repairLine? line with
  | none =>
    rw [repairedLine, hfixed] at h
    exact h
  | some fixed =>
    rw [repairedLine, hfixed] at h
    exact contains_of_contains_repairLine? hquote hslash hfixed h

/-- The text of a segment after the repair of its lines. -/
def repairedText (segment : String) : String :=
  Text.join "\n" ((Chars.lines segment.toList).map fun line => String.ofList (repairedLine line))

/-- The number of lines that are repaired. -/
def repairCount (segment : String) : Nat :=
  ((Chars.lines segment.toList).filter fun line => (repairLine? line).isSome).length

theorem repairCount_eq_zero_iff {segment : String} :
    repairCount segment = 0 ↔ ∀ line ∈ Chars.lines segment.toList, repairLine? line = none := by
  rw [repairCount, List.length_eq_zero_iff, List.filter_eq_nil_iff]
  exact forall₂_congr fun line _ => by simp

theorem toList_repairedText (segment : String) :
    (repairedText segment).toList =
      ['\n'].intercalate ((Chars.lines segment.toList).map repairedLine) := by
  simp [repairedText, Text.join, String.toList_intercalate, Function.comp_def]

/-- No line of a text, blanks at its ends aside, needs a repair once the lines are repaired. -/
theorem forall_pieces_repairedText (segment : String) :
    ∀ piece ∈ Chars.pieces (repairedText segment).toList, repairLine? piece = none := by
  rw [toList_repairedText]
  cases hlines : (Chars.lines segment.toList).map repairedLine with
  | nil =>
    intro piece hpiece
    obtain rfl := List.mem_singleton.1 hpiece
    decide
  | cons first rest =>
    rw [Chars.pieces_intercalate (List.cons_ne_nil first rest)]
    · rw [← hlines]
      exact List.forall_mem_map.2 fun line _ => repairLine?_repairedLine line
    · rw [← hlines]
      exact List.forall_mem_map.2 fun line hline =>
        newline_not_mem_repairedLine (Chars.newline_not_mem_of_mem_lines hline)

/-- The repair brings no closing delimiter. -/
theorem not_closesSchema_repairedText {segment : String} (h : closesSchema segment = false) :
    closesSchema (repairedText segment) = false := by
  rw [closesSchema, Text.contains, toList_repairedText,
    Chars.contains_intercalate (by decide) (by decide), List.any_eq_false]
  refine List.forall_mem_map.2 fun line hline hcontains => ?_
  have hline' := contains_of_contains_repairedLine (by decide) (by decide) hcontains
  have hsegment := (Chars.contains_iff.1 hline').trans (Chars.infix_of_mem_lines hline)
  rw [closesSchema, Text.contains, Chars.contains_eq_false_iff] at h
  exact h hsegment

theorem repairQuotes_of_segment? {liquid segment : String} (h : segment? liquid = some segment) :
    repairQuotes liquid = match Json.read (repairedText segment) with
      | .ok schema =>
        if repairCount segment > 0 then
          ⟨(replaceSegment? liquid schema.pretty).getD liquid, repairCount segment, true⟩
        else ⟨liquid, 0, true⟩
      | .error _ =>
        ⟨if repairCount segment > 0 then (replaceSegment? liquid (repairedText segment)).getD liquid
          else liquid, repairCount segment, false⟩ := by
  rw [repairQuotes, h]
  rfl

/-- The outcomes of a repair: nothing was repaired, or the segment was put back, printed as JSON if
it has become that. -/
inductive Outcome (liquid : String) : QuoteRepair → Prop
  | same (valid : Bool)
    (h : ∀ segment, segment? liquid = some segment → repairCount segment = 0 ∧
      valid = (Json.read (repairedText segment)).isOk)
    (hnone : segment? liquid = none → valid = false) : Outcome liquid ⟨liquid, 0, valid⟩
  | printed {segment replaced : String} {schema : Json.Value} (hsegment : segment? liquid = some segment)
    (hcount : 0 < repairCount segment) (hread : Json.read (repairedText segment) = .ok schema)
    (hreplaced : replaceSegment? liquid schema.pretty = some replaced) :
    Outcome liquid ⟨replaced, repairCount segment, true⟩
  | joined {segment replaced : String} {fault : Json.Fault} (hsegment : segment? liquid = some segment)
    (hcount : 0 < repairCount segment) (hread : Json.read (repairedText segment) = .error fault)
    (hreplaced : replaceSegment? liquid (repairedText segment) = some replaced) :
    Outcome liquid ⟨replaced, repairCount segment, false⟩

theorem outcome_repairQuotes (liquid : String) : Outcome liquid (repairQuotes liquid) := by
  cases hsegment : segment? liquid with
  | none =>
    rw [repairQuotes, hsegment]
    exact .same false (fun segment h => absurd (hsegment.symm.trans h) (by simp)) fun _ => rfl
  | some segment =>
    have hsame (valid : Bool) (hvalid : valid = (Json.read (repairedText segment)).isOk)
        (hcount : ¬ repairCount segment > 0) : Outcome liquid ⟨liquid, 0, valid⟩ := by
      refine .same valid (fun other h => ?_) fun hnone => absurd (hsegment.symm.trans hnone) (by simp)
      obtain rfl := Option.some.inj (hsegment.symm.trans h)
      exact ⟨Nat.eq_zero_of_not_pos hcount, hvalid⟩
    rw [repairQuotes_of_segment? hsegment]
    cases hread : Json.read (repairedText segment) with
    | ok schema =>
      obtain ⟨replaced, hreplaced⟩ := Liquid.exists_replaceSegment? hsegment schema.pretty
      dsimp only
      split
      case isTrue hcount =>
        rw [hreplaced, Option.getD_some]
        exact .printed hsegment hcount hread hreplaced
      case isFalse hcount => exact hsame true (by rw [hread]; rfl) hcount
    | error fault =>
      obtain ⟨replaced, hreplaced⟩ := Liquid.exists_replaceSegment? hsegment (repairedText segment)
      dsimp only
      split
      case isTrue hcount =>
        rw [hreplaced, Option.getD_some]
        exact .joined hsegment hcount hread hreplaced
      case isFalse hcount =>
        rw [Nat.eq_zero_of_not_pos hcount]
        exact hsame false (by rw [hread]; rfl) hcount

/-- A text on whose schema lines nothing is to be repaired is left as it is. -/
theorem repairQuotes_of_forall {liquid : String} (h : ∀ segment, segment? liquid = some segment →
    ∀ line ∈ Chars.lines segment.toList, repairLine? line = none) :
    (repairQuotes liquid).repaired = 0 ∧ (repairQuotes liquid).liquid = liquid := by
  have hcount : ∀ segment, segment? liquid = some segment → ¬ 0 < repairCount segment :=
    fun segment hsegment => by
      rw [repairCount_eq_zero_iff.2 (h segment hsegment)]
      exact Nat.lt_irrefl 0
  have houtcome := outcome_repairQuotes liquid
  generalize repairQuotes liquid = result at houtcome ⊢
  cases houtcome with
  | same valid => exact ⟨rfl, rfl⟩
  | printed hsegment hpos => exact absurd hpos (hcount _ hsegment)
  | joined hsegment hpos => exact absurd hpos (hcount _ hsegment)

theorem repairLine?_of_printed {schema : Json.Value} {liquid replaced segment : String}
    (hreplaced : replaceSegment? liquid schema.pretty = some replaced)
    (hsegment : segment? replaced = some segment) :
    ∀ line ∈ Chars.lines segment.toList, repairLine? line = none := by
  have hput := Liquid.segment?_of_replaceSegment? hreplaced
  rw [Json.Value.trim_pretty] at hput
  obtain rfl := Option.some.inj (hput.symm.trans hsegment)
  have hprefix := Liquid.upToClose_isPrefix ("\n" ++ schema.pretty ++ "\n")
  have htext : JsonText ("\n" ++ schema.pretty ++ "\n").toList := by
    simpa using jsonText_pretty schema
  intro line hline
  obtain ⟨whole, hwhole, hline⟩ := htext.exists_of_prefix hprefix line hline
  exact repairLine?_of_jsonLine hwhole hline

theorem repairLine?_of_isLineOf {line piece : List Char} (h : Chars.IsLineOf line piece)
    (hpiece : repairLine? piece = none) : repairLine? line = none := by
  rcases h with rfl | rfl
  · exact hpiece
  · exact repairLine?_eq_none_of_concat (by decide) hpiece

/-- A text that is put back on lines of its own, line by line, has no lines to repair if it had none
before. -/
theorem repairLine?_of_joined {liquid text replaced segment : String}
    (hclose : closesSchema text = false)
    (htext : ∀ piece ∈ Chars.pieces text.toList, repairLine? piece = none)
    (hreplaced : replaceSegment? liquid text = some replaced)
    (hsegment : segment? replaced = some segment) :
    ∀ line ∈ Chars.lines segment.toList, repairLine? line = none := by
  have hput := Liquid.segment?_of_replaceSegment? hreplaced
  have hlines : ("\n" ++ Text.trim text ++ "\n").toList =
      '\n' :: (Chars.trim text.toList ++ '\n' :: []) := by simp [Text.trim]
  have hopen : closesSchema ("\n" ++ Text.trim text ++ "\n") = false :=
    Liquid.not_closesSchema_lines hclose
  rw [Liquid.upToClose_of_not_closesSchema hopen] at hput
  obtain rfl := Option.some.inj (hput.symm.trans hsegment)
  rw [hlines]
  intro line hline
  obtain ⟨piece, hpiece, hof⟩ := Chars.exists_piece_of_mem_lines hline
  refine repairLine?_of_isLineOf hof ?_
  rw [Chars.pieces_cons_newline, Chars.pieces_append_newline, List.mem_cons, List.mem_append] at hpiece
  have hnil : repairLine? [] = none := by decide
  rcases hpiece with rfl | hpiece | hpiece
  · exact hnil
  · exact Chars.forall_pieces_trim (fun c line => repairLine?_eq_none_of_cons)
      (fun line c => repairLine?_eq_none_of_concat) htext piece hpiece
  · obtain rfl := List.mem_singleton.1 hpiece
    exact hnil

/-- Repairing what was repaired changes nothing, be the segment JSON by then or not. -/
theorem repairQuotes_repairQuotes (liquid : String) :
    (repairQuotes (repairQuotes liquid).liquid).repaired = 0 ∧
      (repairQuotes (repairQuotes liquid).liquid).liquid = (repairQuotes liquid).liquid := by
  have houtcome := outcome_repairQuotes liquid
  generalize repairQuotes liquid = once at houtcome
  cases houtcome with
  | same valid h =>
    exact repairQuotes_of_forall fun segment hsegment => repairCount_eq_zero_iff.1 (h segment hsegment).1
  | printed hsegment hcount hread hreplaced =>
    exact repairQuotes_of_forall fun segment => repairLine?_of_printed hreplaced
  | joined hsegment hcount hread hreplaced =>
    exact repairQuotes_of_forall fun segment => repairLine?_of_joined
      (not_closesSchema_repairedText (Liquid.not_closesSchema_of_segment? hsegment))
      (forall_pieces_repairedText _) hreplaced

end ThemeSection.Artifact
