import ThemeSection.Proofs.Chars.Lines
import ThemeSection.Proofs.Json.Search
import ThemeSection.Proofs.Liquid.Segment

/-!
A schema segment that was put in the place of another. It is found where it was put, up to the first
closing delimiter that it brings along. One that brings none is found whole between the same texts as
the segment before, so that replacing the segment is an update.
-/

namespace ThemeSection.Liquid

theorem isTag_schemaClose : Json.IsTag schemaClose.toList where
  opening := ⟨" endschema %\x7d".toList, by decide⟩
  plain := by
    have hall : schemaClose.toList.all (fun c => Json.escapeChar c == [c]) := by
      decide +kernel
    intro c hc
    exact eq_of_beq (List.all_eq_true.1 hall c hc)

/-- A text up to the first closing delimiter in it. -/
def upToClose (text : String) : String :=
  match Chars.splitFirst schemaClose.toList text.toList with
  | some (before, _) => String.ofList before
  | none => text

theorem upToClose_of_not_closesSchema {text : String} (h : closesSchema text = false) :
    upToClose text = text := by
  have hnone : Chars.splitFirst schemaClose.toList text.toList = none := by
    simpa [closesSchema, Text.contains, Chars.contains] using h
  rw [upToClose, hnone]

/-- Where a text closes the schema, it is cut right before a closing delimiter. -/
theorem exists_upToClose_append {text : String} (h : closesSchema text) :
    ∃ rest, text.toList = (upToClose text).toList ++ (schemaClose.toList ++ rest) := by
  obtain ⟨⟨before, rest⟩, hfirst⟩ := Option.isSome_iff_exists.1 h
  refine ⟨rest, ?_⟩
  rw [upToClose, hfirst]
  simpa using Chars.eq_of_splitFirst hfirst

theorem upToClose_isPrefix (text : String) : (upToClose text).toList <+: text.toList := by
  cases h : closesSchema text with
  | true =>
    obtain ⟨rest, hrest⟩ := exists_upToClose_append h
    exact ⟨_, hrest.symm⟩
  | false => rw [upToClose_of_not_closesSchema h]

theorem splitFirst_schemaClose_iff {a b : List Char} :
    Chars.splitFirst schemaClose.toList (a ++ (schemaClose.toList ++ b)) = some (a, b) ↔
      Chars.contains schemaClose.toList a = false := by
  rw [toList_schemaClose]
  exact Chars.splitFirst_append_iff (by simp)

/-- The first closing delimiter after a text, seen from its start. -/
theorem splitFirst_schemaClose_append (text tail : List Char) :
    ∃ rest, Chars.splitFirst schemaClose.toList (text ++ (schemaClose.toList ++ tail)) =
      some ((upToClose (String.ofList text)).toList, rest) := by
  cases h : closesSchema (String.ofList text) with
  | true =>
    obtain ⟨⟨before, rest⟩, hfirst⟩ := Option.isSome_iff_exists.1 h
    have hlonger := Chars.splitFirst_append_of_some (Chars.eq_of_splitFirst hfirst ▸ hfirst)
      (rest ++ (schemaClose.toList ++ tail))
    refine ⟨rest ++ (schemaClose.toList ++ tail), ?_⟩
    rw [upToClose, hfirst]
    rw [String.toList_ofList] at hfirst
    rw [Chars.eq_of_splitFirst hfirst]
    simpa using hlonger
  | false =>
    refine ⟨tail, ?_⟩
    rw [upToClose_of_not_closesSchema h, String.toList_ofList]
    rw [closesSchema, Text.contains, String.toList_ofList] at h
    exact splitFirst_schemaClose_iff.2 h

/-- The parts of a text around its schema segment end and start with the delimiters. -/
theorem exists_of_segmented? {liquid : String} {cut : Segmented} (h : segmented? liquid = some cut) :
    ∃ head tail rest : List Char, cut.before.toList = head ++ schemaOpen.toList ∧
      cut.after.toList = schemaClose.toList ++ tail ∧
      liquid = cut.before ++ cut.segment ++ cut.after ∧
      Chars.splitFirst schemaOpen.toList (head ++ (schemaOpen.toList ++ rest)) =
        some (head, rest) ∧ closesSchema cut.segment = false := by
  obtain ⟨⟨head, rest⟩, hhead, h⟩ := Option.bind_eq_some_iff.1 h
  obtain ⟨⟨segment, tail⟩, hsegment, h⟩ := Option.bind_eq_some_iff.1 h
  obtain rfl := Option.some.inj h
  have hliquid := Chars.eq_of_splitFirst hhead
  have hrest := Chars.eq_of_splitFirst hsegment
  refine ⟨head, tail, rest, by simp, by simp, ?_, hliquid ▸ hhead, ?_⟩
  · apply String.toList_inj.1
    rw [hliquid, hrest]
    simp
  · rw [hrest] at hsegment
    rw [closesSchema, Text.contains, String.toList_ofList]
    exact splitFirst_schemaClose_iff.1 hsegment

/-- The cut is at the schema segment of the text: right before the segment stands the first opening
delimiter, and right after it the first closing delimiter that follows. -/
structure Encloses (liquid : String) (cut : Segmented) : Prop where
  whole : liquid = cut.before ++ cut.segment ++ cut.after
  opened : ∃ head, cut.before = head ++ schemaOpen ∧ opensSchema head = false
  closed : ∃ tail, cut.after = schemaClose ++ tail
  first : closesSchema cut.segment = false

theorem segmented?_eq_some_iff {liquid : String} {cut : Segmented} :
    segmented? liquid = some cut ↔ Encloses liquid cut := by
  constructor
  · intro h
    obtain ⟨head, tail, rest, hbefore, hafter, hwhole, hopen, hfirst⟩ := exists_of_segmented? h
    have hhead : opensSchema (String.ofList head) = false := by
      rw [toList_schemaOpen] at hopen
      rw [opensSchema, Text.contains, String.toList_ofList, toList_schemaOpen]
      exact (Chars.splitFirst_append_iff (by simp)).1 hopen
    exact ⟨hwhole, ⟨String.ofList head, String.toList_inj.1 (by simpa using hbefore), hhead⟩,
      ⟨String.ofList tail, String.toList_inj.1 (by simpa using hafter)⟩, hfirst⟩
  · obtain ⟨before, segment, after⟩ := cut
    rintro ⟨rfl, ⟨head, rfl, hhead⟩, ⟨tail, rfl⟩, hfirst⟩
    simpa only [String.append_assoc] using segmented?_iff.2 ⟨hhead, hfirst⟩

/-- There is a segment exactly if a closing delimiter follows an opening one. -/
theorem isSome_segment?_iff {liquid : String} : (segment? liquid).isSome ↔
    ∃ head segment tail, liquid = head ++ schemaOpen ++ segment ++ schemaClose ++ tail := by
  rw [segment?, Option.isSome_map]
  constructor
  · intro h
    obtain ⟨cut, hcut⟩ := Option.isSome_iff_exists.1 h
    obtain ⟨hwhole, ⟨head, hbefore, -⟩, ⟨tail, hafter⟩, -⟩ := segmented?_eq_some_iff.1 hcut
    exact ⟨head, cut.segment, tail, by rw [hwhole, hbefore, hafter, ← String.append_assoc]⟩
  · rintro ⟨head, segment, tail, rfl⟩
    have hliquid : (head ++ schemaOpen ++ segment ++ schemaClose ++ tail).toList = head.toList ++
        (schemaOpen.toList ++ (segment.toList ++ (schemaClose.toList ++ tail.toList))) := by simp
    obtain ⟨before, rest, hopen, hlength⟩ := Chars.exists_splitFirst schemaOpen.toList head.toList
      (segment.toList ++ (schemaClose.toList ++ tail.toList))
    -- The first opening delimiter does not stand later, so the closing one still follows it.
    have hclose : Chars.contains schemaClose.toList rest := by
      have hsame : (head.toList ++ schemaOpen.toList) ++ (segment.toList ++ (schemaClose.toList ++
          tail.toList)) = (before ++ schemaOpen.toList) ++ rest := by
        simpa only [List.append_assoc] using Chars.eq_of_splitFirst hopen
      have hlater : (segment.toList ++ (schemaClose.toList ++ tail.toList)).length ≤ rest.length := by
        have hsize := congrArg List.length hsame
        simp only [List.length_append] at hsize ⊢
        omega
      obtain ⟨more, rfl⟩ := List.suffix_of_suffix_length_le ⟨_, rfl⟩ ⟨_, hsame.symm⟩ hlater
      exact Chars.contains_iff.2 ⟨more ++ segment.toList, tail.toList, by simp⟩
    obtain ⟨⟨found, after⟩, hfound⟩ := Option.isSome_iff_exists.1 hclose
    simp [segmented?, hliquid, hopen, hfound]

/-- A text that does not close the schema is found whole in the place of the segment. -/
theorem segmented?_put {liquid text : String} {cut : Segmented} (h : segmented? liquid = some cut)
    (htext : closesSchema text = false) :
    segmented? (cut.before ++ text ++ cut.after) = some { cut with segment := text } := by
  have hcut := segmented?_eq_some_iff.1 h
  exact segmented?_eq_some_iff.2 ⟨rfl, hcut.opened, hcut.closed, htext⟩

/-- A text in the place of the segment is found up to the first closing delimiter in it. -/
theorem segment?_put {liquid : String} {cut : Segmented} (h : segmented? liquid = some cut)
    (text : String) : segment? (cut.before ++ text ++ cut.after) = some (upToClose text) := by
  obtain ⟨head, tail, rest, hbefore, hafter, -, hopen, -⟩ := exists_of_segmented? h
  obtain ⟨after, hclose⟩ := splitFirst_schemaClose_append text.toList tail
  have hfirst := Chars.splitFirst_append_of_some hopen
    (text.toList ++ (schemaClose.toList ++ tail))
  have hliquid : (cut.before ++ text ++ cut.after).toList =
      head ++ (schemaOpen.toList ++ (text.toList ++ (schemaClose.toList ++ tail))) := by
    simp [hbefore, hafter]
  rw [String.ofList_toList] at hclose
  simp [segment?, segmented?, hliquid, hfirst, hclose]

/-- A segment that was replaced is the new text on lines of its own, up to the first closing
delimiter. -/
theorem segment?_of_replaceSegment? {liquid text replaced : String}
    (h : replaceSegment? liquid text = some replaced) :
    segment? replaced = some (upToClose ("\n" ++ Text.trim text ++ "\n")) := by
  obtain ⟨cut, hcut, rfl⟩ := Option.map_eq_some_iff.1 h
  rw [← segment?_put hcut]
  simp only [String.append_assoc]

theorem exists_replaceSegment? {liquid segment : String} (h : segment? liquid = some segment)
    (text : String) : ∃ replaced, replaceSegment? liquid text = some replaced := by
  obtain ⟨cut, hcut, -⟩ := Option.map_eq_some_iff.1 h
  exact ⟨_, by rw [replaceSegment?, hcut, Option.map_some]⟩

/-- Stripping the ends of a text puts no delimiter into it. -/
theorem not_opensSchema_trim {text : String} (h : opensSchema text = false) :
    opensSchema (Text.trim text) = false := by
  rw [opensSchema, Text.contains, Chars.contains_eq_false_iff] at h ⊢
  rw [Text.trim, Text.onChars, String.toList_ofList]
  exact fun hcontains => h (hcontains.trans (Chars.trim_isInfix text.toList))

/-- A text on lines of its own closes the schema only if it does so itself. -/
theorem not_closesSchema_lines {text : String} (h : closesSchema text = false) :
    closesSchema ("\n" ++ Text.trim text ++ "\n") = false := by
  have hneedle : '\n' ∉ schemaClose.toList := by decide
  have hnil : Chars.contains schemaClose.toList [] = false := by decide
  have hlines : ("\n" ++ Text.trim text ++ "\n").toList =
      [] ++ '\n' :: (Chars.trim text.toList ++ '\n' :: []) := by simp [Text.trim]
  rw [closesSchema, Text.contains, Chars.contains_eq_false_iff] at h
  rw [closesSchema, Text.contains, hlines, Chars.contains_append_cons hneedle,
    Chars.contains_append_cons hneedle, hnil, Bool.false_or, Bool.or_false,
    Chars.contains_eq_false_iff]
  exact fun hcontains => h (hcontains.trans (Chars.trim_isInfix text.toList))

theorem not_closesSchema_of_segment? {liquid segment : String} (h : segment? liquid = some segment) :
    closesSchema segment = false := by
  obtain ⟨cut, hcut, rfl⟩ := Option.map_eq_some_iff.1 h
  obtain ⟨head, tail, rest, -, -, -, -, hclose⟩ := exists_of_segmented? hcut
  exact hclose

/-- Where a segment is found, what is around it does not depend on it. -/
theorem replaceSegment?_put {liquid text : String} {cut : Segmented}
    (h : segmented? liquid = some cut) (htext : closesSchema text = false) (other : String) :
    replaceSegment? (cut.before ++ text ++ cut.after) other = replaceSegment? liquid other := by
  rw [replaceSegment?, segmented?_put h htext, replaceSegment?, h]
  rfl

/-- Replacing the segment is an update. It fails exactly where there is no segment, which is where no
closing delimiter follows an opening one. Else the new text, if it does not close the schema, is read
back trimmed and on lines of its own, between the same texts as the segment before, and only the last
of two updates counts. -/
theorem updates_replaceSegment (liquid : String) :
    (∀ text, replaceSegment? liquid text = none ↔ segment? liquid = none) ∧
      (segment? liquid = none ↔
        ¬ ∃ head segment tail, liquid = head ++ schemaOpen ++ segment ++ schemaClose ++ tail) ∧
      ∀ segment, segment? liquid = some segment → ∃ before after,
        Encloses liquid ⟨before, segment, after⟩ ∧ ∀ text, closesSchema text = false →
          ∃ replaced, replaceSegment? liquid text = some replaced ∧
            Encloses replaced ⟨before, "\n" ++ Text.trim text ++ "\n", after⟩ ∧
            segment? replaced = some ("\n" ++ Text.trim text ++ "\n") ∧
            ∀ other, replaceSegment? replaced other = replaceSegment? liquid other := by
  refine ⟨fun text => ?_, ?_, fun segment hsegment => ?_⟩
  · rw [replaceSegment?, segment?, Option.map_eq_none_iff, Option.map_eq_none_iff]
  · rw [← Option.not_isSome_iff_eq_none, isSome_segment?_iff]
  · obtain ⟨cut, hcut, rfl⟩ := Option.map_eq_some_iff.1 hsegment
    refine ⟨cut.before, cut.after, segmented?_eq_some_iff.1 hcut, fun text htext => ?_⟩
    have hlines := not_closesSchema_lines htext
    have hput := segmented?_put hcut hlines
    have hother := replaceSegment?_put hcut hlines
    refine ⟨cut.before ++ ("\n" ++ Text.trim text ++ "\n") ++ cut.after, ?_,
      segmented?_eq_some_iff.1 hput, ?_, hother⟩
    · rw [replaceSegment?, hcut, Option.map_some]
      simp only [String.append_assoc]
    · rw [segment?, hput, Option.map_some]

/-- A text with a closing delimiter before its segment, an opening one in it and more of both after
it. -/
def crowded : String :=
  schemaClose ++ schemaOpen ++ "a" ++ schemaOpen ++ "b" ++ schemaClose ++ schemaOpen ++ schemaClose

theorem updates_replaceSegment_crowded :
    segment? crowded = some ("a" ++ schemaOpen ++ "b") ∧ closesSchema schemaOpen = false ∧
      ∃ replaced, replaceSegment? crowded schemaOpen = some replaced ∧
        segment? replaced = some ("\n" ++ schemaOpen ++ "\n") ∧
        ∀ other, replaceSegment? replaced other = replaceSegment? crowded other := by
  have hsegment : segment? crowded = some ("a" ++ schemaOpen ++ "b") := by decide +kernel
  have htext : closesSchema schemaOpen = false := by decide +kernel
  have htrim : Text.trim schemaOpen = schemaOpen := by decide +kernel
  obtain ⟨before, after, -, hupdate⟩ := (updates_replaceSegment crowded).2.2 _ hsegment
  obtain ⟨replaced, hreplaced, -, hfound, hother⟩ := hupdate schemaOpen htext
  exact ⟨hsegment, htext, replaced, hreplaced, htrim ▸ hfound, hother⟩

end ThemeSection.Liquid
