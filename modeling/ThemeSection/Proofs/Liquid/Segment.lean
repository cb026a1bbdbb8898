import ThemeSection.Liquid.Segment
import ThemeSection.Proofs.Chars.Search
import ThemeSection.Text.Slug

/-!
Where the schema segment of an assembled section is found. The text around it carries the name and
the markup of the page, and the segment carries what the page says, so the search finds the segment
that was written exactly if none of these brings a delimiter of its own.
-/

namespace ThemeSection.Liquid

/-- Whether the opening delimiter of the schema occurs in a text. -/
def opensSchema (text : String) : Bool :=
  Text.contains schemaOpen text

/-- Whether the closing delimiter of the schema occurs in a text. -/
def closesSchema (text : String) : Bool :=
  Text.contains schemaClose text

theorem toList_schemaOpen : schemaOpen.toList = '\x7b' :: "% schema %\x7d".toList := by decide

theorem toList_schemaClose : schemaClose.toList = '\x7b' :: "% endschema %\x7d".toList := by decide

/-- A segment is found between its delimiters exactly if none of them comes before its place. -/
theorem segmented?_iff {head segment tail : String} :
    segmented? (head ++ (schemaOpen ++ (segment ++ (schemaClose ++ tail)))) =
        some ⟨head ++ schemaOpen, segment, schemaClose ++ tail⟩ ↔
      opensSchema head = false ∧ closesSchema segment = false := by
  have hopen : Chars.splitFirst schemaOpen.toList (head.toList ++ (schemaOpen.toList ++
      (segment.toList ++ (schemaClose.toList ++ tail.toList)))) =
        some (head.toList, segment.toList ++ (schemaClose.toList ++ tail.toList)) ↔
      opensSchema head = false := by
    rw [opensSchema, Text.contains, toList_schemaOpen]
    exact Chars.splitFirst_append_iff (by simp)
  have hclose : Chars.splitFirst schemaClose.toList (segment.toList ++ (schemaClose.toList ++
      tail.toList)) = some (segment.toList, tail.toList) ↔ closesSchema segment = false := by
    rw [closesSchema, Text.contains, toList_schemaClose]
    exact Chars.splitFirst_append_iff (by simp)
  rw [← hopen, ← hclose, segmented?]
  simp only [String.toList_append]
  constructor
  · intro h
    obtain ⟨⟨before, rest⟩, hbefore, h⟩ := Option.bind_eq_some_iff.1 h
    obtain ⟨⟨found, after⟩, hfound, h⟩ := Option.bind_eq_some_iff.1 h
    obtain ⟨hhead, hsegment, htail⟩ := Segmented.mk.inj (Option.some.inj h)
    have hhead := congrArg String.toList hhead
    have htail := congrArg String.toList htail
    rw [String.toList_ofList, String.toList_append] at hhead htail
    obtain rfl := List.append_cancel_right hhead
    obtain rfl := List.append_cancel_left htail
    obtain rfl : found = segment.toList := by rw [← hsegment, String.toList_ofList]
    obtain rfl : rest = _ := Chars.eq_of_splitFirst hfound
    exact ⟨hbefore, hfound⟩
  · rintro ⟨hbefore, hfound⟩
    simp [hbefore, hfound]

/-- A line break parts a text for the opening delimiter. -/
theorem opensSchema_append {b : String} (h : b.toList.head? = some '\n') (a : String) :
    opensSchema (a ++ b) = (opensSchema a || opensSchema b) := by
  obtain ⟨rest, hrest⟩ := List.head?_eq_some_iff.1 h
  have hneedle : '\n' ∉ schemaOpen.toList := by decide
  have hskip : Chars.contains schemaOpen.toList ('\n' :: rest) =
      Chars.contains schemaOpen.toList rest :=
    Chars.contains_cons_of_not_start (by rw [toList_schemaOpen]; simp)
  rw [opensSchema, Text.contains, String.toList_append, hrest, Chars.contains_append_cons hneedle,
    opensSchema, opensSchema, Text.contains, Text.contains, hrest, hskip]

theorem opensSchema_append_left {a : String} (h : '\x7b' ∉ a.toList) (b : String) :
    opensSchema (a ++ b) = opensSchema b := by
  rw [opensSchema, Text.contains, String.toList_append, toList_schemaOpen]
  exact Chars.contains_append_left h

/-- A brace that does not start the opening delimiter. -/
theorem opensSchema_brace {a b : String} (h : '\x7b' ∉ a.toList)
    (hstart : ¬ schemaOpen.toList <+: '\x7b' :: (a.toList ++ b.toList)) :
    opensSchema ("\x7b" ++ a ++ b) = opensSchema b := by
  rw [← opensSchema_append_left h b]
  simpa [opensSchema, Text.contains] using Chars.contains_cons_of_not_start hstart

theorem opensSchema_tag {content : String} (h : '\x7b' ∉ content.toList) (b : String) :
    opensSchema (tag content ++ b) = opensSchema b := by
  have htag : tag content = "\x7b" ++ ("%- " ++ content ++ " -%\x7d") :=
    String.toList_inj.1 (by simp [tag])
  rw [htag]
  refine opensSchema_brace (by simpa using h) ?_
  rw [toList_schemaOpen]
  simp

theorem opensSchema_output {expression : String} (h : '\x7b' ∉ expression.toList) (b : String) :
    opensSchema (output expression ++ b) = opensSchema b := by
  have hinner : opensSchema ("\x7b" ++ (" " ++ expression ++ " \x7d\x7d") ++ b) = opensSchema b := by
    refine opensSchema_brace (by simpa using h) ?_
    rw [toList_schemaOpen]
    simp
  have houter := opensSchema_brace (a := "")
    (b := "\x7b" ++ (" " ++ expression ++ " \x7d\x7d") ++ b) (by simp) (by
      rw [toList_schemaOpen]
      simp)
  have houtput : output expression ++ b =
      "\x7b" ++ "" ++ ("\x7b" ++ (" " ++ expression ++ " \x7d\x7d") ++ b) :=
    String.toList_inj.1 (by simp [output])
  rw [houtput, houter, hinner]

/-- A tag whose name starts otherwise than the schema's. -/
theorem opensSchema_segmentTag {c : Char} {name : List Char} (hc : c ≠ 's')
    (h : '\x7b' ∉ c :: name) (b : String) :
    opensSchema (segmentTag (String.ofList (c :: name)) ++ b) = opensSchema b := by
  have htag : segmentTag (String.ofList (c :: name)) =
      "\x7b" ++ ("% " ++ String.ofList (c :: name) ++ " %\x7d") :=
    String.toList_inj.1 (by simp [segmentTag])
  rw [htag]
  refine opensSchema_brace (by simpa using h) ?_
  rw [toList_schemaOpen]
  simp [hc.symm]

theorem not_mem_join {c : Char} (hc : c ≠ '\n') {lines : List String}
    (h : ∀ line ∈ lines, c ∉ line.toList) : c ∉ (Text.join "\n" lines).toList := by
  induction lines with
  | nil => simp [Text.join]
  | cons line rest ih =>
    obtain ⟨hline, hrest⟩ := List.forall_mem_cons.1 h
    cases rest with
    | nil => simpa [Text.join] using hline
    | cons next rest =>
      rw [Text.join, String.intercalate_cons_cons, ← Text.join, String.toList_append,
        String.toList_append, List.mem_append, List.mem_append]
      exact not_or.2 ⟨not_or.2 ⟨hline, by simpa using hc⟩, ih hrest⟩

theorem opensSchema_prologue (b : String) : opensSchema (prologue ++ b) = opensSchema b := by
  have hfirst : opensSchema "\x7b%- liquid" = false := by decide
  simp only [prologue, Text.join]
  rw [String.intercalate_cons_cons, ← Text.join]
  simp only [String.append_assoc]
  rw [opensSchema_append (by simp), hfirst, Bool.false_or, opensSchema_append_left (by simp),
    opensSchema_append_left]
  exact not_mem_join (by decide) (by simp)

theorem opensSchema_colorStyle (b : String) : opensSchema (colorStyle ++ b) = opensSchema b := by
  have hpath (id : String) (hid : '\x7b' ∉ id.toList) :
      '\x7b' ∉ (settingPath .whole id).toList := by
    simpa [settingPath, Owner.name] using hid
  simp only [colorStyle, String.append_assoc, reference]
  rw [opensSchema_segmentTag (by decide) (by simp), opensSchema_append_left (by simp),
    opensSchema_segmentTag (by decide) (by simp), opensSchema_append_left (by simp),
    opensSchema_output (hpath _ (by simp)), opensSchema_append_left (by simp),
    opensSchema_segmentTag (by decide) (by simp), opensSchema_segmentTag (by decide) (by simp),
    opensSchema_append_left (by simp), opensSchema_output (hpath _ (by simp)),
    opensSchema_append_left (by simp), opensSchema_segmentTag (by decide) (by simp),
    opensSchema_append_left (by simp), opensSchema_segmentTag (by decide) (by simp)]

section

variable {slug : String} (hslug : '\x7b' ∉ slug.toList)
include hslug

theorem opensSchema_comment (sourceName b : String) :
    opensSchema (comment slug sourceName ++ b) = (opensSchema sourceName || opensSchema b) := by
  simp only [comment, String.append_assoc]
  rw [opensSchema_tag (by simp), opensSchema_append_left (by simp), opensSchema_append_left hslug,
    opensSchema_append_left (by simp), opensSchema_append (by simp),
    opensSchema_append_left (by simp), opensSchema_tag (by simp)]

theorem opensSchema_wrapper (body b : String) :
    opensSchema (wrapper slug body ++ b) = (opensSchema (Text.trim body) || opensSchema b) := by
  unfold wrapper
  generalize Text.trim body = inner
  simp only [String.append_assoc]
  rw [opensSchema_append_left (by simp), opensSchema_append_left hslug,
    opensSchema_append_left (by simp), opensSchema_output (by simp),
    opensSchema_append_left (by simp), opensSchema_colorStyle, opensSchema_append_left (by simp),
    opensSchema_append_left hslug, opensSchema_append_left (by simp), opensSchema_append (by simp),
    opensSchema_append_left (by simp)]

end

/-- The text of a section up to its schema. -/
def head (parts : Parts) : String :=
  comment parts.slug parts.sourceName ++ "\n\n" ++ prologue ++ "\n\n"
    ++ wrapper parts.slug parts.body ++ "\n\n"

/-- The text of a section after its schema. -/
def tail (parts : Parts) : String :=
  "\n\n" ++ stylesheet parts.slug parts.css ++ "\n\n"
    ++ javascript parts.slug parts.scripts parts.externalScripts ++ "\n"

/-- The schema as it is written. -/
def written (schema : Schema) : String :=
  "\n" ++ schema.toJson.pretty ++ "\n"

/-- The cut of an assembled section at the delimiters that its schema was written between. -/
def placed (parts : Parts) : Segmented where
  before := head parts ++ schemaOpen
  segment := written parts.schema
  after := schemaClose ++ tail parts

theorem assemble_eq (parts : Parts) :
    assemble parts =
      head parts ++ (schemaOpen ++ (written parts.schema ++ (schemaClose ++ tail parts))) := by
  simp [assemble, head, tail, written, schemaSegment, Text.join, String.append_assoc]

theorem closesSchema_written (schema : Schema) :
    closesSchema (written schema) = closesSchema schema.toJson.pretty := by
  have hneedle : '\n' ∉ schemaClose.toList := by decide
  have hnil : Chars.contains schemaClose.toList [] = false := by decide
  have hskip : Chars.contains schemaClose.toList ('\n' :: (schema.toJson.pretty.toList ++ ['\n'])) =
      Chars.contains schemaClose.toList (schema.toJson.pretty.toList ++ ['\n']) :=
    Chars.contains_cons_of_not_start (by rw [toList_schemaClose]; simp)
  have hend := Chars.contains_append_cons hneedle schema.toJson.pretty.toList []
  rw [hnil, Bool.or_false] at hend
  rw [closesSchema, Text.contains, closesSchema, Text.contains, ← hend, ← hskip]
  simp [written]

/-- Only the name and the markup of a page can open a schema before the one that is written. -/
theorem opensSchema_head (parts : Parts) (hslug : '\x7b' ∉ parts.slug.toList) :
    opensSchema (head parts) =
      (opensSchema parts.sourceName || opensSchema (Text.trim parts.body)) := by
  have hend : opensSchema "\n\n" = false := by decide
  rw [head]
  simp only [String.append_assoc]
  rw [opensSchema_comment hslug, opensSchema_append_left (by simp), opensSchema_prologue,
    opensSchema_append_left (by simp), opensSchema_wrapper hslug, hend, Bool.or_false]

/-- The search finds the schema where it was written exactly if no delimiter comes with the name or
the markup of the page, nor with what its schema says. -/
theorem segmented?_assemble_iff (parts : Parts) (hslug : '\x7b' ∉ parts.slug.toList) :
    segmented? (assemble parts) = some (placed parts) ↔
      opensSchema parts.sourceName = false ∧ opensSchema (Text.trim parts.body) = false ∧
        closesSchema parts.schema.toJson.pretty = false := by
  rw [assemble_eq, placed, segmented?_iff, opensSchema_head parts hslug, closesSchema_written,
    Bool.or_eq_false_iff, and_assoc]

end ThemeSection.Liquid
