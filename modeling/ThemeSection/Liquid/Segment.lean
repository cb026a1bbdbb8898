import ThemeSection.Liquid.Template

/-!
The schema segment of a section's text: what stands between the first opening delimiter and the
first closing delimiter after it.
-/

namespace ThemeSection.Liquid

/-- A text cut at its schema delimiters, which stay with the outer parts. -/
structure Segmented where
  before : String
  segment : String
  after : String

/-- Cuts a text at its schema segment. -/
def segmented? (liquid : String) : Option Segmented := do
  let (before, rest) ← Chars.splitFirst schemaOpen.toList liquid.toList
  let (segment, after) ← Chars.splitFirst schemaClose.toList rest
  return {
    before := String.ofList (before ++ schemaOpen.toList)
    segment := String.ofList segment
    after := String.ofList (schemaClose.toList ++ after) }

def segment? (liquid : String) : Option String :=
  (segmented? liquid).map (·.segment)

/-- Where the segment starts and ends, in bytes from the start of the text. -/
def segmentRange? (liquid : String) : Option (Nat × Nat) :=
  (segmented? liquid).map fun cut =>
    (cut.before.utf8ByteSize, cut.before.utf8ByteSize + cut.segment.utf8ByteSize)

/-- The text with another schema segment, on lines of its own. -/
def replaceSegment? (liquid segment : String) : Option String :=
  (segmented? liquid).map fun cut =>
    cut.before ++ "\n" ++ Text.trim segment ++ "\n" ++ cut.after

end ThemeSection.Liquid
