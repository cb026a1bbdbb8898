import ThemeSection.Json.Reader
import ThemeSection.Liquid.Segment

/-!
Repair of schemas in which the value of a default, written on a line of its own, holds bare quotes.
Such quotes get a backslash; all other lines stay as they are.
-/

namespace ThemeSection.Artifact

/-- A backslash before each quote that an even number of backslashes precedes; `odd` tells whether
the number right before is odd. -/
def escapeQuotes (odd : Bool) : List Char → List Char
  | [] => []
  | c :: rest =>
    if c == '"' && !odd then '\\' :: '"' :: escapeQuotes false rest
    else c :: escapeQuotes (c == '\\' && !odd) rest

/-- A line that holds the string value of a default, cut around the text between the outer quotes.
-/
structure DefaultLine where
  before : List Char
  inner : List Char
  after : List Char

/-- The text before a last comma, and the comma. -/
def splitComma (s : List Char) : List Char × List Char :=
  match Chars.stripEnd? [','] s with
  | some body => (body, [','])
  | none => (s, [])

def defaultLine? (line : List Char) : Option DefaultLine := do
  let name := "\"default\":".toList
  let (start, rest) ← Chars.splitFirst name line
  let (gap, rest) ← Chars.splitFirst ['"'] rest
  if !gap.all Chars.isBlank then none
  let (body, comma) := splitComma (Chars.trimEnd rest)
  let inner ← Chars.stripEnd? ['"'] body
  return ⟨start ++ name ++ gap, inner, comma⟩

/-- The line with its inner quotes escaped, if it needs that. -/
def repairLine? (line : List Char) : Option (List Char) := do
  let parts ← defaultLine? line
  let escaped := escapeQuotes false parts.inner
  if escaped = parts.inner then none
  return parts.before ++ '"' :: escaped ++ '"' :: parts.after

structure QuoteRepair where
  liquid : String
  /-- The number of defaults that were escaped. -/
  repaired : Nat
  /-- Whether the schema segment is JSON after the repair. -/
  valid : Bool

/-- Escapes the bare quotes in the defaults of the schema segment. -/
def repairQuotes (liquid : String) : QuoteRepair :=
  match Liquid.segment? liquid with
  | none => ⟨liquid, 0, false⟩
  | some segment =>
    let lines := Chars.lines segment.toList
    let repaired := (lines.filter fun line => (repairLine? line).isSome).length
    let candidate := Text.join "\n"
      (lines.map fun line => String.ofList ((repairLine? line).getD line))
    let put (text : String) : String := (Liquid.replaceSegment? liquid text).getD liquid
    match Json.read candidate with
    | .ok schema =>
      if repaired > 0 then ⟨put schema.pretty, repaired, true⟩ else ⟨liquid, 0, true⟩
    | .error _ =>
      ⟨if repaired > 0 then put candidate else liquid, repaired, false⟩

end ThemeSection.Artifact
