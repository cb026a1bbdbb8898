import ThemeSection.Text.Basic

/-!
Names made from free text: slugs, which name files and section types, and keys, which name block
types and settings. A slug is a non-empty text over small ASCII letters, digits, `_` and `-` in
which no `-` stands first, last or beside another; a key has runs of letters and digits joined by
`_`.
-/

namespace ThemeSection.Text

def isSlugChar (c : Char) : Bool :=
  c.isLower || c.isDigit || c == '_'

/-- The text before the first of the endings it has, or the whole text. -/
def dropEnding (endings : List String) (s : List Char) : List Char :=
  (endings.findSome? fun ending => Chars.stripEnd? ending.toList s).getD s

/-- Every hyphen right after a hyphen is dropped; `after` tells whether one came before. -/
def collapseHyphens (after : Bool) : List Char → List Char
  | [] => []
  | c :: rest =>
    if c == '-' && after then collapseHyphens true rest
    else c :: collapseHyphens (c == '-') rest

def trimHyphens (s : List Char) : List Char :=
  ((s.dropWhile (· == '-')).reverse.dropWhile (· == '-')).reverse

/-- The slug of a page name before the fallback for names that leave nothing. -/
def slugBody (name : List Char) : List Char :=
  let stem := dropEnding [".html", ".htm", ".liquid"] (Chars.lower (Chars.trim name))
  trimHyphens (collapseHyphens false (stem.map fun c => if isSlugChar c then c else '-'))

/-- The slug of a page name: its file ending goes, and whatever is no slug character separates. -/
def slug (name : String) : String :=
  match slugBody name.toList with
  | [] => "section"
  | body => String.ofList body

def isKeyChar (c : Char) : Bool :=
  c.isLower || c.isDigit

/-- Letters and digits as they are, and one `_` for each run of other characters between them;
`after` tells whether such a run, or the start of the text, came right before. -/
def keyRuns (after : Bool) : List Char → List Char
  | [] => []
  | c :: rest =>
    if isKeyChar c then c :: keyRuns false rest
    else if after then keyRuns true rest
    else '_' :: keyRuns true rest

/-- The key of a free text; empty if it has no ASCII letter or digit. -/
def key (text : String) : String :=
  onChars
    (fun s => ((keyRuns true (Chars.lower (Chars.trim s))).reverse.dropWhile (· == '_')).reverse)
    text

end ThemeSection.Text
