import ThemeSection.Chars.Blank
import ThemeSection.Chars.Case

/-!
Operations on whole texts. Most do to a string what the operation of the same name in
`ThemeSection.Chars` does to its characters. Rich text is written in its smallest form: paragraphs
of escaped text.
-/

namespace ThemeSection.Text

/-- A change to the characters of a text. -/
def onChars (f : List Char → List Char) (s : String) : String :=
  String.ofList (f s.toList)

@[simp] theorem toList_onChars (f : List Char → List Char) (s : String) :
    (onChars f s).toList = f s.toList := by
  simp [onChars]

def trim : String → String := onChars Chars.trim

def trimStart : String → String := onChars Chars.trimStart

def trimEnd : String → String := onChars Chars.trimEnd

/-- Words apart by one space, without zero-width characters. -/
def squeeze : String → String := onChars Chars.squeeze

def lower : String → String := onChars Chars.lower

def lowerAscii : String → String := onChars Chars.lowerAscii

/-- Whether a text has no visible character. -/
def isBlank (s : String) : Bool :=
  s.toList.all Chars.isBlank

def words (s : String) : List String :=
  (Chars.words s.toList).map String.ofList

def lines (s : String) : List String :=
  (Chars.lines s.toList).map String.ofList

def contains (needle s : String) : Bool :=
  Chars.contains needle.toList s.toList

/-- Whether any of the needles occurs in the text. -/
def containsAny (needles : List String) (s : String) : Bool :=
  needles.any (contains · s)

def startsWith (start s : String) : Bool :=
  start.toList.isPrefixOf s.toList

/-- The text after `start`, if it begins with it. -/
def strip? (start s : String) : Option String :=
  (Chars.strip? start.toList s.toList).map String.ofList

/-- The text before `ending`, if it ends with it. -/
def stripEnd? (ending s : String) : Option String :=
  (Chars.stripEnd? ending.toList s.toList).map String.ofList

def replaceAll (needle piece s : String) : String :=
  onChars (Chars.replaceAll needle.toList piece.toList) s

/-- The texts one after the other with `separator` between them. -/
def join (separator : String) (texts : List String) : String :=
  separator.intercalate texts

def escapeHtmlChar (c : Char) : List Char :=
  if c == '&' then "&amp;".toList
  else if c == '<' then "&lt;".toList
  else if c == '>' then "&gt;".toList
  else [c]

def escapeHtml : String → String := onChars (·.flatMap escapeHtmlChar)

/-- One paragraph for each text that is not blank. -/
def rich (paragraphs : List String) : String :=
  String.join <| ((paragraphs.map squeeze).filter (!·.isEmpty)).map fun paragraph =>
    "<p>" ++ escapeHtml paragraph ++ "</p>"

end ThemeSection.Text
