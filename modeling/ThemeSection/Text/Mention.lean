import ThemeSection.Chars.Case
import ThemeSection.Chars.Word
import ThemeSection.Text.Basic

/-!
Texts that mention a price or a date. A price is a number next to a currency; a date is written with
numbers, as `2024-05-01` or `5/1/2024`, or with the name of a month. Letter case does not matter,
and digits of all scripts count.
-/

namespace ThemeSection.Text

/-- Whether the text or any of its ends satisfies `p`. -/
def anySuffix (p : List Char → Bool) : List Char → Bool
  | [] => p []
  | c :: rest => p (c :: rest) || anySuffix p rest

def isCurrencySign (c : Char) : Bool :=
  c == '$' || c == '€' || c == '£' || c == '¥'

/-- Currencies that stand after the number. -/
def currencyNames : List String := ["usd", "eur", "gbp", "€", "kr"]

def dropOneBlank : List Char → List Char
  | c :: rest => if Chars.isBlank c then rest else c :: rest
  | [] => []

/-- Whether a currency sign with a digit after it, or a digit with a currency after it, starts the
text; one blank may stand between. -/
def startsWithPrice : List Char → Bool
  | [] => false
  | c :: rest =>
    let next := dropOneBlank rest
    (isCurrencySign c && next.head?.any Chars.isDecimal)
      || (Chars.isDecimal c
        && currencyNames.any fun name => (Chars.stripFolded? name.toList next).isSome)

def mentionsPrice (text : String) : Bool :=
  anySuffix startsWithPrice text.toList

def monthNames : List String :=
  ["jan", "feb", "mar", "apr", "may", "jun", "jul", "aug", "sep", "oct", "nov", "dec"]

/-- A letter that is an ASCII letter up to case. -/
def isPlainLetter (c : Char) : Bool :=
  c.isAlpha || c == '\u212A' || c == '\u017F'

/-- The text after all its leading digits, if their number is between the bounds. -/
def dropDigits? (least most : Nat) (s : List Char) : Option (List Char) :=
  let digits := s.takeWhile Chars.isDecimal
  if least ≤ digits.length && digits.length ≤ most then some (s.drop digits.length) else none

def dropMark? (mark : Char) : List Char → Option (List Char)
  | c :: rest => if c == mark then some rest else none
  | [] => none

/-- The text after its leading blanks, of which there has to be one. -/
def dropBlanks? : List Char → Option (List Char)
  | c :: rest => if Chars.isBlank c then some (rest.dropWhile Chars.isBlank) else none
  | [] => none

/-- Whether no word goes on at the start of the text. -/
def endsWord (s : List Char) : Bool :=
  !s.head?.any Chars.isWord

/-- What follows a date written as year, month and day. -/
def afterYearFirst? (s : List Char) : Option (List Char) := do
  let s ← dropMark? '-' (← dropDigits? 4 4 s)
  let s ← dropMark? '-' (← dropDigits? 2 2 s)
  dropDigits? 2 2 s

/-- What follows a date written as two short numbers and the year. -/
def afterYearLast? (s : List Char) : Option (List Char) := do
  let s ← dropMark? '/' (← dropDigits? 1 2 s)
  let s ← dropMark? '/' (← dropDigits? 1 2 s)
  dropDigits? 2 4 s

/-- What follows a date with the name of its month. -/
def afterNamedMonth? (s : List Char) : Option (List Char) := do
  let s ← monthNames.findSome? fun name => Chars.stripFolded? name.toList s
  let s := s.dropWhile isPlainLetter
  let s ← dropBlanks? ((dropMark? '.' s).getD s)
  let s ← dropDigits? 1 2 s
  let s ← dropBlanks? ((dropMark? ',' s).getD s)
  dropDigits? 4 4 s

def startsWithDate (s : List Char) : Bool :=
  [afterYearFirst?, afterYearLast?, afterNamedMonth?].any fun read => (read s).any endsWord

def mentionsDate (text : String) : Bool :=
  go none text.toList
where
  /-- `before` is the character before the text that is left. -/
  go (before : Option Char) : List Char → Bool
    | [] => false
    | c :: rest =>
      (Chars.isWordEdge before (some c) && startsWithDate (c :: rest)) || go (some c) rest

end ThemeSection.Text
