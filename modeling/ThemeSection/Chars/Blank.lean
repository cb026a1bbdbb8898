import ThemeSection.Chars.Search

/-!
White space: which characters are blank, how a text is trimmed, and how it falls into words.
-/

namespace ThemeSection.Chars

/-- Unicode property `White_Space`. The zero-width spaces and the separators U+001C to U+001F do not
have it. -/
def isBlank (c : Char) : Bool :=
  let n := c.toNat
  (9 ≤ n && n ≤ 13) || n == 0x20 || n == 0x85 || n == 0xA0 || n == 0x1680
    || (0x2000 ≤ n && n ≤ 0x200A) || n == 0x2028 || n == 0x2029 || n == 0x202F || n == 0x205F
    || n == 0x3000

def trimStart (s : List Char) : List Char :=
  s.dropWhile isBlank

def trimEnd (s : List Char) : List Char :=
  (s.reverse.dropWhile isBlank).reverse

def trim (s : List Char) : List Char :=
  trimEnd (trimStart s)

/-- The maximal runs of characters that are not blank. -/
def words (s : List Char) : List (List Char) :=
  (splitWhere isBlank s).filter (!·.isEmpty)

/-- Zero-width characters, which carry no visible text. -/
def isZeroWidth (c : Char) : Bool :=
  c == '\u200B' || c == '\u200C' || c == '\u200D' || c == '\uFEFF'

/-- Words apart by one space, after zero-width characters are gone. -/
def squeeze (s : List Char) : List Char :=
  [' '].intercalate (words (s.filter (!isZeroWidth ·)))

end ThemeSection.Chars
