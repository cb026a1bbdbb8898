import ThemeSection.Chars.Code
import ThemeSection.Chars.WordTable

/-! Word characters, decimal digits and the places where a word begins or ends. -/

namespace ThemeSection.Chars

def isWord (c : Char) : Bool :=
  if c.toNat < 0x80 then c.isAlphanum || c == '_' else inRanges wordRanges c

/-- A decimal digit of any script. -/
def isDecimal (c : Char) : Bool :=
  if c.toNat < 0x80 then c.isDigit else inRanges decimalRanges c

/-- Whether a word begins or ends between two neighbours; `none` is the end of the text. -/
def isWordEdge (before after : Option Char) : Bool :=
  before.any isWord != after.any isWord

end ThemeSection.Chars
