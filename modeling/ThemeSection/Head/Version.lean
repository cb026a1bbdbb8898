import ThemeSection.Chars.Search
import ThemeSection.Decimal.Read

/-! Version numbers of libraries, compared segment by segment as numbers. -/

namespace ThemeSection.Head

/-- The largest number a segment can stand for; longer runs of digits count as zero. -/
def maxSegment : Nat := 0xFFFFFFFFFFFFFFFF

/-- The number at the start of a segment; zero if there is none. -/
def segmentValue (segment : List Char) : Nat :=
  let n := Chars.numeral 10 (segment.takeWhile Char.isDigit)
  if n ≤ maxSegment then n else 0

/-- The numbers between the dots of a version. -/
def segments (version : String) : List Nat :=
  (Chars.splitWhere (· == '.') version.toList).map segmentValue

/-- Lexicographic comparison in which a list that ends early goes on with zeros. -/
def comparePadded : List Nat → List Nat → Ordering
  | [], [] => .eq
  | a :: as, [] => (compare a 0).then (comparePadded as [])
  | [], b :: bs => (compare 0 b).then (comparePadded [] bs)
  | a :: as, b :: bs => (compare a b).then (comparePadded as bs)

def compareVersions (a b : String) : Ordering :=
  comparePadded (segments a) (segments b)

end ThemeSection.Head
