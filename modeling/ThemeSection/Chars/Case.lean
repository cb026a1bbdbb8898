import ThemeSection.Chars.Code
import ThemeSection.Chars.CaseTable

/-!
Letter case in all of Unicode: full mappings, which may turn one character into several, and the
folding that lets a fixed pattern of ASCII letters match in any case.
-/

namespace ThemeSection.Chars

/-- The image of a code point under the first run that holds it. -/
def applyRuns (runs : List (Nat × Nat × Nat × Int)) (n : Nat) : Option Nat :=
  (runs.find? fun (first, last, step, _) =>
      first ≤ n && n ≤ last && (n - first) % step == 0).map
    fun (_, _, _, shift) => ((n : Int) + shift).toNat

/-- The case mapping that a table of runs and a table of exceptions describe. -/
def mapCase (runs : List (Nat × Nat × Nat × Int)) (special : List (Nat × List Nat)) (c : Char) :
    List Char :=
  match special.lookup c.toNat with
  | some image => image.map Char.ofNat
  | none =>
    match applyRuns runs c.toNat with
    | some n => [Char.ofNat n]
    | none => [c]

def lowerChar (c : Char) : List Char :=
  if c.toNat < 0x80 then [c.toLower] else mapCase lowerRuns lowerSpecial c

def upperChar (c : Char) : List Char :=
  if c.toNat < 0x80 then [c.toUpper] else mapCase upperRuns upperSpecial c

/-- Whether a cased letter comes first once characters that do not interrupt words are passed. -/
def meetsCased (s : List Char) : Bool :=
  match s.dropWhile (inRanges caseIgnorableRanges) with
  | [] => false
  | c :: _ => inRanges casedRanges c

/-- Lower case. A capital sigma that ends a word, with a letter before it and none after it, takes
the final form. -/
def lower (s : List Char) : List Char :=
  go [] s
where
  /-- `before` holds the characters already passed, the nearest first. -/
  go (before : List Char) : List Char → List Char
    | [] => []
    | c :: rest =>
      (if c == '\u03A3' then
          [if meetsCased before && !meetsCased rest then '\u03C2' else '\u03C3']
        else lowerChar c) ++ go (c :: before) rest

/-- Whether `c` is the ASCII small letter or other character `p` of a pattern, up to simple case
folding. Two letters outside ASCII fold to ASCII ones: the Kelvin sign and the long s. -/
def folds (p c : Char) : Bool :=
  c.toLower == p || (p == 'k' && c == '\u212A') || (p == 's' && c == '\u017F')

/-- What follows a pattern at the start of a text, in any case. -/
def stripFolded? : List Char → List Char → Option (List Char)
  | [], s => some s
  | _ :: _, [] => none
  | p :: ps, c :: cs => if folds p c then stripFolded? ps cs else none

end ThemeSection.Chars
