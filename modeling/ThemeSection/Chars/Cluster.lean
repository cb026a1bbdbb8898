import ThemeSection.Chars.Code
import ThemeSection.Chars.ClusterTable

/-!
User-perceived characters: extended grapheme clusters. The characters before a place decide,
together with the one after it, whether a cluster ends there, so the clusters are cut in one pass
from the left.
-/

namespace ThemeSection.Chars

/-- What a character does at the edge of a cluster. -/
inductive ClusterClass
  | other | carriageReturn | lineFeed | control | extend | joiner | regional | prepend | spacingMark
  | leading | vowel | trailing | leadingVowel | leadingVowelTrailing
  deriving DecidableEq, Repr

def ClusterClass.ofChar (c : Char) : ClusterClass :=
  let n := c.toNat
  if n == 0x0D then .carriageReturn
  else if n == 0x0A then .lineFeed
  else if 0x20 ≤ n && n < 0x7F then .other
  else if n == 0x200D then .joiner
  else if 0x1F1E6 ≤ n && n ≤ 0x1F1FF then .regional
  else if 0xAC00 ≤ n && n ≤ 0xD7A3 then
    if (n - 0xAC00) % 28 == 0 then .leadingVowel else .leadingVowelTrailing
  else if (0x1100 ≤ n && n ≤ 0x115F) || (0xA960 ≤ n && n ≤ 0xA97C) then .leading
  else if (0x1160 ≤ n && n ≤ 0x11A7) || (0xD7B0 ≤ n && n ≤ 0xD7C6) then .vowel
  else if (0x11A8 ≤ n && n ≤ 0x11FF) || (0xD7CB ≤ n && n ≤ 0xD7FB) then .trailing
  else if inRanges controlRanges c then .control
  else if inRanges extendRanges c then .extend
  else if inRanges spacingMarkRanges c then .spacingMark
  else if inRanges prependRanges c then .prepend
  else .other

/-- How far a pictograph with a joiner after it has been read. -/
inductive PictographState
  | none | pictograph | joined
  deriving DecidableEq, Repr

/-- How far a consonant with a linking sign after it has been read. -/
inductive ConjunctState
  | none | consonant | linked
  deriving DecidableEq, Repr

/-- What the next decision needs to know about the characters before it. -/
structure ClusterState where
  last : ClusterClass
  /-- An odd number of regional indicators stands right before. -/
  oddRegional : Bool
  pictograph : PictographState
  conjunct : ConjunctState

def ClusterState.next (state : Option ClusterState) (c : Char) : ClusterState :=
  let cls := ClusterClass.ofChar c
  { last := cls
    oddRegional := cls == .regional && !(state.any (·.oddRegional))
    pictograph :=
      if inRanges pictographicRanges c then .pictograph
      else if cls == .extend && state.any (·.pictograph == .pictograph) then .pictograph
      else if cls == .joiner && state.any (·.pictograph == .pictograph) then .joined
      else .none
    conjunct :=
      if inRanges conjunctConsonantRanges c then .consonant
      else if conjunctLinkers.contains c.toNat then
        if state.any (·.conjunct != .none) then .linked else .none
      else if (cls == .extend || cls == .joiner) && c != '\u200C' then
        (state.map (·.conjunct)).getD .none
      else .none }

/-- Whether a cluster ends between the characters that `state` sums up and `c`. -/
def ClusterState.breaks (state : ClusterState) (c : Char) : Bool :=
  let cls := ClusterClass.ofChar c
  match state.last, cls with
  | .carriageReturn, .lineFeed => false
  | .carriageReturn, _ | .lineFeed, _ | .control, _ => true
  | _, .carriageReturn | _, .lineFeed | _, .control => true
  | .leading, .leading | .leading, .vowel | .leading, .leadingVowel
  | .leading, .leadingVowelTrailing => false
  | .leadingVowel, .vowel | .leadingVowel, .trailing | .vowel, .vowel | .vowel, .trailing => false
  | .leadingVowelTrailing, .trailing | .trailing, .trailing => false
  | _, .extend | _, .joiner | _, .spacingMark => false
  | .prepend, _ => false
  | _, _ =>
    !((state.conjunct == .linked && inRanges conjunctConsonantRanges c)
      || (state.pictograph == .joined && inRanges pictographicRanges c)
      || (state.oddRegional && cls == .regional))

/-- The clusters of a text, in order. -/
def clusters (s : List Char) : List (List Char) :=
  go none s
where
  go (state : Option ClusterState) : List Char → List (List Char)
    | [] => []
    | [c] => [[c]]
    | c :: d :: rest =>
      let next := ClusterState.next state c
      match go (some next) (d :: rest) with
      | [] => [[c]]
      | cluster :: more => if next.breaks d then [c] :: cluster :: more else (c :: cluster) :: more

end ThemeSection.Chars
