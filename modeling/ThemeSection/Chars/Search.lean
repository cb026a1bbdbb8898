/-!
Finding and cutting pieces of a text, seen as a list of characters. `splitFirst` is the one search
that the other operations rest on: it finds the leftmost occurrence.
-/

namespace ThemeSection.Chars

/-- What follows `needle` at the start of the text. -/
def strip? (needle s : List Char) : Option (List Char) :=
  needle.isPrefixOf? s

/-- What precedes `needle` at the end of the text. -/
def stripEnd? (needle s : List Char) : Option (List Char) :=
  (needle.reverse.isPrefixOf? s.reverse).map List.reverse

/-- The leftmost occurrence of `needle`: the characters before it and those after it. -/
def splitFirst (needle : List Char) : List Char → Option (List Char × List Char)
  | [] => (strip? needle []).map fun rest => ([], rest)
  | c :: cs =>
    match strip? needle (c :: cs) with
    | some rest => some ([], rest)
    | none => (splitFirst needle cs).map fun (before, rest) => (c :: before, rest)

/-- Whether `needle` occurs in the text. -/
def contains (needle s : List Char) : Bool :=
  (splitFirst needle s).isSome

/-- Every occurrence of `needle`, found from the left without overlap, becomes `piece`. -/
def replaceAll (needle piece : List Char) (s : List Char) : List Char :=
  go 0 s
where
  go : Nat → List Char → List Char
    | _, [] => []
    | skip + 1, _ :: cs => go skip cs
    | 0, c :: cs =>
      if needle.isPrefixOf (c :: cs) then piece ++ go (needle.length - 1) cs else c :: go 0 cs

/-- The pieces between the characters that satisfy `p`; one more than there are such characters. -/
def splitWhere (p : Char → Bool) : List Char → List (List Char)
  | [] => [[]]
  | c :: cs =>
    if p c then [] :: splitWhere p cs
    else match splitWhere p cs with
      | [] => [[c]]
      | piece :: pieces => (c :: piece) :: pieces

/-- The characters before the last one that satisfies `p`. -/
def beforeLast? (p : Char → Bool) (s : List Char) : Option (List Char) :=
  match s.reverse.dropWhile (!p ·) with
  | [] => none
  | _ :: before => some before.reverse

/-- The lines of a text, without their ends. A line ends in a line feed, which a carriage return may
precede; a text that ends in a line feed has no empty line after it. -/
def lines : List Char → List (List Char)
  | [] => []
  | '\n' :: cs => [] :: lines cs
  | '\r' :: '\n' :: cs => [] :: lines cs
  | c :: cs =>
    match lines cs with
    | [] => [[c]]
    | line :: rest => (c :: line) :: rest

/-- The text with its ASCII capitals made small. -/
def lowerAscii (s : List Char) : List Char :=
  s.map Char.toLower

end ThemeSection.Chars
