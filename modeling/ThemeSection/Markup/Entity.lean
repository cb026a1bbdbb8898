import ThemeSection.Chars.Code
import ThemeSection.Chars.Search
import ThemeSection.Markup.EntityTable

/-!
Character references: `&name;`, `&#10;` and `&#xA;`. The longest name that fits is taken. Inside an
attribute a name without a semicolon counts only if neither a letter, a digit nor `=` follows.
-/

namespace ThemeSection.Markup

/-- The table of names with the characters they stand for. -/
def entities : List (List Char × List Char) :=
  (Chars.splitWhere (fun c => c == ' ' || c == '\n') entityText.toList).map fun entry =>
    match Chars.splitWhere (· == '=') entry with
    | [name, codes] =>
      (name, (Chars.splitWhere (· == '.') codes).map fun code => Char.ofNat (Chars.numeral 16 code))
    | _ => (entry, [])

/-- What the numbers from 0x80 to 0x9F stand for: the characters of Windows code page 1252. -/
def codePage1252 : List Nat :=
  [0x20AC, 0x81, 0x201A, 0x192, 0x201E, 0x2026, 0x2020, 0x2021, 0x2C6, 0x2030, 0x160, 0x2039, 0x152,
   0x8D, 0x17D, 0x8F, 0x90, 0x2018, 0x2019, 0x201C, 0x201D, 0x2022, 0x2013, 0x2014, 0x2DC, 0x2122,
   0x161, 0x203A, 0x153, 0x9D, 0x17E, 0x178]

/-- The character of a numeric reference. -/
def numericChar (n : Nat) : Char :=
  if n == 0 || !Chars.isScalar n then '\uFFFD'
  else if 0x80 ≤ n && n ≤ 0x9F then Char.ofNat (codePage1252.getD (n - 0x80) n)
  else Char.ofNat n

/-- A numeric reference after `&#`: its character and the text that is left. -/
def numericReference? (s : List Char) : Option (List Char × List Char) :=
  let (base, digits) := match s with
    | 'x' :: rest | 'X' :: rest => (16, rest)
    | rest => (10, rest)
  let isDigit (c : Char) : Bool := if base == 16 then Chars.isHexDigit c else c.isDigit
  match digits.takeWhile isDigit, digits.dropWhile isDigit with
  | [], _ => none
  | run, rest =>
    let rest := match rest with
      | ';' :: after => after
      | other => other
    some ([numericChar (Chars.numeral base run)], rest)

/-- The entry with the longest name that the text begins with. -/
def longestEntity? (s : List Char) : Option (List Char × List Char) :=
  entities.foldl (fun best entry =>
    if entry.1.isPrefixOf s then
      match best with
      | some found => if found.1.length < entry.1.length then some entry else best
      | none => some entry
    else best) none

/-- A named reference after `&`: its characters and the text that is left. -/
def namedReference? (inAttribute : Bool) (s : List Char) : Option (List Char × List Char) :=
  match longestEntity? s with
  | none => none
  | some (name, image) =>
    let rest := s.drop name.length
    let goesOn := rest.head?.any fun c => c == '=' || c.isAlphanum
    if inAttribute && name.getLast? != some ';' && goesOn then none else some (image, rest)

/-- A reference after `&`. -/
def reference? (inAttribute : Bool) : List Char → Option (List Char × List Char)
  | '#' :: rest => numericReference? rest
  | s => namedReference? inAttribute s

/-- A text with its references replaced. -/
def decodeReferences (inAttribute : Bool) (s : List Char) : List Char :=
  go 0 s
where
  /-- `skip` characters belong to a reference that is already replaced. -/
  go : Nat → List Char → List Char
    | _, [] => []
    | skip + 1, _ :: rest => go skip rest
    | 0, c :: rest =>
      if c == '&' then
        match reference? inAttribute rest with
        | some (image, left) => image ++ go (rest.length - left.length) rest
        | none => c :: go 0 rest
      else c :: go 0 rest

end ThemeSection.Markup
