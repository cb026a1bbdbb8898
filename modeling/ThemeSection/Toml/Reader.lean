import ThemeSection.Chars.Search
import ThemeSection.Decimal.Read
import ThemeSection.Toml.Table

/-!
Reading configuration texts in TOML. Each reader gives a result and the text that is left; the whole
text gives an object. A date or a time in it is an object with one key, so that it passes neither
for a text nor for a number.
-/

namespace ThemeSection.Toml

def isSpace (c : Char) : Bool :=
  c == ' ' || c == '\t'

def skipSpace (s : List Char) : List Char :=
  s.dropWhile isSpace

/-- A control character other than a tab has no place in a text. -/
def isControl (c : Char) : Bool :=
  (c.toNat < 0x20 && c != '\t') || c.toNat == 0x7F

/-- The text after a comment, if one stands here. -/
def skipComment? : List Char → Option (List Char)
  | '#' :: rest =>
    let comment := rest.takeWhile fun c => c != '\n' && c != '\r'
    if comment.any isControl then none else some (rest.drop comment.length)
  | s => some s

/-- The text after the end of a line, with blanks and a comment before it; the end of the text ends
a line. -/
def endLine? (s : List Char) : Option (List Char) := do
  match ← skipComment? (skipSpace s) with
  | [] => some []
  | '\n' :: rest => some rest
  | '\r' :: '\n' :: rest => some rest
  | _ => none

/-- The text after blanks, comments and line ends; `fuel` bounds the number of lines. -/
def skipLines? : Nat → List Char → Option (List Char)
  | 0, s => some s
  | fuel + 1, s => do
    match ← skipComment? (skipSpace s) with
    | '\n' :: rest => skipLines? fuel rest
    | '\r' :: '\n' :: rest => skipLines? fuel rest
    | rest => some rest

/-- The character of an escape with a fixed number of hexadecimal digits. -/
def codeEscape? (length : Nat) (s : List Char) : Option (Char × List Char) :=
  let digits := s.take length
  let n := Chars.numeral 16 digits
  if digits.length == length && digits.all Chars.isHexDigit && Chars.isScalar n then
    some (Char.ofNat n, s.drop length)
  else none

/-- The character of an escape after its backslash. -/
def escape? : List Char → Option (Char × List Char)
  | 'b' :: rest => some (Char.ofNat 8, rest)
  | 't' :: rest => some ('\t', rest)
  | 'n' :: rest => some ('\n', rest)
  | 'f' :: rest => some (Char.ofNat 12, rest)
  | 'r' :: rest => some ('\r', rest)
  | '"' :: rest => some ('"', rest)
  | '\\' :: rest => some ('\\', rest)
  | 'u' :: rest => codeEscape? 4 rest
  | 'U' :: rest => codeEscape? 8 rest
  | _ => none

/-- A string on one line up to its closing quote; `fuel` bounds its length. -/
def lineString? (quote : Char) : Nat → List Char → Option (List Char × List Char)
  | 0, _ => none
  | _, [] => none
  | fuel + 1, c :: rest =>
    if c == quote then some ([], rest)
    else if isControl c then none
    else do
      let (d, rest) ← if quote == '"' && c == '\\' then escape? rest else some (c, rest)
      let (more, rest) ← lineString? quote fuel rest
      some (d :: more, rest)

def isTextSpace (c : Char) : Bool :=
  isSpace c || c == '\n' || c == '\r'

/-- The text after a backslash at the end of a line, which takes all blanks after it away. -/
def joinLines? (s : List Char) : Option (List Char) :=
  let blanks := s.takeWhile isTextSpace
  if (blanks.dropWhile isSpace).isEmpty then none else some (s.drop blanks.length)

/-- A string of several lines up to its three closing quotes, before which two more may stand. Lines
end in a line feed. `fuel` bounds its length. -/
def longString? (quote : Char) : Nat → List Char → Option (List Char × List Char)
  | 0, _ => none
  | _, [] => none
  | fuel + 1, c :: rest =>
    let run := (c :: rest).takeWhile (· == quote)
    if 3 ≤ run.length then
      let count := min run.length 5
      some (List.replicate (count - 3) quote, (c :: rest).drop count)
    else if quote == '"' && c == '\\' then
      match joinLines? rest with
      | some rest => longString? quote fuel rest
      | none => do
        let (d, rest) ← escape? rest
        let (more, rest) ← longString? quote fuel rest
        some (d :: more, rest)
    else match c, rest with
      | '\r', '\n' :: rest => do
        let (more, rest) ← longString? quote fuel rest
        some ('\n' :: more, rest)
      | c, rest =>
        if isControl c && c != '\n' then none
        else do
          let (more, rest) ← longString? quote fuel rest
          some (c :: more, rest)

/-- A line end right after the opening quotes does not belong to the string. -/
def dropFirstLineEnd : List Char → List Char
  | '\n' :: rest => rest
  | '\r' :: '\n' :: rest => rest
  | s => s

def string? (s : List Char) : Option (String × List Char) :=
  let result := match s with
    | '"' :: '"' :: '"' :: rest => longString? '"' (s.length) (dropFirstLineEnd rest)
    | '\'' :: '\'' :: '\'' :: rest => longString? '\'' (s.length) (dropFirstLineEnd rest)
    | '"' :: rest => lineString? '"' (s.length) rest
    | '\'' :: rest => lineString? '\'' (s.length) rest
    | _ => none
  result.map fun (text, rest) => (String.ofList text, rest)

def isBareChar (c : Char) : Bool :=
  c.isAlphanum || c == '_' || c == '-'

def simpleKey? (s : List Char) : Option (String × List Char) :=
  match s with
  | '"' :: rest => (lineString? '"' s.length rest).map fun (key, rest) => (String.ofList key, rest)
  | '\'' :: rest =>
    (lineString? '\'' s.length rest).map fun (key, rest) => (String.ofList key, rest)
  | _ =>
    match s.takeWhile isBareChar with
    | [] => none
    | key => some (String.ofList key, s.drop key.length)

/-- A key of one or more parts with points between them; `fuel` bounds their number. -/
def key? : Nat → List Char → Option (List String × List Char)
  | 0, _ => none
  | fuel + 1, s => do
    let (first, rest) ← simpleKey? (skipSpace s)
    match skipSpace rest with
    | '.' :: rest =>
      let (more, rest) ← key? fuel rest
      some (first :: more, rest)
    | rest => some ([first], rest)

/-- The digits of a run in which single underscores may stand between digits. -/
def digitRun? (isDigit : Char → Bool) (s : List Char) : Option (List Char) :=
  let pieces := Chars.splitWhere (· == '_') s
  if pieces.all fun piece => !piece.isEmpty && piece.all isDigit then some pieces.flatten
  else none

def isOctal (c : Char) : Bool := '0' ≤ c && c ≤ '7'

def isBinary (c : Char) : Bool := c == '0' || c == '1'

/-- A sign and what it stands before. -/
def splitSign : List Char → Bool × List Char
  | '-' :: rest => (true, rest)
  | '+' :: rest => (false, rest)
  | s => (false, s)

/-- A whole number in decimal without needless zeros. -/
def decimalRun? (s : List Char) : Option (List Char) :=
  (digitRun? Char.isDigit s).filter fun digits => digits.length == 1 || digits.head? != some '0'

def inWord (n : Int) : Option Json.Value :=
  if -0x8000000000000000 ≤ n && n < 0x8000000000000000 then some (.number (.int n)) else none

def integer? (s : List Char) : Option Json.Value :=
  match s with
  | '0' :: 'x' :: digits =>
    (digitRun? Chars.isHexDigit digits).bind fun run => inWord (Chars.numeral 16 run)
  | '0' :: 'o' :: digits => (digitRun? isOctal digits).bind fun run => inWord (Chars.numeral 8 run)
  | '0' :: 'b' :: digits =>
    (digitRun? isBinary digits).bind fun run => inWord (Chars.numeral 2 run)
  | _ =>
    let (negative, digits) := splitSign s
    (decimalRun? digits).bind fun run =>
      let n : Int := Chars.numeral 10 run
      inWord (if negative then -n else n)

/-- A number with places, with an exponent or with both. -/
def fraction? (s : List Char) : Option Json.Value := do
  let (_, magnitude) := splitSign s
  let isExponent (c : Char) : Bool := c == 'e' || c == 'E'
  let body := magnitude.takeWhile (!isExponent ·)
  let exponent := magnitude.drop body.length
  let whole := body.takeWhile (· != '.')
  let places := body.drop whole.length
  guard (!(places.isEmpty && exponent.isEmpty))
  discard <| decimalRun? whole
  guard (places.isEmpty || (digitRun? Char.isDigit (places.drop 1)).isSome)
  guard (exponent.isEmpty || (digitRun? Char.isDigit (splitSign (exponent.drop 1)).2).isSome)
  let x ← Decimal.read? (String.ofList (s.filter (· != '_')))
  return .number (.float x)

def specialNumber? (s : List Char) : Option Json.Value :=
  let (negative, name) := splitSign s
  let value? := match String.ofList name with
    | "inf" => some Decimal.infinity
    | "nan" => some Decimal.undefinedNumber
    | _ => none
  value?.map fun x => .number (.float (if negative then -x else x))

/-- Whether two runs of digits stand apart by a mark, as in a date or a time. -/
def isTimeLike (s : List Char) : Bool :=
  match Chars.splitWhere (fun c => c == '-' || c == ':') s with
  | first :: second :: _ =>
    (first.length == 4 || first.length == 2) && second.length == 2
      && (first ++ second).all Char.isDigit
  | _ => false

def time (s : List Char) : Json.Value :=
  .object [("$datetime", .string (String.ofList s))]

def isScalarChar (c : Char) : Bool :=
  isBareChar c || c == '+' || c == '.' || c == ':'

/-- A value without brackets or quotes. -/
def scalar? (s : List Char) : Option (Json.Value × List Char) :=
  let word := s.takeWhile isScalarChar
  let rest := s.drop word.length
  match String.ofList word with
  | "true" => some (.bool true, rest)
  | "false" => some (.bool false, rest)
  | _ =>
    if isTimeLike word then
      match rest with
      | ' ' :: more@(c :: _) =>
        let clock := more.takeWhile isScalarChar
        if c.isDigit && isTimeLike clock then
          some (time (word ++ ' ' :: clock), more.drop clock.length)
        else some (time word, rest)
      | _ => some (time word, rest)
    else
      (((integer? word).or (specialNumber? word)).or (fraction? word)).map fun v => (v, rest)

mutual

/-- A value; `fuel` bounds the number of steps, each of which shortens the text. -/
def value? : Nat → List Char → Option (Json.Value × List Char)
  | 0, _ => none
  | fuel + 1, s =>
    match s with
    | '"' :: _ | '\'' :: _ => (string? s).map fun (text, rest) => (.string text, rest)
    | '[' :: rest => (items? fuel rest).map fun (items, rest) => (.array items, rest)
    | '\x7b' :: rest =>
      match skipSpace rest with
      | '\x7d' :: rest => some (.object [], rest)
      | rest =>
        (members? fuel [] rest).map fun (entries, rest) => (.object (toFields entries), rest)
    | _ => scalar? s

/-- The items of an array after its opening bracket or after a comma. -/
def items? : Nat → List Char → Option (List Json.Value × List Char)
  | 0, _ => none
  | fuel + 1, s => do
    match ← skipLines? s.length s with
    | ']' :: rest => some ([], rest)
    | next =>
      let (first, rest) ← value? fuel next
      match ← skipLines? rest.length rest with
      | ',' :: rest =>
        let (more, rest) ← items? fuel rest
        some (first :: more, rest)
      | ']' :: rest => some ([first], rest)
      | _ => none

/-- The members of an inline table after those already read. -/
def members? : Nat → Entries → List Char → Option (Entries × List Char)
  | 0, _, _ => none
  | fuel + 1, entries, s => do
    let (key, rest) ← key? s.length s
    match rest with
    | '=' :: rest =>
      let (value, rest) ← value? fuel (skipSpace rest)
      let entries ← Entries.assign? value key entries
      match skipSpace rest with
      | ',' :: rest => members? fuel entries rest
      | '\x7d' :: rest => some (entries, rest)
      | _ => none
    | _ => none

end

/-- A text while it is read: all its tables, and the path to the one that grows. -/
structure Progress where
  entries : Entries := []
  path : List String := []

/-- A header after its first bracket. -/
def header? (p : Progress) (s : List Char) : Option (Progress × List Char) :=
  match s with
  | '[' :: rest => do
    let (path, rest) ← key? rest.length rest
    match rest with
    | ']' :: ']' :: rest =>
      let entries ← Entries.within (Entries.beginRow? (path.getLastD "")) path.dropLast p.entries
      some (⟨entries, path⟩, rest)
    | _ => none
  | _ => do
    let (path, rest) ← key? s.length s
    match rest with
    | ']' :: rest =>
      let entries ← Entries.within (Entries.begin? (path.getLastD "")) path.dropLast p.entries
      some (⟨entries, path⟩, rest)
    | _ => none

/-- A key with its value. -/
def assignment? (p : Progress) (s : List Char) : Option (Progress × List Char) := do
  let (key, rest) ← key? s.length s
  match rest with
  | '=' :: rest =>
    let rest := skipSpace rest
    let (value, rest) ← value? (2 * rest.length + 2) rest
    let entries ← Entries.within (Entries.assign? value key) p.path p.entries
    some ({ p with entries }, rest)
  | _ => none

/-- All lines of a text; `fuel` bounds their number. -/
def lines? : Nat → Progress → List Char → Option Progress
  | 0, _, _ => none
  | fuel + 1, p, s => do
    match ← skipLines? s.length s with
    | [] => some p
    | '[' :: rest =>
      let (p, rest) ← header? p rest
      lines? fuel p (← endLine? rest)
    | next =>
      let (p, rest) ← assignment? p next
      lines? fuel p (← endLine? rest)

/-- Reads a whole text as an object. -/
def read? (text : String) : Option Json.Value :=
  let s := text.toList
  let s := if s.head? == some '\uFEFF' then s.drop 1 else s
  (lines? (s.length + 1) {} s).map fun p => .object (toFields p.entries)

end ThemeSection.Toml
