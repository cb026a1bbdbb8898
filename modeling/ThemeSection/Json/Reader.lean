import ThemeSection.Chars.Code
import ThemeSection.Decimal.Read
import ThemeSection.Json.Value

/-!
Reading JSON. A text is read from the left; the first fault ends the reading and is reported with
the line and the column where it was met. Arrays and objects nest at most 127 deep. Objects are
first read with every field as written, and then settled so that each key stands once.
-/

namespace ThemeSection.Json

/-- Why a text is not JSON. -/
inductive Reason
  | endInList | endInObject | endInString | endInValue
  | expectedColon | expectedListEnd | expectedObjectEnd | expectedName | expectedValue
  | keyNotString | trailingComma | trailingCharacters
  | invalidNumber | numberOutOfRange
  | invalidEscape | loneSurrogate | endOfHexEscape | controlCharacter
  | tooDeep
  deriving DecidableEq, Repr

def Reason.message : Reason → String
  | endInList => "EOF while parsing a list"
  | endInObject => "EOF while parsing an object"
  | endInString => "EOF while parsing a string"
  | endInValue => "EOF while parsing a value"
  | expectedColon => "expected `:`"
  | expectedListEnd => "expected `,` or `]`"
  | expectedObjectEnd => "expected `,` or `\x7d`"
  | expectedName => "expected ident"
  | expectedValue => "expected value"
  | keyNotString => "key must be a string"
  | trailingComma => "trailing comma"
  | trailingCharacters => "trailing characters"
  | invalidNumber => "invalid number"
  | numberOutOfRange => "number out of range"
  | invalidEscape => "invalid escape"
  | loneSurrogate => "lone leading surrogate in hex escape"
  | endOfHexEscape => "unexpected end of hex escape"
  | controlCharacter => "control character (\\u0000-\\u001F) found while parsing a string"
  | tooDeep => "recursion limit exceeded"

/-- A reason and the number of bytes that were not yet read when it was found. -/
structure Fault where
  reason : Reason
  bytesLeft : Nat
  deriving DecidableEq, Repr

/-- The length of a text in bytes of UTF-8. -/
def byteSize (s : List Char) : Nat :=
  s.foldr (fun c size => c.utf8Size + size) 0

/-- A fault right before the text that is left. -/
def Fault.at (reason : Reason) (left : List Char) : Fault :=
  ⟨reason, byteSize left⟩

/-- A fault that counts the first byte of the text that is left as read. -/
def Fault.past (reason : Reason) (left : List Char) : Fault :=
  ⟨reason, byteSize left - 1⟩

/-- What a reader gives: a result, most often with the text that is left, or the first fault. -/
abbrev Reading := Except Fault

/-- A reader of one item of a list, or of the value of a field. -/
abbrev ItemReader (α : Type) := List Char → Reading (α × List Char)

def isSpace (c : Char) : Bool :=
  c == ' ' || c == '\n' || c == '\t' || c == '\r'

def skipSpace (s : List Char) : List Char :=
  s.dropWhile isSpace

/-- The number that four hexadecimal digits name. -/
def hexQuad : List Char → Reading (Nat × List Char)
  | a :: b :: c :: d :: rest =>
    if [a, b, c, d].all Chars.isHexDigit then .ok (Chars.numeral 16 [a, b, c, d], rest)
    else .error ⟨.invalidEscape, byteSize (a :: b :: c :: d :: rest) - 4⟩
  | short =>
    if byteSize short < 4 then .error ⟨.endInString, 0⟩
    else .error ⟨.invalidEscape, byteSize short - 4⟩

/-- The character of an escape after `\u`, and the number of characters that the escape takes. A
character beyond 16 bits is written as two escapes, a leading and a trailing surrogate. -/
def unicodeEscape (s : List Char) : Reading (Char × Nat) := do
  let (n, rest) ← hexQuad s
  if 0xDC00 ≤ n && n ≤ 0xDFFF then .error (.at .loneSurrogate rest)
  else if n < 0xD800 || n > 0xDBFF then .ok (Char.ofNat n, 4)
  else match rest with
    | [] => .error (.at .endInString [])
    | '\\' :: [] => .error (.at .endInString [])
    | '\\' :: 'u' :: more =>
      let (m, rest) ← hexQuad more
      if m < 0xDC00 || m > 0xDFFF then .error (.at .loneSurrogate rest)
      else .ok (Char.ofNat (0x10000 + (n - 0xD800) * 0x400 + (m - 0xDC00)), 10)
    | '\\' :: more => .error (.past .endOfHexEscape more)
    | more => .error (.past .endOfHexEscape more)

/-- The character of an escape after its backslash, and the number of characters it takes. -/
def escape : List Char → Reading (Char × Nat)
  | [] => .error (.at .endInString [])
  | 'u' :: rest => (unicodeEscape rest).map fun (c, n) => (c, n + 1)
  | '"' :: _ => .ok ('"', 1)
  | '\\' :: _ => .ok ('\\', 1)
  | '/' :: _ => .ok ('/', 1)
  | 'b' :: _ => .ok (Char.ofNat 8, 1)
  | 'f' :: _ => .ok (Char.ofNat 12, 1)
  | 'n' :: _ => .ok ('\n', 1)
  | 'r' :: _ => .ok ('\r', 1)
  | 't' :: _ => .ok ('\t', 1)
  | other => .error (.past .invalidEscape other)

/-- A string after its opening quote. -/
def stringBody (s : List Char) : Reading (List Char × List Char) :=
  go 0 s
where
  /-- `skip` characters belong to an escape that is already decoded. -/
  go : Nat → List Char → Reading (List Char × List Char)
    | _, [] => .error (.at .endInString [])
    | skip + 1, _ :: rest => go skip rest
    | 0, c :: rest =>
      if c == '"' then .ok ([], rest)
      else if c == '\\' then do
        let (d, n) ← escape rest
        let (text, rest) ← go n rest
        .ok (d :: text, rest)
      else if c.toNat < 0x20 then .error (.at .controlCharacter rest)
      else do
        let (text, rest) ← go 0 rest
        .ok (c :: text, rest)

/-- Appends decimal digits to a number as long as it stays within `limit`; the digits that are left
begin with the first that does not fit. -/
def absorb (limit : Nat) : Nat → List Char → Nat × List Char
  | n, [] => (n, [])
  | n, c :: rest =>
    let next := 10 * n + (c.toNat - '0'.toNat)
    if next > limit then (n, c :: rest) else absorb limit next rest

def maxWord : Nat := 0xFFFFFFFFFFFFFFFF

def maxExponent : Nat := 0x7FFFFFFF

/-- `x · 10 ^ exponent` by one multiplication or division by a power of ten; below `1e-308` after
divisions by `1e308`. Nothing if the result is infinite. -/
def scale : Nat → Float → Int → Option Float
  | 0, x, _ => some x
  | fuel + 1, x, exponent =>
    if exponent.natAbs ≤ 308 then
      if exponent ≥ 0 then
        let y := x * Float.ofScientific 1 false exponent.toNat
        if y.isInf then none else some y
      else some (x / Float.ofScientific 1 false exponent.natAbs)
    else if x == 0.0 then some x
    else if exponent ≥ 0 then none
    else scale fuel (x / 1e308) (exponent + 308)

/-- The floating-point number of a significand and an exponent. -/
def floatOf (negative : Bool) (significand : Nat) (exponent : Int) (rest : List Char) :
    Reading (Number × List Char) :=
  match scale 8 (Float.ofNat significand) exponent with
  | none => .error (.at .numberOutOfRange rest)
  | some x => .ok (.float (if negative then -x else x), rest)

/-- A number from its exponent letter on. -/
def numberExponent (negative : Bool) (significand : Nat) (exponent : Int) (s : List Char) :
    Reading (Number × List Char) :=
  let afterLetter := s.drop 1
  let (down, afterSign) := match afterLetter with
    | '+' :: rest => (false, rest)
    | '-' :: rest => (true, rest)
    | rest => (false, rest)
  match afterSign with
  | [] => .error (.at .endInValue [])
  | c :: _ =>
    if !c.isDigit then .error (.past .invalidNumber afterSign)
    else
      let digits := afterSign.takeWhile Char.isDigit
      let rest := afterSign.dropWhile Char.isDigit
      let (e, extra) := absorb maxExponent 0 digits
      if extra.isEmpty then
        floatOf negative significand (if down then exponent - e else exponent + e) rest
      else if significand != 0 && !down then
        .error (.at .numberOutOfRange (extra.drop 1 ++ rest))
      else .ok (.float (if negative then -0.0 else 0.0), rest)

def startsExponent : List Char → Bool
  | c :: _ => c == 'e' || c == 'E'
  | [] => false

/-- A number from its point on. Places that no longer fit into 64 bits are dropped. -/
def numberPlaces (negative : Bool) (significand : Nat) (exponent : Int) (s : List Char) :
    Reading (Number × List Char) :=
  let afterPoint := s.drop 1
  let places := afterPoint.takeWhile Char.isDigit
  let rest := afterPoint.dropWhile Char.isDigit
  if places.isEmpty then
    match rest with
    | [] => .error (.at .endInValue [])
    | _ => .error (.past .invalidNumber rest)
  else
    let (n, extra) := absorb maxWord significand places
    let exponent := exponent - (places.length - extra.length : Nat)
    if startsExponent rest then numberExponent negative n exponent rest
    else floatOf negative n exponent rest

/-- A number after its sign. -/
def numberBody (negative : Bool) (s : List Char) : Reading (Number × List Char) :=
  match s with
  | [] => .error (.at .endInValue [])
  | c :: afterFirst =>
    if !c.isDigit then .error (.past .invalidNumber s)
    else if c == '0' && (afterFirst.head?.any Char.isDigit) then
      .error (.past .invalidNumber afterFirst)
    else
      let digits := s.takeWhile Char.isDigit
      let rest := s.dropWhile Char.isDigit
      let (n, extra) := absorb maxWord 0 digits
      let exponent : Int := extra.length
      if rest.head? == some '.' then numberPlaces negative n exponent rest
      else if startsExponent rest then numberExponent negative n exponent rest
      else if !extra.isEmpty then floatOf negative n exponent rest
      else if !negative then .ok (.int n, rest)
      else if n == 0 || n > 0x8000000000000000 then .ok (.float (-(Float.ofNat n)), rest)
      else .ok (.int (-(n : Int)), rest)

/-- A fixed name such as `true`, after its first letter. -/
def nameRest : List Char → List Char → Reading (Unit × List Char)
  | [], s => .ok ((), s)
  | _ :: _, [] => .error (.at .endInValue [])
  | p :: ps, c :: rest =>
    if p == c then nameRest ps rest else .error (.past .expectedName (c :: rest))

/-- The items of a list from the second on, each after its comma, up to the closing bracket. -/
def moreItems (item : ItemReader Value) : Nat → List Char → Reading (List Value × List Char)
  | 0, s => .error (.at .endInList s)
  | fuel + 1, s =>
    match skipSpace s with
    | [] => .error (.at .endInList [])
    | ']' :: rest => .ok ([], rest)
    | ',' :: rest =>
      match skipSpace rest with
      | [] => .error (.at .endInValue [])
      | next@(c :: _) =>
        if c == ']' then .error (.past .trailingComma next)
        else do
          let (value, rest) ← item next
          let (values, rest) ← moreItems item fuel rest
          .ok (value :: values, rest)
    | other => .error (.past .expectedListEnd other)

/-- A list after its opening bracket. -/
def items (item : ItemReader Value) (s : List Char) : Reading (List Value × List Char) :=
  match skipSpace s with
  | [] => .error (.at .endInList [])
  | ']' :: rest => .ok ([], rest)
  | next => do
    let (value, rest) ← item next
    let (values, rest) ← moreItems item rest.length.succ rest
    .ok (value :: values, rest)

/-- A field after the opening quote of its key. -/
def field (item : ItemReader Value) (s : List Char) : Reading ((String × Value) × List Char) := do
  let (key, rest) ← stringBody s
  match skipSpace rest with
  | [] => .error (.at .endInObject [])
  | ':' :: rest => do
    let (value, rest) ← item rest
    .ok ((String.ofList key, value), rest)
  | other => .error (.past .expectedColon other)

/-- The fields of an object from the second on, up to the closing brace. -/
def moreFields (item : ItemReader Value) : Nat → List Char → Reading (Fields × List Char)
  | 0, s => .error (.at .endInObject s)
  | fuel + 1, s =>
    match skipSpace s with
    | [] => .error (.at .endInObject [])
    | '\x7d' :: rest => .ok ([], rest)
    | ',' :: rest =>
      match skipSpace rest with
      | [] => .error (.at .endInValue [])
      | '"' :: next => do
        let (first, rest) ← field item next
        let (others, rest) ← moreFields item fuel rest
        .ok (first :: others, rest)
      | '\x7d' :: next => .error (.past .trailingComma ('\x7d' :: next))
      | next => .error (.past .keyNotString next)
    | other => .error (.past .expectedObjectEnd other)

/-- An object after its opening brace. -/
def fields (item : ItemReader Value) (s : List Char) : Reading (Fields × List Char) :=
  match skipSpace s with
  | [] => .error (.at .endInObject [])
  | '\x7d' :: rest => .ok ([], rest)
  | '"' :: next => do
    let (first, rest) ← field item next
    let (others, rest) ← moreFields item rest.length.succ rest
    .ok (first :: others, rest)
  | next => .error (.past .keyNotString next)

/-- A value, with blanks before it; lists and objects may nest less than `depth` deep. -/
def value (depth : Nat) (s : List Char) : Reading (Value × List Char) :=
  match skipSpace s with
  | [] => .error (.at .endInValue [])
  | 'n' :: rest => do
    let ((), rest) ← nameRest ['u', 'l', 'l'] rest
    .ok (.null, rest)
  | 't' :: rest => do
    let ((), rest) ← nameRest ['r', 'u', 'e'] rest
    .ok (.bool true, rest)
  | 'f' :: rest => do
    let ((), rest) ← nameRest ['a', 'l', 's', 'e'] rest
    .ok (.bool false, rest)
  | '-' :: rest => do
    let (n, rest) ← numberBody true rest
    .ok (.number n, rest)
  | '"' :: rest => do
    let (text, rest) ← stringBody rest
    .ok (.string (String.ofList text), rest)
  | '[' :: rest =>
    match depth with
    | 0 | 1 => .error (.past .tooDeep ('[' :: rest))
    | depth + 1 => do
      let (values, rest) ← items (value depth) rest
      .ok (.array values, rest)
  | '\x7b' :: rest =>
    match depth with
    | 0 | 1 => .error (.past .tooDeep ('\x7b' :: rest))
    | depth + 1 => do
      let (members, rest) ← fields (value depth) rest
      .ok (.object members, rest)
  | other@(c :: _) =>
    if c.isDigit then do
      let (n, rest) ← numberBody false other
      .ok (.number n, rest)
    else .error (.past .expectedValue other)

/-- Arrays and objects may stand at fewer than this many levels. -/
def depthLimit : Nat := 128

/-- Reads a whole text; objects keep every field as written. -/
def readRaw (text : String) : Reading Value := do
  let (result, rest) ← value depthLimit text.toList
  match skipSpace rest with
  | [] => .ok result
  | other => .error (.past .trailingCharacters other)

/-- Reads a whole text as a value in which each key of an object stands once. -/
def read (text : String) : Reading Value :=
  (readRaw text).map Value.settle

/-- The line and the column of a place, both as a person counts them: lines from one, columns in
bytes read on the line. -/
def position (offset : Nat) (text : List Char) : Nat × Nat :=
  go 1 0 offset text
where
  go (line column left : Nat) : List Char → Nat × Nat
    | [] => (line, column + left)
    | c :: rest =>
      if left < c.utf8Size then (line, column + left)
      else if c == '\n' then go (line + 1) 0 (left - 1) rest
      else go line (column + c.utf8Size) (left - c.utf8Size) rest

/-- A fault in words, with the place in the text where it was met. -/
def Fault.describe (fault : Fault) (text : String) : String :=
  let (line, column) := position (text.utf8ByteSize - fault.bytesLeft) text.toList
  s!"{fault.reason.message} at line {line} column {column}"

end ThemeSection.Json
