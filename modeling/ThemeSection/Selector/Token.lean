import ThemeSection.Chars.Code
import ThemeSection.Chars.Search

/-!
The words of a written selector. Comments are left out; an escape stands for the character it names;
a string, a comment or an escape that the end of the text cuts short ends there.
-/

namespace ThemeSection.Selector

/-- A number as written; its value is there only if it has neither a point nor an exponent, and is
held within 32 bits. -/
structure Numeral where
  signed : Bool
  value : Option Int
  deriving DecidableEq, Repr

inductive Token
  | space
  | ident (name : String)
  | function (name : String)
  /-- A name after a number sign; `isIdent` tells whether it could stand as an identifier. -/
  | hash (name : String) (isIdent : Bool)
  | string (content : String)
  | number (value : Numeral)
  | dimension (value : Numeral) (unit : String)
  | colon
  | comma
  | bracketOpen
  | bracketClose
  | parenClose
  /-- A single mark. -/
  | mark (c : Char)
  /-- A mark that an equals sign follows. -/
  | compare (c : Char)
  /-- Whatever has no place in a selector. -/
  | other
  deriving DecidableEq, Repr

namespace Token

def isNewline (c : Char) : Bool :=
  c == '\n' || c == '\r' || c == '\x0c'

def isSpace (c : Char) : Bool :=
  c == ' ' || c == '\t' || isNewline c

def isNameStart (c : Char) : Bool :=
  c.isAlpha || c == '_' || c.toNat ≥ 0x80 || c == '\x00'

def isNameChar (c : Char) : Bool :=
  isNameStart c || c.isDigit || c == '-'

/-- Whether an escape starts with the backslash before this text. -/
def escapes : List Char → Bool
  | c :: _ => !isNewline c
  | [] => true

/-- Whether an identifier starts here. -/
def startsName : List Char → Bool
  | '-' :: c :: _ => isNameStart c || c == '-' || c == '\\'
  | '\\' :: rest => escapes rest
  | c :: _ => isNameStart c
  | [] => false

/-- The character with a given number, if there is one. -/
def charOf (n : Nat) : Char :=
  if n == 0 || !Chars.isScalar n then '\uFFFD' else Char.ofNat n

/-- One blank after a numeric escape belongs to it. -/
def dropOneSpace : List Char → List Char
  | '\r' :: '\n' :: rest => rest
  | c :: rest => if isSpace c then rest else c :: rest
  | [] => []

/-- The character of an escape, after its backslash. -/
def escaped (s : List Char) : Char × List Char :=
  match s with
  | [] => ('\uFFFD', [])
  | c :: rest =>
    if Chars.isHexDigit c then
      let digits := (s.take 6).takeWhile Chars.isHexDigit
      (charOf (Chars.numeral 16 digits), dropOneSpace (s.drop digits.length))
    else (if c == '\x00' then '\uFFFD' else c, rest)

/-- A name and the text after it. -/
def readName : Nat → List Char → List Char × List Char
  | 0, s => ([], s)
  | _, [] => ([], [])
  | fuel + 1, c :: rest =>
    if isNameChar c then
      let (cs, rest) := readName fuel rest
      ((if c == '\x00' then '\uFFFD' else c) :: cs, rest)
    else if c == '\\' && escapes rest then
      let (e, rest) := escaped rest
      let (cs, rest) := readName fuel rest
      (e :: cs, rest)
    else ([], c :: rest)

/-- A string up to its closing quote; none if a line ends in it. -/
def readString (quote : Char) : Nat → List Char → Option (List Char) × List Char
  | 0, s => (some [], s)
  | _, [] => (some [], [])
  | fuel + 1, c :: rest =>
    if c == quote then (some [], rest)
    else if isNewline c then (none, c :: rest)
    else if c == '\\' then
      match rest with
      | [] => (some [], [])
      | d :: after =>
        if isNewline d then readString quote fuel (dropOneSpace rest)
        else
          let (e, rest) := escaped (d :: after)
          let (cs, rest) := readString quote fuel rest
          (cs.map (e :: ·), rest)
    else
      let (cs, rest) := readString quote fuel rest
      (cs.map ((if c == '\x00' then '\uFFFD' else c) :: ·), rest)

/-- The text after the end of a comment. -/
def afterComment (s : List Char) : List Char :=
  match Chars.splitFirst ['*', '/'] s with
  | some (_, rest) => rest
  | none => []

/-- Whether a number starts here, after its sign. -/
def startsDigits : List Char → Bool
  | '.' :: c :: _ => c.isDigit
  | c :: _ => c.isDigit
  | [] => false

def startsNumber : List Char → Bool
  | '+' :: rest => startsDigits rest
  | '-' :: rest => startsDigits rest
  | s => startsDigits s

/-- The text after an exponent, if one stands here. -/
def exponent? : List Char → Option (List Char)
  | e :: rest =>
    if e != 'e' && e != 'E' then none
    else match rest with
      | sign :: d :: after =>
        if sign.isDigit then some ((d :: after).dropWhile Char.isDigit)
        else if (sign == '+' || sign == '-') && d.isDigit then some (after.dropWhile Char.isDigit)
        else none
      | [d] => if d.isDigit then some [] else none
      | [] => none
  | [] => none

/-- A whole number held within 32 bits. -/
def clamp (n : Int) : Int :=
  max (-0x80000000) (min 0x7FFFFFFF n)

def readNumber (s : List Char) : Numeral × List Char :=
  let (signed, negative, s) := match s with
    | '+' :: rest => (true, false, rest)
    | '-' :: rest => (true, true, rest)
    | rest => (false, false, rest)
  let digits := s.takeWhile Char.isDigit
  let rest := s.dropWhile Char.isDigit
  let n : Int := Chars.numeral 10 digits
  let (whole, rest) := match rest with
    | '.' :: d :: more =>
      if d.isDigit then (false, more.dropWhile Char.isDigit) else (true, rest)
    | _ => (true, rest)
  match exponent? rest with
  | some rest => (⟨signed, none⟩, rest)
  | none => (⟨signed, if whole then some (clamp (if negative then -n else n)) else none⟩, rest)

/-- The token at the start of a text, none for a comment, and the text after it. -/
def next (fuel : Nat) : List Char → Option Token × List Char
  | [] => (none, [])
  | c :: rest =>
    let here := c :: rest
    if isSpace c then (some .space, rest.dropWhile isSpace)
    else if startsNumber here then
      let (n, rest) := readNumber here
      if startsName rest then
        let (unit, rest) := readName fuel rest
        (some (.dimension n (String.ofList unit)), rest)
      else match rest with
        | '%' :: rest => (some .other, rest)
        | rest => (some (.number n), rest)
    else if ['-', '-', '>'].isPrefixOf here then (some .other, rest)
    else if startsName here then
      let (cs, rest) := readName fuel here
      match rest with
      | '(' :: rest => (some (.function (String.ofList cs)), rest)
      | rest => (some (.ident (String.ofList cs)), rest)
    else match c, rest with
      | '#', rest =>
        let (cs, after) := readName fuel rest
        if cs.isEmpty then (some (.mark '#'), rest)
        else (some (.hash (String.ofList cs) (startsName rest)), after)
      | '"', rest | '\'', rest =>
        match readString c fuel rest with
        | (some cs, rest) => (some (.string (String.ofList cs)), rest)
        | (none, rest) => (some .other, rest)
      | '/', '*' :: rest => (none, afterComment rest)
      | '~', '=' :: rest | '|', '=' :: rest | '^', '=' :: rest | '$', '=' :: rest
      | '*', '=' :: rest => (some (.compare c), rest)
      | '|', '|' :: rest => (some .other, rest)
      | ':', rest => (some .colon, rest)
      | ',', rest => (some .comma, rest)
      | '[', rest => (some .bracketOpen, rest)
      | ']', rest => (some .bracketClose, rest)
      | ')', rest => (some .parenClose, rest)
      | c, rest => (some (.mark c), rest)

/-- The tokens of a text. -/
def all (s : List Char) : List Token :=
  go s.length s
where
  go : Nat → List Char → List Token
    | 0, _ => []
    | _, [] => []
    | fuel + 1, c :: rest =>
      let (token, rest) := next (rest.length + 1) (c :: rest)
      token.toList ++ go fuel rest

end Token

end ThemeSection.Selector
