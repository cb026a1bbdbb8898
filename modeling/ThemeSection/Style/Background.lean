import ThemeSection.Text.Basic

/-!
The background image in a style attribute: the first `url( … )` in a declaration of `background` or
`background-image`, in any letter case. `backgroundUrl?` reads it and `replaceBackgroundUrl` puts
another address in its place.
-/

namespace ThemeSection.Style

def isQuote (c : Char) : Bool :=
  c == '"' || c == '\''

/-- A character that can stand in an address without quotes. -/
def isPlain (c : Char) : Bool :=
  !isQuote c && c != ')'

/-- An address and the text after its token. -/
structure Address where
  url : List Char
  after : List Char

/-- Ends the token of an address: its closing parenthesis, with blanks and at most one quote before
it. Blanks at the end of an address without a quote do not belong to it, but one character does. -/
def closeToken? (url rest : List Char) : Option Address :=
  if url.isEmpty then none
  else match rest with
    | [] => none
    | c :: after =>
      if c == ')' then some ⟨url.take (max 1 (Chars.trimEnd url).length), after⟩
      else match after.dropWhile Chars.isBlank with
        | ')' :: after => if isQuote c then some ⟨url, after⟩ else none
        | _ => none

/-- The address after `url(`. Blanks before it are skipped; where nothing else is left to be the
address, the last of them is. -/
def address? (s : List Char) : Option Address :=
  let blanks := s.takeWhile Chars.isBlank
  let rest := s.dropWhile Chars.isBlank
  let start := match rest with
    | c :: more => if isQuote c then more else rest
    | [] => []
  (closeToken? (start.takeWhile isPlain) (start.dropWhile isPlain)).or
    (match blanks.getLast? with
      | none => none
      | some blank => closeToken? (blank :: rest.takeWhile isPlain) (rest.dropWhile isPlain))

/-- A declaration cut at the token of its address. -/
structure Declaration where
  before : List Char
  address : Address

/-- The first token with an address before the declaration ends. -/
def firstUrl? : List Char → Option Declaration
  | [] => none
  | c :: rest =>
    match (Chars.stripFolded? "url(".toList (c :: rest)).bind address? with
    | some address => some ⟨[], address⟩
    | none =>
      if c == ';' then none
      else (firstUrl? rest).map fun d => { d with before := c :: d.before }

/-- The text after the name of a background property and its colon. -/
def afterProperty? (s : List Char) : Option (List Char) := do
  let rest ← Chars.stripFolded? "background".toList s
  let rest := (Chars.stripFolded? "-image".toList rest).getD rest
  match rest.dropWhile Chars.isBlank with
  | ':' :: value => some value
  | _ => none

/-- The declaration at the start of a text. -/
def declarationHere? (s : List Char) : Option Declaration := do
  let value ← afterProperty? s
  let d ← firstUrl? value
  return { d with before := s.take (s.length - value.length) ++ d.before }

/-- A style cut at its first background declaration with an address. -/
structure Background where
  before : List Char
  declaration : Declaration

def background? : List Char → Option Background
  | [] => none
  | c :: rest =>
    match declarationHere? (c :: rest) with
    | some d => some ⟨[], d⟩
    | none => (background? rest).map fun b => { b with before := c :: b.before }

/-- The address of the background image, unless it is blank. -/
def backgroundUrl? (style : String) : Option String :=
  match background? style.toList with
  | none => none
  | some b =>
    match Chars.trim b.declaration.address.url with
    | [] => none
    | url => some (String.ofList url)

/-- The declaration up to its first `url(`, which stands before the token that was read or is it. -/
def Declaration.head (d : Declaration) : List Char :=
  let whole := d.before ++ "url(".toList
  match Chars.splitFirst "url(".toList (Chars.lowerAscii whole) with
  | some (start, _) => whole.take start.length
  | none => d.before

/-- The style with `replacement` as the address of its background image. -/
def replaceBackgroundUrl (style replacement : String) : String :=
  match background? style.toList with
  | none => style
  | some b =>
    String.ofList (b.before ++ b.declaration.head ++ "url(".toList ++ replacement.toList
      ++ ')' :: b.declaration.address.after)

end ThemeSection.Style
