import ThemeSection.Markup.Entity

/-!
Tokens of markup: tags, comments, document types and single characters, read one after the other
from the left. No text is an error; what fits no rule becomes characters or a comment.
-/

namespace ThemeSection.Markup

/-- A tag; each attribute name stands once, with the value given first. -/
structure Tag where
  name : String
  attributes : List (String × String)
  selfClosing : Bool
  deriving DecidableEq, Repr, Inhabited

structure Doctype where
  name : Option String
  publicId : Option String
  systemId : Option String
  broken : Bool
  deriving DecidableEq, Repr

inductive Token
  | doctype (d : Doctype)
  | startTag (tag : Tag)
  | endTag (name : String)
  | comment (content : String)
  | char (c : Char)
  | finish
  deriving DecidableEq, Repr

/-- The blanks of markup. -/
def isSpace (c : Char) : Bool :=
  c == '\t' || c == '\n' || c == '\x0c' || c == ' '

def isLetter (c : Char) : Bool :=
  c.isAlpha

/-- The character that stands for NUL. -/
def visible (c : Char) : Char :=
  if c == '\x00' then '\uFFFD' else c

/-- A character of a name: capitals made small. -/
def nameChar (c : Char) : Char :=
  (visible c).toLower

def endsTagName (c : Char) : Bool :=
  isSpace c || c == '/' || c == '>'

def endsAttributeName (c : Char) : Bool :=
  endsTagName c || c == '='

def endsBareValue (c : Char) : Bool :=
  isSpace c || c == '>'

def attributeText (raw : List Char) : String :=
  String.ofList (decodeReferences true (raw.map visible))

/-- An attribute value, after the sign of equality and blanks, and the text that is left. Nothing if
the text ends first. -/
def attributeValue? : List Char → Option (String × List Char)
  | [] => none
  | '>' :: rest => some ("", '>' :: rest)
  | c :: rest =>
    if c == '"' || c == '\'' then
      match rest.dropWhile (· != c) with
      | [] => none
      | _ :: after => some (attributeText (rest.takeWhile (· != c)), after)
    else
      match (c :: rest).dropWhile (!endsBareValue ·) with
      | [] => none
      | after => some (attributeText ((c :: rest).takeWhile (!endsBareValue ·)), after)

/-- Adds an attribute unless its name is there. -/
def addAttribute (attributes : List (String × String)) (name value : String) :
    List (String × String) :=
  if attributes.any (·.1 == name) then attributes else attributes ++ [(name, value)]

/-- The rest of a tag after its name, up to its end: the attributes, whether it closes itself, and
the text that is left. Nothing if the text ends first. -/
def tagRest? : Nat → List (String × String) → List Char →
    Option (List (String × String) × Bool × List Char)
  | 0, _, _ => none
  | fuel + 1, attributes, s =>
    match s.dropWhile isSpace with
    | [] => none
    | '>' :: rest => some (attributes, false, rest)
    | '/' :: '>' :: rest => some (attributes, true, rest)
    | '/' :: rest => tagRest? fuel attributes rest
    | first :: more =>
      let name := String.ofList ((first :: more.takeWhile (!endsAttributeName ·)).map nameChar)
      let rest := more.dropWhile (!endsAttributeName ·)
      match rest.dropWhile isSpace with
      | '=' :: after =>
        match attributeValue? (after.dropWhile isSpace) with
        | none => none
        | some (value, left) => tagRest? fuel (addAttribute attributes name value) left
      | _ => tagRest? fuel (addAttribute attributes name "") rest

/-- A tag from its name on, and the text that is left. Nothing if the text ends first. -/
def tag? (s : List Char) : Option (Tag × List Char) :=
  let name := String.ofList ((s.takeWhile (!endsTagName ·)).map nameChar)
  let rest := s.dropWhile (!endsTagName ·)
  (tagRest? (rest.length + 1) [] rest).map fun (attributes, selfClosing, left) =>
    (⟨name, attributes, selfClosing⟩, left)

/-- The content of a comment after `<!--`, and the text that is left. `start` tells that nothing of
the comment has been read; there `>` and `->` end it. -/
def commentBody (start : Bool) : List Char → List Char × List Char
  | [] => ([], [])
  | ['-'] => ([], [])
  | ['-', '-'] => ([], [])
  | ['-', '-', '!'] => ([], [])
  | '-' :: '-' :: '>' :: rest => ([], rest)
  | '-' :: '-' :: '!' :: '>' :: rest => ([], rest)
  | c :: rest =>
    if start && c == '>' then ([], rest)
    else if start && c == '-' && rest.head? == some '>' then ([], rest.tail)
    else
      let (content, left) := commentBody false rest
      (visible c :: content, left)

/-- A comment that ends at the next `>`. -/
def bogusComment (s : List Char) : Token × List Char :=
  (.comment (String.ofList ((s.takeWhile (· != '>')).map visible)),
    (s.dropWhile (· != '>')).drop 1)

/-- A document type whose remaining text is skipped. -/
def skipDoctype (d : Doctype) (s : List Char) : Doctype × List Char :=
  (d, (s.dropWhile (· != '>')).drop 1)

/-- What a quoted identifier in a document type can be. -/
inductive Quoted
  /-- The closing quote was found. -/
  | closed (content : String) (rest : List Char)
  /-- The document type or the text ended first. -/
  | cut (content : String) (rest : List Char)

/-- An identifier after its opening quote. -/
def quotedIdentifier (quote : Char) (s : List Char) : Quoted :=
  let stop (c : Char) : Bool := c == quote || c == '>'
  let content := String.ofList ((s.takeWhile (!stop ·)).map visible)
  match s.dropWhile (!stop ·) with
  | [] => .cut content []
  | c :: rest => if c == quote then .closed content rest else .cut content rest

/-- A document type after its system identifier. -/
def afterSystemId (d : Doctype) (s : List Char) : Doctype × List Char :=
  match s.dropWhile isSpace with
  | [] => ({ d with broken := true }, [])
  | rest => skipDoctype d rest

/-- A document type from its system identifier on; `needed` tells that one has to be there. -/
def systemId (needed : Bool) (d : Doctype) (s : List Char) : Doctype × List Char :=
  match s.dropWhile isSpace with
  | [] => ({ d with broken := true }, [])
  | c :: rest =>
    if c == '"' || c == '\'' then
      match quotedIdentifier c rest with
      | .closed id rest => afterSystemId { d with systemId := some id } rest
      | .cut id rest => ({ d with systemId := some id, broken := true }, rest)
    else if c == '>' && !needed then (d, rest)
    else skipDoctype { d with broken := true } (c :: rest)

/-- A document type from its public identifier on. -/
def publicId (d : Doctype) (s : List Char) : Doctype × List Char :=
  match s.dropWhile isSpace with
  | [] => ({ d with broken := true }, [])
  | c :: rest =>
    if c == '"' || c == '\'' then
      match quotedIdentifier c rest with
      | .closed id rest => systemId false { d with publicId := some id } rest
      | .cut id rest => ({ d with publicId := some id, broken := true }, rest)
    else skipDoctype { d with broken := true } (c :: rest)

/-- What follows a keyword at the start of a text, in any case. -/
def stripKeyword? (keyword : String) (s : List Char) : Option (List Char) :=
  let n := keyword.length
  if (s.take n).map Char.toLower == keyword.toList then some (s.drop n) else none

/-- A document type after its keyword, and the text that is left. -/
def doctype (s : List Char) : Doctype × List Char :=
  let unnamed : Doctype := ⟨none, none, none, true⟩
  match s.dropWhile isSpace with
  | [] => (unnamed, [])
  | '>' :: rest => (unnamed, rest)
  | named =>
    let name := String.ofList ((named.takeWhile (!endsBareValue ·)).map nameChar)
    let d : Doctype := ⟨some name, none, none, false⟩
    match (named.dropWhile (!endsBareValue ·)).dropWhile isSpace with
    | [] => ({ d with broken := true }, [])
    | '>' :: rest => (d, rest)
    | rest =>
      match stripKeyword? "public" rest, stripKeyword? "system" rest with
      | some rest, _ => publicId d rest
      | _, some rest => systemId true d rest
      | _, _ => skipDoctype { d with broken := true } rest

/-- The tokens of a declaration after `<!`, and the text that is left. -/
def declaration (s : List Char) : Token × List Char :=
  match s with
  | '-' :: '-' :: rest =>
    let (content, left) := commentBody true rest
    (.comment (String.ofList content), left)
  | _ =>
    match stripKeyword? "doctype" s with
    | some rest =>
      let (d, left) := doctype rest
      (.doctype d, left)
    | none => bogusComment s

/-- The characters of a section that is no markup, up to its end, and the text that is left. -/
def characterSection (s : List Char) : List Token × List Char :=
  let (content, left) := (Chars.splitFirst "]]>".toList s).getD (s, [])
  (content.map .char, left)

/-- The tokens at the start of a text in which markup counts, and the text that is left.
`sections` tells whether `<![CDATA[` opens a section that is no markup. -/
def Token.read (sections : Bool) : List Char → List Token × List Char
  | [] => ([], [])
  | '<' :: '/' :: c :: rest =>
    if isLetter c then
      match tag? (c :: rest) with
      | some (tag, left) => ([.endTag tag.name], left)
      | none => ([], [])
    else if c == '>' then ([], rest)
    else
      let (token, left) := bogusComment (c :: rest)
      ([token], left)
  | '<' :: '!' :: rest =>
    match if sections then Chars.strip? "[CDATA[".toList rest else none with
    | some content => characterSection content
    | none =>
      let (token, left) := declaration rest
      ([token], left)
  | '<' :: '?' :: rest =>
    let (token, left) := bogusComment ('?' :: rest)
    ([token], left)
  | '<' :: c :: rest =>
    if isLetter c then
      match tag? (c :: rest) with
      | some (tag, left) => ([.startTag tag], left)
      | none => ([], [])
    else ([.char '<'], c :: rest)
  | '&' :: rest =>
    match reference? false rest with
    | some (image, left) => (image.map .char, left)
    | none => ([.char '&'], rest)
  | c :: rest => ([.char c], rest)

/-- Content in which only one end tag counts. -/
inductive RawKind
  /-- Character references count. -/
  | escapable
  | raw
  /-- Comments may hide end tags. -/
  | script
  /-- Nothing ends it. -/
  | plain
  deriving DecidableEq, Repr

/-- Whether a text after `</` goes on with the given name and the end of a tag name. -/
def closes (name : List Char) (s : List Char) : Bool :=
  (s.take name.length).map Char.toLower == name
    && (s.drop name.length).head?.any endsTagName

/-- Raw content up to the end tag of the given name, and the text from that tag on. -/
def rawContent (name : List Char) : List Char → List Char × List Char
  | [] => ([], [])
  | c :: rest =>
    match c, rest with
    | '<', '/' :: after =>
      if closes name after then ([], c :: rest)
      else
        let (content, left) := rawContent name rest
        (c :: content, left)
    | _, _ =>
      let (content, left) := rawContent name rest
      (c :: content, left)

/-- Where a script stands with respect to comments and nested script tags. -/
inductive ScriptState
  | plain
  /-- In a comment, after this many hyphens. -/
  | hidden (hyphens : Nat)
  /-- In a comment, in the name of a start tag; its letters, last to first. -/
  | startName (letters : List Char)
  /-- In a script tag in a comment, after this many hyphens. -/
  | nested (hyphens : Nat)
  /-- In a script tag in a comment, before the slash of an end tag. -/
  | endSlash
  /-- In a script tag in a comment, in the name of an end tag; its letters, last to first. -/
  | endName (letters : List Char)
  deriving DecidableEq, Repr

namespace ScriptState

def isScript (letters : List Char) : Bool :=
  letters.reverse == "script".toList

/-- The state after a character of a comment. -/
def nextHidden (hyphens : Nat) (c : Char) (rest : List Char) : ScriptState :=
  if c == '<' then if rest.head?.any isLetter then .startName [] else .hidden 0
  else if c == '-' then .hidden (hyphens + 1)
  else if c == '>' && hyphens ≥ 2 then .plain
  else .hidden 0

/-- The state after a character of a script tag in a comment. -/
def nextNested (hyphens : Nat) (c : Char) (rest : List Char) : ScriptState :=
  if c == '<' then if rest.head? == some '/' then .endSlash else .nested 0
  else if c == '-' then .nested (hyphens + 1)
  else if c == '>' && hyphens ≥ 2 then .plain
  else .nested 0

/-- The state after a character that belongs to the script. `rest` is the text after it. -/
def next (c : Char) (rest : List Char) : ScriptState → ScriptState
  | plain => if c == '<' && "!--".toList.isPrefixOf rest then .hidden 0 else .plain
  | hidden n => nextHidden n c rest
  | startName letters =>
    if isLetter c then .startName (c.toLower :: letters)
    else if endsTagName c then if isScript letters then .nested 0 else .hidden 0
    else nextHidden 0 c rest
  | nested n => nextNested n c rest
  | endSlash => .endName []
  | endName letters =>
    if isLetter c then .endName (c.toLower :: letters)
    else if endsTagName c then if isScript letters then .hidden 0 else .nested 0
    else nextNested 0 c rest

/-- Whether an end tag counts in a state. -/
def canClose : ScriptState → Bool
  | plain | hidden _ | startName _ => true
  | nested _ | endSlash | endName _ => false

end ScriptState

/-- The content of a script up to the end tag that closes it, and the text from that tag on. -/
def scriptContent (name : List Char) (state : ScriptState) : List Char → List Char × List Char
  | [] => ([], [])
  | c :: rest =>
    if state.canClose && c == '<' && rest.head? == some '/' && closes name rest.tail then
      ([], c :: rest)
    else
      let (content, left) := scriptContent name (state.next c rest) rest
      (c :: content, left)

/-- The content of a raw element, decoded, and the text from its end tag on. -/
def RawKind.content (kind : RawKind) (name : String) (s : List Char) : List Char × List Char :=
  let (content, left) := match kind with
    | .escapable | .raw => rawContent name.toList s
    | .script => scriptContent name.toList .plain s
    | .plain => (s, [])
  let content := content.map visible
  (if kind == .escapable then decodeReferences false content else content, left)

end ThemeSection.Markup
