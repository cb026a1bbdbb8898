import ThemeSection.Chars.Word
import ThemeSection.Text.Basic

/-!
What a line of a document's head loads: a font, a known library with its version, or something else.
A line is recognised by the addresses in it, in any letter case.
-/

namespace ThemeSection.Head

/-- Where a font comes from. -/
inductive FontSource
  | hosted
  | kit
  | file
  | iconFont
  deriving DecidableEq, Repr

/-- What a line loads. -/
inductive Resource
  | font (source : FontSource) (family : String)
  | library (name version : String)
  | other
  deriving DecidableEq, Repr

/-- The first place of a text at which `read` succeeds, looked for from the left. -/
def firstMatch {α : Type} (read : List Char → Option α) : List Char → Option α
  | [] => read []
  | c :: rest =>
    match read (c :: rest) with
    | some found => some found
    | none => firstMatch read rest

/-- A character that ends an address in the text of a tag. -/
def endsAddress (c : Char) : Bool :=
  c == '"' || c == '\'' || c == '>' || Chars.isBlank c

def endsFamily (c : Char) : Bool :=
  endsAddress c || c == '&' || c == ':' || c == ';' || c == '|'

/-- The value of a family parameter at the start of a text. -/
def familyValue? (s : List Char) : Option (List Char) :=
  match Chars.stripFolded? "family=".toList s with
  | none => none
  | some rest =>
    match rest.takeWhile (!endsFamily ·) with
    | [] => none
    | name => some name

/-- The value of the first family parameter that a separator precedes. -/
def separatedFamily? : List Char → Option (List Char)
  | [] => none
  | c :: rest =>
    let here := if c == '?' || c == '&' || c == ';' then familyValue? rest else none
    match here with
    | some name => some name
    | none => if endsAddress c then none else separatedFamily? rest

/-- The family that a hosted style sheet asks for, read from the start of its address. A family
parameter after another parameter goes before one that comes first. -/
def hostedFamilyHere? (s : List Char) : Option (List Char) := do
  let rest ← Chars.stripFolded? "fonts.googleapis.com/css".toList s
  let query ← match rest with
    | '2' :: '?' :: query => some query
    | '?' :: query => some query
    | _ => none
  (separatedFamily? query).or (familyValue? query)

/-- A letter or digit in the name of a font kit, in any case. -/
def isKitChar (c : Char) : Bool :=
  c.isAlphanum || c == '\u212A' || c == '\u017F'

/-- The name of a font kit, read from the start of its address. -/
def kitHere? (s : List Char) : Option (List Char) := do
  let rest ← Chars.stripFolded? "use.typekit.net/".toList s
  match rest.takeWhile isKitChar, rest.dropWhile isKitChar with
  | name@(_ :: _), '.' :: ending =>
    if (Chars.stripFolded? "css".toList ending).isSome
        || (Chars.stripFolded? "js".toList ending).isSome then some name
    else none
  | _, _ => none

/-- A character that cannot stand in the name of a font file. -/
def endsFileName (c : Char) : Bool :=
  c == '/' || c == '"' || c == '\'' || c == '=' || Chars.isBlank c

/-- Whether a text starts with the ending of a font file, at the end of a word. -/
def startsWithFontEnding (s : List Char) : Bool :=
  [".woff2", ".woff", ".ttf", ".otf", ".eot"].any fun ending =>
    match Chars.stripFolded? ending.toList s with
    | none => false
    | some [] => true
    | some (c :: _) => !Chars.isWord c

/-- The longest name from the start of a text on that the ending of a font file follows. -/
def fontFileHere? : List Char → Option (List Char)
  | [] => none
  | c :: rest =>
    if endsFileName c then none
    else match fontFileHere? rest with
      | some name => some (c :: name)
      | none => if startsWithFontEnding rest then some [c] else none

/-- Text that marks the icon font, in lower case. -/
def iconFontMarks : List String := ["font-awesome", "fontawesome", "font awesome"]

/-- The font that a line loads. -/
def font? (line : String) : Option Resource :=
  let s := line.toList
  match firstMatch hostedFamilyHere? s with
  | some name =>
    let unplussed := name.map fun c => if c == '+' then ' ' else c
    let spaced := Chars.replaceAll "%20".toList [' '] unplussed
    some (.font .hosted (Text.lower (String.ofList spaced)))
  | none =>
    match firstMatch kitHere? s with
    | some name => some (.font .kit (Text.lower (String.ofList name)))
    | none =>
      if Text.containsAny iconFontMarks (Text.lower line) then
        some (.font .iconFont "font-awesome")
      else (firstMatch fontFileHere? s).map fun name =>
        .font .file (Text.lower (String.ofList name))

/-- The known libraries. A name comes before those that begin it. -/
def libraryNames : List String :=
  ["jquery-ui", "jquery", "bootstrap", "swiper", "slick", "aos", "gsap", "alpinejs", "vue", "react",
    "lodash", "animate.css", "tailwindcss"]

/-- Further segments of a version, each after a dot. -/
def moreSegments : Nat → List Char → List Char
  | 0, _ => []
  | fuel + 1, s =>
    match s with
    | '.' :: rest =>
      match rest.takeWhile Chars.isDecimal with
      | [] => []
      | digits => '.' :: digits ++ moreSegments fuel (rest.dropWhile Chars.isDecimal)
    | _ => []

/-- The version at the start of a text. -/
def versionHere? (s : List Char) : Option (List Char) :=
  match s.takeWhile Chars.isDecimal with
  | [] => none
  | digits => some (digits ++ moreSegments s.length (s.dropWhile Chars.isDecimal))

/-- What may stand between the name of a library and its version. -/
def skipVersionMark : List Char → List Char
  | '.' :: rest => rest
  | c :: rest =>
    if c == '@' || c == '/' || c == '-' then
      match rest with
      | v :: after => if v == 'v' || v == 'V' then after else rest
      | [] => rest
    else c :: rest
  | [] => []

/-- A mention of a library: the version given with it, and the number of characters it takes. -/
structure Mention where
  version : Option (List Char)
  length : Nat

/-- A mention at the start of a text. -/
def mentionHere? (name : List Char) (s : List Char) : Option Mention :=
  (Chars.stripFolded? name s).map fun rest =>
    let rest := skipVersionMark rest
    let version := versionHere? rest
    ⟨version, s.length - rest.length + (version.getD []).length⟩

/-- All mentions of a library, each at the start of a word and none within another. -/
def mentions (name : List Char) (s : List Char) : List Mention :=
  go 0 none s
where
  go : Nat → Option Char → List Char → List Mention
    | _, _, [] => []
    | skip + 1, _, c :: rest => go skip (some c) rest
    | 0, before, c :: rest =>
      match if Chars.isWordEdge before (some c) then mentionHere? name (c :: rest) else none with
      | some mention => mention :: go (mention.length - 1) (some c) rest
      | none => go 0 (some c) rest

/-- The library that a line mentions, with the first version given for it. -/
def library? (line : String) : Option Resource :=
  libraryNames.findSome? fun name =>
    match mentions name.toList line.toList with
    | [] => none
    | found => some <| .library name <|
        ((found.findSome? (·.version)).map String.ofList).getD "0"

/-- What a line loads; a font goes before a library. -/
def classify (line : String) : Resource :=
  ((font? line).or (library? line)).getD .other

/-- What kind of tag a line is. A style sheet and a script of one library stand side by side. -/
inductive AssetKind
  | stylesheet
  | script
  | other
  deriving DecidableEq, Repr

def assetKind (line : String) : AssetKind :=
  let start := Text.lowerAscii (Text.trimStart line)
  if Text.startsWith "<script" start then .script
  else if Text.startsWith "<link" start || Text.startsWith "<style" start then .stylesheet
  else .other

end ThemeSection.Head
