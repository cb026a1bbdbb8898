import ThemeSection.Markup.Token
import ThemeSection.Markup.Tree

/-!
A document while it is being read: its nodes in a growing table, the stack of elements that are
open, and what the rules of the standard remember between tokens. Nodes are spoken of by their place
in the table; node 0 is the document.
-/

namespace ThemeSection.Markup

/-- What the next token may be and where it goes. -/
inductive Mode
  | initial | beforeHtml | beforeHead | inHead | afterHead | inBody | text | inTable | inTableText
  | inCaption | inColumnGroup | inTableBody | inRow | inCell | inSelect | inSelectInTable
  | inTemplate | afterBody | inFrameset | afterFrameset | afterAfterBody | afterAfterFrameset
  deriving DecidableEq, Repr

namespace Draft

/-- A node of the table. -/
structure Cell where
  kind : NodeKind
  parent : Option Nat := none
  children : List Nat := []
  /-- Where the content of a template goes, apart from its children. -/
  content : Option Nat := none

/-- An entry of the list of formatting elements. -/
inductive Entry
  | marker
  | element (node : Nat) (tag : Tag)

end Draft

open Draft

structure Draft where
  cells : Array Cell := #[{ kind := .document }]
  mode : Mode := .initial
  /-- The mode to go back to after text. -/
  returnMode : Mode := .initial
  templateModes : List Mode := []
  /-- Characters met inside a table, last to first. -/
  tableText : List Char := []
  oldRules : Bool := false
  /-- The open elements, the current one first. -/
  stack : List Nat := []
  /-- The formatting elements, the latest first. -/
  formatting : List Entry := []
  head : Option Nat := none
  form : Option Nat := none
  framesetOk : Bool := true
  skipLineFeed : Bool := false
  foster : Bool := false
  /-- Set by a start tag whose content is raw. -/
  raw : Option RawKind := none

abbrev Build := StateM Draft

namespace Draft

def cell (d : Draft) (n : Nat) : Cell :=
  d.cells.getD n { kind := .document }

def setCell (d : Draft) (n : Nat) (f : Cell → Cell) : Draft :=
  { d with cells := d.cells.modify n f }

/-- The name of an element. -/
def name (d : Draft) (n : Nat) : ElementName :=
  match (d.cell n).kind with
  | .element name _ => name
  | _ => .html ""

def isNamed (d : Draft) (n : Nat) (name : String) : Bool :=
  d.name n == .html name

/-- Whether a node is an element of HTML with one of the names. -/
def isOneOf (d : Draft) (n : Nat) (names : List String) : Bool :=
  (d.name n).space == .html && names.contains (d.name n).name

/-- A new node without a parent. -/
def newNode (kind : NodeKind) : Build Nat :=
  modifyGet fun d => (d.cells.size, { d with cells := d.cells.push { kind } })

/-- A new element; a template also gets a place for its content. -/
def newElement (name : ElementName) (attributes : Attributes) : Build Nat := do
  let n ← newNode (.element name attributes)
  if name == .html "template" then
    let content ← newNode .document
    modify (·.setCell n fun c => { c with content := some content })
  return n

/-- Takes a node away from its parent. -/
def detach (n : Nat) : Build Unit :=
  modify fun d =>
    match (d.cell n).parent with
    | none => d
    | some p =>
      (d.setCell p fun c => { c with children := c.children.filter (· != n) }).setCell n fun c =>
        { c with parent := none }

/-- Makes a node the last child of another. -/
def append (parent n : Nat) : Build Unit := do
  detach n
  modify fun d =>
    (d.setCell parent fun c => { c with children := c.children ++ [n] }).setCell n fun c =>
      { c with parent := some parent }

/-- Puts a node right before another one. -/
def insertBefore (sibling n : Nat) : Build Unit := do
  detach n
  modify fun d =>
    match (d.cell sibling).parent with
    | none => d
    | some p =>
      (d.setCell p fun c =>
        { c with children := c.children.flatMap fun m => if m == sibling then [n, m] else [m] })
        |>.setCell n fun c => { c with parent := some p }

/-- Adds a character to a text node, or says that the node is none. -/
def extendText (n : Option Nat) (c : Char) : Build Bool := do
  match n with
  | none => return false
  | some n =>
    match ((← get).cell n).kind with
    | .text content =>
      modify (·.setCell n fun cell => { cell with kind := .text (content.push c) })
      return true
    | _ => return false

/-- Adds a character at the end of a node, to its last text if that is its last child. -/
def appendChar (parent : Nat) (c : Char) : Build Unit := do
  let last := ((← get).cell parent).children.getLast?
  unless ← extendText last c do
    append parent (← newNode (.text (String.singleton c)))

/-- Adds a character right before a node, to the text there if there is one. -/
def insertCharBefore (sibling : Nat) (c : Char) : Build Unit := do
  let d ← get
  let siblings := match (d.cell sibling).parent with
    | some p => (d.cell p).children
    | none => []
  let previous := (siblings.takeWhile (· != sibling)).getLast?
  unless ← extendText previous c do
    insertBefore sibling (← newNode (.text (String.singleton c)))

def addMissingAttributes (n : Nat) (new : Attributes) : Build Unit :=
  modify (·.setCell n fun cell =>
    match cell.kind with
    | .element name attributes =>
      { cell with kind := .element name (attributes.addMissing new) }
    | _ => cell)

/-- The current node; the document if no element is open. -/
def current (d : Draft) : Nat :=
  d.stack.headD 0

/-- The root element. -/
def root (d : Draft) : Nat :=
  d.stack.getLastD 0

def currentIs (d : Draft) (name : String) : Bool :=
  d.isNamed d.current name

def isOpen (d : Draft) (name : String) : Bool :=
  d.stack.any (d.isNamed · name)

def push (n : Nat) : Build Unit :=
  modify fun d => { d with stack := n :: d.stack }

def pop : Build Unit :=
  modify fun d => { d with stack := d.stack.drop 1 }

def removeOpen (n : Nat) : Build Unit :=
  modify fun d => { d with stack := d.stack.filter (· != n) }

/-- Closes elements until one satisfies `p`, and that one too. -/
def popThrough (p : Draft → Nat → Bool) : Build Unit :=
  modify fun d => { d with stack := (d.stack.dropWhile fun n => !p d n).drop 1 }

def popThroughNamed (name : String) : Build Unit :=
  popThrough (·.isNamed · name)

/-- Closes elements until the current one has one of the names. -/
def popTo (names : List String) : Build Unit :=
  modify fun d => { d with stack := d.stack.dropWhile fun n => !d.isOneOf n names }

/-- Closes elements as long as they have one of the names. -/
def popWhile (names : List String) : Build Unit :=
  modify fun d => { d with stack := d.stack.dropWhile fun n => d.isOneOf n names }

/-- Elements whose end tags may be left out. -/
def impliedEnds : List String :=
  ["dd", "dt", "li", "option", "optgroup", "p", "rb", "rp", "rt", "rtc"]

/-- Elements whose end tags may be left out at the end of a template. -/
def thoroughImpliedEnds : List String :=
  impliedEnds ++ ["caption", "colgroup", "tbody", "td", "tfoot", "th", "thead", "tr"]

def closeImplied : Build Unit :=
  popWhile impliedEnds

def closeImpliedExcept (name : String) : Build Unit :=
  popWhile (impliedEnds.filter (· != name))

def isMathTextPoint (name : ElementName) : Bool :=
  name.space == .mathml && ["mi", "mo", "mn", "ms", "mtext"].contains name.name

def isSvgHtmlPoint (name : ElementName) : Bool :=
  name.space == .svg && ["foreignObject", "desc", "title"].contains name.name

/-- A set of elements that end the search for an open element. -/
abbrev Scope := ElementName → Bool

def htmlScope (names : List String) : Scope :=
  fun name => name.space == .html && names.contains name.name

def defaultScope : Scope := fun name =>
  htmlScope ["applet", "caption", "html", "table", "td", "th", "marquee", "object", "template"] name
    || isMathTextPoint name || isSvgHtmlPoint name

def listItemScope : Scope := fun name => defaultScope name || htmlScope ["ol", "ul"] name

def buttonScope : Scope := fun name => defaultScope name || htmlScope ["button"] name

def tableScope : Scope := htmlScope ["html", "table", "template"]

def selectScope : Scope := fun name => !htmlScope ["optgroup", "option"] name

/-- Whether an open element that satisfies `p` is met before the scope ends. -/
def inScopeWhere (d : Draft) (scope : Scope) (p : Nat → Bool) : Bool :=
  match d.stack.find? fun n => p n || scope (d.name n) with
  | some n => p n
  | none => false

def inScope (d : Draft) (scope : Scope) (name : String) : Bool :=
  d.inScopeWhere scope (d.isNamed · name)

/-- Elements with rules of their own, at which the search for a generic open element ends. -/
def specialNames : List String :=
  ["address", "applet", "area", "article", "aside", "base", "basefont", "bgsound", "blockquote",
    "body", "br", "button", "caption", "center", "col", "colgroup", "dd", "details", "dir", "div",
    "dl", "dt", "embed", "fieldset", "figcaption", "figure", "footer", "form", "frame", "frameset",
    "h1", "h2", "h3", "h4", "h5", "h6", "head", "header", "hgroup", "hr", "html", "iframe", "img",
    "input", "isindex", "li", "link", "listing", "main", "marquee", "menu", "meta", "nav",
    "noembed", "noframes", "noscript", "object", "ol", "p", "param", "plaintext", "pre", "script",
    "section", "select", "source", "style", "summary", "table", "tbody", "td", "template",
    "textarea", "tfoot", "th", "thead", "title", "tr", "track", "ul", "wbr", "xmp"]

def isSpecial (d : Draft) (n : Nat) : Bool :=
  d.isOneOf n specialNames

def headingNames : List String := ["h1", "h2", "h3", "h4", "h5", "h6"]

/-- Where a new node goes. -/
inductive Place
  | lastIn (parent : Nat)
  /-- Before the element if it has a parent, otherwise at the end of the other one. -/
  | beforeOrIn (element other : Nat)

/-- Where a new node goes while content of a table is moved out of it: before the innermost table,
unless a template is nearer. -/
def fosterPlace (d : Draft) : List Nat → Place
  | [] => .lastIn d.root
  | n :: below =>
    if d.isNamed n "template" then .lastIn (((d.cell n).content).getD n)
    else if d.isNamed n "table" then .beforeOrIn n (below.headD d.root)
    else fosterPlace d below

/-- Where a new node goes that is meant for `target`. -/
def placeFor (d : Draft) (target : Nat) : Place :=
  if d.foster && d.isOneOf target ["table", "tbody", "tfoot", "thead", "tr"] then
    d.fosterPlace d.stack
  else match (d.cell target).content with
    | some content => .lastIn content
    | none => .lastIn target

def insertNode (target n : Nat) : Build Unit := do
  let d ← get
  match d.placeFor target with
  | .lastIn parent => append parent n
  | .beforeOrIn element other =>
    if (d.cell element).parent.isSome then insertBefore element n else append other n

def insertChar (c : Char) : Build Unit := do
  let d ← get
  match d.placeFor d.current with
  | .lastIn parent => appendChar parent c
  | .beforeOrIn element other =>
    if (d.cell element).parent.isSome then insertCharBefore element c else appendChar other c

/-- The attributes of a tag of HTML. -/
def plainAttributes (attributes : List (String × String)) : Attributes :=
  attributes.foldl (fun sorted (name, value) => sorted.set ⟨.plain name, value⟩) []

/-- Inserts an element and opens it. -/
def openElement (name : ElementName) (attributes : Attributes) : Build Nat := do
  let n ← newElement name attributes
  insertNode (← get).current n
  push n
  return n

/-- Inserts the element of a tag and opens it. -/
def openTag (tag : Tag) : Build Nat :=
  openElement (.html tag.name) (plainAttributes tag.attributes)

/-- Inserts an element that no tag stands for and opens it. -/
def openImplied (name : String) : Build Nat :=
  openElement (.html name) []

/-- Inserts the element of a tag without opening it. -/
def insertTag (tag : Tag) : Build Nat := do
  let n ← openTag tag
  pop
  return n

def insertComment (content : String) : Build Unit := do
  insertNode (← get).current (← newNode (.comment content))

def insertCommentIn (parent : Nat) (content : String) : Build Unit := do
  append parent (← newNode (.comment content))

def setMode (mode : Mode) : Build Unit :=
  modify fun d => { d with mode }

/-- Opens the element of a tag whose content is raw. -/
def openRaw (kind : RawKind) (tag : Tag) : Build Unit := do
  discard <| openTag tag
  modify fun d => { d with raw := some kind, returnMode := d.mode, mode := .text }

def notFramesetOk : Build Unit :=
  modify fun d => { d with framesetOk := false }

/-- Closes an open paragraph. -/
def closeParagraph : Build Unit := do
  closeImpliedExcept "p"
  popThroughNamed "p"

def closeParagraphInScope : Build Unit := do
  if (← get).inScope buttonScope "p" then closeParagraph

/-- The mode that the open elements call for. -/
def modeForStack (d : Draft) : List Nat → Mode
  | [] => .inBody
  | n :: below =>
    let last := below.isEmpty
    let name := d.name n
    if name.space != .html then modeForStack d below
    else match name.name with
      | "select" =>
        match below.find? fun m => d.isNamed m "template" || d.isNamed m "table" with
        | some m => if d.isNamed m "table" then .inSelectInTable else .inSelect
        | none => .inSelect
      | "td" | "th" => if last then modeForStack d below else .inCell
      | "tr" => .inRow
      | "tbody" | "thead" | "tfoot" => .inTableBody
      | "caption" => .inCaption
      | "colgroup" => .inColumnGroup
      | "table" => .inTable
      | "template" => d.templateModes.headD .inBody
      | "head" => if last then modeForStack d below else .inHead
      | "body" => .inBody
      | "frameset" => .inFrameset
      | "html" => if d.head.isSome then .afterHead else .beforeHead
      | _ => modeForStack d below

def resetMode (d : Draft) : Mode :=
  d.modeForStack d.stack

end Draft

end ThemeSection.Markup
