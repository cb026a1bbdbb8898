import ThemeSection.Markup.Draft.Mode

/-!
Reading markup: the tree of a text, by the rules of the markup standard for documents with scripts
enabled. Every text has a tree. The content of templates is no part of it.
-/

namespace ThemeSection.Markup

namespace Draft

/-- Handles a token by the rules for foreign content. -/
def inForeign (token : Token) : Build (Option Outcome) := do
  let d ← get
  match token with
  | .char c =>
    if c == '\x00' then insertChar '\uFFFD'
    else
      unless isBlankChar c do notFramesetOk
      insertChar c
    return some none
  | .comment content =>
    insertComment content
    return some none
  | .startTag tag =>
    if isBreakout tag then
      leaveForeign
      return none
    else
      foreignTag tag
      return some none
  | .endTag name =>
    match d.foreignEnd name true d.stack with
    | .nothing => return some none
    | .closes n =>
      set { d with stack := (d.stack.dropWhile (· != n)).drop 1 }
      return some none
    | .html => return some (← inMode d.mode token)
  | _ => return some none

/-- Handles a token, as often as modes pass it on; `fuel` bounds how often. -/
def dispatch : Nat → Token → Build Unit
  | 0, _ => pure ()
  | fuel + 1, token => do
    let d ← get
    if d.isForeign token then
      match ← inForeign token with
      | none => dispatch fuel token
      | some none => pure ()
      | some (some mode) =>
        setMode mode
        dispatch fuel token
    else
      match ← inMode d.mode token with
      | none => pure ()
      | some mode =>
        setMode mode
        dispatch fuel token

/-- Takes in a token. Each time a token is passed on, the mode gets more general or an element is
closed, so the open elements bound how often that can happen. -/
def take (token : Token) : Build Unit := do
  let d ← get
  set { d with skipLineFeed := false }
  match token with
  | .doctype dt =>
    if d.mode == .initial then
      append 0 (← newNode (.doctype (dt.name.getD "")))
      modify fun d => { d with oldRules := hasOldRules dt, mode := .beforeHtml }
  | .char c =>
    unless c == '\n' && d.skipLineFeed do dispatch (100 + 4 * d.stack.length) token
  | _ => dispatch (100 + 4 * d.stack.length) token

/-- Whether a section that is no markup may start. -/
def allowsSections (d : Draft) : Bool :=
  !d.stack.isEmpty && (d.name d.current).space != .html

/-- Takes in a text; `fuel` bounds the number of steps, each of which shortens the text. -/
def takeAll : Nat → List Char → Build Unit
  | 0, _ => pure ()
  | fuel + 1, s => do
    let d ← get
    match d.raw with
    | some kind =>
      set { d with raw := none }
      let (content, rest) := kind.content (d.name d.current).name s
      for c in content do take (.char c)
      takeAll fuel rest
    | none =>
      match s with
      | [] => take .finish
      | _ =>
        let (tokens, rest) := Token.read d.allowsSections s
        for token in tokens do take token
        takeAll fuel rest

/-- The tree below a node; `fuel` bounds its depth. -/
def toTree (d : Draft) : Nat → Nat → Tree
  | 0, n => .node n (d.cell n).kind []
  | fuel + 1, n => .node n (d.cell n).kind ((d.cell n).children.map (toTree d fuel))

end Draft

/-- Line ends as single line feeds, without a mark of byte order at the start. -/
def normalizeInput (s : List Char) : List Char :=
  let rec go : List Char → List Char
    | [] => []
    | '\r' :: '\n' :: rest => '\n' :: go rest
    | c :: rest => (if c == '\r' then '\n' else c) :: go rest
  match s with
  | '\uFEFF' :: rest => go rest
  | _ => go s

/-- The tree of a text. -/
def parse (text : String) : Tree :=
  let s := normalizeInput text.toList
  let (_, d) := (Draft.takeAll (2 * s.length + 2) s).run {}
  ((d.toTree d.cells.size 0).renumber 0).1

end ThemeSection.Markup
