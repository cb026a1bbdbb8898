import ThemeSection.Markup.Draft.Foreign
import ThemeSection.Markup.Draft.Formatting

/-!
What each mode does with a token. A mode either deals with a token for good or asks that the token
be handled again in another mode.
-/

namespace ThemeSection.Markup.Draft

/-- `none` if a token is dealt with, otherwise the mode in which it is to be handled again. -/
abbrev Outcome := Option Mode

def done : Build Outcome := return none

def again (mode : Mode) : Build Outcome := return some mode

/-- Deals with a token by an action. -/
def doing (action : Build Unit) : Build Outcome := do
  action
  return none

def isBlankChar (c : Char) : Bool :=
  isSpace c || c == '\r'

/-- Public identifiers that call for the oldest layout rules. -/
def oldPublicIds : List String :=
  ["-//w3o//dtd w3 html strict 3.0//en//", "-/w3c/dtd html 4.0 transitional/en", "html"]

/-- Beginnings of public identifiers that call for the oldest layout rules. -/
def oldPublicStarts : List String :=
  ["+//silmaril//dtd html pro v0r11 19970101//",
    "-//advasoft ltd//dtd html 3.0 aswedit + extensions//",
    "-//as//dtd html 3.0 aswedit + extensions//", "-//ietf//dtd html 2.0 level 1//",
    "-//ietf//dtd html 2.0 level 2//", "-//ietf//dtd html 2.0 strict level 1//",
    "-//ietf//dtd html 2.0 strict level 2//", "-//ietf//dtd html 2.0 strict//",
    "-//ietf//dtd html 2.0//", "-//ietf//dtd html 2.1e//", "-//ietf//dtd html 3.0//",
    "-//ietf//dtd html 3.2 final//", "-//ietf//dtd html 3.2//", "-//ietf//dtd html 3//",
    "-//ietf//dtd html level 0//", "-//ietf//dtd html level 1//", "-//ietf//dtd html level 2//",
    "-//ietf//dtd html level 3//", "-//ietf//dtd html strict level 0//",
    "-//ietf//dtd html strict level 1//", "-//ietf//dtd html strict level 2//",
    "-//ietf//dtd html strict level 3//", "-//ietf//dtd html strict//", "-//ietf//dtd html//",
    "-//metrius//dtd metrius presentational//",
    "-//microsoft//dtd internet explorer 2.0 html strict//",
    "-//microsoft//dtd internet explorer 2.0 html//",
    "-//microsoft//dtd internet explorer 2.0 tables//",
    "-//microsoft//dtd internet explorer 3.0 html strict//",
    "-//microsoft//dtd internet explorer 3.0 html//",
    "-//microsoft//dtd internet explorer 3.0 tables//", "-//netscape comm. corp.//dtd html//",
    "-//netscape comm. corp.//dtd strict html//", "-//o'reilly and associates//dtd html 2.0//",
    "-//o'reilly and associates//dtd html extended 1.0//",
    "-//o'reilly and associates//dtd html extended relaxed 1.0//",
    "-//softquad software//dtd hotmetal pro 6.0::19990601::extensions to html 4.0//",
    "-//softquad//dtd hotmetal pro 4.0::19971010::extensions to html 4.0//",
    "-//spyglass//dtd html 2.0 extended//", "-//sq//dtd html 2.0 hotmetal + extensions//",
    "-//sun microsystems corp.//dtd hotjava html//",
    "-//sun microsystems corp.//dtd hotjava strict html//", "-//w3c//dtd html 3 1995-03-24//",
    "-//w3c//dtd html 3.2 draft//", "-//w3c//dtd html 3.2 final//", "-//w3c//dtd html 3.2//",
    "-//w3c//dtd html 3.2s draft//", "-//w3c//dtd html 4.0 frameset//",
    "-//w3c//dtd html 4.0 transitional//", "-//w3c//dtd html experimental 19960712//",
    "-//w3c//dtd html experimental 970421//", "-//w3c//dtd w3 html//",
    "-//w3o//dtd w3 html 3.0//", "-//webtechs//dtd mozilla html 2.0//",
    "-//webtechs//dtd mozilla html//"]

/-- Beginnings of public identifiers that call for the oldest layout rules unless there is a system
identifier. -/
def oldWithoutSystem : List String :=
  ["-//w3c//dtd html 4.01 frameset//", "-//w3c//dtd html 4.01 transitional//"]

def oldSystemIds : List String :=
  ["http://www.ibm.com/data/dtd/v11/ibmxhtml1-transitional.dtd"]

/-- Whether a document type calls for the oldest layout rules. -/
def hasOldRules (dt : Doctype) : Bool :=
  let publicId := dt.publicId.map (·.map Char.toLower)
  let systemId := dt.systemId.map (·.map Char.toLower)
  let startsWith (starts : List String) (id : String) : Bool :=
    starts.any fun start => start.toList.isPrefixOf id.toList
  dt.broken || dt.name != some "html" || publicId.any oldPublicIds.contains
    || systemId.any oldSystemIds.contains || publicId.any (startsWith oldPublicStarts)
    || (systemId.isNone && publicId.any (startsWith oldWithoutSystem))

def initialMode (token : Token) : Build Outcome := do
  match token with
  | .char c =>
    if isBlankChar c then done
    else
      modify fun d => { d with oldRules := true }
      again .beforeHtml
  | .comment content => doing (insertCommentIn 0 content)
  | _ =>
    modify fun d => { d with oldRules := true }
    again .beforeHtml

/-- Puts the root element into the document. -/
def openRoot (attributes : List (String × String)) : Build Unit := do
  let n ← newElement (.html "html") (plainAttributes attributes)
  push n
  append 0 n

/-- End tags that imply the start of the element they are met before. -/
def startsAnyway (name : String) : Bool :=
  ["head", "body", "html", "br"].contains name

def beforeHtmlMode (token : Token) : Build Outcome := do
  let implied : Build Outcome := do
    openRoot []
    again .beforeHead
  match token with
  | .comment content => doing (insertCommentIn 0 content)
  | .char c => if isBlankChar c then done else implied
  | .startTag tag =>
    if tag.name == "html" then
      openRoot tag.attributes
      setMode .beforeHead
      done
    else implied
  | .endTag name => if startsAnyway name then implied else done
  | _ => implied

/-- A second root tag only adds the attributes that are missing. -/
def mergeRoot (tag : Tag) : Build Outcome := do
  let d ← get
  unless d.isOpen "template" do addMissingAttributes d.root (plainAttributes tag.attributes)
  done

def beforeHeadMode (token : Token) : Build Outcome := do
  let implied : Build Outcome := do
    let n ← openImplied "head"
    modify fun d => { d with head := some n }
    again .inHead
  match token with
  | .char c => if isBlankChar c then done else implied
  | .comment content => doing (insertComment content)
  | .startTag tag =>
    match tag.name with
    | "html" => mergeRoot tag
    | "head" =>
      let n ← openTag tag
      modify fun d => { d with head := some n, mode := .inHead }
      done
    | _ => implied
  | .endTag name => if startsAnyway name then implied else done
  | _ => implied

/-- The end of a template. -/
def closeTemplate : Build Unit := do
  if (← get).isOpen "template" then
    popWhile thoroughImpliedEnds
    popThroughNamed "template"
    clearToMarker
    modify fun d => { d with templateModes := d.templateModes.drop 1 }
    modify fun d => { d with mode := d.resetMode }

def inHeadMode (token : Token) : Build Outcome := do
  let implied : Build Outcome := do
    pop
    again .afterHead
  match token with
  | .char c => if isBlankChar c then doing (insertChar c) else implied
  | .comment content => doing (insertComment content)
  | .startTag tag =>
    match tag.name with
    | "html" => mergeRoot tag
    | "base" | "basefont" | "bgsound" | "link" | "meta" => doing (discard (insertTag tag))
    | "title" => doing (openRaw .escapable tag)
    | "noframes" | "style" | "noscript" => doing (openRaw .raw tag)
    | "script" => doing (openRaw .script tag)
    | "template" =>
      discard <| openTag tag
      pushMarker
      modify fun d =>
        { d with framesetOk := false, mode := .inTemplate
                 templateModes := .inTemplate :: d.templateModes }
      done
    | "head" => done
    | _ => implied
  | .endTag name =>
    match name with
    | "head" =>
      pop
      setMode .afterHead
      done
    | "body" | "html" | "br" => implied
    | "template" => doing closeTemplate
    | _ => done
  | _ => implied

def afterHeadMode (token : Token) : Build Outcome := do
  let implied : Build Outcome := do
    discard <| openImplied "body"
    again .inBody
  match token with
  | .char c => if isBlankChar c then doing (insertChar c) else implied
  | .comment content => doing (insertComment content)
  | .startTag tag =>
    match tag.name with
    | "html" => mergeRoot tag
    | "body" =>
      discard <| openTag tag
      notFramesetOk
      setMode .inBody
      done
    | "frameset" =>
      discard <| openTag tag
      setMode .inFrameset
      done
    | "base" | "basefont" | "bgsound" | "link" | "meta" | "noframes" | "script" | "style"
    | "template" | "title" =>
      let head := (← get).head.getD 0
      push head
      let outcome ← inHeadMode token
      removeOpen head
      return outcome
    | "head" => done
    | _ => implied
  | .endTag name =>
    match name with
    | "template" => inHeadMode token
    | "body" | "html" | "br" => implied
    | _ => done
  | _ => implied

/-- The body if it is the second open element. -/
def body? (d : Draft) : Option Nat :=
  match d.stack.reverse with
  | _ :: n :: _ => if d.isNamed n "body" then some n else none
  | _ => none

/-- Opens an element, after the end of an open paragraph. -/
def openBlock (tag : Tag) : Build Unit := do
  closeParagraphInScope
  discard <| openTag tag

/-- Closes an open element of the name, if it is in scope. -/
def closeInScope (scope : Scope) (name : String) : Build Unit := do
  if (← get).inScope scope name then
    closeImplied
    popThroughNamed name

/-- Opens an element among text. -/
def openInline (tag : Tag) : Build Unit := do
  reconstruct
  discard <| openTag tag

/-- Inserts an element without content among text. -/
def insertInline (tag : Tag) : Build Unit := do
  reconstruct
  discard <| insertTag tag

def isHidden (tag : Tag) : Bool :=
  (tag.attributes.lookup "type").any fun value => value.map Char.toLower == "hidden"

/-- Starts an item of a list, after the end of the one before it. -/
def openItem (closers : List String) (tag : Tag) : Build Unit := do
  notFramesetOk
  let d ← get
  let stops (n : Nat) : Bool :=
    d.isSpecial n && !d.isOneOf n ["address", "div", "p"]
  match d.stack.find? fun n => d.isOneOf n closers || stops n with
  | some n =>
    if d.isOneOf n closers then
      let name := (d.name n).name
      closeImpliedExcept name
      popThroughNamed name
  | none => pure ()
  openBlock tag

/-- A line break, also for an end tag of that name. -/
def insertBreak (tag : Tag) : Build Unit := do
  insertInline tag
  notFramesetOk

/-- Closes the form that is open. -/
def closeForm : Build Unit := do
  let d ← get
  if d.isOpen "template" then
    if d.inScope defaultScope "form" then
      closeImplied
      popThroughNamed "form"
  else
    set { d with form := none }
    match d.form with
    | none => pure ()
    | some n =>
      if d.inScopeWhere defaultScope (· == n) then
        closeImplied
        removeOpen n

/-- The end of the text while templates are open: each is closed. -/
def finishTemplates : Build Outcome := do
  if (← get).isOpen "template" then
    popThroughNamed "template"
    clearToMarker
    modify fun d => { d with templateModes := d.templateModes.drop 1 }
    again (← get).resetMode
  else done

/-- A start tag in the body. -/
def bodyStart (tag : Tag) : Build Outcome := do
  let d ← get
  match tag.name with
  | "html" => mergeRoot tag
  | "base" | "basefont" | "bgsound" | "link" | "meta" | "noframes" | "script" | "style"
  | "template" | "title" => inHeadMode (.startTag tag)
  | "body" =>
    match d.body? with
    | some n =>
      if d.stack.length != 1 && !d.isOpen "template" then
        notFramesetOk
        addMissingAttributes n (plainAttributes tag.attributes)
    | none => pure ()
    done
  | "frameset" =>
    match d.framesetOk, d.body? with
    | true, some n =>
      detach n
      modify fun d => { d with stack := [d.root] }
      discard <| openTag tag
      setMode .inFrameset
    | _, _ => pure ()
    done
  | "address" | "article" | "aside" | "blockquote" | "center" | "details" | "dialog" | "dir" | "div"
  | "dl" | "fieldset" | "figcaption" | "figure" | "footer" | "header" | "hgroup" | "main" | "menu"
  | "nav" | "ol" | "p" | "section" | "summary" | "ul" => doing (openBlock tag)
  | "h1" | "h2" | "h3" | "h4" | "h5" | "h6" =>
    closeParagraphInScope
    let d ← get
    if d.isOneOf d.current headingNames then pop
    discard <| openTag tag
    done
  | "pre" | "listing" =>
    openBlock tag
    modify fun d => { d with skipLineFeed := true, framesetOk := false }
    done
  | "form" =>
    if d.form.isNone || d.isOpen "template" then
      closeParagraphInScope
      let n ← openTag tag
      unless d.isOpen "template" do modify fun d => { d with form := some n }
    done
  | "li" => doing (openItem ["li"] tag)
  | "dd" | "dt" => doing (openItem ["dd", "dt"] tag)
  | "plaintext" =>
    openBlock tag
    modify fun d => { d with raw := some .plain }
    done
  | "button" =>
    if d.inScope defaultScope "button" then
      closeImplied
      popThroughNamed "button"
    openInline tag
    notFramesetOk
    done
  | "a" =>
    closeMisnestedLink
    reconstruct
    openFormatting tag
    done
  | "b" | "big" | "code" | "em" | "font" | "i" | "s" | "small" | "strike" | "strong" | "tt" | "u" =>
    reconstruct
    openFormatting tag
    done
  | "nobr" =>
    reconstruct
    if (← get).inScope defaultScope "nobr" then
      closeFormatting "nobr"
      reconstruct
    openFormatting tag
    done
  | "applet" | "marquee" | "object" =>
    openInline tag
    pushMarker
    notFramesetOk
    done
  | "table" =>
    unless d.oldRules do closeParagraphInScope
    discard <| openTag tag
    notFramesetOk
    setMode .inTable
    done
  | "area" | "br" | "embed" | "img" | "keygen" | "wbr" => doing (insertBreak tag)
  | "input" =>
    insertInline tag
    unless isHidden tag do notFramesetOk
    done
  | "param" | "source" | "track" => doing (discard (insertTag tag))
  | "hr" =>
    closeParagraphInScope
    discard <| insertTag tag
    notFramesetOk
    done
  | "image" => doing (insertBreak { tag with name := "img" })
  | "textarea" =>
    modify fun d => { d with skipLineFeed := true, framesetOk := false }
    doing (openRaw .escapable tag)
  | "xmp" =>
    closeParagraphInScope
    reconstruct
    notFramesetOk
    doing (openRaw .raw tag)
  | "iframe" =>
    notFramesetOk
    doing (openRaw .raw tag)
  | "noembed" | "noscript" => doing (openRaw .raw tag)
  | "select" =>
    openInline tag
    notFramesetOk
    let inTable := [Mode.inTable, .inCaption, .inTableBody, .inRow, .inCell].contains d.mode
    setMode (if inTable then .inSelectInTable else .inSelect)
    done
  | "optgroup" | "option" =>
    if d.currentIs "option" then pop
    doing (openInline tag)
  | "rb" | "rtc" =>
    if d.inScope defaultScope "ruby" then closeImplied
    doing (discard (openTag tag))
  | "rp" | "rt" =>
    if d.inScope defaultScope "ruby" then closeImpliedExcept "rtc"
    doing (discard (openTag tag))
  | "math" => doing (openForeign .mathml tag.name tag)
  | "svg" => doing (openForeign .svg tag.name tag)
  | "caption" | "col" | "colgroup" | "frame" | "head" | "tbody" | "td" | "tfoot" | "th" | "thead"
  | "tr" => done
  | _ => doing (openInline tag)

/-- An end tag in the body. -/
def bodyEnd (name : String) : Build Outcome := do
  let d ← get
  match name with
  | "template" => inHeadMode (.endTag name)
  | "body" =>
    if d.inScope defaultScope "body" then setMode .afterBody
    done
  | "html" => if d.inScope defaultScope "body" then again .afterBody else done
  | "address" | "article" | "aside" | "blockquote" | "button" | "center" | "details" | "dialog"
  | "dir" | "div" | "dl" | "fieldset" | "figcaption" | "figure" | "footer" | "header" | "hgroup"
  | "listing" | "main" | "menu" | "nav" | "ol" | "pre" | "section" | "summary" | "ul" =>
    doing (closeInScope defaultScope name)
  | "form" => doing closeForm
  | "p" =>
    unless d.inScope buttonScope "p" do discard <| openImplied "p"
    doing closeParagraph
  | "li" | "dd" | "dt" =>
    if d.inScope (if name == "li" then listItemScope else defaultScope) name then
      closeImpliedExcept name
      popThroughNamed name
    done
  | "h1" | "h2" | "h3" | "h4" | "h5" | "h6" =>
    if d.inScopeWhere defaultScope (d.isOneOf · headingNames) then
      closeImplied
      popThrough (·.isOneOf · headingNames)
    done
  | "a" | "b" | "big" | "code" | "em" | "font" | "i" | "nobr" | "s" | "small" | "strike" | "strong"
  | "tt" | "u" => doing (closeFormatting name)
  | "applet" | "marquee" | "object" =>
    if d.inScope defaultScope name then
      closeImplied
      popThroughNamed name
      clearToMarker
    done
  | "br" => doing (insertBreak ⟨"br", [], false⟩)
  | _ => doing (closeGeneric name)

def inBodyMode (token : Token) : Build Outcome := do
  match token with
  | .char c =>
    if c == '\x00' then done
    else
      reconstruct
      unless isBlankChar c do notFramesetOk
      doing (insertChar c)
  | .comment content => doing (insertComment content)
  | .startTag tag => bodyStart tag
  | .endTag name => bodyEnd name
  | .finish => if (← get).templateModes.isEmpty then done else finishTemplates
  | .doctype _ => done

def leaveText : Build Unit := do
  pop
  modify fun d => { d with mode := d.returnMode }

def textMode (token : Token) : Build Outcome := do
  match token with
  | .char c => doing (insertChar c)
  | .finish =>
    leaveText
    again (← get).mode
  | .endTag _ => doing leaveText
  | _ => done

/-- Handles a token by the rules of the body, but moves what it inserts out of the table. -/
def fosterInBody (token : Token) : Build Outcome := do
  modify fun d => { d with foster := true }
  let outcome ← inBodyMode token
  modify fun d => { d with foster := false }
  return outcome

def inTableMode (token : Token) : Build Outcome := do
  let d ← get
  match token with
  | .char _ =>
    if d.isOneOf d.current ["table", "tbody", "tfoot", "thead", "tr"] then
      set { d with returnMode := d.mode }
      again .inTableText
    else fosterInBody token
  | .comment content => doing (insertComment content)
  | .startTag tag =>
    match tag.name with
    | "caption" =>
      popTo ["table", "template", "html"]
      pushMarker
      discard <| openTag tag
      setMode .inCaption
      done
    | "colgroup" =>
      popTo ["table", "template", "html"]
      discard <| openTag tag
      setMode .inColumnGroup
      done
    | "col" =>
      popTo ["table", "template", "html"]
      discard <| openImplied "colgroup"
      again .inColumnGroup
    | "tbody" | "tfoot" | "thead" =>
      popTo ["table", "template", "html"]
      discard <| openTag tag
      setMode .inTableBody
      done
    | "td" | "th" | "tr" =>
      popTo ["table", "template", "html"]
      discard <| openImplied "tbody"
      again .inTableBody
    | "table" =>
      if d.inScope tableScope "table" then
        popThroughNamed "table"
        again (← get).resetMode
      else done
    | "style" | "script" | "template" => inHeadMode token
    | "input" =>
      if isHidden tag then doing (discard (insertTag tag)) else fosterInBody token
    | "form" =>
      if !d.isOpen "template" && d.form.isNone then
        let n ← insertTag tag
        modify fun d => { d with form := some n }
      done
    | _ => fosterInBody token
  | .endTag name =>
    match name with
    | "table" =>
      if d.inScope tableScope "table" then
        popThroughNamed "table"
        setMode (← get).resetMode
      done
    | "body" | "caption" | "col" | "colgroup" | "html" | "tbody" | "td" | "tfoot" | "th" | "thead"
    | "tr" => done
    | "template" => inHeadMode token
    | _ => fosterInBody token
  | .finish => inBodyMode token
  | .doctype _ => done

def inTableTextMode (token : Token) : Build Outcome := do
  match token with
  | .char c =>
    unless c == '\x00' do modify fun d => { d with tableText := c :: d.tableText }
    done
  | _ =>
    let d ← get
    let pending := d.tableText.reverse
    set { d with tableText := [] }
    if pending.all isBlankChar then
      for c in pending do insertChar c
    else
      for c in pending do discard <| fosterInBody (.char c)
    again d.returnMode

/-- Parts of a table whose start tags end a caption. -/
def captionBreakers : List String :=
  ["caption", "col", "colgroup", "tbody", "td", "tfoot", "th", "thead", "tr"]

def inCaptionMode (token : Token) : Build Outcome := do
  let leave (after : Build Outcome) : Build Outcome := do
    if (← get).inScope tableScope "caption" then
      closeImplied
      popThroughNamed "caption"
      clearToMarker
      after
    else done
  match token with
  | .startTag tag =>
    if captionBreakers.contains tag.name then leave (again .inTable)
    else inBodyMode token
  | .endTag name =>
    if name == "table" then leave (again .inTable)
    else if name == "caption" then leave (doing (setMode .inTable))
    else if ["body", "html"].contains name || captionBreakers.contains name then done
    else inBodyMode token
  | _ => inBodyMode token

def inColumnGroupMode (token : Token) : Build Outcome := do
  let implied : Build Outcome := do
    if (← get).currentIs "colgroup" then
      pop
      again .inTable
    else done
  match token with
  | .char c => if isBlankChar c then doing (insertChar c) else implied
  | .comment content => doing (insertComment content)
  | .startTag tag =>
    match tag.name with
    | "html" => mergeRoot tag
    | "col" => doing (discard (insertTag tag))
    | "template" => inHeadMode token
    | _ => implied
  | .endTag name =>
    match name with
    | "colgroup" =>
      if (← get).currentIs "colgroup" then
        pop
        setMode .inTable
      done
    | "col" => done
    | "template" => inHeadMode token
    | _ => implied
  | .finish => inBodyMode token
  | .doctype _ => done

def inTableBodyMode (token : Token) : Build Outcome := do
  let d ← get
  let sections := ["tbody", "tfoot", "thead", "template", "html"]
  let leave : Build Outcome := do
    if d.inScopeWhere tableScope (d.isOneOf · ["table", "tbody", "tfoot"]) then
      popTo sections
      pop
      again .inTable
    else done
  match token with
  | .startTag tag =>
    match tag.name with
    | "tr" =>
      popTo sections
      discard <| openTag tag
      setMode .inRow
      done
    | "th" | "td" =>
      popTo sections
      discard <| openImplied "tr"
      again .inRow
    | "caption" | "col" | "colgroup" | "tbody" | "tfoot" | "thead" => leave
    | _ => inTableMode token
  | .endTag name =>
    match name with
    | "tbody" | "tfoot" | "thead" =>
      if d.inScope tableScope name then
        popTo sections
        pop
        setMode .inTable
      done
    | "table" => leave
    | "body" | "caption" | "col" | "colgroup" | "html" | "td" | "th" | "tr" => done
    | _ => inTableMode token
  | _ => inTableMode token

def inRowMode (token : Token) : Build Outcome := do
  let d ← get
  let rows := ["tr", "template", "html"]
  let leave (after : Build Outcome) : Build Outcome := do
    if d.inScope tableScope "tr" then
      popTo rows
      pop
      after
    else done
  match token with
  | .startTag tag =>
    match tag.name with
    | "th" | "td" =>
      popTo rows
      discard <| openTag tag
      setMode .inCell
      pushMarker
      done
    | "caption" | "col" | "colgroup" | "tbody" | "tfoot" | "thead" | "tr" =>
      leave (again .inTableBody)
    | _ => inTableMode token
  | .endTag name =>
    match name with
    | "tr" => leave (doing (setMode .inTableBody))
    | "table" => leave (again .inTableBody)
    | "tbody" | "tfoot" | "thead" =>
      if d.inScope tableScope name then leave (again .inTableBody) else done
    | "body" | "caption" | "col" | "colgroup" | "html" | "td" | "th" => done
    | _ => inTableMode token
  | _ => inTableMode token

/-- Closes the open cell. -/
def closeCell : Build Unit := do
  closeImplied
  popThrough (·.isOneOf · ["td", "th"])
  clearToMarker

def inCellMode (token : Token) : Build Outcome := do
  let d ← get
  match token with
  | .startTag tag =>
    if ["caption", "col", "colgroup", "tbody", "td", "tfoot", "th", "thead", "tr"].contains tag.name
    then
      if d.inScopeWhere tableScope (d.isOneOf · ["td", "th"]) then
        closeCell
        again .inRow
      else done
    else inBodyMode token
  | .endTag name =>
    match name with
    | "td" | "th" =>
      if d.inScope tableScope name then
        closeImplied
        popThroughNamed name
        clearToMarker
        setMode .inRow
      done
    | "body" | "caption" | "col" | "colgroup" | "html" => done
    | "table" | "tbody" | "tfoot" | "thead" | "tr" =>
      if d.inScope tableScope name then
        closeCell
        again .inRow
      else done
    | _ => inBodyMode token
  | _ => inBodyMode token

/-- Closes the open selection list, if there is one in scope. -/
def closeSelect (after : Build Outcome) : Build Outcome := do
  if (← get).inScope selectScope "select" then
    popThroughNamed "select"
    after
  else done

def inSelectMode (token : Token) : Build Outcome := do
  let d ← get
  let toReset : Build Outcome := doing (do setMode (← get).resetMode)
  match token with
  | .char c => if c == '\x00' then done else doing (insertChar c)
  | .comment content => doing (insertComment content)
  | .startTag tag =>
    match tag.name with
    | "html" => mergeRoot tag
    | "option" =>
      if d.currentIs "option" then pop
      doing (discard (openTag tag))
    | "optgroup" =>
      if d.currentIs "option" then pop
      if (← get).currentIs "optgroup" then pop
      doing (discard (openTag tag))
    | "select" => closeSelect toReset
    | "input" | "keygen" | "textarea" => closeSelect (do again (← get).resetMode)
    | "script" | "template" => inHeadMode token
    | _ => done
  | .endTag name =>
    match name with
    | "optgroup" =>
      match d.stack with
      | n :: m :: _ => if d.isNamed n "option" && d.isNamed m "optgroup" then pop
      | _ => pure ()
      if (← get).currentIs "optgroup" then pop
      done
    | "option" =>
      if d.currentIs "option" then pop
      done
    | "select" => closeSelect toReset
    | "template" => inHeadMode token
    | _ => done
  | .finish => inBodyMode token
  | .doctype _ => done

def inSelectInTableMode (token : Token) : Build Outcome := do
  let d ← get
  let parts := ["caption", "table", "tbody", "tfoot", "thead", "tr", "td", "th"]
  let leave : Build Outcome := do
    popThroughNamed "select"
    again (← get).resetMode
  match token with
  | .startTag tag => if parts.contains tag.name then leave else inSelectMode token
  | .endTag name =>
    if parts.contains name then if d.inScope tableScope name then leave else done
    else inSelectMode token
  | _ => inSelectMode token

def inTemplateMode (token : Token) : Build Outcome := do
  let switch (mode : Mode) : Build Outcome := do
    modify fun d => { d with templateModes := mode :: d.templateModes.drop 1 }
    again mode
  match token with
  | .char _ | .comment _ => inBodyMode token
  | .startTag tag =>
    match tag.name with
    | "base" | "basefont" | "bgsound" | "link" | "meta" | "noframes" | "script" | "style"
    | "template" | "title" => inHeadMode token
    | "caption" | "colgroup" | "tbody" | "tfoot" | "thead" => switch .inTable
    | "col" => switch .inColumnGroup
    | "tr" => switch .inTableBody
    | "td" | "th" => switch .inRow
    | _ => switch .inBody
  | .endTag name => if name == "template" then inHeadMode token else done
  | .finish => finishTemplates
  | .doctype _ => done

def afterBodyMode (token : Token) : Build Outcome := do
  match token with
  | .char c => if isBlankChar c then inBodyMode token else again .inBody
  | .comment content => doing (do insertCommentIn (← get).root content)
  | .startTag tag => if tag.name == "html" then mergeRoot tag else again .inBody
  | .endTag name => if name == "html" then doing (setMode .afterAfterBody) else again .inBody
  | _ => done

def inFramesetMode (token : Token) : Build Outcome := do
  let d ← get
  match token with
  | .char c => if isBlankChar c then doing (insertChar c) else done
  | .comment content => doing (insertComment content)
  | .startTag tag =>
    match tag.name with
    | "html" => mergeRoot tag
    | "frameset" => doing (discard (openTag tag))
    | "frame" => doing (discard (insertTag tag))
    | "noframes" => inHeadMode token
    | _ => done
  | .endTag name =>
    if name == "frameset" && d.stack.length != 1 then
      pop
      unless (← get).currentIs "frameset" do setMode .afterFrameset
    done
  | _ => done

def afterFramesetMode (token : Token) : Build Outcome := do
  match token with
  | .char c => if isBlankChar c then doing (insertChar c) else done
  | .comment content => doing (insertComment content)
  | .startTag tag =>
    match tag.name with
    | "html" => mergeRoot tag
    | "noframes" => inHeadMode token
    | _ => done
  | .endTag name => if name == "html" then doing (setMode .afterAfterFrameset) else done
  | _ => done

def afterAfterBodyMode (token : Token) : Build Outcome := do
  match token with
  | .char c => if isBlankChar c then inBodyMode token else again .inBody
  | .comment content => doing (insertCommentIn 0 content)
  | .startTag tag => if tag.name == "html" then mergeRoot tag else again .inBody
  | .endTag _ => again .inBody
  | _ => done

def afterAfterFramesetMode (token : Token) : Build Outcome := do
  match token with
  | .char c => if isBlankChar c then inBodyMode token else done
  | .comment content => doing (insertCommentIn 0 content)
  | .startTag tag =>
    match tag.name with
    | "html" => mergeRoot tag
    | "noframes" => inHeadMode token
    | _ => done
  | _ => done

/-- Handles a token by the rules of a mode. -/
def inMode : Mode → Token → Build Outcome
  | .initial => initialMode
  | .beforeHtml => beforeHtmlMode
  | .beforeHead => beforeHeadMode
  | .inHead => inHeadMode
  | .afterHead => afterHeadMode
  | .inBody => inBodyMode
  | .text => textMode
  | .inTable => inTableMode
  | .inTableText => inTableTextMode
  | .inCaption => inCaptionMode
  | .inColumnGroup => inColumnGroupMode
  | .inTableBody => inTableBodyMode
  | .inRow => inRowMode
  | .inCell => inCellMode
  | .inSelect => inSelectMode
  | .inSelectInTable => inSelectInTableMode
  | .inTemplate => inTemplateMode
  | .afterBody => afterBodyMode
  | .inFrameset => inFramesetMode
  | .afterFrameset => afterFramesetMode
  | .afterAfterBody => afterAfterBodyMode
  | .afterAfterFrameset => afterAfterFramesetMode

end ThemeSection.Markup.Draft
