import ThemeSection.Markup.Tree

/-!
Writing trees as markup. Text is escaped except right under the elements whose content is raw, and
only where that element is itself being written. An element without an end tag is written as its
start tag; the tags of elements inside it are left out, while text and comments inside it are not.
-/

namespace ThemeSection.Markup

/-- Elements without an end tag. -/
def voidNames : List String :=
  ["area", "base", "basefont", "bgsound", "br", "col", "embed", "frame", "hr", "img", "input",
    "keygen", "link", "meta", "param", "source", "track", "wbr"]

/-- Elements whose text stands as it is. -/
def rawNames : List String :=
  ["style", "script", "xmp", "iframe", "noembed", "noframes", "plaintext", "noscript"]

def ElementName.isVoid (name : ElementName) : Bool :=
  name.space == .html && voidNames.contains name.name

def ElementName.isRaw (name : ElementName) : Bool :=
  name.space == .html && rawNames.contains name.name

def escapeTextChar (c : Char) : List Char :=
  if c == '&' then "&amp;".toList
  else if c == '\u00A0' then "&nbsp;".toList
  else if c == '<' then "&lt;".toList
  else if c == '>' then "&gt;".toList
  else [c]

def escapeAttributeChar (c : Char) : List Char :=
  if c == '&' then "&amp;".toList
  else if c == '\u00A0' then "&nbsp;".toList
  else if c == '"' then "&quot;".toList
  else [c]

def escapeText (s : String) : String :=
  String.ofList (s.toList.flatMap escapeTextChar)

def escapeAttribute (s : String) : String :=
  String.ofList (s.toList.flatMap escapeAttributeChar)

/-- An attribute name as it stands in a tag. -/
def AttributeName.render (name : AttributeName) : String :=
  match name.space with
  | .none => name.name
  | .xlink => "xlink:" ++ name.name
  | .xml => "xml:" ++ name.name
  | .xmlns => if name.name == "xmlns" then name.name else "xmlns:" ++ name.name

def Attribute.render (a : Attribute) : String :=
  " " ++ a.name.render ++ "=\"" ++ escapeAttribute a.value ++ "\""

def startTag (name : ElementName) (attributes : Attributes) : String :=
  "<" ++ name.name ++ String.join (attributes.map Attribute.render) ++ ">"

def endTag (name : ElementName) : String :=
  "</" ++ name.name ++ ">"

namespace Tree

mutual

/-- A tree under a parent: `raw` tells whether text stands as it is there, `inVoid` whether an
element without an end tag is around it. -/
def renderUnder (raw inVoid : Bool) : Tree → String
  | node _ kind children =>
    match kind with
    | .document => renderAll false false children
    | .doctype name => "<!DOCTYPE " ++ name ++ ">"
    | .text content => if raw then content else escapeText content
    | .comment content => "<!--" ++ content ++ "-->"
    | .element name attributes =>
      if inVoid then renderAll name.isRaw true children
      else
        startTag name attributes ++ renderAll name.isRaw name.isVoid children
          ++ (if name.isVoid then "" else endTag name)

def renderAll (raw inVoid : Bool) : List Tree → String
  | [] => ""
  | tree :: rest => renderUnder raw inVoid tree ++ renderAll raw inVoid rest

end

/-- The tree with its own tags. -/
def outer (tree : Tree) : String :=
  renderUnder false false tree

/-- The children of a tree, each written by itself. -/
def inner (tree : Tree) : String :=
  String.join (tree.children.map outer)

end Tree

end ThemeSection.Markup
