import ThemeSection.Markup.Draft.Basic

/-!
Content of the vocabularies SVG and MathML inside a document: the spelling of its names, and the
rules for tokens that stand in it.
-/

namespace ThemeSection.Markup.Draft

/-- Names of SVG elements that are not all small letters. -/
def svgElementNames : List String :=
  ["altGlyph", "altGlyphDef", "altGlyphItem", "animateColor", "animateMotion", "animateTransform",
    "clipPath", "feBlend", "feColorMatrix", "feComponentTransfer", "feComposite",
    "feConvolveMatrix", "feDiffuseLighting", "feDisplacementMap", "feDistantLight", "feDropShadow",
    "feFlood", "feFuncA", "feFuncB", "feFuncG", "feFuncR", "feGaussianBlur", "feImage", "feMerge",
    "feMergeNode", "feMorphology", "feOffset", "fePointLight", "feSpecularLighting", "feSpotLight",
    "feTile", "feTurbulence", "foreignObject", "glyphRef", "linearGradient", "radialGradient",
    "textPath"]

/-- Names of SVG attributes that are not all small letters. -/
def svgAttributeNames : List String :=
  ["attributeName", "attributeType", "baseFrequency", "baseProfile", "calcMode", "clipPathUnits",
    "diffuseConstant", "edgeMode", "filterUnits", "glyphRef", "gradientTransform", "gradientUnits",
    "kernelMatrix", "kernelUnitLength", "keyPoints", "keySplines", "keyTimes", "lengthAdjust",
    "limitingConeAngle", "markerHeight", "markerUnits", "markerWidth", "maskContentUnits",
    "maskUnits", "numOctaves", "pathLength", "patternContentUnits", "patternTransform",
    "patternUnits", "pointsAtX", "pointsAtY", "pointsAtZ", "preserveAlpha", "preserveAspectRatio",
    "primitiveUnits", "refX", "refY", "repeatCount", "repeatDur", "requiredExtensions",
    "requiredFeatures", "specularConstant", "specularExponent", "spreadMethod", "startOffset",
    "stdDeviation", "stitchTiles", "surfaceScale", "systemLanguage", "tableValues", "targetX",
    "targetY", "textLength", "viewBox", "viewTarget", "xChannelSelector", "yChannelSelector",
    "zoomAndPan"]

/-- The name in a list that is written `name` in small letters, or `name` itself. -/
def respell (spellings : List String) (name : String) : String :=
  (spellings.find? fun spelling => spelling.map Char.toLower == name).getD name

/-- The attribute names that belong to a vocabulary of their own. -/
def namespacedAttribute (name : String) : AttributeName :=
  match name with
  | "xlink:actuate" => ⟨.xlink, "actuate"⟩
  | "xlink:arcrole" => ⟨.xlink, "arcrole"⟩
  | "xlink:href" => ⟨.xlink, "href"⟩
  | "xlink:role" => ⟨.xlink, "role"⟩
  | "xlink:show" => ⟨.xlink, "show"⟩
  | "xlink:title" => ⟨.xlink, "title"⟩
  | "xlink:type" => ⟨.xlink, "type"⟩
  | "xml:base" => ⟨.xml, "base"⟩
  | "xml:lang" => ⟨.xml, "lang"⟩
  | "xml:space" => ⟨.xml, "space"⟩
  | "xmlns" => ⟨.xmlns, "xmlns"⟩
  | "xmlns:xlink" => ⟨.xmlns, "xlink"⟩
  | _ => .plain name

/-- The attributes of a tag in a vocabulary. -/
def foreignAttributes (space : Space) (attributes : List (String × String)) : Attributes :=
  attributes.foldl (fun sorted (name, value) =>
    let name := match space with
      | .svg => respell svgAttributeNames name
      | .mathml => if name == "definitionurl" then "definitionURL" else name
      | .html => name
    sorted.set ⟨namespacedAttribute name, value⟩) []

/-- Inserts the element of a tag in a vocabulary; it stays open unless the tag closes itself. -/
def openForeign (space : Space) (name : String) (tag : Tag) : Build Unit := do
  discard <| openElement ⟨space, name⟩ (foreignAttributes space tag.attributes)
  if tag.selfClosing then pop

/-- Inserts the element of a tag that stands in foreign content. -/
def foreignTag (tag : Tag) : Build Unit := do
  let d ← get
  let space := (d.name d.current).space
  let name := if space == .svg then respell svgElementNames tag.name else tag.name
  openForeign space name tag

/-- Start tags of HTML that end foreign content. -/
def breakoutNames : List String :=
  ["b", "big", "blockquote", "body", "br", "center", "code", "dd", "div", "dl", "dt", "em", "embed",
    "h1", "h2", "h3", "h4", "h5", "h6", "head", "hr", "i", "img", "li", "listing", "menu", "meta",
    "nobr", "ol", "p", "pre", "ruby", "s", "small", "span", "strong", "strike", "sub", "sup",
    "table", "tt", "u", "ul", "var"]

def isBreakout (tag : Tag) : Bool :=
  breakoutNames.contains tag.name
    || (tag.name == "font" && tag.attributes.any fun a => ["color", "face", "size"].contains a.1)

/-- Whether a token is to be handled by the rules for foreign content. -/
def isForeign (d : Draft) (token : Token) : Bool :=
  let name := d.name d.current
  let isChar := match token with
    | .char _ => true
    | _ => false
  let start? := match token with
    | .startTag tag => some tag.name
    | _ => none
  if token == .finish || d.stack.isEmpty || name.space == .html then false
  else if isMathTextPoint name
      && (isChar || start?.any fun n => n != "mglyph" && n != "malignmark") then false
  else if isSvgHtmlPoint name && (isChar || start?.isSome) then false
  else if name == ⟨.mathml, "annotation-xml"⟩ && start? == some "svg" then false
  else true

/-- Closes elements until HTML may stand at the current place. -/
def leaveForeign : Build Unit := do
  pop
  modify fun d =>
    { d with stack := d.stack.dropWhile fun n =>
        let name := d.name n
        !(name.space == .html || isMathTextPoint name || isSvgHtmlPoint name) }

/-- What an end tag in foreign content closes. -/
inductive ForeignEnd
  | nothing
  /-- This element and those above it. -/
  | closes (n : Nat)
  /-- The tag belongs to the HTML around. -/
  | html

/-- Looks for the element that an end tag closes, from the current one down to the root. -/
def foreignEnd (d : Draft) (name : String) (first : Bool) : List Nat → ForeignEnd
  | [] | [_] => .nothing
  | n :: below =>
    if !first && (d.name n).space == .html then .html
    else if (d.name n).name.map Char.toLower == name then .closes n
    else foreignEnd d name false below

end ThemeSection.Markup.Draft
