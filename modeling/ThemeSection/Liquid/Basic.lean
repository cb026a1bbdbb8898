import ThemeSection.Text.Basic

/-!
The template language as far as the project writes it: outputs and tags that refer to the settings
of a section or of one of its blocks.
-/

namespace ThemeSection.Liquid

/-- The marks that open or close an output or a tag. -/
def marks : List String := ["\x7b\x7b", "\x7b%", "\x7d\x7d", "%\x7d"]

/-- Whether a text carries template syntax. -/
def hasMarks (text : String) : Bool :=
  Text.containsAny marks text

/-- What a setting belongs to: the section as a whole or one of its blocks. -/
inductive Owner
  | whole
  | block
  deriving DecidableEq, Repr

def Owner.name : Owner → String
  | .whole => "section"
  | .block => "block"

/-- An output of an expression. -/
def output (expression : String) : String :=
  "\x7b\x7b " ++ expression ++ " \x7d\x7d"

/-- A tag that also strips the blanks around it. -/
def tag (content : String) : String :=
  "\x7b%- " ++ content ++ " -%\x7d"

/-- The expression that names a setting. -/
def settingPath (owner : Owner) (id : String) : String :=
  owner.name ++ ".settings." ++ id

/-- The output of a setting. -/
def reference (owner : Owner) (id : String) : String :=
  output (settingPath owner id)

/-- The output of a setting inside an attribute. -/
def escapedReference (owner : Owner) (id : String) : String :=
  output (settingPath owner id ++ " | escape")

/-- The source of an image: the picked image at a width, or `fallback` while none is picked. -/
def imageSource (owner : Owner) (id fallback : String) (width : Nat) : String :=
  let path := settingPath owner id
  "\x7b% if " ++ path ++ " != blank %\x7d"
    ++ output (path ++ " | image_url: width: " ++ toString width)
    ++ "\x7b% else %\x7d" ++ fallback ++ "\x7b% endif %\x7d"

/-- The start of the loop over the blocks of a type. -/
def loopOpen (type : String) : String :=
  tag "for block in section.blocks" ++ tag ("if block.type == '" ++ type ++ "'")

def endIf : String := tag "endif"

def endFor : String := tag "endfor"

def loopClose : String := endIf ++ endFor

/-- The start of what stands only while a block setting has a value. -/
def ifPresent (id : String) : String :=
  tag ("if " ++ settingPath .block id ++ " != blank")

/-- Whether a link leads somewhere. -/
def isRealLink (href : String) : Bool :=
  let href := Text.trim href
  !(href.isEmpty || href == "#" || Text.startsWith "javascript:" href || hasMarks href)

end ThemeSection.Liquid
