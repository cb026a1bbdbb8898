import ThemeSection.Markup.Tree
import ThemeSection.Text.Basic

/-! What a node says and how it is marked: its text as it reads, its name, attributes and classes.
-/

namespace ThemeSection.Markup.Tree

/-- The text of a tree as it reads: words apart by one space. -/
def plainText (tree : Tree) : String :=
  Text.squeeze tree.text

/-- The name of an element in lower case. -/
def tag? (tree : Tree) : Option String :=
  tree.element?.map fun (name, _) => Text.lower name.name

def isTag (names : List String) (tree : Tree) : Bool :=
  tree.tag?.any (names.contains ·)

/-- The value of an attribute outside all vocabularies. -/
def attribute? (name : String) (tree : Tree) : Option String :=
  tree.element?.bind fun (_, attributes) => attributes.get? (.plain name)

/-- The classes of an element in lower case. -/
def classNames (tree : Tree) : List String :=
  match tree.attribute? "class" with
  | some value => (Text.words value).map Text.lower
  | none => []

/-- Whether the text occurs in one of the classes. -/
def classContains (text : String) (tree : Tree) : Bool :=
  tree.classNames.any (Text.contains text)

def childElements (tree : Tree) : List Tree :=
  tree.children.filter isElement

end ThemeSection.Markup.Tree
