/-!
Document trees. Every node has an id, and no two nodes of a document share one, so a node can be
spoken of while the tree around it changes.
-/

namespace ThemeSection.Markup

/-- The vocabulary that an element belongs to. -/
inductive Space
  | html
  | mathml
  | svg
  deriving DecidableEq, Repr

structure ElementName where
  space : Space
  name : String
  deriving DecidableEq, Repr

/-- The name of an element of HTML. -/
def ElementName.html (name : String) : ElementName :=
  ⟨.html, name⟩

/-- The vocabulary that an attribute belongs to; most belong to none. -/
inductive AttributeSpace
  | none
  | xlink
  | xmlns
  | xml
  deriving DecidableEq, Repr

structure AttributeName where
  space : AttributeSpace
  name : String
  deriving DecidableEq, Repr

structure Attribute where
  name : AttributeName
  value : String
  deriving DecidableEq, Repr

def AttributeSpace.rank : AttributeSpace → Nat
  | none => 0
  | xlink => 1
  | xmlns => 2
  | xml => 3

/-- The order in which the attributes of an element stand. -/
def AttributeName.before (a b : AttributeName) : Bool :=
  a.space.rank < b.space.rank || (a.space.rank == b.space.rank && a.name < b.name)

/-- The attributes of an element, each name once, in the order of the names. -/
abbrev Attributes := List Attribute

namespace Attributes

def get? (attributes : Attributes) (name : AttributeName) : Option String :=
  (attributes.find? (·.name == name)).map (·.value)

/-- Gives an attribute its value. -/
def set (new : Attribute) : Attributes → Attributes
  | [] => [new]
  | a :: rest =>
    if a.name = new.name then new :: rest
    else if new.name.before a.name then new :: a :: rest
    else a :: set new rest

def remove (attributes : Attributes) (name : AttributeName) : Attributes :=
  attributes.filter (·.name != name)

/-- Adds the attributes whose names are not there yet. -/
def addMissing (attributes new : Attributes) : Attributes :=
  new.foldl (fun kept a => if (kept.get? a.name).isSome then kept else kept.set a) attributes

end Attributes

/-- An attribute name outside all vocabularies. -/
def AttributeName.plain (name : String) : AttributeName :=
  ⟨.none, name⟩

abbrev NodeId := Nat

inductive NodeKind
  | document
  | doctype (name : String)
  | element (name : ElementName) (attributes : Attributes)
  | text (content : String)
  | comment (content : String)
  deriving DecidableEq, Repr

/-- What a node says by itself. -/
def NodeKind.ownText : NodeKind → String
  | text content => content
  | _ => ""

inductive Tree
  | node (id : NodeId) (kind : NodeKind) (children : List Tree)
  deriving Repr

namespace Tree

def id : Tree → NodeId
  | node id _ _ => id

def kind : Tree → NodeKind
  | node _ kind _ => kind

def children : Tree → List Tree
  | node _ _ children => children

/-- The name and the attributes of an element. -/
def element? (tree : Tree) : Option (ElementName × Attributes) :=
  match tree.kind with
  | .element name attributes => some (name, attributes)
  | _ => none

def isElement (tree : Tree) : Bool :=
  tree.element?.isSome

mutual

/-- All nodes of a tree, each with its subtree, in document order. -/
def nodes : Tree → List Tree
  | node id kind children => node id kind children :: nodesOf children

def nodesOf : List Tree → List Tree
  | [] => []
  | tree :: rest => nodes tree ++ nodesOf rest

end

/-- The ids of a tree in document order. -/
def ids (tree : Tree) : List NodeId :=
  tree.nodes.map id

mutual

/-- The text of a tree: all its text nodes in document order. -/
def text : Tree → String
  | node _ kind children => kind.ownText ++ textOf children

def textOf : List Tree → String
  | [] => ""
  | tree :: rest => text tree ++ textOf rest

end

mutual

/-- The tree with new ids, counted from `next` on in document order, and the next id after them. -/
def renumber (next : NodeId) : Tree → Tree × NodeId
  | node _ kind children =>
    let (children, after) := renumberAll (next + 1) children
    (node next kind children, after)

def renumberAll (next : NodeId) : List Tree → List Tree × NodeId
  | [] => ([], next)
  | tree :: rest =>
    let (tree, next) := renumber next tree
    let (rest, after) := renumberAll next rest
    (tree :: rest, after)

end

/-- The first node of a tree with the given id. -/
def find? (tree : Tree) (id : NodeId) : Option Tree :=
  tree.nodes.find? (·.id == id)

end Tree

end ThemeSection.Markup
