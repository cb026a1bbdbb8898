import ThemeSection.Document.Basic
import ThemeSection.Selector.Reader

/-!
Changes to documents. Each names the node that it is about by its id, and does nothing if no node
has that id. All of them come from two: `update` changes a node in its place, and `splice` puts a
row of trees in the place of a node below another.
-/

namespace ThemeSection

open Markup

namespace Markup.Tree

mutual

/-- The tree with the node that has the id changed. -/
def update (id : NodeId) (change : Tree → Tree) : Tree → Tree
  | node own kind children =>
    if own = id then change (node own kind children)
    else node own kind (updateAll id change children)

def updateAll (id : NodeId) (change : Tree → Tree) : List Tree → List Tree
  | [] => []
  | tree :: rest => update id change tree :: updateAll id change rest

end

mutual

/-- The tree with the node below its root that has the id replaced by a row of trees. -/
def splice (id : NodeId) (row : Tree → List Tree) : Tree → Tree
  | node own kind children => node own kind (spliceAll id row children)

def spliceAll (id : NodeId) (row : Tree → List Tree) : List Tree → List Tree
  | [] => []
  | tree :: rest =>
    (if tree.id = id then row tree else [splice id row tree]) ++ spliceAll id row rest

end

def withChildren (children : List Tree) : Tree → Tree
  | node id kind _ => node id kind children

/-- The tree with the attributes of its root changed, if that is an element. -/
def mapAttributes (change : Attributes → Attributes) : Tree → Tree
  | node id (.element name attributes) children =>
    node id (.element name (change attributes)) children
  | other => other

/-- A text node. -/
def ofText (id : NodeId) (content : String) : Tree :=
  node id (.text content) []

end Markup.Tree

namespace Document

def update (d : Document) (id : NodeId) (change : Tree → Tree) : Document :=
  { d with
    root := d.root.update id change
    loose := d.loose.map (·.update id change) }

def splice (d : Document) (id : NodeId) (row : Tree → List Tree) : Document :=
  { d with
    root := d.root.splice id row
    loose := d.loose.map (·.splice id row) }

def setAttribute (d : Document) (id : NodeId) (name value : String) : Document :=
  d.update id (·.mapAttributes (·.set ⟨.plain name, value⟩))

def removeAttribute (d : Document) (id : NodeId) (name : String) : Document :=
  d.update id (·.mapAttributes (·.remove (.plain name)))

def removeAttributes (d : Document) (id : NodeId) (names : List String) : Document :=
  names.foldl (·.removeAttribute id ·) d

/-- Takes all children out of a node. -/
def clear (d : Document) (id : NodeId) : Document :=
  match d.place? id with
  | none => d
  | some p =>
    let d := d.update id (·.withChildren [])
    { d with loose := d.loose ++ p.tree.children }

/-- Puts a tree behind the last child of a node. The ids in the tree have not been used. -/
def append (d : Document) (id : NodeId) (tree : Tree) : Document :=
  d.update id fun t => t.withChildren (t.children ++ [tree])

/-- Puts a text behind the last child of a node. -/
def appendText (d : Document) (id : NodeId) (content : String) : Document :=
  { d.append id (.ofText d.next content) with next := d.next + 1 }

/-- Makes a text the only child of a node. -/
def setText (d : Document) (id : NodeId) (content : String) : Document :=
  (d.clear id).appendText id content

/-- Puts a text right before a node and another right after it, if it stands below another. -/
def wrap (d : Document) (id : NodeId) (before after : String) : Document :=
  let d' := d.splice id fun t => [.ofText d.next before, t, .ofText (d.next + 1) after]
  { d' with next := d.next + 2 }

/-- Takes a node with all below it out of its place, if it stands below another. -/
def detach (d : Document) (id : NodeId) : Document :=
  match d.place? id with
  | some ⟨tree, _ :: _⟩ =>
    let d := d.splice id fun _ => []
    { d with loose := d.loose ++ [tree] }
  | _ => d

def detachAll (d : Document) (ids : List NodeId) : Document :=
  ids.foldl detach d

/-- A tree with ids that have not been used, and the document that counts them as used. -/
def adopt (d : Document) (tree : Tree) : Tree × Document :=
  let (tree, next) := tree.renumber d.next
  (tree, { d with next })

/-- An element as a document of its own would have it. Nothing, if a document would not hold an
element of that name on its own or the name cannot be looked up. -/
def newElement? (d : Document) (tag : String) : Option (Tree × Document) := do
  let selector ← Selector.read? tag
  let holder := ofMarkup ("<" ++ tag ++ "></" ++ tag ++ ">")
  let found ← holder.rootPlace.first? selector
  return d.adopt found.tree

/-- Puts a new element with the same attributes in the place of an element, which is taken out. -/
def retag? (d : Document) (id : NodeId) (tag : String) : Option (Tree × Document) := do
  let place ← d.place? id
  let (_, attributes) ← place.tree.element?
  let (made, d) ← d.newElement? tag
  let made := made.mapAttributes fun _ => attributes
  let d := match place.above with
    | [] => { d with loose := d.loose ++ [made] }
    | _ =>
      let d := d.splice id fun _ => [made]
      { d with loose := d.loose ++ [place.tree] }
  return (made, d)

end Document

end ThemeSection
