import ThemeSection.Markup.Tree

/-!
Places: a node together with what stands around it. A place knows its node's tree and, level by
level, the nodes above with their other children, so one can look up and sideways from it as well as
down. Reading a document goes through places; changing it goes by node ids.
-/

namespace ThemeSection.Markup

/-- One node above another, without the child that leads there. -/
structure Level where
  id : NodeId
  kind : NodeKind
  /-- The children before that child, the nearest first. -/
  before : List Tree
  /-- The children after it. -/
  after : List Tree
  deriving Repr

/-- A node where it stands. -/
structure Place where
  tree : Tree
  /-- The nodes above, the nearest first. -/
  above : List Level
  deriving Repr

mutual

/-- The places of a tree's nodes in document order, below given levels. -/
def Tree.placesUnder (above : List Level) : Tree → List Place
  | .node id kind children =>
    ⟨.node id kind children, above⟩ :: placesAmong id kind above [] children

/-- The places in a row of children, with those already passed, the nearest first. -/
def Tree.placesAmong (id : NodeId) (kind : NodeKind) (above : List Level) (before : List Tree) :
    List Tree → List Place
  | [] => []
  | tree :: rest =>
    placesUnder (⟨id, kind, before, rest⟩ :: above) tree
      ++ placesAmong id kind above (tree :: before) rest

end

/-- The places of all nodes of a tree in document order. -/
def Tree.places (tree : Tree) : List Place :=
  tree.placesUnder []

/-- The tree of a level once its child is back in its row. -/
def Level.close (level : Level) (child : Tree) : Tree :=
  .node level.id level.kind (level.before.reverse ++ child :: level.after)

namespace Place

def id (p : Place) : NodeId :=
  p.tree.id

def isElement (p : Place) : Bool :=
  p.tree.isElement

/-- The nodes above, the nearest first. -/
def ancestors (p : Place) : List Place :=
  go p.tree p.above
where
  go (tree : Tree) : List Level → List Place
    | [] => []
    | level :: rest => ⟨level.close tree, rest⟩ :: go (level.close tree) rest

def parent? (p : Place) : Option Place :=
  p.ancestors.head?

/-- The siblings before, the nearest first. -/
def earlier (p : Place) : List Place :=
  match p.above with
  | [] => []
  | level :: rest => go level rest level.after p.tree level.before
where
  go (level : Level) (rest : List Level) (after : List Tree) (tree : Tree) :
      List Tree → List Place
    | [] => []
    | t :: before =>
      ⟨t, { level with before, after := tree :: after } :: rest⟩
        :: go level rest (tree :: after) t before

/-- The children in order. -/
def children (p : Place) : List Place :=
  go [] p.tree.children
where
  go (before : List Tree) : List Tree → List Place
    | [] => []
    | t :: rest => ⟨t, ⟨p.tree.id, p.tree.kind, before, rest⟩ :: p.above⟩ :: go (t :: before) rest

/-- The node and all nodes below it, in document order. -/
def descend (p : Place) : List Place :=
  p.tree.placesUnder p.above

/-- Whether the node is the one with the id, or stands below it. -/
def isWithin (p : Place) (id : NodeId) : Bool :=
  p.id == id || p.above.any (·.id == id)

def isWithinAny (p : Place) (ids : List NodeId) : Bool :=
  ids.any p.isWithin

/-- Whether one of two nodes of a document holds the other, or they are the same. -/
def overlaps (a b : Place) : Bool :=
  a.isWithin b.id || b.isWithin a.id

end Place

end ThemeSection.Markup
