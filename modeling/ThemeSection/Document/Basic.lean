import ThemeSection.Markup.Content
import ThemeSection.Markup.Parse
import ThemeSection.Markup.Printer
import ThemeSection.Selector.Match

/-!
Documents that are being changed. A document is its tree together with the trees that have been
taken out of it: a node that is taken out can still be read and changed by its id. Ids from `next`
on have not been used.
-/

namespace ThemeSection

open Markup

structure Document where
  next : NodeId
  root : Tree
  /-- Trees that have been taken out, each with its own root. -/
  loose : List Tree
  deriving Repr

namespace Document

/-- The document that a markup text describes. -/
def ofMarkup (markup : String) : Document :=
  let root := Markup.parse markup
  { next := (root.ids.foldl max 0) + 1, root, loose := [] }

/-- All nodes where they stand, those of the document's own tree first. -/
def places (d : Document) : List Place :=
  d.root.places ++ d.loose.flatMap Tree.places

/-- The node with an id where it stands. -/
def place? (d : Document) (id : NodeId) : Option Place :=
  d.places.find? (·.id == id)

/-- The root of the document's own tree, as a place. -/
def rootPlace (d : Document) : Place :=
  ⟨d.root, []⟩

/-- The body, or the whole document if there is none. -/
def body (d : Document) : Place :=
  (d.rootPlace.first? (Selector.tags ["body"])).getD d.rootPlace

/-- The markup of what the body holds. -/
def bodyMarkup (d : Document) : String :=
  d.body.tree.inner

end Document

end ThemeSection
