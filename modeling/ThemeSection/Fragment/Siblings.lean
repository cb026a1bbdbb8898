import ThemeSection.Markup.Content
import ThemeSection.Selector.Match

/-!
Groups of siblings that look alike: children of one parent with the same name and the same classes.
-/

namespace ThemeSection.Fragment

open Markup

/-- Elements that lay out a page and are no fragments of it. -/
def structuralTags : List String :=
  ["html", "body", "main", "section", "header", "footer", "nav", "ul", "ol", "table", "tbody", "tr",
    "form"]

/-- The name and the sorted classes of an element, written as one text; nothing if it has no class
or only lays out the page. -/
def signature? (tree : Tree) : Option String :=
  match tree.tag?, tree.classNames with
  | some tag, c :: rest =>
    if structuralTags.contains tag then none
    else some (Text.join "." (tag :: (c :: rest).mergeSort (fun a b => !(b < a))))
  | _, _ => none

/-- Items with the same key together, in the order in which the keys first come. -/
def groupBy {α : Type} (key : α → Option String) (items : List α) : List (List α) :=
  (items.filterMap key).eraseDups.map fun k => items.filter (key · == some k)

/-- The groups of at least two children. -/
def groupsBelow (parent : Place) : List (List Place) :=
  (groupBy (signature? ·.tree) parent.children).filter (2 ≤ ·.length)

/-- All groups from a node down, parent by parent: the node itself first, then all elements. -/
def siblingGroups (root : Place) : List (List Place) :=
  (root :: root.select .everything).flatMap groupsBelow

end ThemeSection.Fragment
