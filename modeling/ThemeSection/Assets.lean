import ThemeSection.Document.Edit

/-!
Assets: styles, scripts and resources of the head are taken out of a document, so that what remains
is content. Code that browsers do not run, and what they show without scripts only, is dropped.
-/

namespace ThemeSection

open Markup

structure Assets where
  /-- The contents of style elements, as they stand. -/
  styles : List String := []
  scripts : List String := []
  externalScripts : List String := []
  /-- The markup of resources for the head. -/
  headLines : List String := []
  deriving DecidableEq, Repr

namespace Assets

def css (assets : Assets) : String :=
  Text.join "\n\n" assets.styles

def javascript (assets : Assets) : String :=
  Text.join "\n\n" assets.scripts

def headContent (assets : Assets) : String :=
  Text.join "\n" assets.headLines

/-- The selected nodes of a document's own tree, which are then taken out. -/
def takeOut (d : Document) (selector : Selector) : List Place × Document :=
  let found := d.rootPlace.select selector
  (found, d.detachAll (found.map (·.id)))

def headResources : Selector :=
  .below [.tag "head"] [.tag "link", .has "href"]
    ++ .below [.tag "head"] [.tag "script", .has "src"]
    ++ .below [.tag "body"] [.tag "link", .value "rel" .equals "stylesheet"]

/-- The text of a node, unless it is blank. -/
def code? (p : Place) : Option String :=
  if Text.isBlank p.tree.text then none else some p.tree.text

/-- Whether a script of this type is run. -/
def isRunnable (type : String) : Bool :=
  ["", "text/javascript", "module", "application/javascript"].contains type

/-- The code of a script that stands in the document and is run. -/
def inlineScript? (p : Place) : Option String :=
  let type := Text.lower ((p.tree.attribute? "type").getD "")
  if (p.tree.attribute? "src").isNone && isRunnable type then code? p else none

/-- Takes the assets out of a document. -/
def extract (d : Document) : Document × Assets :=
  let (styles, d) := takeOut d (.tags ["style"])
  let (resources, d) := takeOut d headResources
  let (scripts, d) := takeOut d (.tags ["script"])
  let (_, d) := takeOut d (.tags ["noscript", "template"])
  (d,
    { styles := styles.filterMap code?
      scripts := scripts.filterMap inlineScript?
      externalScripts := scripts.filterMap (·.tree.attribute? "src")
      headLines := resources.map (·.tree.outer) })

end Assets

end ThemeSection
