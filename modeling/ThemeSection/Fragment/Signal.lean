import ThemeSection.Markup.Content
import ThemeSection.Selector.Match
import ThemeSection.Style.Background
import ThemeSection.Text.Mention

/-!
Signals: what a fragment of a page has that tells what it is for. Scores count signals.
-/

namespace ThemeSection.Fragment

open Markup

/-- The number of signals that are there. -/
def score (signals : List Bool) : Nat :=
  signals.countP id

/-- The background image in the fragment's own style. -/
def background? (p : Place) : Option String :=
  (p.tree.attribute? "style").bind Style.backgroundUrl?

def hasImage (p : Place) : Bool :=
  p.has (.tags ["img"]) || (background? p).isSome

def hasHeading (p : Place) : Bool :=
  p.has .headings

def hasParagraph (p : Place) : Bool :=
  p.has (.tags ["p"])

def priceMarks : Selector :=
  .classes ["price", "product-price"] ++ .of [.classContains "price"]

def hasPrice (p : Place) : Bool :=
  p.has priceMarks || Text.mentionsPrice p.tree.plainText

/-- Image, heading, paragraph, something to press, and a class of its own. -/
def shapeScore (p : Place) : Nat :=
  score [hasImage p, hasHeading p, hasParagraph p, p.has (.tags ["a", "button"]),
    !p.tree.classNames.isEmpty]

/-- The shape score that makes a fragment look like a block. -/
def blockShape : Nat := 3

structure ProductSignals where
  image : Bool
  price : Bool
  rating : Bool
  title : Bool
  button : Bool
  productClass : Bool
  deriving DecidableEq, Repr

def ratingMarks : Selector :=
  .classes ["rating", "stars"] ++ .of [.has "data-rating"]

def productTitles : Selector :=
  .headings ++ .classes ["title", "product-title", "product-name"]

def productButtons : Selector :=
  .tags ["button"] ++ .classes ["btn", "button"] ++ .of [.tag "a", .classContains "btn"]
    ++ .of [.tag "a", .classContains "cart"]

def productSignals (p : Place) : ProductSignals where
  image := hasImage p
  price := hasPrice p
  rating := p.has ratingMarks
  title := p.has productTitles
  button := p.has productButtons
  productClass := p.tree.classNames.any (Text.containsAny ["product", "item", "shop"])

/-- A rating counts as a price. -/
def ProductSignals.score (s : ProductSignals) : Nat :=
  Fragment.score [s.image, s.price || s.rating, s.title, s.button, s.productClass]

/-- How sure the signals make a product, from nought to one. -/
def ProductSignals.confidence (s : ProductSignals) : Float :=
  let weights : List (Bool × Float) :=
    [(s.image, 0.2), (s.price, 0.3), (s.title, 0.2), (s.button, 0.15), (s.productClass, 0.15)]
  weights.foldl (fun total (signal, weight) => if signal then total + weight else total) 0.0

def dateMarks : Selector :=
  .tags ["time"] ++ .classes ["date", "post-date"]

def continuations : List String :=
  ["read more", "continue reading", "read article"]

/-- Title, paragraph, date, and a link to the rest. -/
def articleScore (p : Place) : Nat :=
  score [hasHeading p, hasParagraph p,
    p.has dateMarks || Text.mentionsDate p.tree.plainText,
    (p.select (.tags ["a"])).any fun a =>
      Text.containsAny continuations (Text.lower a.tree.plainText)]

end ThemeSection.Fragment
