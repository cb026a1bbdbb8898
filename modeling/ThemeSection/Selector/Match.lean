import ThemeSection.Markup.Place
import ThemeSection.Selector.Basic
import ThemeSection.Text.Basic

/-!
What selectors select. `Selector.holds` says whether the node at a place is selected; `Place.select`
lists the selected nodes from a place downward, the place itself included, in document order.

Names of elements and of attributes disregard letter case in HTML only. So do the values of those
attributes for which the markup standard says so.
-/

namespace ThemeSection

open Markup

namespace Selector

/-- The attributes of HTML whose values disregard letter case. -/
def caselessAttributes : List String :=
  ["accept", "accept-charset", "align", "alink", "axis", "bgcolor", "charset", "checked", "clear",
    "codetype", "color", "compact", "declare", "defer", "dir", "direction", "disabled", "enctype",
    "face", "frame", "hreflang", "http-equiv", "lang", "language", "link", "media", "method",
    "multiple", "nohref", "noresize", "noshade", "nowrap", "readonly", "rel", "rev", "rules",
    "scope", "scrolling", "selected", "shape", "target", "text", "type", "valign", "valuetype",
    "vlink"]

/-- Blanks between the words of an attribute's value. -/
def isSeparator (c : Char) : Bool :=
  c == ' ' || c == '\t' || c == '\n' || c == '\r' || c == '\x0c'

/-- The words of an attribute's value. -/
def valueWords (value : List Char) : List (List Char) :=
  (Chars.splitWhere isSeparator value).filter (!·.isEmpty)

/-- Whether a value compares so with a wanted text. A word, a start, an end or a piece is never the
empty text. -/
def Comparison.holds (wanted value : List Char) : Comparison → Bool
  | .equals => value == wanted
  | .hasWord => (valueWords value).contains wanted
  | .hasSubtag => value == wanted || (wanted ++ ['-']).isPrefixOf value
  | .startsWith => !wanted.isEmpty && wanted.isPrefixOf value
  | .endsWith => !wanted.isEmpty && wanted.isSuffixOf value
  | .contains => !wanted.isEmpty && Chars.contains wanted value

/-- The name that an element or an attribute of HTML has for a name in a selector. -/
def localName (isHtml : Bool) (name : String) : String :=
  if isHtml then Text.lowerAscii name else name

namespace AttributeTest

def ignoresCase (test : AttributeTest) (isHtml : Bool) (letterCase : LetterCase) : Bool :=
  match letterCase with
  | .ignored => true
  | .kept => false
  | .byAttribute =>
    isHtml && !test.anySpace && caselessAttributes.contains (Text.lowerAscii test.name)

def holds (test : AttributeTest) (name : ElementName) (attributes : Attributes) : Bool :=
  let isHtml := name.space == .html
  attributes.any fun a =>
    (test.anySpace || a.name.space == .none) && a.name.name == localName isHtml test.name
      && test.value.all fun v =>
        if test.ignoresCase isHtml v.letterCase then
          v.comparison.holds (Chars.lowerAscii v.wanted.toList) (Chars.lowerAscii a.value.toList)
        else v.comparison.holds v.wanted.toList a.value.toList

end AttributeTest

/-- Whether `index` is `step · n + offset` for a natural number `n`, in 32 bits. -/
def reaches (step offset : Int) (index : Nat) : Bool :=
  let distance : Int := index - offset
  distance ≤ 0x7FFFFFFF
    && (if step == 0 then distance == 0 else distance % step == 0 && distance / step ≥ 0)

/-- The elements among siblings, all of them or those with the name. -/
def countElements (name : Option ElementName) (siblings : List Tree) : Nat :=
  (siblings.filter fun t =>
    match t.element? with
    | none => false
    | some (other, _) => name.all (· == other)).length

/-- The place of an element among its siblings, counted from one. -/
def indexOf (p : Place) (name : Option ElementName) (fromEnd : Bool) : Nat :=
  match p.above with
  | [] => 1
  | level :: _ => countElements name (if fromEnd then level.after else level.before) + 1

def isEmptyElement (tree : Tree) : Bool :=
  tree.children.all fun t =>
    match t.kind with
    | .element _ _ => false
    | .text content => content.isEmpty
    | _ => true

def isRoot (p : Place) : Bool :=
  match p.above with
  | ⟨_, .document, _, _⟩ :: _ => true
  | _ => false

/-- Whether an element passes a test where it stands. -/
def Simple.passes (name : ElementName) (attributes : Attributes) (p : Place) : Simple → Bool
  | .any => true
  | .never => false
  | .tag wanted => name.name == localName (name.space == .html) wanted
  | .id wanted => attributes.get? (.plain "id") == some wanted
  | .className wanted =>
    (attributes.get? (.plain "class")).any fun value =>
      (valueWords value.toList).contains wanted.toList
  | .attribute test => test.holds name attributes
  | .root => isRoot p
  | .empty => isEmptyElement p.tree
  | .link =>
    name.space == .html && ["a", "area", "link"].contains name.name
      && (attributes.get? (.plain "href")).isSome
  | .place sameName fromEnd step offset =>
    reaches step offset (indexOf p (if sameName then some name else none) fromEnd)
  | .only sameName =>
    let among := if sameName then some name else none
    indexOf p among false == 1 && indexOf p among true == 1
  | .not test => !test.passes name attributes p

/-- Whether the node at a place is an element that passes all the tests. -/
def meets (tests : Compound) (p : Place) : Bool :=
  match p.tree.element? with
  | none => false
  | some (name, attributes) => tests.all (·.passes name attributes p)

/-- The elements that stand so to the one at a place, the nearest first. -/
def related (combinator : Combinator) (p : Place) : List Place :=
  match combinator with
  | .descendant => p.ancestors
  | .child => p.parent?.toList
  | .next => ((p.earlier.filter Place.isElement).head?).toList
  | .later => p.earlier

/-- Whether elements around a place meet what the steps ask, one after the other. -/
def contextHolds : List (Combinator × Compound) → Place → Bool
  | [], _ => true
  | (combinator, tests) :: rest, p =>
    (related combinator p).any fun q => meets tests q && contextHolds rest q

def Complex.holds (complex : Complex) (p : Place) : Bool :=
  meets complex.subject p && contextHolds complex.context p

/-- Whether a selector selects the node at a place. -/
def holds (selector : Selector) (p : Place) : Bool :=
  selector.any fun (complex : Complex) => complex.holds p

end Selector

namespace Markup.Place

/-- The selected nodes among a node and those below it, in document order. -/
def select (p : Place) (selector : Selector) : List Place :=
  p.descend.filter selector.holds

/-- The first selected node. -/
def first? (p : Place) (selector : Selector) : Option Place :=
  p.descend.find? selector.holds

/-- Whether any node from here down is selected. -/
def has (p : Place) (selector : Selector) : Bool :=
  (p.first? selector).isSome

end Markup.Place

end ThemeSection
