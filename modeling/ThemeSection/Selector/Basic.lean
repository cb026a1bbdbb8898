/-!
Selectors: which elements of a document a rule speaks of. A selector lists alternatives; each asks
something of an element itself and, step by step, of the elements around it. What a selector means
on a document is the matter of `ThemeSection.Selector.Match`, its written form that of
`ThemeSection.Selector.Reader`.
-/

namespace ThemeSection

namespace Selector

/-- How the value of an attribute compares with a wanted text. -/
inductive Comparison
  | equals
  /-- One of the words of the value is the text. -/
  | hasWord
  /-- The value is the text, or goes on with a hyphen after it. -/
  | hasSubtag
  | startsWith
  | endsWith
  | contains
  deriving DecidableEq, Repr

/-- Whether letter case counts in a value. -/
inductive LetterCase
  /-- As the markup standard says for the attribute. -/
  | byAttribute
  | ignored
  | kept
  deriving DecidableEq, Repr

structure ValueTest where
  comparison : Comparison
  wanted : String
  letterCase : LetterCase
  deriving DecidableEq, Repr

/-- A test of an attribute: that it is there, or what its value is. -/
structure AttributeTest where
  name : String
  /-- Whether an attribute of any vocabulary will do. -/
  anySpace : Bool
  value : Option ValueTest
  deriving DecidableEq, Repr

/-- One test of an element. -/
inductive Simple
  | any
  /-- Nothing passes: a state of use, such as being under the pointer, that no element of a
  document at rest is in, or an element outside all vocabularies. -/
  | never
  | tag (name : String)
  | id (name : String)
  | className (name : String)
  | attribute (test : AttributeTest)
  | root
  | empty
  | link
  /-- The place among the siblings, or among those of the same name, counted from one or the other
  end, is `step · n + offset` for some natural number `n`. -/
  | place (sameName fromEnd : Bool) (step offset : Int)
  | only (sameName : Bool)
  | not (test : Simple)
  deriving DecidableEq, Repr

/-- Tests that one element has to pass together. -/
abbrev Compound := List Simple

/-- Where the element of the next compound stands. -/
inductive Combinator
  | descendant
  | child
  | next
  | later
  deriving DecidableEq, Repr

/-- Tests of an element and of elements around it, the nearest first. -/
structure Complex where
  subject : Compound
  context : List (Combinator × Compound)
  deriving DecidableEq, Repr

end Selector

/-- Alternatives of which an element has to meet one. -/
abbrev Selector := List Selector.Complex

namespace Selector

/-- Elements that pass the tests, wherever they stand. -/
def of (tests : Compound) : Selector :=
  [⟨tests, []⟩]

def everything : Selector :=
  of [.any]

def tags (names : List String) : Selector :=
  names.flatMap fun name => of [.tag name]

def classes (names : List String) : Selector :=
  names.flatMap fun name => of [.className name]

/-- That an attribute is there. -/
def Simple.has (name : String) : Simple :=
  .attribute ⟨name, false, none⟩

/-- That the value of an attribute compares so with a text. -/
def Simple.value (name : String) (comparison : Comparison) (wanted : String) : Simple :=
  .attribute ⟨name, false, some ⟨comparison, wanted, .byAttribute⟩⟩

/-- That the text occurs in the class attribute. -/
def Simple.classContains (text : String) : Simple :=
  .value "class" .contains text

/-- Elements that pass the tests below one that has the class. -/
def below (outer : Compound) (tests : Compound) : Selector :=
  [⟨tests, [(.descendant, outer)]⟩]

/-- Headings of every level. -/
def headings : Selector :=
  tags ["h1", "h2", "h3", "h4", "h5", "h6"]

end Selector

end ThemeSection
