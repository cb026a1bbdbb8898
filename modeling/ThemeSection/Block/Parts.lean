import ThemeSection.Block.Instance
import ThemeSection.Fragment.Signal

/-!
The parts of a block: which nodes of an element carry what a block of its role shows. Both reading
an instance and binding its markup go by these parts.
-/

namespace ThemeSection

open Markup

/-- The nodes that carry the fields of a block; no two of them overlap. -/
structure BlockParts where
  heading : Option Place
  subheading : Option Place
  author : Option Place
  price : Option Place
  rating : Option Place
  icon : Option Place
  button : Option Place
  image : Option Place
  description : List Place
  deriving Repr

namespace BlockParts

def titleMarks : Selector := .classes ["title", "name", "card-title"]

def subheadingMarks : Selector :=
  .classes ["subtitle", "subheading", "tagline", "position", "role", "job-title"]

def authorMarks : Selector :=
  .tags ["cite"] ++ .classes ["author", "testimonial-author", "client-name", "reviewer"]

def priceMarks : Selector :=
  .classes ["price", "product-price", "amount"] ++ .of [.classContains "price"]

def iconMarks : Selector :=
  .of [.tag "i", .classContains "fa-"] ++ .of [.tag "i", .classContains "icon"]
    ++ .of [.tag "span", .className "material-icons"] ++ .of [.tag "span", .classContains "icon"]

def buttonMarks : Selector :=
  .of [.tag "a", .className "btn"] ++ .of [.tag "a", .className "button"] ++ .tags ["button"]
    ++ .classes ["btn", "button"] ++ .of [.tag "a", .classContains "btn"]
    ++ .of [.tag "a", .classContains "cta"]

/-- The longest text that is taken for a price. -/
def maxPriceLength : Nat := 24

/-- A node is free if it overlaps none that is taken. -/
def isFree (taken : List Place) (p : Place) : Bool :=
  !taken.any p.overlaps

/-- The first free node with a text among the selected ones. -/
def firstFree? (root : Place) (taken : List Place) (selector : Selector) : Option Place :=
  (root.select selector).find? fun p => isFree taken p && p.tree.plainText != ""

/-- A node without elements inside whose short text mentions a price. -/
def priceLeaf? (root : Place) (taken : List Place) : Option Place :=
  (root.select (.tags ["span", "strong", "b", "p", "div"])).find? fun p =>
    p.tree.childElements.isEmpty && isFree taken p
      && p.tree.plainText.length ≤ maxPriceLength && Text.mentionsPrice p.tree.plainText

/-- The parts of an element, found one after the other; what is found is taken. -/
def locate (root : Place) : BlockParts :=
  let first (taken : List Place) := firstFree? root taken
  let heading := (first [] .headings).or (first [] titleMarks)
  let taken := heading.toList
  let subheading := (first taken subheadingMarks).or (first taken .headings)
  let taken := taken ++ subheading.toList
  let author := first taken authorMarks
  let taken := taken ++ author.toList
  let price := (first taken priceMarks).or (priceLeaf? root taken)
  let taken := taken ++ price.toList
  let rating := (root.select Fragment.ratingMarks).find? (isFree taken)
  let taken := taken ++ rating.toList
  let icon := (root.select iconMarks).find? (isFree taken)
  let taken := taken ++ icon.toList
  let button := (first taken buttonMarks).or
    ((root.select (.tags ["a"])).reverse.find? fun a => isFree taken a && a.tree.plainText != "")
  let taken := taken ++ button.toList
  let image := (root.select (.tags ["img"])).find? fun p =>
    isFree taken p && (imageRef? p).isSome
  let taken := taken ++ image.toList
  let description := (root.select (.tags ["p"])).filter fun p =>
    isFree taken p && p.tree.plainText != ""
  { heading, subheading, author, price, rating, icon, button, image, description }

end BlockParts

/-- The images of an element that have a source. -/
def imagesOf (root : Place) : List Place :=
  (root.select (.tags ["img"])).filter fun p => (imageRef? p).isSome

structure HeaderParts where
  logoImage : Option Place
  logo : Option Place
  mobileMenu : Option Place
  /-- Links outside the logo and the mobile menu. -/
  nav : List Place
  mobileLinks : List Place
  deriving Repr

namespace HeaderParts

def logoImages : Selector :=
  .below [.className "logo"] [.tag "img"] ++ .below [.className "navbar-brand"] [.tag "img"]
    ++ .below [.className "brand"] [.tag "img"] ++ .below [.className "site-logo"] [.tag "img"]
    ++ .of [.tag "img", .className "logo"] ++ .of [.tag "img", .classContains "logo"]
    ++ .of [.tag "img", .value "src" .contains "logo"]
    ++ .of [.tag "img", .value "alt" .contains "logo"]
    ++ .of [.tag "img", .value "alt" .contains "Logo"]

def logos : Selector :=
  .classes ["logo", "navbar-brand", "brand", "site-title", "site-logo"]

def mobileMenus : Selector :=
  .classes ["mobile-menu", "mobile-nav", "mobile-navigation", "offcanvas-menu"]

def textLinks (root : Place) : List Place :=
  (root.select (.tags ["a"])).filter (·.tree.plainText != "")

/-- The logo is marked as one, or it is the link around the image of a logo. -/
def locate (root : Place) : HeaderParts :=
  let logoImage := root.first? logoImages
  let logo := (root.first? logos).or
    (logoImage.bind fun image => image.ancestors.find? (·.tree.isTag ["a"]))
  let mobileMenu := root.first? mobileMenus
  let skipped := (logo.toList ++ mobileMenu.toList ++ logoImage.toList).map (·.id)
  { logoImage, logo, mobileMenu
    nav := (textLinks root).filter (!·.isWithinAny skipped)
    mobileLinks := mobileMenu.toList.flatMap textLinks }

end HeaderParts

structure FooterParts where
  heading : Option Place
  /-- Paragraphs without links. -/
  paragraphs : List Place
  /-- Links with a text that lead to no social platform. -/
  links : List Place
  social : List (Place × String)
  deriving Repr

namespace FooterParts

def platforms : List String := ["facebook", "instagram", "twitter", "linkedin", "youtube"]

def headingMarks : Selector := .headings ++ .classes ["footer-title", "footer-heading"]

def locate (root : Place) : FooterParts :=
  let anchors := root.select (.tags ["a"])
  let heading := (root.first? headingMarks).filter (·.tree.plainText != "")
  { heading
    paragraphs := (root.select (.tags ["p"])).filter fun p =>
      !p.has (.tags ["a"]) && p.tree.plainText != "" && heading.all (!p.overlaps ·)
    links := anchors.filter fun a => (platform? platforms a).isNone && a.tree.plainText != ""
    social := anchors.filterMap fun a => (platform? platforms a).map fun name => (a, name) }

end FooterParts

/-- The platforms that a team member may be on. -/
def teamPlatforms : List String := ["linkedin", "twitter", "instagram", "facebook"]

/-- The links of a team member to social platforms. -/
def teamLinks (root : Place) : List (Place × String) :=
  (root.select (.tags ["a"])).filterMap fun a =>
    (platform? teamPlatforms a).map fun name => (a, name)

structure ComparisonParts where
  heading : Option Place
  /-- The image before and the image after. -/
  images : List Place
  labelBefore : Option Place
  labelAfter : Option Place
  deriving Repr

namespace ComparisonParts

def locate (root : Place) : ComparisonParts where
  heading := root.first? .headings
  images := (imagesOf root).take 2
  labelBefore := root.first? (.classes ["before-label", "label-before"])
  labelAfter := root.first? (.classes ["after-label", "label-after"])

end ComparisonParts

end ThemeSection
