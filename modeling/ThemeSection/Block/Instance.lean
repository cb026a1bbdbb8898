import ThemeSection.Decimal.Read
import ThemeSection.Markup.Content
import ThemeSection.Selector.Match
import ThemeSection.Text.Basic

/-!
Instances: what one element of a block says, before any of it becomes a setting. The second part
reads single pieces: an image, a link, a rating.
-/

namespace ThemeSection

open Markup

structure ImageRef where
  src : String
  alt : String
  deriving DecidableEq, Repr

structure LinkRef where
  text : String
  url : String
  deriving DecidableEq, Repr

/-- A link to somebody's page on a social platform. -/
structure SocialLink where
  platform : String
  url : String
  deriving DecidableEq, Repr

structure BlockInstance where
  heading : Option String := none
  subheading : Option String := none
  author : Option String := none
  /-- Rich text. -/
  description : Option String := none
  image : Option ImageRef := none
  images : List ImageRef := []
  icon : Option String := none
  button : Option LinkRef := none
  price : Option String := none
  rating : Option Float := none
  backgroundImage : Option String := none
  links : List LinkRef := []
  socialLinks : List SocialLink := []
  logoText : Option String := none
  hasMobileMenu : Bool := false
  labelBefore : Option String := none
  labelAfter : Option String := none
  deriving Repr

namespace BlockInstance

/-- What stands in for an instance where a block type has no element on the page. -/
def sample : BlockInstance where
  heading := some "Heading"
  description := some (Text.rich ["Add a short description."])
  button := some ⟨"Learn more", "/"⟩

/-- The address on a social platform. -/
def social? (said : BlockInstance) (platform : String) : Option String :=
  (said.socialLinks.find? (·.platform == platform)).map (·.url)

end BlockInstance

/-- The text as it reads, unless it is empty. -/
def nonemptyText? (p : Place) : Option String :=
  match p.tree.plainText with
  | "" => none
  | text => some text

/-- The source and the description of an image; the source that loads late stands in only where
there is no other. -/
def imageRef? (p : Place) : Option ImageRef :=
  match ((p.tree.attribute? "src").or (p.tree.attribute? "data-src")).map Text.trim with
  | none | some "" => none
  | some src => some ⟨src, ((p.tree.attribute? "alt").map Text.squeeze).getD ""⟩

def linkRef (p : Place) : LinkRef :=
  ⟨p.tree.plainText, Text.trim ((p.tree.attribute? "href").getD "")⟩

/-- The address parts by which links to a platform are known. -/
def platformAddresses (platform : String) : List String :=
  (platform ++ ".com") :: (if platform == "twitter" then ["//x.com", ".x.com"] else [])

/-- The first of the platforms that a link leads to, as its address, its icons or its own classes
tell. -/
def platform? (platforms : List String) (anchor : Place) : Option String :=
  let href := Text.lower ((anchor.tree.attribute? "href").getD "")
  let icons := (anchor.select (.tags ["i", "svg", "span"])).flatMap (·.tree.classNames)
  let classes := icons ++ anchor.tree.classNames
  platforms.find? fun platform =>
    Text.containsAny (platformAddresses platform) href || classes.any (Text.contains platform)

/-- The first number among the pieces of digits and points in a text. -/
def firstNumber? (text : String) : Option Float :=
  (Chars.splitWhere (fun c => !(c.isDigit || c == '.')) text.toList).findSome? fun piece =>
    Decimal.read? (String.ofList piece)

/-- Icons of whole stars. -/
def countStarIcons (p : Place) : Nat :=
  (p.select (.of [.tag "i", .classContains "fa-star"])).countP fun icon =>
    !icon.tree.classNames.any fun c => c == "far" || c == "fa-star-o"

/-- A rating: as data, as stars in the text, as icons of stars, or as a number in the text. -/
def rating? (p : Place) : Option Float :=
  let text := p.tree.plainText
  let stars := text.toList.count '★'
  match (p.tree.attribute? "data-rating").bind fun value => Decimal.read? (Text.trim value) with
  | some rating => some rating
  | none =>
    if stars > 0 then some (Float.ofNat stars)
    else match countStarIcons p with
      | 0 => firstNumber? text
      | icons => some (Float.ofNat icons)

/-- The texts of paragraphs as rich text, if any of them says something. -/
def richText? (paragraphs : List Place) : Option String :=
  match paragraphs.filterMap nonemptyText? with
  | [] => none
  | texts => some (Text.rich texts)

end ThemeSection
