import ThemeSection.Block.Parts
import ThemeSection.Block.Pattern

/-! Reading instances: what an element says, by the role of its block. -/

namespace ThemeSection

open Markup

namespace BlockInstance

def readGeneric (root : Place) : BlockInstance :=
  let parts := BlockParts.locate root
  { heading := parts.heading.bind nonemptyText?
    subheading := parts.subheading.bind nonemptyText?
    author := parts.author.bind nonemptyText?
    description := richText? parts.description
    image := parts.image.bind imageRef?
    images := (root.select (.tags ["img"])).filterMap imageRef?
    icon := (parts.icon.bind (·.tree.attribute? "class")).map Text.squeeze
    button := (parts.button.map linkRef).filter (·.text != "")
    price := parts.price.bind nonemptyText?
    rating := parts.rating.bind rating?
    backgroundImage := Fragment.background? root }

/-- The most links of a header that become settings. -/
def maxNavLinks : Nat := 8

/-- A header shows the image of a logo or its text, not both. -/
def readHeader (root : Place) : BlockInstance :=
  let parts := HeaderParts.locate root
  { image := parts.logoImage.bind imageRef?
    logoText := if parts.logoImage.isSome then none else parts.logo.bind nonemptyText?
    links := (parts.nav.take maxNavLinks).map linkRef
    hasMobileMenu := !parts.mobileLinks.isEmpty }

/-- The number of links that a footer column has settings for. -/
def linkSlots : Nat := 6

def socialLinksOf (links : List (Place × String)) : List SocialLink :=
  links.map fun (a, platform) => ⟨platform, (linkRef a).url⟩

def readFooterColumn (root : Place) : BlockInstance :=
  let parts := FooterParts.locate root
  { heading := parts.heading.map (·.tree.plainText)
    description := richText? parts.paragraphs
    links := (parts.links.take linkSlots).map linkRef
    socialLinks := socialLinksOf parts.social }

def readTeamMember (root : Place) : BlockInstance :=
  let all := readGeneric root
  { heading := all.heading
    subheading := all.subheading
    description := all.description
    image := all.image
    socialLinks := socialLinksOf (teamLinks root) }

def readBeforeAfter (root : Place) : BlockInstance :=
  let parts := ComparisonParts.locate root
  { heading := parts.heading.bind nonemptyText?
    images := parts.images.filterMap imageRef?
    labelBefore := parts.labelBefore.bind nonemptyText?
    labelAfter := parts.labelAfter.bind nonemptyText? }

/-- What an element says as a block of a role. -/
def read : BlockRole → Place → BlockInstance
  | .generic => readGeneric
  | .header => readHeader
  | .footerColumn => readFooterColumn
  | .teamMember => readTeamMember
  | .beforeAfter => readBeforeAfter

end BlockInstance

end ThemeSection
