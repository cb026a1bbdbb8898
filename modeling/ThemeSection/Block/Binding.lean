import ThemeSection.Block.Definition
import ThemeSection.Document.Edit
import ThemeSection.Liquid.Basic

/-!
Binding markup to settings: the parts of an element that a definition has settings for come to show
those settings. One element stands for all blocks of its type after that.
-/

namespace ThemeSection

open Markup

namespace Document

/-- Makes a node show a block setting as its text. -/
def showSetting (d : Document) (id : NodeId) (setting : String) : Document :=
  d.setText id (Liquid.reference .block setting)

/-- Makes an attribute hold a block setting. -/
def showInAttribute (d : Document) (id : NodeId) (name setting : String) : Document :=
  d.setAttribute id name (Liquid.reference .block setting)

/-- Attributes that would make a browser take another source for an image. -/
def otherSources : List String := ["srcset", "data-src", "data-srcset", "sizes"]

def blockImageWidth : Nat := 800

def backgroundWidth : Nat := 1920

/-- Makes an image show a picked image, or the address in the setting that goes with it. -/
def showImage (d : Document) (id : NodeId) (setting : String) : Document :=
  let source := Liquid.imageSource .block setting (Liquid.reference .block (setting ++ "_src"))
    blockImageWidth
  (d.setAttribute id "src" source).removeAttributes id otherSources

/-- Makes an image show a picked image and its description. -/
def showDescribedImage (d : Document) (id : NodeId) (setting : String) : Document :=
  let d := d.setAttribute id "alt" (Liquid.escapedReference .block (setting ++ "_alt"))
  d.showImage id setting

/-- Makes the first of some paragraphs show rich text; the others are taken out. -/
def showRichText (d : Document) (paragraphs : List Place) (setting : String) : Document :=
  match paragraphs with
  | [] => d
  | first :: rest =>
    let d := match d.retag? first.id "div" with
      | none => d
      | some (made, d) => d.appendText made.id (Liquid.reference .block setting)
    d.detachAll (rest.map (·.id))

/-- The item of a list that holds nothing but a link, or the link itself: what is repeated or taken
out for the link. -/
def linkItem (d : Document) (anchor : NodeId) : NodeId :=
  match (d.place? anchor).bind Place.parent? with
  | none => anchor
  | some parent =>
    if parent.tree.isTag ["li"] && parent.tree.childElements.length == 1 then parent.id
    else anchor

def detachLink (d : Document) (anchor : Place) : Document :=
  d.detach (d.linkItem anchor.id)

/-- Puts texts around the item of a link. -/
def wrapLink (d : Document) (anchor : Place) (before after : String) : Document :=
  d.wrap (d.linkItem anchor.id) before after

/-- Makes a part show a setting, if there is such a part. -/
def showPart (d : Document) (definition : BlockDefinition) (part : Option Place)
    (setting : String) : Document :=
  match part with
  | none => d
  | some p => if definition.has setting then d.showSetting p.id setting else d

/-- Changes the document for a part, if it is there. -/
def forPart (d : Document) (part : Option Place) (change : Document → NodeId → Document) :
    Document :=
  match part with
  | none => d
  | some p => change d p.id

end Document

namespace BlockDefinition

/-- One star for each whole point of the rating. -/
def ratingStars : String :=
  Liquid.tag ("assign rating_stars = " ++ Liquid.settingPath .block "rating" ++ " | round")
    ++ Liquid.tag "for i in (1..rating_stars)" ++ "★" ++ Liquid.endFor

def bindRating (d : Document) (rating : Place) : Document :=
  let d := if (rating.tree.attribute? "data-rating").isSome then
      d.showInAttribute rating.id "data-rating" "rating"
    else d
  d.setText rating.id ratingStars

def bindButton (d : Document) (button : Place) : Document :=
  let d := d.showSetting button.id "button_text"
  if button.tree.isTag ["a"] then d.showInAttribute button.id "href" "button_url" else d

/-- Puts the picked background image into the style of an element. -/
def bindBackground (d : Document) (id : NodeId) : Document :=
  match (d.place? id).bind (·.tree.attribute? "style") with
  | none => d
  | some style =>
    let source := Liquid.imageSource .block "background_image"
      (Liquid.reference .block "background_image_src") Document.backgroundWidth
    d.setAttribute id "style" (Style.replaceBackgroundUrl style source)

def bindGeneric (definition : BlockDefinition) (root : Place) (d : Document) : Document :=
  let parts := BlockParts.locate root
  let d := d.showPart definition parts.heading "heading"
  let d := d.showPart definition parts.subheading "subheading"
  let d := d.showPart definition parts.author "author"
  let d := d.showPart definition parts.price "price"
  let d := match parts.rating with
    | some rating => if definition.has "rating" then bindRating d rating else d
    | none => d
  let d := match parts.icon with
    | some icon => if definition.has "icon" then d.showInAttribute icon.id "class" "icon" else d
    | none => d
  let d := match parts.button with
    | some button => if definition.has "button_text" then bindButton d button else d
    | none => d
  let d := match parts.image with
    | some image => if definition.has "image" then d.showDescribedImage image.id "image" else d
    | none => d
  let d := if definition.has "description" then d.showRichText parts.description "description"
    else d
  if definition.has "background_image" then bindBackground d root.id else d

/-- Makes the `n`-th link of a header show its settings, while it has a text. -/
def bindNavLink (d : Document) (anchor : Place) (n : Nat) : Document :=
  let d := d.showSetting anchor.id (navTextId n)
  let d := d.showInAttribute anchor.id "href" (navUrlId n)
  d.wrapLink anchor (Liquid.ifPresent (navTextId n)) Liquid.endIf

/-- Makes links show their settings; those for which there are none are taken out. -/
def bindNavLinks (definition : BlockDefinition) (d : Document) (links : List Place) : Document :=
  (links.zipIdx 1).foldl
    (fun d (anchor, n) =>
      if definition.has (navTextId n) then bindNavLink d anchor n else d.detachLink anchor)
    d

def bindHeader (definition : BlockDefinition) (root : Place) (d : Document) : Document :=
  let parts := HeaderParts.locate root
  let d := match parts.logoImage with
    | some image => if definition.has "logo" then d.showImage image.id "logo" else d
    | none => d
  let d := d.showPart definition parts.logo "logo_text"
  let d := bindNavLinks definition d parts.nav
  match parts.mobileMenu with
  | none => d
  | some menu =>
    if definition.has "show_mobile_menu" then
      let d := bindNavLinks definition d parts.mobileLinks
      d.wrap menu.id (Liquid.tag ("if " ++ Liquid.settingPath .block "show_mobile_menu"))
        Liquid.endIf
    else d

/-- The start of the loop over the links of a footer column that have a text. -/
def linkLoopOpen : String :=
  Liquid.tag ("for i in (1.." ++ toString BlockInstance.linkSlots ++ ")")
    ++ Liquid.tag "assign link_text_key = 'link_' | append: i | append: '_text'"
    ++ Liquid.tag "assign link_url_key = 'link_' | append: i | append: '_url'"
    ++ Liquid.tag "if block.settings[link_text_key] != blank"

/-- The start of the loop over the platforms that have an address. -/
def socialLoopOpen : String :=
  Liquid.tag ("assign social_platforms = '" ++ Text.join "," FooterParts.platforms
      ++ "' | split: ','")
    ++ Liquid.tag "for platform in social_platforms"
    ++ Liquid.tag "assign social_key = 'social_' | append: platform"
    ++ Liquid.tag "if block.settings[social_key] != blank"

/-- Leaves one link, in a loop over all link settings. -/
def bindLinks (d : Document) (links : List Place) : Document :=
  match links with
  | [] => d
  | first :: rest =>
    let d := rest.foldl Document.detachLink d
    let d := d.setText first.id (Liquid.output "block.settings[link_text_key]")
    let d := d.setAttribute first.id "href" (Liquid.output "block.settings[link_url_key]")
    d.wrapLink first linkLoopOpen Liquid.loopClose

/-- Leaves one social link, in a loop over all platforms. -/
def bindSocialLinks (d : Document) (links : List Place) : Document :=
  match links with
  | [] => d
  | first :: rest =>
    let d := rest.foldl Document.detachLink d
    let d := d.setAttribute first.id "href" (Liquid.output "block.settings[social_key]")
    let d := d.setAttribute first.id "aria-label" (Liquid.output "platform | capitalize")
    let icons := (d.place? first.id).toList.flatMap (·.select (.tags ["i"]))
    let d := icons.foldl
      (fun d icon => d.setAttribute icon.id "class" ("fab fa-" ++ Liquid.output "platform")) d
    d.wrapLink first socialLoopOpen Liquid.loopClose

def bindFooterColumn (definition : BlockDefinition) (root : Place) (d : Document) : Document :=
  let parts := FooterParts.locate root
  let d := d.showPart definition parts.heading "heading"
  let d := if definition.has "description" then d.showRichText parts.paragraphs "description"
    else d
  let d := if definition.has (linkTextId 1) then bindLinks d parts.links else d
  if definition.has (footerSocialId "facebook") then
    bindSocialLinks d (parts.social.map (·.1))
  else d

/-- Makes a social link of a team member show its setting, while that has an address. -/
def bindTeamLink (d : Document) (link : Place × String) : Document :=
  let setting := teamSocialId link.2
  let d := d.showInAttribute link.1.id "href" setting
  d.wrap link.1.id (Liquid.ifPresent setting) Liquid.endIf

def bindTeamMember (definition : BlockDefinition) (root : Place) (d : Document) : Document :=
  let parts := BlockParts.locate root
  let social := teamLinks root
  let d := d.forPart parts.heading fun d id => d.showSetting id "name"
  let d := d.forPart parts.subheading fun d id => d.showSetting id "position"
  let d := match parts.image with
    | some image => if definition.has "image" then d.showDescribedImage image.id "image" else d
    | none => d
  let d := if definition.has "bio" then
      d.showRichText (parts.description.filter fun p => !social.any (p.overlaps ·.1)) "bio"
    else d
  social.foldl bindTeamLink d

def bindBeforeAfter (definition : BlockDefinition) (root : Place) (d : Document) : Document :=
  let parts := ComparisonParts.locate root
  let d := d.showPart definition parts.heading "heading"
  let d := (sides.zip parts.images).foldl
    (fun d ((id, _), image) => if definition.has id then d.showImage image.id id else d) d
  let d := d.showPart definition parts.labelBefore "before_label"
  d.showPart definition parts.labelAfter "after_label"

/-- Binds an element as a block of a role. -/
def bind (definition : BlockDefinition) (role : BlockRole) (root : Place) (d : Document) :
    Document :=
  match role with
  | .generic => bindGeneric definition root d
  | .header => bindHeader definition root d
  | .footerColumn => bindFooterColumn definition root d
  | .teamMember => bindTeamMember definition root d
  | .beforeAfter => bindBeforeAfter definition root d

end BlockDefinition

end ThemeSection
