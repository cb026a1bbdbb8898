import ThemeSection.Block.Reading
import ThemeSection.Decimal.Shortest
import ThemeSection.Schema.Block
import ThemeSection.Schema.Default

/-!
Definitions of block types, made from what the first element says: a setting for each thing that it
shows, with that as the default. `valueOf?` says what another instance shows for a setting, and
`record` makes the settings of one block from it.
-/

namespace ThemeSection

namespace BlockDefinition

/-- An image and the address that stands in while none is picked. -/
def imageSettings (id label addressLabel address : String) : List Setting :=
  [.image id label, .text (id ++ "_src") addressLabel (defaultText (some address) "")]

def genericSettings (first : BlockInstance) : List Setting :=
  (first.heading.toList.map fun heading =>
    .text "heading" ("Heading (" ++ Text.snippet 4 heading ++ ")")
      (defaultText (some heading) "Heading"))
  ++ (first.subheading.toList.map fun text =>
    .text "subheading" "Subheading" (defaultText (some text) "Subheading"))
  ++ (first.author.toList.map fun author =>
    .text "author" "Author" (defaultText (some author) "Author"))
  ++ (first.price.toList.map fun price => .text "price" "Price" (defaultText (some price) ""))
  ++ (first.rating.toList.map fun rating => .rating "rating" "Rating" (clampRating rating))
  ++ (first.description.toList.map fun text =>
    .richText "description" "Description" (defaultRichText (some text) "Add a short description."))
  ++ (first.image.toList.flatMap fun image =>
    imageSettings "image" "Image" "Image fallback URL" image.src
      ++ [.text "image_alt" "Image alt text" (defaultText (some image.alt) "")])
  ++ (first.icon.toList.map fun icon =>
    (Setting.text "icon" "Icon class" (defaultText (some icon) "")).withInfo
      "CSS classes of the icon element")
  ++ (first.button.toList.flatMap fun button =>
    [.text "button_text" "Button label" (defaultText (some button.text) "Learn more"),
      .url "button_url" "Button link" (defaultUrl (some button.url))])
  ++ (first.backgroundImage.toList.flatMap fun address =>
    imageSettings "background_image" "Background image" "Background fallback URL" address)

/-- The ids of the settings of the `n`-th link in a header. -/
def navTextId (n : Nat) : String := "nav_link_" ++ toString n ++ "_text"

def navUrlId (n : Nat) : String := "nav_link_" ++ toString n ++ "_url"

def headerSettings (first : BlockInstance) : List Setting :=
  (first.image.toList.flatMap fun image =>
    imageSettings "logo" "Logo" "Logo fallback URL" image.src)
  ++ (first.logoText.toList.map fun text =>
    .text "logo_text" "Logo text" (defaultText (some text) "Store"))
  ++ ((first.links.zipIdx 1).flatMap fun (link, n) =>
    [.text (navTextId n) ("Navigation link " ++ toString n ++ " label")
        (defaultText (some link.text) ""),
      .url (navUrlId n) ("Navigation link " ++ toString n ++ " URL")
        (defaultUrl (some link.url))])
  ++ (if first.hasMobileMenu then [.checkbox "show_mobile_menu" "Show mobile menu" true] else [])

/-- The ids of the settings of the `n`-th link in a footer column. -/
def linkTextId (n : Nat) : String := "link_" ++ toString n ++ "_text"

def linkUrlId (n : Nat) : String := "link_" ++ toString n ++ "_url"

/-- A setting whose default is there only if a value was found. -/
def optionalDefault (setting : Setting) (default : Option String) : Setting :=
  match default with
  | some value => setting.withDefault (.string value)
  | none => setting

/-- The settings of the links of a footer column, as many for every column. -/
def linkSettings (links : List LinkRef) : List Setting :=
  (List.range' 1 BlockInstance.linkSlots).flatMap fun n =>
    let link := links[n - 1]?
    [optionalDefault (.make .text (linkTextId n) ("Link " ++ toString n ++ " label"))
        (link.map fun l => defaultText (some l.text) ""),
      optionalDefault (.make .url (linkUrlId n) ("Link " ++ toString n ++ " URL"))
        (link.map fun l => defaultUrl (some l.url))]

/-- Settings of links to social platforms, one for each platform. -/
def socialSettings (idOf : String → String) (platforms : List String) (first : BlockInstance) :
    List Setting :=
  platforms.map fun platform =>
    optionalDefault (.make .url (idOf platform) (Text.titleCase platform ++ " URL"))
      ((first.social? platform).map fun url => defaultUrl (some url))

def footerSocialId (platform : String) : String := "social_" ++ platform

def footerColumnSettings (first : BlockInstance) : List Setting :=
  (first.heading.toList.map fun heading =>
    .text "heading" "Heading" (defaultText (some heading) "Heading"))
  ++ (first.description.toList.map fun text =>
    .richText "description" "Text" (defaultRichText (some text) "Add footer text."))
  ++ (if first.links.isEmpty then [] else linkSettings first.links)
  ++ (if first.socialLinks.isEmpty then []
    else socialSettings footerSocialId FooterParts.platforms first)

def teamSocialId (platform : String) : String := platform ++ "_url"

def teamMemberSettings (first : BlockInstance) : List Setting :=
  [.text "name" "Name" (defaultText first.heading "Team member"),
    .text "position" "Position" (defaultText first.subheading "Role")]
  ++ (first.description.toList.map fun text =>
    .richText "bio" "Bio" (defaultRichText (some text) "Add a short bio."))
  ++ (first.image.toList.flatMap fun image =>
    imageSettings "image" "Photo" "Photo fallback URL" image.src
      ++ [.text "image_alt" "Photo alt text" (defaultText (some image.alt) "")])
  ++ socialSettings teamSocialId teamPlatforms first

/-- The two sides of a comparison: the id of the image and the title. -/
def sides : List (String × String) := [("before_image", "Before"), ("after_image", "After")]

def beforeAfterSettings (first : BlockInstance) : List Setting :=
  (first.heading.toList.map fun heading =>
    .text "heading" "Heading" (defaultText (some heading) "Heading"))
  ++ ((sides.zip first.images).flatMap fun ((id, title), image) =>
    imageSettings id (title ++ " image") (title ++ " image fallback URL") image.src)
  ++ (first.labelBefore.toList.map fun label =>
    .text "before_label" "Before label" (defaultText (some label) "Before"))
  ++ (first.labelAfter.toList.map fun label =>
    .text "after_label" "After label" (defaultText (some label) "After"))

def settingsOf : BlockRole → BlockInstance → List Setting
  | .generic => genericSettings
  | .header => headerSettings
  | .footerColumn => footerColumnSettings
  | .teamMember => teamMemberSettings
  | .beforeAfter => beforeAfterSettings

/-- The definition of a pattern's type, after the first of its elements. -/
def ofInstance (pattern : BlockPattern) (first : BlockInstance) : BlockDefinition where
  type := pattern.type
  name := pattern.name
  limit := pattern.max
  settings := settingsOf pattern.role first

end BlockDefinition

namespace BlockInstance

open BlockDefinition

/-- What numbered links show for the setting of this id. -/
def linkValue? (textId urlId : Nat → String) (links : List LinkRef) (id : String) :
    Option String :=
  (links.zipIdx 1).findSome? fun (link, n) =>
    if id == textId n then some link.text
    else if id == urlId n then some link.url
    else none

/-- What links to platforms show for the setting of this id. -/
def socialValue? (idOf : String → String) (platforms : List String) (said : BlockInstance)
    (id : String) : Option String :=
  (platforms.find? fun platform => id == idOf platform).bind said.social?

def genericValue? (said : BlockInstance) : String → Option String
  | "heading" => said.heading
  | "subheading" => said.subheading
  | "author" => said.author
  | "price" => said.price
  | "rating" => said.rating.map Decimal.plain
  | "description" => said.description
  | "image_src" => said.image.map (·.src)
  | "image_alt" => said.image.map (·.alt)
  | "icon" => said.icon
  | "button_text" => said.button.map (·.text)
  | "button_url" => said.button.map (·.url)
  | "background_image_src" => said.backgroundImage
  | _ => none

def headerValue? (said : BlockInstance) : String → Option String
  | "logo_src" => said.image.map (·.src)
  | "logo_text" => said.logoText
  | "show_mobile_menu" => some (if said.hasMobileMenu then "true" else "false")
  | id => linkValue? navTextId navUrlId said.links id

def footerColumnValue? (said : BlockInstance) : String → Option String
  | "heading" => said.heading
  | "description" => said.description
  | id =>
    (socialValue? footerSocialId FooterParts.platforms said id).or
      (linkValue? linkTextId linkUrlId said.links id)

def teamMemberValue? (said : BlockInstance) : String → Option String
  | "name" => said.heading
  | "position" => said.subheading
  | "bio" => said.description
  | "image_src" => said.image.map (·.src)
  | "image_alt" => said.image.map (·.alt)
  | id => socialValue? teamSocialId teamPlatforms said id

def beforeAfterValue? (said : BlockInstance) : String → Option String
  | "heading" => said.heading
  | "before_image_src" => said.images[0]?.map (·.src)
  | "after_image_src" => said.images[1]?.map (·.src)
  | "before_label" => said.labelBefore
  | "after_label" => said.labelAfter
  | _ => none

/-- What an instance of a role shows for the setting of this id. -/
def valueOf? (said : BlockInstance) : BlockRole → String → Option String
  | .generic => said.genericValue?
  | .header => said.headerValue?
  | .footerColumn => said.footerColumnValue?
  | .teamMember => said.teamMemberValue?
  | .beforeAfter => said.beforeAfterValue?

/-- The value of a setting in a block: what the instance shows, cleaned, or the default. Pictures
are picked by hand, and template syntax does not get out of the page. -/
def settingValue? (said : BlockInstance) (role : BlockRole) (setting : Setting) :
    Option Json.Value :=
  match said.valueOf? role setting.id with
  | none => setting.default
  | some text =>
    if setting.kind == .imagePicker || Liquid.hasMarks text then setting.default
    else
      let fallback := (setting.default.bind (·.str?)).getD ""
      some (sanitizeDefault setting.kind (some text) fallback)

/-- The settings of a block that shows what the instance says. -/
def record (said : BlockInstance) (role : BlockRole) (definition : BlockDefinition) :
    Json.Fields :=
  Json.Fields.merge <| definition.settings.filterMap fun setting =>
    (said.settingValue? role setting).map fun value => (setting.id, value)

end BlockInstance

end ThemeSection
