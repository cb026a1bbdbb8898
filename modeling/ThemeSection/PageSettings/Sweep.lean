import ThemeSection.Change
import ThemeSection.Document.Edit
import ThemeSection.Options
import ThemeSection.PageSettings.Scope
import ThemeSection.Schema.Default
import ThemeSection.Style.Background

/-!
Sweeps over the content of a page that stands outside all blocks. Each sweep turns one kind of
content into settings of the page and makes the content show them: navigation first, so that its
titles and links are not taken for headings and buttons, then headings, paragraphs, buttons, images
and backgrounds.
-/

namespace ThemeSection

open Markup

/-- A document and the settings collected from it. -/
structure Sweep where
  document : Document
  scope : SettingScope

namespace Sweep

/-- The nodes that sweeps leave alone, and the options. -/
structure Context where
  root : NodeId
  regions : List NodeId
  options : Options

/-- The nodes that a selector selects from a node down, as the document is now. -/
def selected (s : Sweep) (root : NodeId) (selector : Selector) : List NodeId :=
  (s.document.place? root).toList.flatMap fun p => (p.select selector).map (·.id)

/-- Goes over nodes one after the other, each as it stands when its turn comes. -/
def forEach (s : Sweep) (nodes : List NodeId) (visit : Sweep → Place → Sweep) : Sweep :=
  nodes.foldl
    (fun s id => match s.document.place? id with
      | some p => visit s p
      | none => s)
    s

/-- Outside all regions and not showing a setting yet. -/
def isOpen (context : Context) (p : Place) : Bool :=
  !p.isWithinAny context.regions && !Text.contains "\x7b\x7b" p.tree.plainText

/-- Open, and with a text. -/
def isOpenText (context : Context) (p : Place) : Bool :=
  p.tree.plainText != "" && isOpen context p

def push (s : Sweep) (setting : Setting) : Sweep :=
  { s with scope := s.scope.push setting }

def nextIndex (s : Sweep) (stem : String) : Nat × Sweep :=
  let (n, scope) := s.scope.nextIndex stem
  (n, { s with scope })

def edit (s : Sweep) (change : Document → Document) : Sweep :=
  { s with document := change s.document }

/-- Makes a node show a setting as its text. -/
def showText (s : Sweep) (p : Place) (setting : String) : Sweep :=
  s.edit (·.setText p.id (Liquid.reference .whole setting))

/-- Makes an attribute show a setting. -/
def showAttribute (s : Sweep) (p : Place) (name setting : String) : Sweep :=
  s.edit (·.setAttribute p.id name (Liquid.reference .whole setting))

/-- A text setting with a found text as its default. -/
def textSetting (id label found fallback : String) : Setting :=
  (Setting.make .text id label).withDefault (sanitizeDefault .text (some found) fallback)

/-- A link setting with a found address as its default. -/
def urlSetting (id label found : String) : Setting :=
  (Setting.make .url id label).withDefault (sanitizeDefault .url (some found) "")

def href (p : Place) : String :=
  (p.tree.attribute? "href").getD ""

def navContainers : Selector := .tags ["header", "nav"] ++ .classes ["navbar", "site-header"]

def navTitles : Selector :=
  .classes ["logo", "navbar-brand", "brand", "site-title"] ++ .headings

/-- Titles with an image in them stay as they are. -/
def visitNavTitle (context : Context) (s : Sweep) (p : Place) : Sweep :=
  if !isOpenText context p || p.has (.tags ["img"]) then s
  else
    let (n, s) := s.nextIndex "nav_title"
    let id := "nav_title_" ++ toString n
    (s.push (textSetting id "Navigation title" p.tree.plainText "")).showText p id

def visitNavLink (context : Context) (s : Sweep) (p : Place) : Sweep :=
  if !isOpenText context p then s
  else
    let (n, s) := s.nextIndex "nav_link"
    let label := "Navigation link " ++ toString n
    let textId := "nav_link_" ++ toString n ++ "_text"
    let urlId := "nav_link_" ++ toString n ++ "_url"
    let s := s.push (textSetting textId (label ++ " label") p.tree.plainText "")
    let s := s.push (urlSetting urlId (label ++ " URL") (href p))
    (s.showText p textId).showAttribute p "href" urlId

def navigation (context : Context) (s : Sweep) : Sweep :=
  let containers := (s.document.place? context.root).toList.flatMap fun root =>
    ((root.select navContainers).filter (!·.isWithinAny context.regions)).map (·.id)
  containers.foldl
    (fun s container =>
      let s := s.forEach (s.selected container navTitles) (visitNavTitle context)
      s.forEach (s.selected container (.tags ["a"])) (visitNavLink context))
    s

def visitHeading (context : Context) (s : Sweep) (p : Place) : Sweep :=
  if !isOpenText context p then s
  else
    let text := p.tree.plainText
    let (n, s) := s.nextIndex "heading"
    let id := "heading_" ++ toString n
    let label := "Heading " ++ toString n ++ ": " ++ Text.snippet 6 text
    (s.push (textSetting id label text "Heading")).showText p id

def headings (context : Context) (s : Sweep) : Sweep :=
  s.forEach (s.selected context.root .headings) (visitHeading context)

/-- A paragraph of some length that carries no template syntax gives way to rich text. -/
def visitParagraph (context : Context) (s : Sweep) (p : Place) : Sweep :=
  let text := p.tree.plainText
  if text.length ≤ context.options.paragraphMinChars || !isOpen context p || Liquid.hasMarks text
  then s
  else
    let (n, s) := s.nextIndex "text"
    let id := "text_" ++ toString n
    let label := "Text " ++ toString n ++ ": " ++ Text.snippet 6 text
    let s := s.push (.richText id label (Text.rich [text]))
    match s.document.retag? p.id "div" with
    | none => s
    | some (made, d) =>
      { s with document := d.appendText made.id (Liquid.reference .whole id) }

def paragraphs (context : Context) (s : Sweep) : Sweep :=
  s.forEach (s.selected context.root (.tags ["p"])) (visitParagraph context)

/-- A link that leads nowhere keeps its address. -/
def visitButton (context : Context) (s : Sweep) (p : Place) : Sweep :=
  if !isOpenText context p then s
  else
    let (n, s) := s.nextIndex "button"
    let label := "Button " ++ toString n
    let textId := "button_" ++ toString n ++ "_text"
    let s := s.push (textSetting textId (label ++ " label") p.tree.plainText "Button")
    let s := s.showText p textId
    if p.tree.isTag ["a"] && Liquid.isRealLink (href p) then
      let urlId := "button_" ++ toString n ++ "_url"
      (s.push (urlSetting urlId (label ++ " link") (href p))).showAttribute p "href" urlId
    else s

def buttons (context : Context) (s : Sweep) : Sweep :=
  s.forEach (s.selected context.root (.tags ["a", "button"])) (visitButton context)

/-- Whether an image is a logo, as its classes, its description, its source or an element around it
tell. -/
def isLogo (p : Place) : Bool :=
  let hints (name : String) := (p.tree.attribute? name).any fun value =>
    Text.contains "logo" (Text.lower value)
  p.tree.classContains "logo" || hints "alt" || hints "src"
    || p.ancestors.any fun a => a.tree.classContains "logo" || a.tree.classContains "brand"

def imageWidth : Nat := 1200

def backgroundWidth : Nat := 1920

/-- An image keeps its source for as long as no other is picked. -/
def visitImage (context : Context) (s : Sweep) (p : Place) : Sweep :=
  let src := (p.tree.attribute? "src").getD ""
  if Text.isBlank src || Liquid.hasMarks src || p.isWithinAny context.regions || isLogo p then s
  else
    let (n, s) := s.nextIndex "image"
    let id := "image_" ++ toString n
    let label := "Image " ++ toString n
    let s := s.push (.image id label)
    let source := Liquid.imageSource .whole id (Text.trim src) imageWidth
    let s := s.edit fun d => (d.setAttribute p.id "src" source).removeAttribute p.id "srcset"
    let alt := (p.tree.attribute? "alt").getD ""
    if Text.isBlank alt then s
    else
      let altId := id ++ "_alt"
      let s := s.push (textSetting altId (label ++ " alt text") alt "")
      s.edit (·.setAttribute p.id "alt" (Liquid.escapedReference .whole altId))

def images (context : Context) (s : Sweep) : Sweep :=
  s.forEach (s.selected context.root (.tags ["img"])) (visitImage context)

/-- The name of a background by its place on the page, if it has one. -/
def backgroundName? (p : Place) : Option String :=
  let classes := Text.join " " p.tree.classNames
  let hints := match p.first? (.tags ["h1", "h2"]) with
    | some heading => classes ++ " " ++ Text.lower heading.tree.plainText
    | none => classes
  if Text.containsAny ["hero", "banner"] hints || p.has (.tags ["h1"]) then
    some "hero_background_image"
  else if Text.containsAny ["shop", "collection", "product"] hints then
    some "shop_background_image"
  else none

/-- The id of a background: its name while that is free, or a number. -/
def backgroundId (s : Sweep) (p : Place) : String × Sweep :=
  match (backgroundName? p).filter (!s.scope.has ·) with
  | some name => (name, s)
  | none =>
    let (n, s) := s.nextIndex "background_image"
    ("background_image_" ++ toString n, s)

def visitBackground (context : Context) (s : Sweep) (p : Place) : Sweep :=
  let style := (p.tree.attribute? "style").getD ""
  match (Style.backgroundUrl? style).filter (!Liquid.hasMarks ·) with
  | none => s
  | some url =>
    if p.isWithinAny context.regions then s
    else
      let (id, s) := s.backgroundId p
      let s := s.push (.image id "Background image")
      let source := Liquid.imageSource .whole id url backgroundWidth
      s.edit (·.setAttribute p.id "style" (Style.replaceBackgroundUrl style source))

def backgrounds (context : Context) (s : Sweep) : Sweep :=
  s.forEach (s.selected context.root (.of [.value "style" .contains "background"]))
    (visitBackground context)

end Sweep

/-- What collecting the settings of a page comes to. The selectors of the sweeps are known to be well
formed, so no sweep is ever left out, and there is nothing to warn of. -/
structure PageSettings where
  settings : List Setting
  changes : List Change

namespace PageSettings

/-- Collects the settings of a page from a node down, beginning with given ones. -/
def extract (root : NodeId) (regions : List NodeId) (options : Options) (seed : List Setting)
    (d : Document) : Document × PageSettings :=
  let context : Sweep.Context := { root, regions, options }
  let start : Sweep := { document := d, scope := SettingScope.start.pushAll seed }
  let sweeps := [Sweep.navigation, Sweep.headings, Sweep.paragraphs, Sweep.buttons, Sweep.images,
    Sweep.backgrounds]
  let done := sweeps.foldl (fun s sweep => sweep context s) start
  let added := done.scope.settings.length - start.scope.settings.length
  (done.document,
    { settings := done.scope.settings
      changes := if added = 0 then [] else [.extractedSettings added] })

end PageSettings

end ThemeSection
