import ThemeSection.Block.Parts
import ThemeSection.Change
import ThemeSection.Document.Edit
import ThemeSection.Fragment.Siblings
import ThemeSection.Liquid.Basic
import ThemeSection.Options
import ThemeSection.PageType
import ThemeSection.Schema.Setting

/-!
Featured products: the first group of siblings that look like products is replaced by a loop over
the products of the shop. One card is kept and shows the product of the loop.
-/

namespace ThemeSection

open Markup

/-- What replacing products comes to. -/
structure FeaturedPass where
  /-- The card that was kept, inside its loop. -/
  region : Option NodeId := none
  settings : List Setting := []
  changes : List Change := []

namespace FeaturedPass

def minProducts : Nat := 2

def maxProducts : Nat := 12

/-- The distance from one to the next floating-point number. -/
def roundingSlack : Float := 2.220446049250313e-16

/-- Whether a fragment looks like a product, up to an error of rounding. -/
def isProduct (minConfidence : Float) (p : Place) : Bool :=
  (Fragment.productSignals p).confidence + roundingSlack ≥ minConfidence

/-- The first siblings that look alike of which at least two look like products. -/
def products? (root : Place) (minConfidence : Float) : Option (List Place) :=
  ((Fragment.siblingGroups root).map (·.filter (isProduct minConfidence))).find?
    (minProducts ≤ ·.length)

/-- Makes the image of a card show that of the product. -/
def bindImage (d : Document) (image : NodeId) : Document :=
  let source := Liquid.output "product.featured_image | image_url: width: 600"
  let d := d.setAttribute image "src" source
  let d := d.setAttribute image "alt" (Liquid.output "product.featured_image.alt | escape")
  d.removeAttributes image ["srcset", "data-src", "data-srcset", "sizes"]

/-- Makes the first paragraph of a card tell about the product; the others are taken out. -/
def bindDescription (d : Document) : List Place → Document
  | [] => d
  | first :: rest =>
    let description := Liquid.output "product.description | strip_html | truncate: 120"
    (d.setText first.id description).detachAll (rest.map (·.id))

/-- Makes a card show the product of the loop. -/
def bindProduct (d : Document) (card : Place) : Document :=
  let parts := BlockParts.locate card
  let d := match parts.heading with
    | some p => d.setText p.id (Liquid.output "product.title")
    | none => d
  let d := match parts.price with
    | some p => d.setText p.id (Liquid.output "product.price | money")
    | none => d
  let d := match parts.image with
    | some p => bindImage d p.id
    | none => d
  let d := bindDescription d parts.description
  let anchors := (d.place? card.id).toList.flatMap (·.select (.tags ["a"]))
  anchors.foldl (fun d a => d.setAttribute a.id "href" (Liquid.output "product.url")) d

def countSetting : String := "featured_products_count"

def collectionSetting : String := "featured_collection"

/-- The start of the loop over the products that a page of this type shows. -/
def loopOpen (pageType : PageType) : String :=
  Liquid.tag ("for product in " ++ pageType.productSource ++ " limit: "
    ++ Liquid.settingPath .whole countSetting)

/-- The settings of the loop; a page of a collection needs none to name the collection. -/
def settingsFor (pageType : PageType) (count : Nat) : List Setting :=
  (if pageType == .collection then []
    else [.make .collection collectionSetting "Featured collection"])
  ++ [.range countSetting "Products to show" (.ofNat minProducts) (.ofNat maxProducts) (.ofNat 1)
    (.ofNat (max minProducts (min maxProducts count)))]

/-- Replaces the first group of products from a node down, if there is one. -/
def replace (root : Place) (pageType : PageType) (options : Options) (d : Document) :
    Document × FeaturedPass :=
  match products? root options.featuredMinConfidence with
  | none | some [] => (d, {})
  | some (kept :: others) =>
    let d := (bindProduct d kept).detachAll (others.map (·.id))
    (d.wrap kept.id (loopOpen pageType) Liquid.endFor,
      { region := some kept.id
        settings := settingsFor pageType (others.length + 1)
        changes := [.replacedProducts (others.length + 1)] })

end FeaturedPass

end ThemeSection
