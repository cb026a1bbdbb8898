import ThemeSection.Fragment.Nesting
import ThemeSection.Fragment.Signal
import ThemeSection.PageType
import ThemeSection.Text.Slug

/-!
The type of a page. A hint in its name decides; else what stands on it: several product cards make a
collection, the parts of a product page a product, several articles a blog.
-/

namespace ThemeSection.PageType

open Markup

/-- Words in a name and the type they hint at; the first that occurs counts. -/
def hints : List (PageType × List String) :=
  [(.collection, ["shop", "collection", "products", "catalog"]), (.product, ["product", "item"]),
    (.blog, ["blog", "news", "articles"])]

def hinted? (name : String) : Option PageType :=
  let slug := Text.slug name
  (hints.find? fun (_, words) => Text.containsAny words slug).map (·.1)

/-- The innermost elements from a node down that pass a test. -/
def innermostElements (test : Place → Bool) (root : Place) : List Place :=
  Fragment.innermost ((root.select .everything).filter test)

def isProductCard (p : Place) : Bool :=
  3 ≤ (Fragment.productSignals p).score

def isArticle (p : Place) : Bool :=
  2 ≤ Fragment.articleScore p

def purchaseLabels : List String := ["add to cart", "add to bag", "buy now"]

def pressables : Selector :=
  .tags ["a", "button"] ++ .of [.tag "input", .value "type" .equals "submit"]

def hasPurchase (root : Place) : Bool :=
  ((root.select pressables).any fun p =>
    Text.containsAny purchaseLabels
      (Text.lower (p.tree.plainText ++ " " ++ (p.tree.attribute? "value").getD "")))
    || root.has (.of [.tag "form", .value "action" .contains "cart"])

def galleries : Selector :=
  .classes ["product-gallery", "product-images", "product-image"]
    ++ .below [.classContains "product"] [.tag "img"]

def choices : Selector :=
  .of [.tag "input", .value "name" .equals "quantity"] ++ .classes ["quantity"] ++ .tags ["select"]
    ++ .classes ["variant"] ++ .of [.classContains "variant"]

def details : Selector :=
  .classes ["product-title", "product-description", "product-details", "product-info"]
    ++ .of [.value "itemtype" .contains "Product"]

def productPageScore (root : Place) : Nat :=
  Fragment.score [Fragment.hasPrice root, hasPurchase root, root.has galleries, root.has choices,
    root.has details]

/-- The type of a page with a given name and body. -/
def classify (name : String) (root : Place) : PageType :=
  match hinted? name with
  | some type => type
  | none =>
    if 3 ≤ (innermostElements isProductCard root).length then collection
    else if 3 ≤ productPageScore root then product
    else if 2 ≤ (innermostElements isArticle root).length then blog
    else page

end ThemeSection.PageType
