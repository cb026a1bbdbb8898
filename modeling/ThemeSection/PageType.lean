import ThemeSection.Json.Shape

/-! The kinds of page that a section can be made for. -/

namespace ThemeSection

inductive PageType
  | page
  | collection
  | product
  | blog
  deriving DecidableEq, Repr

namespace PageType

/-- The name of the template that shows pages of this type. -/
def template : PageType → String
  | page => "page"
  | collection => "collection"
  | product => "product"
  | blog => "blog"

/-- The products that a loop on a page of this type runs over. -/
def productSource : PageType → String
  | collection => "collection.products"
  | _ => "collections[section.settings.featured_collection].products"

def all : List PageType := [page, collection, product, blog]

def ofJson? (value : Json.Value) : Option PageType :=
  (Json.asName? value).bind fun name => all.find? (·.template == name)

end PageType

end ThemeSection
