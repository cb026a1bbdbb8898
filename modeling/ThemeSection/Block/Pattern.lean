import ThemeSection.Fragment.Signal
import ThemeSection.Options
import ThemeSection.Text.Label
import ThemeSection.Text.Slug

/-!
Patterns of blocks: which elements of a page make blocks of a type, and what such a block is. The
catalog holds the types that are known in advance.
-/

namespace ThemeSection

open Markup

/-- What a block is, which decides the settings it gets. -/
inductive BlockRole
  | generic
  | header
  | footerColumn
  | teamMember
  | beforeAfter
  deriving DecidableEq, Repr

/-- What an element needs besides being selected. -/
inductive Requirement
  | links
  | twoImages
  | blockShape
  deriving DecidableEq, Repr

def Requirement.holds (p : Place) : Requirement → Bool
  | links => p.has (.tags ["a"])
  | twoImages => 2 ≤ (p.select (.tags ["img"])).length
  | blockShape => Fragment.blockShape ≤ Fragment.shapeScore p

structure BlockPattern where
  type : String
  name : String
  selector : String
  /-- Fewer elements than this make no block. -/
  min : Nat
  /-- No more elements than this become blocks. -/
  max : Nat
  role : BlockRole := .generic
  requirement : Option Requirement := none
  deriving DecidableEq, Repr

namespace BlockPattern

def accepts (pattern : BlockPattern) (p : Place) : Bool :=
  pattern.requirement.all (·.holds p)

/-- The types known in advance; an element belongs to the first that takes it. -/
def catalog : List BlockPattern :=
  [{ type := "header", name := "Header", selector := "header, .site-header, .navbar"
     min := 1, max := 1, role := .header, requirement := some .links },
   { type := "testimonial", name := "Testimonial"
     selector := ".testimonial, .testimonial-card, .review, .review-card", min := 2, max := 6 },
   { type := "feature", name := "Feature"
     selector := ".feature, .feature-card, .feature-item, .service-card", min := 2, max := 12 },
   { type := "product_card", name := "Product card", selector := ".product-card, .product-item"
     min := 2, max := 12 },
   { type := "pricing_plan", name := "Pricing plan"
     selector := ".pricing-card, .pricing-plan, .price-card", min := 2, max := 4 },
   { type := "team_member", name := "Team member"
     selector := ".team-member, .team-card, .member-card", min := 2, max := 8
     role := .teamMember },
   { type := "faq_item", name := "FAQ item", selector := ".faq-item, .accordion-item"
     min := 2, max := 20 },
   { type := "stat", name := "Statistic", selector := ".stat, .stat-item, .counter-item"
     min := 2, max := 6 },
   { type := "comparison", name := "Before / after"
     selector := ".before-after, .comparison-slider", min := 2, max := 4
     role := .beforeAfter, requirement := some .twoImages },
   { type := "blog_post", name := "Blog post"
     selector := ".blog-post, .post-card, .article-card", min := 2, max := 6 },
   { type := "gallery_item", name := "Gallery item", selector := ".gallery-item"
     min := 2, max := 12 },
   { type := "footer_column", name := "Footer column"
     selector := ".footer-column, .footer-col, .footer-links", min := 1, max := 6
     role := .footerColumn, requirement := some .links },
   { type := "card", name := "Card", selector := ".card", min := 2, max := 12 }]

def find? (type : String) : Option BlockPattern :=
  catalog.find? (·.type == type)

/-- Slides of a show, which need the shape of a block. -/
def slide : BlockPattern :=
  { type := "slide", name := "Slide", selector := ".slide, .swiper-slide, .carousel-item"
    min := 2, max := 12, requirement := some .blockShape }

/-- A pattern that somebody asks for; it takes at least one element. -/
def ofCustom (custom : CustomPattern) : BlockPattern :=
  let type := Text.key custom.type
  { type
    name := custom.name.getD (Text.titleCase type)
    selector := custom.selector
    min := Nat.max 1 custom.minInstances
    max := Nat.max 1 custom.maxInstances }

/-- The pattern of siblings that look alike, named after the first class of the first of them. -/
def ofGroup (members : List Place) : BlockPattern :=
  let keys := members.head?.toList.flatMap fun p => p.tree.classNames.take 1
  let type := match (keys.map Text.key).filter (!·.isEmpty) with
    | [] => "content_item"
    | key :: _ => key
  { type, name := Text.titleCase type, selector := "", min := 2, max := 12 }

end BlockPattern

end ThemeSection
