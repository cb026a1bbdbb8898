import ThemeSection.Json.Shape

/-!
Options of a conversion. They are read from an object whose fields may all be missing, or from an
array of the same fields in order.
-/

namespace ThemeSection

/-- A block type that somebody asks for, with the elements that make its blocks. -/
structure CustomPattern where
  type : String
  name : Option String := none
  selector : String
  maxInstances : Nat := 12
  minInstances : Nat := 2
  deriving DecidableEq, Repr

namespace CustomPattern

def fieldNames : List String :=
  ["type", "name", "selector", "max_instances", "min_instances"]

def ofJson? (value : Json.Value) : Option CustomPattern := do
  match ← Json.members? fieldNames value with
  | [type, name, selector, max, min] =>
    return {
      type := ← Json.required (·.str?) type
      name := ← Json.nullable (·.str?) name
      selector := ← Json.required (·.str?) selector
      maxInstances := ← Json.withDefault 12 Json.asCount? max
      minInstances := ← Json.withDefault 2 Json.asCount? min }
  | _ => none

def toJson (custom : CustomPattern) : Json.Value :=
  .object
    [("type", .string custom.type), ("name", .ofOption custom.name),
      ("selector", .string custom.selector), ("max_instances", .ofNat custom.maxInstances),
      ("min_instances", .ofNat custom.minInstances)]

end CustomPattern

structure Options where
  /-- Paragraphs of more characters than this become settings of the page. -/
  paragraphMinChars : Nat := 10
  /-- Whether product cards become a loop over products. -/
  featuredProducts : Bool := false
  /-- How sure a card has to look like a product. -/
  featuredMinConfidence : Float := 0.6
  /-- Whether siblings that look alike become blocks. -/
  structuralGroups : Bool := true
  /-- Block types to add if the page has none of them. -/
  injectBlocks : List String := []
  customPatterns : List CustomPattern := []
  deriving Repr

namespace Options

def fieldNames : List String :=
  ["paragraph_min_chars", "featured_products", "featured_min_confidence", "structural_groups",
    "inject_blocks", "custom_patterns"]

def ofJson? (value : Json.Value) : Option Options := do
  match ← Json.members? fieldNames value with
  | [minChars, featured, confidence, groups, inject, custom] =>
    return {
      paragraphMinChars := ← Json.withDefault 10 Json.asCount? minChars
      featuredProducts := ← Json.withDefault false Json.asBool? featured
      featuredMinConfidence := ← Json.withDefault 0.6 Json.asFloat? confidence
      structuralGroups := ← Json.withDefault true Json.asBool? groups
      injectBlocks := ← Json.withDefault [] (Json.asList? (·.str?)) inject
      customPatterns := ← Json.withDefault [] (Json.asList? CustomPattern.ofJson?) custom }
  | _ => none

def toJson (options : Options) : Json.Value :=
  .object
    [("paragraph_min_chars", .ofNat options.paragraphMinChars),
      ("featured_products", .bool options.featuredProducts),
      ("featured_min_confidence", .number (.float options.featuredMinConfidence)),
      ("structural_groups", .bool options.structuralGroups),
      ("inject_blocks", .ofStrings options.injectBlocks),
      ("custom_patterns", .array (options.customPatterns.map CustomPattern.toJson))]

end Options

end ThemeSection
