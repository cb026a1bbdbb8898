import ThemeSection.Json.Printer
import ThemeSection.Liquid.Basic
import ThemeSection.Schema.Basic

/-!
The text of a section: a comment, the prologue, the wrapped markup, and the segments for the schema,
the style sheet and the script.
-/

namespace ThemeSection.Liquid

/-- A tag without blank stripping, as segments are delimited. -/
def segmentTag (name : String) : String :=
  "\x7b% " ++ name ++ " %\x7d"

def schemaOpen : String := segmentTag "schema"

def schemaClose : String := segmentTag "endschema"

/-- What a section is assembled from. -/
structure Parts where
  slug : String
  /-- The name that the page was given. -/
  sourceName : String
  /-- The markup of the body, bound to settings. -/
  body : String
  schema : Schema
  css : String
  scripts : List String
  externalScripts : List String

def comment (slug sourceName : String) : String :=
  tag "comment" ++ "\n  Section: " ++ slug ++ "\n  Source: " ++ sourceName
    ++ "\n  Text, links and images are editable in the theme editor.\n" ++ tag "endcomment"

/-- Finds out once whether the merchant has chosen colours. -/
def prologue : String :=
  Text.join "\n"
    ["\x7b%- liquid",
      "  assign has_custom_bg = false",
      "  if section.settings.background_color != blank",
      "    assign has_custom_bg = true",
      "  endif",
      "  assign has_custom_text = false",
      "  if section.settings.text_color != blank",
      "    assign has_custom_text = true",
      "  endif",
      "-%\x7d"]

/-- The style attribute of the wrapper, present only with a chosen colour. -/
def colorStyle : String :=
  segmentTag "if has_custom_bg or has_custom_text" ++ " style=\""
    ++ segmentTag "if has_custom_bg" ++ "background-color: "
    ++ reference .whole "background_color" ++ ";" ++ segmentTag "endif"
    ++ segmentTag "if has_custom_text" ++ "color: " ++ reference .whole "text_color" ++ ";"
    ++ segmentTag "endif" ++ "\"" ++ segmentTag "endif"

def wrapper (slug body : String) : String :=
  "<div class=\"" ++ slug ++ "-section\" id=\"section-" ++ output "section.id" ++ "\""
    ++ colorStyle ++ ">\n  <div class=\"" ++ slug ++ "-section__inner\">\n" ++ Text.trim body
    ++ "\n  </div>\n</div>"

def schemaSegment (schema : Schema) : String :=
  schemaOpen ++ "\n" ++ schema.toJson.pretty ++ "\n" ++ schemaClose

def stylesheet (slug css : String) : String :=
  segmentTag "stylesheet" ++ "\n" ++ (if css.isEmpty then "" else css ++ "\n\n")
    ++ "." ++ slug ++ "-section \x7b\n\x7d\n\n." ++ slug ++ "-section__inner \x7b\n\x7d\n"
    ++ segmentTag "endstylesheet"

/-- The script that marks a section as ready once it stands on the page. -/
def readyHook (slug : String) : String :=
  let lookup := ".querySelector('." ++ slug ++ "-section')"
  "(function () \x7b
  function init(root) \x7b
    if (!root) return;
    root.classList.add('is-ready');
  \x7d
  document.addEventListener('DOMContentLoaded', function () \x7b
    init(document" ++ lookup ++ ");
  \x7d);
  document.addEventListener('shopify:section:load', function (event) \x7b
    init(event.target" ++ lookup ++ ");
  \x7d);
\x7d)();
"

/-- The scripts of the page under numbered headings, the external ones as comments, and the hook. -/
def javascript (slug : String) (scripts external : List String) : String :=
  let inline (numbered : String × Nat) : String :=
    "// Inline script " ++ toString numbered.2 ++ "\n" ++ numbered.1 ++ "\n\n"
  let listed (url : String) : String := "// " ++ url ++ "\n"
  segmentTag "javascript" ++ "\n" ++ String.join ((scripts.zipIdx 1).map inline)
    ++ (if external.isEmpty then ""
      else "// External scripts referenced by the source page "
        ++ "(load them from the theme layout):\n"
        ++ String.join (external.map listed) ++ "\n")
    ++ readyHook slug ++ segmentTag "endjavascript"

/-- The whole text of a section. -/
def assemble (parts : Parts) : String :=
  Text.join "\n\n"
    [comment parts.slug parts.sourceName, prologue, wrapper parts.slug parts.body,
      schemaSegment parts.schema, stylesheet parts.slug parts.css,
      javascript parts.slug parts.scripts parts.externalScripts] ++ "\n"

end ThemeSection.Liquid
