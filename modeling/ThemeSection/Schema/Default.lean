import ThemeSection.Decimal.Read
import ThemeSection.Liquid.Basic
import ThemeSection.Schema.Kind
import ThemeSection.Text.Basic

/-!
Defaults of settings, made from text found on a page. A default never carries template syntax out of
the page: such text counts as missing, and the fallback stands in for it.
-/

namespace ThemeSection

/-- A rating from one to five with one decimal place; five where there is no finite number. -/
def clampRating (rating : Float) : Float :=
  if rating.isNaN || rating.isInf then 5.0
  else
    let tenths := (rating * 10.0).round.toUInt8.toNat
    Float.ofNat (max 10 (min 50 tenths)) / 10.0

/-- The default of a setting, from the text found for it and a fallback. -/
def sanitizeDefault (kind : SettingKind) (found : Option String) (fallback : String) :
    Json.Value :=
  let trimmed := Text.trim (found.getD "")
  let text := if Liquid.hasMarks trimmed then "" else trimmed
  match kind with
  | .url =>
    let leadsNowhere := text.isEmpty || text == "#" || Text.startsWith "javascript:" text
    .string (if leadsNowhere then "/" else text)
  | .richText => .string (if text.isEmpty then Text.rich [fallback] else text)
  | .range | .number => .number (.float (clampRating ((Decimal.read? text).getD 5.0)))
  | .checkbox => .bool (Text.lowerAscii text == "true")
  | _ =>
    let squeezed := Text.squeeze text
    .string (if squeezed.isEmpty then fallback else squeezed)

/-- The default of a text setting. -/
def defaultText (found : Option String) (fallback : String) : String :=
  match sanitizeDefault .text found fallback with
  | .string text => text
  | _ => fallback

/-- The default of a rich text setting. -/
def defaultRichText (found : Option String) (fallback : String) : String :=
  match sanitizeDefault .richText found fallback with
  | .string text => text
  | _ => Text.rich [fallback]

/-- The default of a link setting. -/
def defaultUrl (found : Option String) : String :=
  match sanitizeDefault .url found "" with
  | .string url => url
  | _ => "/"

end ThemeSection
