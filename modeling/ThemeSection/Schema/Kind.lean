import ThemeSection.Json.Shape

/-! The kinds of setting that a merchant can edit. -/

namespace ThemeSection

inductive SettingKind
  | text
  | textarea
  | richText
  | url
  | number
  | range
  | checkbox
  | color
  | imagePicker
  | collection
  deriving DecidableEq, Repr

namespace SettingKind

/-- The name in a schema. -/
def name : SettingKind → String
  | text => "text"
  | textarea => "textarea"
  | richText => "richtext"
  | url => "url"
  | number => "number"
  | range => "range"
  | checkbox => "checkbox"
  | color => "color"
  | imagePicker => "image_picker"
  | collection => "collection"

def all : List SettingKind :=
  [text, textarea, richText, url, number, range, checkbox, color, imagePicker, collection]

def ofName? (name : String) : Option SettingKind :=
  all.find? (·.name == name)

@[simp] theorem ofName?_name (kind : SettingKind) : ofName? kind.name = some kind := by
  cases kind <;> decide

def ofJson? (value : Json.Value) : Option SettingKind :=
  (Json.asName? value).bind ofName?

end SettingKind

end ThemeSection
